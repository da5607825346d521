import TypeModel.Proofs.Proto.Nesting

/-!
# When the enumerators of a scope clash

The values of an enum belong to the scope around it.  Each is written behind the name of its enum
in constant case, its lead; a name that starts with the lead already gets no second one.

* `lead e`, `short e x`       the lead of an enumeration, and an enumerator without it;
* `shortNames m id e`         what follows the lead in the names written for an enumeration;
* `Apart m a b`               the lead of `b` does not continue that of `a` in such a way that one
                              name is written for both;
* `enumerators_nodup_iff`     the names in a scope are different if and only if the short names of
                              each enumeration are and any two enumerations are apart;
* `not_nodup_repeated`        an enumerator is repeated in an enumeration that extends its own.
-/

namespace TypeModel

namespace Proto

/-! ## one enumeration -/

def lead (enumeration : Name) : List Char := (enumPrefixOf enumeration).toList ++ ['_']

def short (enumeration enumerator : Name) : List Char :=
  if continues (enumPrefixOf enumeration).toList enumerator.toList then
    enumerator.toList.drop (lead enumeration).length
  else enumerator.toList

theorem toList_enumeratorName (e x : Name) : (enumeratorName e x).toList = lead e ++ short e x := by
  unfold enumeratorName short
  dsimp only
  by_cases h : continues (enumPrefixOf e).toList x.toList = true
  · rw [if_pos h, if_pos h]
    obtain ⟨rest, hrest⟩ := List.isPrefixOf_iff_prefix.mp h
    rw [← hrest]
    exact congrArg (lead e ++ ·) (List.drop_left).symm
  · rw [if_neg h, if_neg h, String.toList_append, String.toList_append]
    rfl

theorem toList_unspecifiedName (e : Name) :
    (unspecifiedName e).toList = lead e ++ "UNSPECIFIED".toList := by
  unfold unspecifiedName lead
  rw [String.toList_append, List.append_assoc]
  rfl

def shortNames (m : Model) (id : TypeId) (x : EnumerationType) : List (List Char) :=
  let values := m.foldedEnumerators id x
  (if values.any (·.2 = 0) then [] else ["UNSPECIFIED".toList]) ++
    values.map fun v => short x.name v.1

/-- the names that are written for an enumeration -/
def enumNames (m : Model) (id : TypeId) (x : EnumerationType) : List String :=
  (enumValues m id x).map Prod.fst

theorem enumNames_perm (m : Model) (id : TypeId) (x : EnumerationType) :
    ((enumNames m id x).map String.toList).Perm
      ((shortNames m id x).map (lead x.name ++ ·)) := by
  have hwritten : ((written x (m.foldedEnumerators id x)).map Prod.fst).map String.toList =
      ((m.foldedEnumerators id x).map fun v => short x.name v.1).map (lead x.name ++ ·) := by
    rw [written, List.map_map, List.map_map, List.map_map]
    refine List.map_congr_left fun v _ => ?_
    simp only [Function.comp_apply]
    exact toList_enumeratorName x.name v.1
  show (((zeroFirst _ (written x (m.foldedEnumerators id x))).map _).map _).Perm _
  unfold shortNames
  dsimp only
  rw [List.map_append, ← hwritten]
  by_cases h : (m.foldedEnumerators id x).any (·.2 = 0) = true
  · rw [if_pos h]
    have hzero : ∃ v ∈ written x (m.foldedEnumerators id x), v.2 = 0 := by
      obtain ⟨v, hv, hv0⟩ := List.any_eq_true.mp h
      exact ⟨_, List.mem_map_of_mem hv, of_decide_eq_true hv0⟩
    exact ((zeroFirst_perm _ hzero).map _).map _
  · rw [if_neg h]
    have hne : ∀ v ∈ written x (m.foldedEnumerators id x), v.2 ≠ 0 := by
      refine written_ne_zero.mpr fun v hv hv0 => h ?_
      exact List.any_eq_true.mpr ⟨v, hv, decide_eq_true hv0⟩
    rw [zeroFirst_of_ne_zero hne, List.map_cons, List.map_cons, List.map_singleton,
      List.singleton_append, toList_unspecifiedName]

theorem toList_injective : Function.Injective String.toList := fun _ _ => String.toList_injective

theorem mem_enumNames {m : Model} {id : TypeId} {x : EnumerationType} {n : String} :
    n ∈ enumNames m id x ↔ ∃ s ∈ shortNames m id x, n.toList = lead x.name ++ s := by
  rw [← List.mem_map_of_injective toList_injective, (enumNames_perm m id x).mem_iff,
    List.mem_map]
  simp only [eq_comm]

theorem nodup_enumNames (m : Model) (id : TypeId) (x : EnumerationType) :
    (enumNames m id x).Nodup ↔ (shortNames m id x).Nodup := by
  rw [← List.nodup_map_iff toList_injective, (enumNames_perm m id x).nodup_iff,
    List.nodup_map_iff (List.append_right_injective (lead x.name))]

/-! ## two enumerations -/

def Apart (m : Model) (a b : TypeId × EnumerationType) : Prop :=
  ∀ rest, lead b.2.name = lead a.2.name ++ rest →
    ∀ s ∈ shortNames m b.1 b.2, rest ++ s ∉ shortNames m a.1 a.2

theorem apart_of_disjoint {m : Model} {a b : TypeId × EnumerationType}
    (h : List.Disjoint (enumNames m a.1 a.2) (enumNames m b.1 b.2)) : Apart m a b := by
  intro rest hlead s hs hmem
  have hsame : lead b.2.name ++ s = lead a.2.name ++ (rest ++ s) := by
    rw [hlead, List.append_assoc]
  have ha : String.ofList (lead b.2.name ++ s) ∈ enumNames m a.1 a.2 :=
    mem_enumNames.mpr ⟨rest ++ s, hmem, by rw [String.toList_ofList, hsame]⟩
  have hb : String.ofList (lead b.2.name ++ s) ∈ enumNames m b.1 b.2 :=
    mem_enumNames.mpr ⟨s, hs, String.toList_ofList⟩
  exact h ha hb

theorem disjoint_enumNames {m : Model} {a b : TypeId × EnumerationType} :
    List.Disjoint (enumNames m a.1 a.2) (enumNames m b.1 b.2) ↔ Apart m a b ∧ Apart m b a := by
  constructor
  · exact fun h => ⟨apart_of_disjoint h, apart_of_disjoint fun _ hb ha => h ha hb⟩
  · rintro ⟨hab, hba⟩ n hna hnb
    obtain ⟨s, hs, hns⟩ := mem_enumNames.mp hna
    obtain ⟨t, ht, hnt⟩ := mem_enumNames.mp hnb
    -- of two leads of one name, one continues the other
    rcases List.append_eq_append_iff.mp (hns.symm.trans hnt) with
      ⟨rest, hlead, rfl⟩ | ⟨rest, hlead, rfl⟩
    · exact hab rest hlead t ht hs
    · exact hba rest hlead s hs ht

theorem nodup_flatMap_enumNames (m : Model) (xs : List (TypeId × EnumerationType)) :
    (xs.flatMap fun x => enumNames m x.1 x.2).Nodup ↔
      (∀ x ∈ xs, (shortNames m x.1 x.2).Nodup) ∧
        xs.Pairwise fun a b => Apart m a b ∧ Apart m b a := by
  rw [List.nodup_flatMap]
  refine and_congr (forall₂_congr fun x _ => nodup_enumNames m x.1 x.2) ?_
  exact List.Pairwise.iff fun _ _ => disjoint_enumNames

/-! ## a scope -/

/-- the values of an enum -/
def Declaration.values? : Declaration → Option (List (String × Int64))
  | .message _ _ _ _ => none
  | .enumeration _ _ values => some values

/-- the names of the enumerators of all enums directly inside a place -/
def Schema.enumeratorsIn (s : Schema) (p : List Nat) : List String :=
  ((scopeAt s.roots p).filterMap Declaration.values?).flatMap (·.map Prod.fst)

/-- the declaration of an enumeration of the model at some depth, with the handle that it is
written at -/
def EnumerationOf (m : Model) (x : TypeId × EnumerationType) : Prop :=
  ∃ e ∈ m.declaredTypes, ∃ path, e.type.at? path = some (.enumeration x.2) ∧
    x.1 = e.id.descend path

theorem Origin.values? {m : Model} {d : Declaration} (h : Origin m d)
    {values : List (String × Int64)} (hd : d.values? = some values) :
    ∃ x, EnumerationOf m x ∧ values = enumValues m x.1 x.2 := by
  obtain ⟨e, he, path, t, ht, hdeclare⟩ := h
  cases t with
  | struct s inner =>
    rw [declare] at hdeclare
    obtain ⟨nested, _, hdeclare⟩ := bind_eq_ok.mp hdeclare
    obtain ⟨fields, _, hdeclare⟩ := bind_eq_ok.mp hdeclare
    cases hdeclare
    cases hd
  | enumeration x =>
    rw [declare] at hdeclare
    cases hdeclare
    obtain rfl := Option.some.inj hd
    exact ⟨(e.id.descend path, x), ⟨e, he, path, ht, rfl⟩, rfl⟩
  | array a => rw [declare] at hdeclare; cases hdeclare
  | «alias» a => rw [declare] at hdeclare; cases hdeclare

theorem exists_enumerations {m : Model} : ∀ {vss : List (List (String × Int64))},
    (∀ vs ∈ vss, ∃ x, EnumerationOf m x ∧ vs = enumValues m x.1 x.2) →
      ∃ xs : List (TypeId × EnumerationType), (∀ x ∈ xs, EnumerationOf m x) ∧
        vss = xs.map fun x => enumValues m x.1 x.2 := by
  intro vss
  induction vss with
  | nil => exact fun _ => ⟨[], fun _ h => absurd h List.not_mem_nil, rfl⟩
  | cons vs vss ih =>
    intro h
    obtain ⟨x, hx, rfl⟩ := h vs List.mem_cons_self
    obtain ⟨xs, hxs, rfl⟩ := ih fun vs hvs => h vs (List.mem_cons_of_mem _ hvs)
    exact ⟨x :: xs, List.forall_mem_cons.mpr ⟨hx, hxs⟩, rfl⟩

/-- the enums of a scope are those of enumerations `xs` of the model, and their names are
different if and only if no lead and short name come together twice -/
theorem enumerators_nodup_iff (m : Model) (c : ProtoConfig) {schema : Schema}
    (h : Schema.ofModel m c = .ok schema) (p : List Nat) :
    ∃ xs : List (TypeId × EnumerationType), (∀ x ∈ xs, EnumerationOf m x) ∧
      (scopeAt schema.roots p).filterMap Declaration.values? =
        (xs.map fun x => enumValues m x.1 x.2) ∧
      ((schema.enumeratorsIn p).Nodup ↔ (∀ x ∈ xs, (shortNames m x.1 x.2).Nodup) ∧
        xs.Pairwise fun a b => Apart m a b ∧ Apart m b a) := by
  have hfrom : ∀ vs ∈ (scopeAt schema.roots p).filterMap Declaration.values?,
      ∃ x, EnumerationOf m x ∧ vs = enumValues m x.1 x.2 := by
    intro vs hvs
    obtain ⟨d, hd, hvalues⟩ := List.mem_filterMap.mp hvs
    rcases origin_of_mem_scopeAt h hd with horigin | ⟨w, rfl⟩
    · exact horigin.values? hvalues
    · cases hvalues
  obtain ⟨xs, hxs, heq⟩ := exists_enumerations hfrom
  refine ⟨xs, hxs, heq, ?_⟩
  rw [← nodup_flatMap_enumNames, Schema.enumeratorsIn, heq, List.flatMap_map]
  rfl

/-- `Derived` extends `Base` and repeats one of its enumerators -/
def repeated : Model :=
  { types :=
      [.enumeration { name := "Base", enumerators := [{ name := "NONE" }] },
        .enumeration
          { name := "Derived", base := some { name := "Base" },
            enumerators := [{ name := "NONE" }, { name := "EXTRA" }] }] }

def repeatedSchema : Schema :=
  { package := none
    declarations :=
      [.enumeration "Base" [] [("BASE_NONE", 0)],
        .enumeration "Derived" []
          [("DERIVED_NONE", 0), ("DERIVED_NONE", 1), ("DERIVED_EXTRA", 2)]]
    wrappers := [] }

theorem ofModel_repeated : Schema.ofModel repeated.analyze.1 {} = .ok repeatedSchema := rfl

theorem enumerators_nodup_iff_repeated :
    Schema.ofModel repeated.analyze.1 {} = .ok repeatedSchema ∧
      ∃ xs : List (TypeId × EnumerationType), (∀ x ∈ xs, EnumerationOf repeated.analyze.1 x) ∧
        xs.length = 2 ∧ ¬ ((∀ x ∈ xs, (shortNames repeated.analyze.1 x.1 x.2).Nodup) ∧
          xs.Pairwise fun a b => Apart repeated.analyze.1 a b ∧ Apart repeated.analyze.1 b a) := by
  refine ⟨ofModel_repeated, ?_⟩
  obtain ⟨xs, hxs, heq, hiff⟩ :=
    enumerators_nodup_iff repeated.analyze.1 {} ofModel_repeated []
  have hlen := congrArg List.length heq
  rw [List.length_map] at hlen
  exact ⟨xs, hxs, hlen.symm, mt hiff.mpr (by decide)⟩

/-- the file has the enumerator `DERIVED_NONE` twice -/
theorem not_nodup_repeated :
    repeated.analyze.2 = .ok [] ∧
      Schema.ofModel repeated.analyze.1 {} = .ok repeatedSchema ∧
      ¬ (repeatedSchema.enumeratorsIn []).Nodup :=
  ⟨by decide +kernel, ofModel_repeated, by decide⟩

end Proto

end TypeModel
