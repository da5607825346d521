import TypeModel.Proofs.Analysis.WellFormed
import TypeModel.Proofs.Model.Sites
import TypeModel.Proofs.Resolution.Qualified

/-!
# What resolution reports

Every reference is looked up once, and what the look-up finds decides both what the reference is
bound to and what is said about it.

* `Entry.place e role`           where a reference of the entry `e` is reported;
* `Model.Ambiguous m e s`        the name at the site `s` of `e` has several meanings of one rank;
* `Model.errorCode m s`          the code of the error where the name at `s` has none;
* `Model.Told m e s ds`          `ds` is what is to be said about the site `s` of `e`;
* `explains_resolve`, `explains_resolveBase`
                                 the two look-ups, each with its binding and its issue;
* `diagnostics_match_bindings`   the diagnostics are made of what is told about each site.
-/

namespace TypeModel

/-! ## places -/

/-- name and line of the member that has a reference of the given role; constructors bear the name
of the struct -/
def StructType.member? (s : StructType) : Role → Option (Name × Option Nat)
  | .field i | .fieldKey i => (s.fields[i]?).map fun f => (f.name, f.line)
  | .returns i | .methodParameter i _ => (s.methods[i]?).map fun f => (f.name, f.line)
  | .constructorParameter i _ => (s.constructors[i]?).map fun c => (s.name, c.line)
  | .base | .element | .actual => none

theorem StructType.member?_of_mem_sites {s : StructType} {x : Site} (hx : x ∈ s.sites) :
    x.member = s.member? x.role := by
  rcases StructType.mem_sites.mp hx with ⟨base, _, rfl⟩ | ⟨i, f, hf, hx⟩ | ⟨i, f, hf, hx⟩ |
    ⟨i, c, hc, hx⟩
  · rfl
  · have hget := (congrArg (Option.map fun f : Field => (f.name, f.line)) hf).symm
    rcases Field.mem_sites.mp hx with rfl | ⟨_, _, rfl⟩
    · exact hget
    · exact hget
  · have hget := (congrArg (Option.map fun f : Method => (f.name, f.line)) hf).symm
    rcases Method.mem_sites.mp hx with ⟨_, _, rfl⟩ | ⟨_, _, _, rfl⟩
    · exact hget
    · exact hget
  · obtain ⟨_, _, _, rfl⟩ := Constructor.mem_sites.mp hx
    exact (congrArg (Option.map fun c : Constructor => (s.name, c.line)) hc).symm

namespace Entry

/-- the qualified name of the entry, behind it that of the member, and the line of the innermost -/
def place (e : Entry) (role : Role) : Location :=
  match e.type.struct?.bind (·.member? role) with
  | some (name, line) => { path := e.qualifiedName ++ "." ++ name, line }
  | none => { path := e.qualifiedName, line := e.type.line }

theorem member_of_mem_sites {e : Entry} {s : Site} (hs : s ∈ e.sites) :
    s.member = e.type.struct?.bind (·.member? s.role) := by
  unfold sites at hs
  cases ht : e.type with
  | struct t inner =>
    rw [ht] at hs
    exact StructType.member?_of_mem_sites hs
  | enumeration x =>
    rw [ht] at hs
    obtain ⟨_, _, rfl⟩ := mem_toList_map.mp hs
    rfl
  | array a =>
    rw [ht] at hs
    obtain ⟨_, _, rfl⟩ := mem_toList_map.mp hs
    rfl
  | «alias» a =>
    rw [ht] at hs
    obtain ⟨_, _, rfl⟩ := mem_toList_map.mp hs
    rfl

theorem location_of_mem_sites {e : Entry} {s : Site} (hs : s ∈ e.sites) :
    s.location e = e.place s.role := by
  unfold Site.location place
  rw [member_of_mem_sites hs]
  cases e.type.struct?.bind (·.member? s.role) <;> rfl

end Entry

/-! ## what is to be said about a site -/

namespace Model

instance (m : Model) (n : Name) : Decidable (m.Declares n) :=
  inferInstanceAs (Decidable ((∃ x ∈ m.basicTypes, x.2.name = n) ∨ ∃ e ∈ m.allTypes, e.Carries n))

/-- neither a primitive nor a top-level type has the name, and several other types carry it -/
structure AmbiguousName (m : Model) (n : Name) : Prop where
  noPrimitive : ∀ x ∈ m.basicTypes, x.2.name ≠ n
  noTopLevel : ∀ e ∈ m.topLevelTypes, e.name ≠ n
  several : 2 ≤ (m.carrying n).length

/-- the candidates for a base that have the right kind and are not the declaration itself -/
def validBases (m : Model) (n : Name) (kind : TypeKind) (referrer : TypeId) : List Entry :=
  (m.baseCandidates n).filter fun e => e.type.kind = kind ∧ e.id ≠ referrer

/-- several candidates are valid, and none of these is at top level -/
structure AmbiguousBase (m : Model) (n : Name) (kind : TypeKind) (referrer : TypeId) : Prop where
  several : 2 ≤ (m.validBases n kind referrer).length
  noTopLevel : ∀ e ∈ m.validBases n kind referrer, e.id.isGlobal = false

def Ambiguous (m : Model) (e : Entry) (s : Site) : Prop :=
  if s.role = .base then m.AmbiguousBase s.ref.name e.type.kind e.id
  else m.AmbiguousName s.ref.name

/-- a base whose name is known is no base of the right kind, any other name is unknown -/
def errorCode (m : Model) (s : Site) : Code :=
  if s.role = .base ∧ m.Declares s.ref.name then .invalidBase else .undefinedType

/-- one error where the reference is left unresolved, one warning where it is ambiguous, and nothing
elsewhere -/
structure Told (m : Model) (e : Entry) (s : Site) (ds : Diagnostics) : Prop where
  unresolved : s.ref.binding = .unresolved → ∃ d, ds = [d] ∧
    d.severity = .error ∧ d.code = some (m.errorCode s) ∧ d.location = some (e.place s.role)
  ambiguous : m.Ambiguous e s → ∃ d, ds = [d] ∧
    d.severity = .warning ∧ d.code = some .ambiguousType ∧ d.location = some (e.place s.role)
  otherwise : s.ref.binding ≠ .unresolved → ¬ m.Ambiguous e s → ds = []

end Model

/-! ## look-ups -/

/-- binding and issue of a look-up that is ambiguous where `P` holds and reports `code` where it
finds nothing -/
structure Explains (code : Code) (P : Prop) (x : Binding × Option Issue) : Prop where
  unresolved : x.1 = .unresolved → ∃ i, x.2 = some i ∧ i.code = code
  ambiguous : P → ∃ i, x.2 = some i ∧ i.code = .ambiguousType
  otherwise : x.1 ≠ .unresolved → ¬ P → x.2 = none

namespace Explains
variable {code : Code} {P : Prop} {b : Binding} {i : Issue}

theorem silent (hb : b ≠ .unresolved) (hP : ¬ P) : Explains code P (b, none) :=
  ⟨fun h => absurd h hb, fun h => absurd h hP, fun _ _ => rfl⟩

theorem missing (hi : i.code = code) (hP : ¬ P) : Explains code P (.unresolved, some i) :=
  ⟨fun _ => ⟨i, rfl, hi⟩, fun h => absurd h hP, fun h => absurd rfl h⟩

theorem shared (hb : b ≠ .unresolved) (hi : i.code = .ambiguousType) (hP : P) :
    Explains code P (b, some i) :=
  ⟨fun h => absurd h hb, fun _ => ⟨i, rfl, hi⟩, fun _ h => absurd hP h⟩

end Explains

namespace Model
variable {m : Model}

/-- a name is ambiguous exactly where it belongs to no primitive and no top-level type -/
theorem explains_resolve (m : Model) (n : Name) :
    Explains .undefinedType (m.AmbiguousName n) ((Namespace.ofModel m).resolve n) := by
  by_cases hprim : ∀ x ∈ m.basicTypes, x.2.name ≠ n
  · rw [resolve_ofModel m hprim]
    cases ht : m.firstTopLevel? n with
    | some e =>
      obtain ⟨he, hn⟩ := firstTopLevel?_some ht
      exact .silent nofun fun h => h.noTopLevel e he hn
    | none =>
      cases hc : m.carrying n with
      | nil =>
        refine .missing rfl fun h => ?_
        have := h.several
        rw [hc, List.length_nil] at this
        omega
      | cons a rest =>
        cases rest with
        | nil =>
          refine .silent nofun fun h => ?_
          have := h.several
          rw [hc, List.length_singleton] at this
          omega
        | cons b rest =>
          refine .shared nofun rfl ⟨hprim, not_found ht, ?_⟩
          rw [hc, List.length_cons, List.length_cons]
          omega
  · have hbasic : ∃ id, (Namespace.ofModel m).basic? n = some id := by
      rw [Namespace.basic?_ofModel]
      cases hb : m.basicTypes.find? fun x => x.2.name = n with
      | some x => exact ⟨x.1, rfl⟩
      | none => exact absurd (not_found hb) hprim
    obtain ⟨id, hid⟩ := hbasic
    unfold Namespace.resolve
    rw [hid]
    exact .silent nofun fun h => hprim h.noPrimitive

/-! ## bases -/

theorem nodup_ids_baseCandidates (m : Model) (n : Name) :
    ((m.baseCandidates n).map (·.id)).Nodup := by
  unfold baseCandidates
  rw [List.map_append, List.nodup_append]
  refine ⟨?_, m.nodup_ids_carrying n, ?_⟩
  · cases m.firstTopLevel? n with
    | none => exact List.nodup_nil
    | some e => exact List.nodup_singleton _
  · intro a ha b hb hab
    obtain ⟨e, he, rfl⟩ := List.mem_map.mp ha
    obtain ⟨d, hd, rfl⟩ := List.mem_map.mp hb
    obtain ⟨htop, _⟩ := firstTopLevel?_some (Option.mem_toList.mp he)
    have hglobal := (mem_topLevelTypes_iff (mem_allTypes_split.mpr (Or.inl htop))).mp htop
    rw [hab, isGlobal_of_mem_others (List.mem_filter.mp hd).1] at hglobal
    cases hglobal

/-- a name is known if it is that of a primitive type or has a candidate -/
theorem declares_iff_baseCandidates (m : Model) (n : Name) :
    m.Declares n ↔ (∃ x ∈ m.basicTypes, x.2.name = n) ∨ m.baseCandidates n ≠ [] := by
  refine or_congr_right ⟨?_, ?_⟩
  · rintro ⟨e, he, hc⟩ hnil
    obtain ⟨hfirst, hothers⟩ := List.append_eq_nil_iff.mp hnil
    rcases mem_allTypes_split.mp he with ht | ho
    · have hn := (Entry.carries_of_mem_topLevelTypes ht n).mp hc
      exact not_found (Option.toList_eq_nil_iff.mp hfirst) e ht hn.symm
    · exact List.filter_eq_nil_iff.mp hothers e ho (decide_eq_true hc)
  · intro h
    obtain ⟨e, he⟩ := List.exists_mem_of_ne_nil _ h
    exact ⟨e, mem_baseCandidates he⟩

/-- where the first valid candidate is not at top level, none is -/
theorem isGlobal_of_mem_validBases {n : Name} {kind : TypeKind} {referrer : TypeId} {a : Entry}
    {rest : List Entry} (h : m.validBases n kind referrer = a :: rest)
    (ha : a.id.isGlobal = false) : ∀ e ∈ m.validBases n kind referrer, e.id.isGlobal = false := by
  intro e he
  obtain ⟨hmem, hvalid⟩ := List.mem_filter.mp he
  rcases List.mem_append.mp hmem with ht | ho
  · -- a candidate at top level stands before all others
    have htop : m.firstTopLevel? n = some e := Option.mem_toList.mp ht
    have hfirst : m.validBases n kind referrer =
        e :: (m.carrying n).filter fun c => c.type.kind = kind ∧ c.id ≠ referrer := by
      unfold validBases baseCandidates
      rw [htop]
      exact List.filter_cons_of_pos hvalid
    rw [h] at hfirst
    exact (List.cons.inj hfirst).1 ▸ ha
  · exact isGlobal_of_mem_others (List.mem_filter.mp ho).1

theorem filter_candidates (m : Model) (n : Name) (kind : TypeKind) (referrer : TypeId) :
    ((Namespace.ofModel m).allCarriers n).filter (fun c => c.kind = kind ∧ c.id ≠ referrer) =
      (m.validBases n kind referrer).map Entry.candidate := by
  rw [Namespace.allCarriers_ofModel, List.filter_map]
  rfl

/-- different candidates are not all the declaration itself -/
theorem length_baseCandidates_le_one {n : Name} {referrer : TypeId}
    (hall : ∀ a ∈ m.baseCandidates n, a.id = referrer) : (m.baseCandidates n).length ≤ 1 := by
  have hids := m.nodup_ids_baseCandidates n
  cases hc : m.baseCandidates n with
  | nil => exact Nat.zero_le 1
  | cons a rest =>
    rw [hc] at hall hids
    cases rest with
    | nil => exact Nat.le_refl 1
    | cons b rest =>
      exfalso
      have ha := hall a List.mem_cons_self
      have hb := hall b (List.mem_cons_of_mem _ List.mem_cons_self)
      exact (List.nodup_cons.mp hids).1
        (List.mem_map.mpr ⟨b, List.mem_cons_self, hb.trans ha.symm⟩)

/-- what is wrong with a base that has no valid candidate depends on whether its name is known -/
theorem code_noBase (m : Model) (n : Name) (kind : TypeKind) (referrer : TypeId) :
    ((Namespace.ofModel m).noBase n kind referrer
        ((m.baseCandidates n).map Entry.candidate)).code =
      if m.Declares n then .invalidBase else .undefinedType := by
  have hbasic : ((Namespace.ofModel m).basic? n).isSome = true ↔
      ∃ x ∈ m.basicTypes, x.2.name = n := by
    rw [Namespace.basic?_ofModel, Option.isSome_map, List.find?_isSome]
    simp only [decide_eq_true_iff]
  by_cases hnone : m.baseCandidates n = []
  · have hdecl : m.Declares n ↔ ((Namespace.ofModel m).basic? n).isSome = true := by
      rw [m.declares_iff_baseCandidates, hbasic]
      exact or_iff_left fun h => h hnone
    rw [hnone]
    unfold Namespace.noBase
    by_cases hb : ((Namespace.ofModel m).basic? n).isSome = true
    · rw [if_pos (hdecl.mpr hb)]
      simp [hb, Issue.code]
    · rw [if_neg (mt hdecl.mp hb)]
      simp [hb, Issue.code]
  · rw [if_pos ((m.declares_iff_baseCandidates n).mpr (Or.inr hnone))]
    unfold Namespace.noBase
    split
    · rfl
    · next hself =>
      cases hother : ((m.baseCandidates n).map Entry.candidate).find? (·.id ≠ referrer) with
      | some other => rfl
      | none =>
        exfalso
        have hall : ∀ a ∈ m.baseCandidates n, a.id = referrer := by
          intro a ha
          by_contra hne
          exact List.find?_eq_none.mp hother _ (List.mem_map_of_mem ha) (decide_eq_true hne)
        obtain ⟨a, ha⟩ := List.exists_mem_of_ne_nil _ hnone
        refine hself ⟨?_, List.any_eq_true.mpr
          ⟨a.candidate, List.mem_map_of_mem ha, decide_eq_true (hall a ha)⟩⟩
        have hpos := List.length_pos_of_mem ha
        have hle := length_baseCandidates_le_one hall
        rw [List.length_map]
        omega

/-- a base is ambiguous exactly where several candidates are valid and none is at top level -/
theorem explains_resolveBase (m : Model) (n : Name) (kind : TypeKind) (referrer : TypeId) :
    Explains (if m.Declares n then .invalidBase else .undefinedType)
      (m.AmbiguousBase n kind referrer) ((Namespace.ofModel m).resolveBase n kind referrer) := by
  unfold Namespace.resolveBase
  dsimp only
  rw [filter_candidates]
  cases hv : m.validBases n kind referrer with
  | nil =>
    refine .missing ?_ fun h => ?_
    · rw [Namespace.allCarriers_ofModel]
      exact m.code_noBase n kind referrer
    · have := h.several
      rw [hv, List.length_nil] at this
      omega
  | cons a rest =>
    cases rest with
    | nil =>
      refine .silent nofun fun h => ?_
      have := h.several
      rw [hv, List.length_singleton] at this
      omega
    | cons b rest =>
      rw [List.map_cons, List.map_cons]
      dsimp only
      by_cases hg : a.candidate.isGlobal = true
      · rw [if_pos hg]
        refine .silent nofun fun h => ?_
        have := h.noTopLevel a (by rw [hv]; exact List.mem_cons_self)
        rw [show a.id.isGlobal = true from hg] at this
        cases this
      · rw [if_neg hg]
        refine .shared nofun rfl ⟨?_, ?_⟩
        · rw [hv, List.length_cons, List.length_cons]
          omega
        · exact isGlobal_of_mem_validBases hv (Bool.not_eq_true _ ▸ hg)

/-! ## the result -/

/-- binding and issue of a reference of the resolved model -/
theorem explains_issueAt {e : Entry} (he : e ∈ m.resolve.model.allTypes) {s : Site}
    (hs : s ∈ e.sites) :
    Explains (m.resolve.model.errorCode s) (m.resolve.model.Ambiguous e s)
      (s.ref.binding, m.resolve.model.issueAt e s) := by
  rw [← resolveSite_of_mem_sites he hs]
  unfold Namespace.resolveSite errorCode Ambiguous
  by_cases hr : s.role = .base
  · simp only [hr, if_true, true_and]
    exact explains_resolveBase _ _ _ _
  · simp only [hr, if_false, false_and]
    exact explains_resolve _ _

/-- an issue of the right code, put at the place of the site, is the right diagnostic -/
theorem told_of_explains {e : Entry} {s : Site} {i : Option Issue}
    (h : Explains (m.errorCode s) (m.Ambiguous e s) (s.ref.binding, i)) :
    m.Told e s (i.map (·.toDiagnostic (e.place s.role))).toList := by
  have herror : ∀ x : Issue, x.code = m.errorCode s → x.severity = .error := by
    intro x hx
    unfold errorCode at hx
    unfold Issue.severity
    split at hx
    · rw [hx]
    · rw [hx]
  refine ⟨fun hb => ?_, fun ha => ?_, fun hb ha => ?_⟩
  · obtain ⟨x, rfl, hx⟩ := h.unresolved hb
    exact ⟨_, rfl, herror x hx, congrArg some hx, rfl⟩
  · obtain ⟨x, rfl, hx⟩ := h.ambiguous ha
    refine ⟨_, rfl, ?_, congrArg some hx, rfl⟩
    show x.severity = .warning
    unfold Issue.severity
    rw [hx]
  · rw [show i = none from h.otherwise hb ha]
    rfl

/-- the diagnostics of resolution are, type after type and site after site, one error for each
reference that is left unresolved, one warning for each that is ambiguous, and no others -/
theorem diagnostics_match_bindings (m : Model) :
    ∃ told : Entry → Site → Diagnostics,
      m.resolve.diagnostics =
        (m.resolve.model.topLevelTypes ++ m.resolve.model.packagedTypes).flatMap
          (fun outer => (outer :: outer.inners).flatMap fun e => e.sites.flatMap (told e)) ∧
      ∀ e ∈ m.resolve.model.allTypes, ∀ s ∈ e.sites, m.resolve.model.Told e s (told e s) := by
  refine ⟨fun e s => ((m.resolve.model.issueAt e s).map (·.toDiagnostic (e.place s.role))).toList,
    ?_, fun e he s hs => told_of_explains (explains_issueAt he hs)⟩
  rw [diagnostics_resolve, walk, List.flatMap_assoc]
  refine List.flatMap_congr fun outer _ => List.flatMap_congr fun e _ => ?_
  rw [List.filterMap_eq_flatMap_toList]
  refine List.flatMap_congr fun s hs => ?_
  rw [Entry.location_of_mem_sites hs]

/-- a struct with a primitive type as its base, a field of a type that two packages have, and a
method whose result has no type -/
def misnamed : Model :=
  { primitives := [{ name := "Builtins", dataTypes := [{ name := "int64" }] }]
    types :=
      [.struct
          { name := "Holder", base := some { name := "int64" },
            fields := [{ name := "item", typeRef := { name := "Item" }, line := some 7 }],
            methods := [{ name := "find", returns := some { name := "Missing" } }] } []]
    packages :=
      [{ name := "left", types := [.struct { name := "Item" } []] },
        { name := "right", types := [.struct { name := "Item" } []] }] }

example : misnamed.resolve.diagnostics.map (fun d => (d.severity, d.code, d.location)) =
    [(.error, some .invalidBase, some { path := "Holder" }),
      (.warning, some .ambiguousType, some { path := "Holder.item", line := some 7 }),
      (.error, some .undefinedType, some { path := "Holder.find" })] := by decide +kernel

end Model

end TypeModel
