import TypeModel.Proofs.Model.Numbering
import TypeModel.Proofs.Proto.Layout

/-!
# Types at any depth, and what is written for them

A schema nests declarations as deep as the model does.  A handle has room for one inner position,
so the handle at which a type is written keeps the last position of its path only: from the second
level on it is the handle of another type, and what is inherited is decided by that one.

* `TypeDef.at? t path`        the type at a path of positions inside a type;
* `TypeId.descend id path`    the handle at which it is written;
* `Origin m d`                the declaration `d` is written for a type somewhere in the model;
* `exists_declaration`        every struct and enumeration has its declaration, at its place;
* `OwnMembers m t d`          the members of `d` are those of `t`;
* `ownMembers_iff`            this holds for a type without a base if and only if the bases of its
                              handle have nothing to add;
* `not_ownMembers_borrowed`   a type on the second level has the fields of another type's base.
-/

namespace TypeModel

/-! ## paths inside a type -/

def TypeDef.at? : TypeDef → List Nat → Option TypeDef
  | t, [] => some t
  | t, i :: is => t.innerTypes[i]?.bind fun u => u.at? is

def TypeId.descend (id : TypeId) (path : List Nat) : TypeId := path.foldl TypeId.withInner id

theorem TypeId.descend_concat (id : TypeId) (path : List Nat) (i : Nat) :
    id.descend (path ++ [i]) = (id.descend path).withInner i := List.foldl_concat _ _ _ _

/-- only the last position counts -/
theorem TypeId.withInner_descend (path : List Nat) (i : Nat) :
    ∀ id : TypeId, (id.descend path).withInner i = id.withInner i := by
  induction path with
  | nil => intro id; rfl
  | cons j path ih =>
    intro id
    show ((id.withInner j).descend path).withInner i = id.withInner i
    rw [ih (id.withInner j), withInner_withInner]

namespace TypeDef

theorem at?_concat (path : List Nat) (i : Nat) :
    ∀ {t u : TypeDef}, t.at? path = some u → t.at? (path ++ [i]) = u.innerTypes[i]? := by
  induction path with
  | nil =>
    intro t u h
    obtain rfl := Option.some.inj h
    exact Option.bind_fun_some _
  | cons j path ih =>
    intro t u h
    obtain ⟨v, hv, hu⟩ := Option.bind_eq_some_iff.mp h
    show (t.innerTypes[j]?.bind fun v => v.at? (path ++ [i])) = _
    rw [hv]
    exact ih hu

end TypeDef

namespace Model
variable {m : Model}

theorem type?_descend {e : Entry} (he : e ∈ m.declaredTypes) (path : List Nat) (i : Nat) :
    m.type? (e.id.descend (path ++ [i])) = e.type.innerTypes[i]? := by
  obtain ⟨hentry, hin⟩ := mem_declaredTypes_iff.mp he
  have houter : e.id.outer = e.id := by rw [TypeId.outer, ← hin]
  rw [TypeId.descend_concat, TypeId.withInner_descend, type?_withInner, houter,
    (entry?_eq_some_iff.mp hentry).1]
  rfl

/-- up to the first level the handle is that of the type -/
theorem type?_descend_of_length_le {e : Entry} (he : e ∈ m.declaredTypes) {path : List Nat}
    {t : TypeDef} (ht : e.type.at? path = some t) (hpath : path.length ≤ 1) :
    m.type? (e.id.descend path) = some t := by
  cases path with
  | nil =>
    obtain rfl := Option.some.inj ht
    exact type?_id_of_mem (List.mem_append_left _ he)
  | cons i path =>
    obtain rfl : path = [] := by
      rw [List.length_cons] at hpath
      exact List.length_eq_zero_iff.mp (by omega)
    rw [← ht]
    exact (type?_descend he [] i).trans (TypeDef.at?_concat [] i rfl).symm

end Model

namespace Proto
variable {m : Model}

/-! ## from the model to the schema -/

theorem isDeclared_of_inner {t u : TypeDef} {i : Nat} (h : t.innerTypes[i]? = some u) :
    isDeclared t = true := by
  cases t with
  | struct s inner => rfl
  | enumeration x => cases h
  | array a => cases h
  | «alias» a => cases h

theorem isDeclared_of_at? {t u : TypeDef} {path : List Nat} (h : t.at? path = some u)
    (hu : isDeclared u = true) : isDeclared t = true := by
  cases path with
  | nil =>
    obtain rfl := Option.some.inj h
    exact hu
  | cons i path =>
    obtain ⟨v, hv, _⟩ := Option.bind_eq_some_iff.mp h
    exact isDeclared_of_inner hv

/-- one level down: the handle gets the inner position -/
theorem declare_inner {id : TypeId} {t u : TypeDef} {d : Declaration} {i : Nat}
    (h : declare m id t = .ok [d]) (hu : t.innerTypes[i]? = some u) (hd : isDeclared u = true) :
    ∃ d', declare m (id.withInner i) u = .ok [d'] ∧
      d.nested[rank t.innerTypes i]? = some d' := by
  cases t with
  | struct s inner => exact getElem?_of_declareAll (declare_struct h).1 hu hd
  | enumeration x => cases hu
  | array a => cases hu
  | «alias» a => cases hu

/-- the positions of the declarations on a path -/
def ranks : TypeDef → List Nat → List Nat
  | _, [] => []
  | t, i :: is => rank t.innerTypes i :: (t.innerTypes[i]?.map fun u => ranks u is).getD []

theorem StandsAt.descend {ds : List Declaration} (path : List Nat) :
    ∀ {id : TypeId} {t u : TypeDef} {q : List Nat} {ns : List Name} {d : Declaration},
      declare m id t = .ok [d] → StandsAt ds q ns d → t.at? path = some u → isDeclared u = true →
        ∃ ns' d', declare m (id.descend path) u = .ok [d'] ∧
          StandsAt ds (q ++ ranks t path) ns' d' := by
  induction path with
  | nil =>
    intro id t u q ns d hd hstands ht _
    obtain rfl := Option.some.inj ht
    refine ⟨ns, d, hd, ?_⟩
    rw [ranks, List.append_nil]
    exact hstands
  | cons i path ih =>
    intro id t u q ns d hd hstands ht hu
    obtain ⟨v, hv, hvu⟩ := Option.bind_eq_some_iff.mp ht
    obtain ⟨d₁, hd₁, hget⟩ := declare_inner hd hv (isDeclared_of_at? hvu hu)
    obtain ⟨ns', d', hd', hstands'⟩ := ih hd₁ (hstands.nested hget) hvu hu
    refine ⟨ns', d', hd', ?_⟩
    rw [ranks, hv]
    rw [List.append_assoc] at hstands'
    exact hstands'

section
variable {c : ProtoConfig} {schema : Schema}

theorem exists_declaration (h : Schema.ofModel m c = .ok schema) {e : Entry}
    (he : e ∈ m.declaredTypes) {path : List Nat} {t : TypeDef} (ht : e.type.at? path = some t)
    (hdeclared : isDeclared t = true) :
    ∃ d, declare m (e.id.descend path) t = .ok [d] ∧
      declarationAt? schema.roots (placeOf m e.id ++ ranks e.type path) = some d := by
  have hall : e ∈ m.allTypes := List.mem_append_left _ he
  obtain ⟨d, hd, hstands⟩ := standsAt_placeOf h hall (isDeclared_of_at? ht hdeclared)
  obtain ⟨_, d', hd', hstands'⟩ := StandsAt.descend path hd hstands ht hdeclared
  exact ⟨d', hd', hstands'.declaration⟩

end

/-! ## from the schema to the model -/

def Origin (m : Model) (d : Declaration) : Prop :=
  ∃ e ∈ m.declaredTypes, ∃ path t, e.type.at? path = some t ∧
    declare m (e.id.descend path) t = .ok [d]

theorem Origin.nested {d : Declaration} (h : Origin m d) : ∀ d' ∈ d.nested, Origin m d' := by
  intro d' hd'
  obtain ⟨e, he, path, t, ht, hd⟩ := h
  rcases declare_cases hd with ⟨s, inner, rfl⟩ | ⟨hnone, _⟩
  · obtain ⟨dss, hdss, hf⟩ := forall₂_of_declareAll inner 0 (declare_struct hd).1
    rw [hdss] at hd'
    obtain ⟨x, hx, hxd⟩ := mem_flatten hf hd'
    obtain ⟨⟨u, i⟩, hy, rfl⟩ := List.mem_map.mp hx
    refine ⟨e, he, path ++ [i], u, ?_, ?_⟩
    · rw [TypeDef.at?_concat path i ht]
      exact List.mk_mem_zipIdx_iff_getElem?.mp hy
    · rw [TypeId.descend_concat]
      exact hxd
  · rw [hnone] at hd'
    cases hd'

theorem origin_of_declareEntries {es : List Entry} {ds : List Declaration}
    (hes : ∀ e ∈ es, e ∈ m.declaredTypes) (h : declareEntries m es = .ok ds) :
    ∀ d ∈ ds, Origin m d := by
  intro d hd
  obtain ⟨dss, rfl, hf⟩ := forall₂_of_declareEntries h
  obtain ⟨x, hx, hxd⟩ := mem_flatten hf hd
  obtain ⟨e, he, rfl⟩ := List.mem_map.mp hx
  exact ⟨e, hes e he, [], e.type, rfl, hxd⟩

theorem origin_of_scopeAt (p : List Nat) : ∀ {ds : List Declaration}, (∀ d ∈ ds, Origin m d) →
    ∀ d ∈ scopeAt ds p, Origin m d := by
  induction p with
  | nil => exact fun h => h
  | cons i p ih =>
    intro ds hds d hd
    rw [scopeAt] at hd
    cases hi : ds[i]? with
    | none => rw [hi] at hd; cases hd
    | some x =>
      rw [hi] at hd
      exact ih (hds x (List.mem_of_getElem? hi)).nested d hd

section
variable {c : ProtoConfig} {schema : Schema}

/-- the message around the declarations of a package -/
def Wrapper.message (w : Wrapper) : Declaration := .message w.name [] w.declarations []

theorem origin_of_mem_roots (h : Schema.ofModel m c = .ok schema) :
    ∀ d ∈ schema.roots, Origin m d ∨
      ∃ w : Wrapper, d = w.message ∧ ∀ d' ∈ w.declarations, Origin m d' := by
  intro d hd
  rcases List.mem_append.mp hd with hd | hd
  · left
    rcases ofModel_cases h with ⟨_, hds, _⟩ | ⟨_, hds, _⟩
    · exact origin_of_declareEntries (fun e he => List.mem_append_left _ he) hds d hd
    · exact origin_of_declareEntries (fun _ he => he) hds d hd
  · right
    obtain ⟨w, hw, rfl⟩ := List.mem_map.mp hd
    refine ⟨w, rfl, ?_⟩
    rcases ofModel_cases h with ⟨_, _, hws⟩ | ⟨_, _, hws⟩
    · obtain ⟨i, hi⟩ := List.mem_iff_getElem?.mp hw
      obtain ⟨⟨package, p⟩, hwp, hx⟩ := getElem?_of_forall₂ hws.flip hi
      refine origin_of_declareEntries ?_ (wrapper_declarations hwp).2
      intro e he
      obtain ⟨j, t, hj, rfl⟩ := mem_mapIdx_iff.mp he
      have hp := List.mk_mem_zipIdx_iff_getElem?.mp (List.mem_of_getElem? hx)
      refine List.mem_append_right _ ?_
      exact Model.mem_packagedTypes.mpr ⟨p, package, j, t, hp, hj, rfl⟩
    · rw [hws] at hw
      cases hw

/-- in every scope stand declarations of types and, at the file, messages around packages -/
theorem origin_of_mem_scopeAt (h : Schema.ofModel m c = .ok schema) {p : List Nat}
    {d : Declaration} (hd : d ∈ scopeAt schema.roots p) :
    Origin m d ∨ ∃ w : Wrapper, d = w.message := by
  cases p with
  | nil =>
    rcases origin_of_mem_roots h d hd with hd | ⟨w, hw, _⟩
    · exact Or.inl hd
    · exact Or.inr ⟨w, hw⟩
  | cons i p =>
    left
    rw [scopeAt] at hd
    cases hi : schema.roots[i]? with
    | none => rw [hi] at hd; cases hd
    | some x =>
      rw [hi] at hd
      rcases origin_of_mem_roots h x (List.mem_of_getElem? hi) with hx | ⟨w, rfl, hw⟩
      · exact origin_of_scopeAt p hx.nested d hd
      · exact origin_of_scopeAt p hw d hd

theorem mem_scopeAt_of_declarationAt? (p : List Nat) : ∀ {ds : List Declaration}
    {d : Declaration}, declarationAt? ds p = some d → d ∈ scopeAt ds p.dropLast := by
  induction p with
  | nil => exact fun h => nomatch h
  | cons i p ih =>
    intro ds d h
    by_cases hp : p = []
    · subst hp
      exact List.mem_of_getElem? h
    · rw [declarationAt?_cons ds i hp] at h
      obtain ⟨x, hx, hd⟩ := Option.bind_eq_some_iff.mp h
      rw [List.dropLast_cons_of_ne_nil hp, scopeAt, hx]
      exact ih hd

end

/-! ## zero first -/

theorem zeroFirst_of_ne_zero {zero : String} {values : List (String × Int64)}
    (h : ∀ v ∈ values, v.2 ≠ 0) : zeroFirst zero values = (zero, 0) :: values := by
  have hnone : values.findIdx? (·.2 = 0) = none :=
    List.findIdx?_eq_none_iff.mpr fun v hv => decide_eq_false (h v hv)
  unfold zeroFirst
  rw [hnone]

theorem zeroFirst_cons_zero (zero name : String) (values : List (String × Int64)) :
    zeroFirst zero ((name, 0) :: values) = (name, 0) :: values := rfl

/-- a zero that is there is moved -/
theorem zeroFirst_perm (zero : String) {values : List (String × Int64)}
    (h : ∃ v ∈ values, v.2 = 0) : (zeroFirst zero values).Perm values := by
  unfold zeroFirst
  cases hi : values.findIdx? (·.2 = 0) with
  | none =>
    obtain ⟨v, hv, hzero⟩ := h
    exact absurd hzero (of_decide_eq_false (List.findIdx?_eq_none_iff.mp hi v hv))
  | some i =>
    obtain ⟨hlt, _⟩ := List.findIdx?_eq_some_iff_getElem.mp hi
    show (values[i]?.toList ++ values.eraseIdx i).Perm values
    rw [List.getElem?_eq_getElem hlt]
    exact List.getElem_cons_eraseIdx_perm hlt

theorem length_zeroFirst (zero : String) (values : List (String × Int64)) :
    values.length ≤ (zeroFirst zero values).length ∧
      (zeroFirst zero values).length ≤ values.length + 1 := by
  by_cases h : ∃ v ∈ values, v.2 = 0
  · have hlen := (zeroFirst_perm zero h).length_eq
    omega
  · have hne : ∀ v ∈ values, v.2 ≠ 0 := fun v hv hzero => h ⟨v, hv, hzero⟩
    rw [zeroFirst_of_ne_zero hne, List.length_cons]
    omega

/-! ## own members -/

/-- enumerators behind the name of their enumeration, in the order they are written -/
def written (x : EnumerationType) (values : List (Name × Int64)) : List (String × Int64) :=
  values.map fun (name, value) => (enumeratorName x.name name, value)

/-- what is written for an enumeration that inherits nothing -/
def ownValues (x : EnumerationType) : List (String × Int64) :=
  zeroFirst (unspecifiedName x.name) (written x (numberFrom 0 x.enumerators))

def OwnMembers (m : Model) : TypeDef → Declaration → Prop
  | .struct s _, .message _ _ _ fields => Numbered m 1 s.instanceFields fields
  | .enumeration x, .enumeration _ _ values => values = ownValues x
  | _, _ => False

/-- written for `x`, the enumerator `y` is the zero that would be added without it -/
structure AddedZero (x : EnumerationType) (y : Enumerator) : Prop where
  name : enumeratorName x.name y.name = unspecifiedName x.name
  zero : (y.value.map Expression.evaluate).getD 0 = 0
  missing : ∀ v ∈ numberFrom 0 x.enumerators, v.2 ≠ 0

/-- the bases of a handle have nothing to add to a type -/
def AddsNothing (m : Model) (id : TypeId) : TypeDef → Prop
  | .struct _ _ => ∀ b ∈ m.baseStructs id, b.instanceFields = []
  | .enumeration x => (∀ b ∈ m.baseEnumerations id, b.enumerators = []) ∨
      ∃ y, (m.baseEnumerations id).reverse.flatMap (·.enumerators) = [y] ∧ AddedZero x y
  | .array _ | .alias _ => True

/-- the first enumerator, if there is one, has a value of its own -/
def StartsExplicit (ys : List Enumerator) : Prop := ∀ y ∈ ys.head?, y.value ≠ none

/-- then it does not matter where the numbers start -/
theorem StartsExplicit.numberFrom_eq {ys : List Enumerator} (h : StartsExplicit ys) (k : Int64) :
    numberFrom k ys = numberFrom 0 ys := by
  cases ys with
  | nil => rfl
  | cons y ys =>
    obtain ⟨v, hv⟩ := Option.ne_none_iff_exists'.mp (h y rfl)
    rw [numberFrom, numberFrom, hv]
    rfl

theorem startsExplicit_of_ne_zero {ys : List Enumerator} (h : ∀ v ∈ numberFrom 0 ys, v.2 ≠ 0) :
    StartsExplicit ys := by
  cases ys with
  | nil => exact fun _ hy => absurd hy nofun
  | cons y ys =>
    rintro _ ⟨⟩ hnone
    refine absurd ?_ (h _ List.mem_cons_self)
    rw [hnone]
    rfl

/-- where no value is zero, the first one is explicit -/
theorem numberFrom_of_ne_zero {ys : List Enumerator} (h : ∀ v ∈ numberFrom 0 ys, v.2 ≠ 0)
    (k : Int64) : numberFrom k ys = numberFrom 0 ys :=
  (startsExplicit_of_ne_zero h).numberFrom_eq k

theorem written_ne_zero {x : EnumerationType} {values : List (Name × Int64)} :
    (∀ v ∈ written x values, v.2 ≠ 0) ↔ ∀ v ∈ values, v.2 ≠ 0 := List.forall_mem_map

theorem length_written (x : EnumerationType) (k : Int64) (ys : List Enumerator) :
    (written x (numberFrom k ys)).length = ys.length := by
  rw [written, List.length_map, length_numberFrom]

/-- one enumerator in front of an enumeration without a zero -/
theorem zeroFirst_cons_eq_ownValues_iff {x : EnumerationType} {y : Enumerator}
    (h : ∀ v ∈ numberFrom 0 x.enumerators, v.2 ≠ 0) :
    zeroFirst (unspecifiedName x.name) (written x (numberFrom 0 (y :: x.enumerators))) =
        ownValues x ↔ AddedZero x y := by
  have hown : ∀ v ∈ written x (numberFrom 0 x.enumerators), v.2 ≠ 0 := written_ne_zero.mpr h
  have hcons : written x (numberFrom 0 (y :: x.enumerators)) =
      (enumeratorName x.name y.name, (y.value.map Expression.evaluate).getD 0) ::
        written x (numberFrom 0 x.enumerators) := by
    rw [numberFrom, numberFrom_of_ne_zero h]
    rfl
  rw [hcons, ownValues, zeroFirst_of_ne_zero hown]
  by_cases hzero : (y.value.map Expression.evaluate).getD 0 = 0
  · rw [hzero, zeroFirst_cons_zero]
    constructor
    · intro heq
      obtain ⟨hname, _⟩ := Prod.mk.inj (List.cons.inj heq).1
      exact ⟨hname, hzero, h⟩
    · intro hy
      rw [hy.name]
  · refine iff_of_false (fun heq => ?_) fun hy => hzero hy.zero
    rw [zeroFirst_of_ne_zero (List.forall_mem_cons.mpr ⟨hzero, hown⟩)] at heq
    have hlen := congrArg List.length heq
    rw [List.length_cons, List.length_cons, List.length_cons] at hlen
    omega

theorem zeroFirst_eq_ownValues_iff {x : EnumerationType} {ys : List Enumerator} :
    zeroFirst (unspecifiedName x.name) (written x (numberFrom 0 (ys ++ x.enumerators))) =
        ownValues x ↔ ys = [] ∨ ∃ y, ys = [y] ∧ AddedZero x y := by
  constructor
  · intro h
    have hlen := congrArg List.length h
    have hall := length_written x 0 (ys ++ x.enumerators)
    have hown := length_written x 0 x.enumerators
    rw [List.length_append] at hall
    rw [ownValues] at hlen
    have hfew : ys.length ≤ 1 := by
      have hge := (length_zeroFirst (unspecifiedName x.name)
        (written x (numberFrom 0 (ys ++ x.enumerators)))).1
      have hle := (length_zeroFirst (unspecifiedName x.name)
        (written x (numberFrom 0 x.enumerators))).2
      omega
    cases ys with
    | nil => exact Or.inl rfl
    | cons y rest =>
      rw [List.length_cons] at hfew hall
      obtain rfl : rest = [] := List.length_eq_zero_iff.mp (by omega)
      -- with a zero of its own, the enumeration would be one line shorter without `y`
      have hmissing : ∀ v ∈ written x (numberFrom 0 x.enumerators), v.2 ≠ 0 := by
        intro v hv hzero
        have hkept := (zeroFirst_perm (unspecifiedName x.name) ⟨v, hv, hzero⟩).length_eq
        have hge := (length_zeroFirst (unspecifiedName x.name)
          (written x (numberFrom 0 ([y] ++ x.enumerators)))).1
        omega
      exact Or.inr ⟨y, rfl, (zeroFirst_cons_eq_ownValues_iff (written_ne_zero.mp hmissing)).mp h⟩
  · rintro (rfl | ⟨y, rfl, hy⟩)
    · rfl
    · exact (zeroFirst_cons_eq_ownValues_iff hy.missing).mpr hy

theorem flatMap_reverse_eq_nil_iff {α β : Type} {xs : List α} {f : α → List β} :
    xs.reverse.flatMap f = [] ↔ ∀ x ∈ xs, f x = [] := by
  rw [List.flatMap_eq_nil_iff]
  simp only [List.mem_reverse]

theorem numbered_own_iff {id : TypeId} {s : StructType} {ls : List MessageField}
    (h : Numbered m 1 (m.flattenedFields id s) ls) :
    Numbered m 1 s.instanceFields ls ↔ ∀ b ∈ m.baseStructs id, b.instanceFields = [] := by
  rw [← flatMap_reverse_eq_nil_iff]
  unfold Model.flattenedFields at h
  constructor
  · intro hown
    have hlen := h.lines.length_eq
    rw [List.length_append, ← hown.lines.length_eq] at hlen
    exact List.length_eq_zero_iff.mp (by omega)
  · intro hnone
    rw [hnone] at h
    exact h

/-- the members of a declaration are those of its type if and only if the bases of the handle that
it is written at have nothing to add -/
theorem ownMembers_declare_iff {id : TypeId} {t : TypeDef} {d : Declaration}
    (h : declare m id t = .ok [d]) : OwnMembers m t d ↔ AddsNothing m id t := by
  cases t with
  | struct s inner =>
    rw [declare] at h
    obtain ⟨nested, _, h⟩ := bind_eq_ok.mp h
    obtain ⟨fields, hfields, h⟩ := bind_eq_ok.mp h
    cases h
    exact numbered_own_iff (numbered_of_messageFieldsFrom _ 1 hfields)
  | enumeration x =>
    rw [declare] at h
    cases h
    show zeroFirst _ (written x (numberFrom 0 (_ ++ x.enumerators))) = ownValues x ↔ _
    rw [zeroFirst_eq_ownValues_iff, flatMap_reverse_eq_nil_iff]
    rfl
  | array a => rw [declare] at h; cases h
  | «alias» a => rw [declare] at h; cases h

theorem addsNothing_of_none {id : TypeId} (h : m.baseOf id = none) (t : TypeDef) :
    AddsNothing m id t := by
  have hchain : m.baseChain id = [] := Model.chain_of_none h
  cases t with
  | struct s inner =>
    show ∀ b ∈ m.baseStructs id, _
    rw [Model.baseStructs_of_none h]
    exact fun _ hb => absurd hb List.not_mem_nil
  | enumeration x =>
    left
    rw [Model.baseEnumerations, hchain]
    exact fun _ hb => absurd hb List.not_mem_nil
  | array a => trivial
  | «alias» a => trivial

/-- a struct or enumeration without a base, at any depth: its declaration has its own members and
nothing else, unless the bases of the handle that is left of its path have something to add -/
theorem ownMembers_iff (m : Model) (c : ProtoConfig) {schema : Schema}
    (h : Schema.ofModel m c = .ok schema) {e : Entry} (he : e ∈ m.declaredTypes)
    {path : List Nat} {t : TypeDef} (ht : e.type.at? path = some t)
    (hdeclared : isDeclared t = true) (hbase : t.base? = none) :
    ∃ d, declarationAt? schema.roots (placeOf m e.id ++ ranks e.type path) = some d ∧
      d.name = t.name ∧ (OwnMembers m t d ↔ AddsNothing m (e.id.descend path) t) ∧
      (path.length ≤ 1 → OwnMembers m t d) := by
  obtain ⟨d, hd, hplace⟩ := exists_declaration h he ht hdeclared
  have hown := ownMembers_declare_iff hd
  refine ⟨d, hplace, name_of_declare hd, hown, fun hpath => hown.mpr ?_⟩
  refine addsNothing_of_none ?_ t
  unfold Model.baseOf
  rw [Model.type?_descend_of_length_le he ht hpath, Option.bind_some, hbase]
  rfl

/-- in `Outer`, `Mid` extends `Base`, and `Deep` inside `Mid` extends nothing -/
def borrowed : Model :=
  { primitives := [{ name := "Builtins", dataTypes := [{ name := "int64", bitLength := some 64 }] }]
    types :=
      [.struct { name := "Base", fields := [{ name := "id", typeRef := { name := "int64" } }] } [],
        .struct { name := "Outer" }
          [.struct { name := "Mid", base := some { name := "Base" } }
            [.struct { name := "Deep" } []]]] }

def borrowedSchema : Schema :=
  { package := none
    declarations :=
      [.message "Base" [] [] [⟨[], .single (.scalar "int64"), "id", 1⟩],
        .message "Outer" []
          [.message "Mid" [] [.message "Deep" [] [] [⟨[], .single (.scalar "int64"), "id", 1⟩]]
            [⟨[], .single (.scalar "int64"), "id", 1⟩]] []]
    wrappers := [] }

theorem ofModel_borrowed : Schema.ofModel borrowed.analyze.1 {} = .ok borrowedSchema := rfl

theorem ownMembers_iff_borrowed :
    Schema.ofModel borrowed.analyze.1 {} = .ok borrowedSchema ∧
      ∃ d, declarationAt? borrowedSchema.roots [1, 0, 0] = some d ∧ d.name = "Deep" ∧
        ¬ OwnMembers borrowed.analyze.1 (.struct { name := "Deep" } []) d := by
  refine ⟨ofModel_borrowed, ?_⟩
  obtain ⟨e, he, ht, hid, hplace⟩ : ∃ e ∈ borrowed.analyze.1.declaredTypes,
      e.type.at? [0, 0] = some (.struct { name := "Deep" } []) ∧ e.id = .topLevel 1 ∧
        placeOf borrowed.analyze.1 e.id ++ ranks e.type [0, 0] = [1, 0, 0] :=
    ⟨_, List.mem_of_getElem? (i := 1) rfl, rfl, rfl, by decide +kernel⟩
  obtain ⟨d, hd, hname, hown, _⟩ :=
    ownMembers_iff borrowed.analyze.1 {} ofModel_borrowed he ht rfl rfl
  rw [hplace] at hd
  refine ⟨d, hd, hname, fun hd => ?_⟩
  have hlent : (borrowed.analyze.1.baseStructs ((TypeId.topLevel 1).descend [0, 0])).any
      (fun b => !b.instanceFields.isEmpty) = true := by decide +kernel
  obtain ⟨b, hb, hfields⟩ := List.any_eq_true.mp hlent
  rw [hid] at hown
  rw [hown.mp hd b hb] at hfields
  cases hfields

/-- `Deep` has no base and no fields, but its message has the field of `Base` -/
theorem not_ownMembers_borrowed :
    borrowed.analyze.2.isOk = true ∧
      Schema.ofModel borrowed.analyze.1 {} = .ok borrowedSchema ∧
      (borrowed.analyze.1.type? (.topLevel 1)).bind (·.at? [0, 0]) =
        some (.struct { name := "Deep" } []) ∧
      ((declarationAt? borrowedSchema.roots [1, 0, 0]).map fun d => (d.name, d.fields.map (·.name)))
        = some ("Deep", ["id"]) := by
  refine ⟨by decide +kernel, ofModel_borrowed, rfl, rfl⟩

end Proto

end TypeModel
