import TypeModel.Model.Edit
import TypeModel.Proofs.Model.Entries

/-!
# Models that grow

Declarations added at the end of a list shift no other: handles go on pointing to what they pointed
to, and the entries of the old model are those of the new one that it had already.

* `Model.Adds m m'`            one declaration, group or package is appended;
* `Model.Grows m m'`           every list of `m` is the beginning of that list of `m'`;
* `Entry.bare e`               the entry without the other types of its package;
* `Grows.bare_declaredTypes`   the old entries among those of `m'`, in order, and the same for the
                               other lists;
* `Grows.basicTypes`           the same for primitive types.
-/

namespace TypeModel

/-! ## lists that grow -/

theorem filter_mapIdx_of_grows {α β : Type} {f : Nat → α → β} {keep : β → Bool} {xs ys : List α}
    (h : xs <+: ys) (hkeep : ∀ i a, keep (f i a) = true ↔ i < xs.length) :
    (ys.mapIdx f).filter keep = xs.mapIdx f := by
  obtain ⟨zs, rfl⟩ := h
  have hold : (xs.mapIdx f).filter keep = xs.mapIdx f := by
    refine List.filter_eq_self.mpr fun b hb => ?_
    obtain ⟨i, a, hi, rfl⟩ := mem_mapIdx_iff.mp hb
    exact (hkeep i a).mpr (List.getElem?_eq_some_iff.mp hi).1
  have hnew : (zs.mapIdx fun i => f (i + xs.length)).filter keep = [] := by
    refine List.filter_eq_nil_iff.mpr fun b hb => ?_
    obtain ⟨i, a, _, rfl⟩ := mem_mapIdx_iff.mp hb
    rw [hkeep]
    omega
  rw [List.mapIdx_append, List.filter_append, hold, hnew, List.append_nil]

/-- parts that grow one by one, seen through `v` -/
theorem flatten_mapIdx_of_grows {α β γ : Type} {keep : β → Bool} {v : β → γ} (xs : List α) :
    ∀ {ys : List α} {f : Nat → α → List β},
      (∀ i x, xs[i]? = some x → ∃ y, ys[i]? = some y ∧
        ((f i y).filter keep).map v = (f i x).map v) →
      (∀ i y, xs[i]? = none → (f i y).filter keep = []) →
      (((ys.mapIdx f).flatten).filter keep).map v = ((xs.mapIdx f).flatten).map v := by
  induction xs with
  | nil =>
    intro ys f _ hnew
    have hnone : ((ys.mapIdx f).flatten).filter keep = [] := by
      refine List.filter_eq_nil_iff.mpr fun b hb => ?_
      obtain ⟨i, y, _, hmem⟩ := mem_mapIdx_flatten_iff.mp hb
      exact List.filter_eq_nil_iff.mp (hnew i y rfl) b hmem
    rw [hnone]
    rfl
  | cons x xs ih =>
    intro ys f hold hnew
    obtain ⟨y, hy, hfirst⟩ := hold 0 x rfl
    cases ys with
    | nil => cases hy
    | cons y' ys =>
      obtain rfl : y' = y := Option.some.inj hy
      have hrest := @ih ys (fun i => f (i + 1)) (fun i z hz => hold (i + 1) z hz)
        (fun i z hz => hnew (i + 1) z hz)
      rw [List.mapIdx_cons, List.mapIdx_cons, List.flatten_cons, List.flatten_cons,
        List.filter_append, List.map_append, List.map_append, hfirst, hrest]

/-- members are kept together with what they come from -/
theorem filter_flatMap_of_eq {α : Type} {keep : α → Bool} {f : α → List α} (l : List α)
    (h : ∀ a, ∀ b ∈ f a, keep b = keep a) :
    (l.flatMap f).filter keep = (l.filter keep).flatMap f := by
  induction l with
  | nil => rfl
  | cons a l ih =>
    rw [List.flatMap_cons, List.filter_append, ih]
    cases ha : keep a with
    | true =>
      rw [List.filter_cons_of_pos ha, List.flatMap_cons,
        List.filter_eq_self.mpr fun b hb => (h a b hb).trans ha]
    | false =>
      rw [List.filter_cons_of_neg (Bool.not_eq_true _ ▸ ha),
        List.filter_eq_nil_iff.mpr fun b hb => Bool.not_eq_true _ ▸ (h a b hb).trans ha,
        List.nil_append]

/-! ## entries without the rest of their package -/

namespace Entry

def bare (e : Entry) : Entry :=
  { e with package := e.package.map fun package => { name := package.name } }

theorem eq_of_bare {a b : Entry} (h : a.bare = b.bare) : a.id = b.id ∧ a.type = b.type := by
  have hid : a.bare.id = b.bare.id := congrArg Entry.id h
  have htype : a.bare.type = b.bare.type := congrArg Entry.type h
  exact ⟨hid, htype⟩

theorem qualifiedName_bare (e : Entry) : e.bare.qualifiedName = e.qualifiedName := by
  unfold qualifiedName scopes bare
  cases e.package <;> rfl

theorem inners_bare (e : Entry) : e.bare.inners = e.inners.map bare := by
  have htype : e.bare.type = e.type := rfl
  unfold inners
  rw [htype]
  cases e.type with
  | struct s inner =>
    show inner.mapIdx (e.bare.innerEntry s) = (inner.mapIdx (e.innerEntry s)).map bare
    rw [List.mapIdx_eq_zipIdx_map, List.mapIdx_eq_zipIdx_map, List.map_map]
    rfl
  | enumeration x => rfl
  | array a => rfl
  | «alias» a => rfl

end Entry

/-! ## growth -/

namespace Model

/-- a primitive type at the end of the last group, a group, a top-level type or a package at the
end, or a type at the end of a package -/
inductive Adds (m m' : Model) : Prop
  | primitive (groups : List PrimitiveGroup) (g : PrimitiveGroup) (b : BasicType)
      (hm : m.primitives = groups ++ [g])
      (hm' : m' = { m with
        primitives := groups ++ [{ g with dataTypes := g.dataTypes ++ [b] }] })
  | group (g : PrimitiveGroup) (h : m.apply (.pushGroup g) = .ok m')
  | topLevel (t : TypeDef) (h : m.apply (.pushType {} t) = .ok m')
  | package (p : Package) (h : m.apply (.pushPackage p) = .ok m')
  | packaged (p : Nat) (t : TypeDef) (h : m.apply (.pushType { package := some p } t) = .ok m')

structure Grows (m m' : Model) : Prop where
  primitives : ∀ (i : Nat) (g : PrimitiveGroup), m.primitives[i]? = some g →
    ∃ g', m'.primitives[i]? = some g' ∧ g.dataTypes <+: g'.dataTypes
  types : m.types <+: m'.types
  packages : ∀ (i : Nat) (p : Package), m.packages[i]? = some p →
    ∃ p', m'.packages[i]? = some p' ∧ p'.name = p.name ∧ p.types <+: p'.types

theorem Grows.refl (m : Model) : m.Grows m :=
  ⟨fun _ g h => ⟨g, h, List.prefix_refl _⟩, List.prefix_refl _,
    fun _ p h => ⟨p, h, rfl, List.prefix_refl _⟩⟩

theorem getElem?_append_of_some {α : Type} {xs ys : List α} {i : Nat} {a : α}
    (h : xs[i]? = some a) : (xs ++ ys)[i]? = some a :=
  (List.getElem?_append_left (List.getElem?_eq_some_iff.mp h).1).trans h

theorem Adds.grows {m m' : Model} (h : m.Adds m') : m.Grows m' := by
  have hself := Grows.refl m
  cases h with
  | primitive groups g b hm hm' =>
    subst hm'
    refine ⟨fun i x hx => ?_, hself.types, hself.packages⟩
    rw [hm] at hx
    show ∃ g', (groups ++ [_])[i]? = some g' ∧ _
    by_cases hi : i < groups.length
    · rw [List.getElem?_append_left hi] at hx ⊢
      exact ⟨x, hx, List.prefix_refl _⟩
    · rw [List.getElem?_append_right (Nat.not_lt.mp hi)] at hx ⊢
      cases hlast : i - groups.length with
      | zero =>
        rw [hlast] at hx
        obtain rfl := Option.some.inj hx
        exact ⟨_, rfl, List.prefix_append _ _⟩
      | succ j =>
        rw [hlast] at hx
        cases hx
  | group g h =>
    cases h
    exact ⟨fun i x hx => ⟨x, getElem?_append_of_some hx, List.prefix_refl _⟩, hself.types,
      hself.packages⟩
  | topLevel t h =>
    cases h
    exact ⟨hself.primitives, List.prefix_append _ _, hself.packages⟩
  | package p h =>
    cases h
    exact ⟨hself.primitives, hself.types,
      fun i x hx => ⟨x, getElem?_append_of_some hx, rfl, List.prefix_refl _⟩⟩
  | packaged p t h =>
    unfold apply editTypes at h
    cases hp : m.packages[p]? with
    | none =>
      simp only [hp] at h
      cases h
    | some package =>
      simp only [hp] at h
      cases h
      refine ⟨hself.primitives, hself.types, fun i x hx => ?_⟩
      show ∃ p', (m.packages.set p _)[i]? = some p' ∧ _
      by_cases hip : p = i
      · subst hip
        rw [hx] at hp
        obtain rfl := Option.some.inj hp
        rw [List.getElem?_set_self (List.getElem?_eq_some_iff.mp hx).1]
        exact ⟨_, rfl, rfl, List.prefix_append _ _⟩
      · rw [List.getElem?_set_ne hip]
        exact ⟨x, hx, rfl, List.prefix_refl _⟩

/-- the declaration around `e`, or `e` itself, is at a handle of `m` -/
def holds (m : Model) (e : Entry) : Bool := (m.type? e.id.outer).isSome

theorem holds_topLevel {m : Model} (i : Nat) (t : TypeDef) :
    m.holds (topLevelEntry i t) = true ↔ i < m.types.length := by
  show (m.type? (.topLevel i)).isSome = true ↔ _
  rw [type?_topLevel, isSome_getElem?]

theorem holds_packaged {m : Model} (p : Nat) (package : Package) (i : Nat) (t : TypeDef) :
    m.holds (packagedEntry p package i t) = true ↔
      ∃ old, m.packages[p]? = some old ∧ i < old.types.length := by
  show (m.type? (.packaged p i)).isSome = true ↔ _
  rw [type?_packaged]
  cases m.packages[p]? with
  | none => simp
  | some old => simp

namespace Grows
variable {m m' : Model}

theorem bare_topLevelTypes (h : m.Grows m') :
    (m'.topLevelTypes.filter m.holds).map Entry.bare = m.topLevelTypes.map Entry.bare :=
  congrArg _ (filter_mapIdx_of_grows h.types holds_topLevel)

theorem bare_packagedTypes (h : m.Grows m') :
    (m'.packagedTypes.filter m.holds).map Entry.bare = m.packagedTypes.map Entry.bare := by
  refine flatten_mapIdx_of_grows m.packages (fun p old hp => ?_) fun p package hp => ?_
  · obtain ⟨new, hnew, hname, htypes⟩ := h.packages p old hp
    refine ⟨new, hnew, ?_⟩
    have hkeep : ∀ i t, m.holds (packagedEntry p new i t) = true ↔ i < old.types.length := by
      intro i t
      rw [holds_packaged, hp]
      simp
    have hbare : ∀ i t, (packagedEntry p new i t).bare = (packagedEntry p old i t).bare := by
      intro i t
      unfold Entry.bare packagedEntry
      simp only [Option.map_some, hname]
    unfold typesOfPackage
    rw [filter_mapIdx_of_grows htypes hkeep, List.mapIdx_eq_zipIdx_map, List.mapIdx_eq_zipIdx_map,
      List.map_map, List.map_map]
    exact List.map_congr_left fun x _ => hbare x.2 x.1
  · refine List.filter_eq_nil_iff.mpr fun e he => ?_
    obtain ⟨i, t, _, rfl⟩ := mem_mapIdx_iff.mp he
    rw [holds_packaged, hp]
    rintro ⟨_, hnone, _⟩
    cases hnone

theorem bare_declaredTypes (h : m.Grows m') :
    (m'.declaredTypes.filter m.holds).map Entry.bare = m.declaredTypes.map Entry.bare := by
  unfold declaredTypes
  rw [List.filter_append, List.map_append, List.map_append, h.bare_topLevelTypes,
    h.bare_packagedTypes]

theorem holds_of_mem_inners (m : Model) (e : Entry) : ∀ x ∈ e.inners, m.holds x = m.holds e := by
  intro x hx
  unfold holds
  rw [outer_id_of_mem_inners hx]

/-- what is listed for each declaration, of the old declarations only -/
theorem bare_flatMap (h : m.Grows m') {f : Entry → List Entry}
    (hholds : ∀ e, ∀ x ∈ f e, m.holds x = m.holds e)
    (hbare : ∀ e, f e.bare = (f e).map Entry.bare) :
    ((m'.declaredTypes.flatMap f).filter m.holds).map Entry.bare =
      (m.declaredTypes.flatMap f).map Entry.bare := by
  have hmap : ∀ l : List Entry, (l.flatMap f).map Entry.bare = (l.map Entry.bare).flatMap f := by
    intro l
    rw [List.map_flatMap, List.flatMap_map]
    exact List.flatMap_congr fun e _ => (hbare e).symm
  rw [filter_flatMap_of_eq _ hholds, hmap, hmap, h.bare_declaredTypes]

theorem bare_innerTypes (h : m.Grows m') :
    (m'.innerTypes.filter m.holds).map Entry.bare = m.innerTypes.map Entry.bare :=
  h.bare_flatMap (holds_of_mem_inners m) Entry.inners_bare

theorem bare_walk (h : m.Grows m') :
    (m'.walk.filter m.holds).map Entry.bare = m.walk.map Entry.bare := by
  refine h.bare_flatMap (fun e x hx => ?_) fun e => congrArg _ e.inners_bare
  rcases List.mem_cons.mp hx with rfl | hx
  · rfl
  · exact holds_of_mem_inners m e x hx

/-- primitive types keep their handles too -/
theorem basicTypes (h : m.Grows m') :
    m'.basicTypes.filter (fun x => (m.basic? x.1).isSome) = m.basicTypes := by
  have hlists : (m'.basicTypes.filter fun x => (m.basic? x.1).isSome).map id =
      m.basicTypes.map id := by
    refine flatten_mapIdx_of_grows m.primitives (fun g old hg => ?_) fun g group hg => ?_
    · obtain ⟨new, hnew, htypes⟩ := h.primitives g old hg
      refine ⟨new, hnew, congrArg _ (filter_mapIdx_of_grows htypes fun i b => ?_)⟩
      show ((m.primitives[g]?).bind fun group => group.dataTypes[i]?).isSome = true ↔ _
      rw [hg, Option.bind_some, isSome_getElem?]
    · refine List.filter_eq_nil_iff.mpr fun x hx => ?_
      obtain ⟨i, b, _, rfl⟩ := mem_mapIdx_iff.mp hx
      show ¬ ((m.primitives[g]?).bind fun group => group.dataTypes[i]?).isSome = true
      rw [hg]
      exact Bool.false_ne_true
  rw [List.map_id, List.map_id] at hlists
  exact hlists

/-- an entry has its counterpart at the same handle -/
theorem exists_entry (h : m.Grows m') {e : Entry} (he : e ∈ m.allTypes) :
    ∃ e' ∈ m'.allTypes, e'.bare = e.bare := by
  have hmem : e.bare ∈ (m'.walk.filter m.holds).map Entry.bare := by
    rw [h.bare_walk]
    exact List.mem_map_of_mem (mem_walk_iff.mpr he)
  obtain ⟨e', he', hbare⟩ := List.mem_map.mp hmem
  exact ⟨e', mem_walk_iff.mp (List.mem_filter.mp he').1, hbare⟩

end Grows

end Model

end TypeModel
