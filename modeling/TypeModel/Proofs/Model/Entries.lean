import Mathlib.Data.List.Perm.Basic
import TypeModel.Model.Basic

/-!
# Entries and handles

The entries of a model are exactly the declarations that its handles point to.

* `mem_topLevelTypes`, `mem_packagedTypes`, `mem_inners`   the entries of one list, by position;
* `mem_declaredTypes_iff`, `mem_innerTypes_iff`            the entries outside and inside structs;
* `mem_allTypes_iff`                                       all of them: `e ∈ m.allTypes` means that
                                                           the handle of `e` points to `e`;
* `mem_walk_iff`                                           the walk has the same entries;
* `mem_basicTypes_iff`                                     the same for primitive types.

There is one entry for each handle (`eq_of_id_eq`), so a handle stands for its entry, and the walk
comes to each handle once (`nodup_ids_walk`), as does the list (`nodup_ids_allTypes`); they differ
in their order only (`allTypes_perm_walk`).
-/

namespace TypeModel

theorem mem_mapIdx_iff {α β : Type} {f : Nat → α → β} {l : List α} {b : β} :
    b ∈ l.mapIdx f ↔ ∃ i a, l[i]? = some a ∧ b = f i a := by
  rw [List.mem_iff_getElem?]
  constructor
  · rintro ⟨i, h⟩
    rw [List.getElem?_mapIdx] at h
    obtain ⟨a, ha, hf⟩ := Option.map_eq_some_iff.mp h
    exact ⟨i, a, ha, hf.symm⟩
  · rintro ⟨i, a, ha, rfl⟩
    exact ⟨i, by rw [List.getElem?_mapIdx, ha]; rfl⟩

theorem mem_mapIdx_flatten_iff {α β : Type} {f : Nat → α → List β} {l : List α} {b : β} :
    b ∈ (l.mapIdx f).flatten ↔ ∃ i a, l[i]? = some a ∧ b ∈ f i a := by
  rw [List.mem_flatten]
  constructor
  · rintro ⟨bs, hbs, hb⟩
    obtain ⟨i, a, ha, rfl⟩ := mem_mapIdx_iff.mp hbs
    exact ⟨i, a, ha, hb⟩
  · rintro ⟨i, a, ha, hb⟩
    exact ⟨f i a, mem_mapIdx_iff.mpr ⟨i, a, ha, rfl⟩, hb⟩

theorem map_mapIdx_of_eq {α β γ : Type} {f : Nat → α → β} {g : β → γ} {g' : α → γ}
    (h : ∀ i x, g (f i x) = g' x) (xs : List α) : (xs.mapIdx f).map g = xs.map g' := by
  apply List.ext_getElem?
  intro i
  rw [List.getElem?_map, List.getElem?_mapIdx, List.getElem?_map, Option.map_map]
  cases xs[i]? with
  | none => rfl
  | some x => exact congrArg some (h i x)

theorem pairwise_mapIdx {α β : Type} {R : β → β → Prop} {f : Nat → α → β}
    (h : ∀ i j a b, i < j → R (f i a) (f j b)) (l : List α) : (l.mapIdx f).Pairwise R := by
  rw [List.pairwise_iff_getElem]
  intro i j hi hj hij
  rw [List.getElem_mapIdx, List.getElem_mapIdx]
  exact h i j _ _ hij

/-- where all keys are different, a key is found at one position only -/
theorem index_eq_of_nodup {α β : Type} {f : α → β} {l : List α} (h : (l.map f).Nodup) {i j : Nat}
    {a b : α} (hi : l[i]? = some a) (hj : l[j]? = some b) (hab : f a = f b) : i = j := by
  have hlt : i < (l.map f).length := by
    rw [List.length_map]
    exact (List.getElem?_eq_some_iff.mp hi).1
  refine (List.getElem?_inj hlt h).mp ?_
  rw [List.getElem?_map, List.getElem?_map, hi, hj]
  exact congrArg some hab

/-- leaving out what gives nothing changes nothing -/
theorem flatMap_filter_of_eq_nil {α β : Type} {p : α → Bool} {f : α → List β} {l : List α}
    (h : ∀ a ∈ l, p a = false → f a = []) : (l.filter p).flatMap f = l.flatMap f := by
  induction l with
  | nil => rfl
  | cons a l ih =>
    have hrest := ih fun x hx => h x (List.mem_cons_of_mem a hx)
    cases hp : p a with
    | true => rw [List.filter_cons_of_pos hp, List.flatMap_cons, List.flatMap_cons, hrest]
    | false =>
      rw [List.filter_cons_of_neg (Bool.not_eq_true _ ▸ hp), List.flatMap_cons,
        h a List.mem_cons_self hp, hrest]
      rfl

theorem map_filter_eq_flatMap {α β : Type} (p : α → Bool) (g : α → β) (l : List α) :
    (l.filter p).map g = l.flatMap fun a => if p a then [g a] else [] := by
  induction l with
  | nil => rfl
  | cons a l ih =>
    cases hp : p a with
    | true =>
      rw [List.filter_cons_of_pos hp, List.map_cons, List.flatMap_cons, hp, ih]
      rfl
    | false =>
      rw [List.filter_cons_of_neg (Bool.not_eq_true _ ▸ hp), List.flatMap_cons, hp, ih]
      rfl

theorem TypeDef.struct?_eq_some {t : TypeDef} {s : StructType} :
    t.struct? = some s ↔ ∃ inner, t = .struct s inner := by
  cases t with
  | struct s' inner => simp [struct?]
  | enumeration x => simp [struct?]
  | array a => simp [struct?]
  | «alias» a => simp [struct?]

theorem TypeDef.enumeration?_eq_some {t : TypeDef} {x : EnumerationType} :
    t.enumeration? = some x ↔ t = .enumeration x := by
  cases t with
  | struct s inner => simp [enumeration?]
  | enumeration y => simp [enumeration?]
  | array a => simp [enumeration?]
  | «alias» a => simp [enumeration?]

/-! ## lists of entries -/

theorem Entry.mem_inners {e x : Entry} :
    x ∈ e.inners ↔
      ∃ s inner i t, e.type = .struct s inner ∧ inner[i]? = some t ∧ x = e.innerEntry s i t := by
  unfold Entry.inners
  cases ht : e.type with
  | struct s inner =>
    show x ∈ inner.mapIdx (e.innerEntry s) ↔ _
    rw [mem_mapIdx_iff]
    constructor
    · rintro ⟨i, t, hi, rfl⟩
      exact ⟨s, inner, i, t, rfl, hi, rfl⟩
    · rintro ⟨s', inner', i, t, hs, hi, rfl⟩
      injection hs with hs hinner
      subst hs hinner
      exact ⟨i, t, hi, rfl⟩
  | enumeration y => simp
  | array a => simp
  | «alias» a => simp

/-- the types inside a struct have entries -/
theorem Entry.exists_inner {e : Entry} {t : TypeDef} (h : t ∈ e.type.innerTypes) :
    ∃ x ∈ e.inners, x.type = t := by
  obtain ⟨i, hi⟩ := List.mem_iff_getElem?.mp h
  cases ht : e.type with
  | struct s inner =>
    rw [ht] at hi
    exact ⟨_, Entry.mem_inners.mpr ⟨s, inner, i, t, ht, hi, rfl⟩, rfl⟩
  | enumeration x => rw [ht] at hi; cases hi
  | array a => rw [ht] at hi; cases hi
  | «alias» a => rw [ht] at hi; cases hi

namespace Model

theorem mem_topLevelTypes {m : Model} {e : Entry} :
    e ∈ m.topLevelTypes ↔ ∃ i t, m.types[i]? = some t ∧ e = topLevelEntry i t :=
  mem_mapIdx_iff

theorem mem_packagedTypes {m : Model} {e : Entry} :
    e ∈ m.packagedTypes ↔ ∃ p package i t,
      m.packages[p]? = some package ∧ package.types[i]? = some t ∧
        e = packagedEntry p package i t := by
  unfold packagedTypes
  rw [mem_mapIdx_flatten_iff]
  constructor
  · rintro ⟨p, package, hp, he⟩
    obtain ⟨i, t, hi, rfl⟩ := mem_mapIdx_iff.mp he
    exact ⟨p, package, i, t, hp, hi, rfl⟩
  · rintro ⟨p, package, i, t, hp, hi, rfl⟩
    exact ⟨p, package, hp, mem_mapIdx_iff.mpr ⟨i, t, hi, rfl⟩⟩

theorem mem_basicTypes_iff {m : Model} {x : BasicId × BasicType} :
    x ∈ m.basicTypes ↔ m.basic? x.1 = some x.2 := by
  unfold basicTypes basic?
  rw [mem_mapIdx_flatten_iff]
  constructor
  · rintro ⟨g, group, hg, hx⟩
    obtain ⟨i, b, hi, rfl⟩ := mem_mapIdx_iff.mp hx
    rw [hg]
    exact hi
  · intro h
    obtain ⟨group, hg, hi⟩ := Option.bind_eq_some_iff.mp h
    exact ⟨x.1.group, group, hg, mem_mapIdx_iff.mpr ⟨x.1.index, x.2, hi, rfl⟩⟩

/-! ## handles -/

theorem type?_outside (m : Model) (p : Option Nat) (i : Nat) :
    m.type? ⟨p, i, none⟩ = (m.container? p).bind fun types => types[i]? := by
  show ((m.container? p).bind fun types => types[i]?.bind fun t => some t) = _
  exact congrArg _ (funext fun types => Option.bind_fun_some _)

theorem type?_topLevel (m : Model) (i : Nat) : m.type? (.topLevel i) = m.types[i]? :=
  m.type?_outside none i

theorem type?_packaged (m : Model) (p i : Nat) :
    m.type? (.packaged p i) = (m.packages[p]?).bind fun package => package.types[i]? := by
  rw [show TypeId.packaged p i = ⟨some p, i, none⟩ from rfl, type?_outside]
  exact Option.bind_map

/-- an inner handle points into the declaration at the handle around it -/
theorem type?_withInner (m : Model) (id : TypeId) (i : Nat) :
    m.type? (id.withInner i) = (m.type? id.outer).bind fun t => t.innerTypes[i]? := by
  show ((m.container? id.package).bind fun types =>
      types[id.index]?.bind fun t => t.innerTypes[i]?) =
    (((m.container? id.package).bind fun types => types[id.index]?.bind fun t => some t)).bind
      fun t => t.innerTypes[i]?
  cases m.container? id.package with
  | none => rfl
  | some types =>
    show (types[id.index]?.bind fun t => t.innerTypes[i]?) =
      (types[id.index]?.bind fun t => some t).bind fun t => t.innerTypes[i]?
    rw [Option.bind_fun_some]

theorem entry?_eq_some_iff {m : Model} {id : TypeId} {e : Entry} :
    m.entry? id = some e ↔
      m.type? id = some e.type ∧ e.id = id ∧ e.package = m.package? id ∧ e.outer = m.outer? id := by
  unfold entry?
  rw [Option.map_eq_some_iff]
  constructor
  · rintro ⟨t, ht, rfl⟩
    exact ⟨ht, rfl, rfl, rfl⟩
  · rintro ⟨ht, hid, hp, ho⟩
    refine ⟨e.type, ht, ?_⟩
    rw [← hp, ← ho, ← hid]

theorem mem_declaredTypes_iff {m : Model} {e : Entry} :
    e ∈ m.declaredTypes ↔ m.entry? e.id = some e ∧ e.id.inner = none := by
  unfold declaredTypes
  rw [List.mem_append, mem_topLevelTypes, mem_packagedTypes, entry?_eq_some_iff]
  constructor
  · rintro (⟨i, t, hi, rfl⟩ | ⟨p, package, i, t, hp, hi, rfl⟩)
    · exact ⟨⟨(m.type?_topLevel i).trans hi, rfl, rfl, rfl⟩, rfl⟩
    · refine ⟨⟨?_, rfl, hp.symm, rfl⟩, rfl⟩
      show m.type? (.packaged p i) = some t
      rw [type?_packaged, hp]
      exact hi
  · rintro ⟨⟨ht, _, hp, ho⟩, hin⟩
    obtain ⟨⟨pk, i, inn⟩, package, outer, t⟩ := e
    replace hin : inn = none := hin
    subst hin
    replace ho : outer = none := ho
    cases pk with
    | none =>
      left
      rw [show (⟨none, i, none⟩ : TypeId) = .topLevel i from rfl, type?_topLevel] at ht
      replace hp : package = none := hp
      rw [ho, hp]
      exact ⟨i, t, ht, rfl⟩
    | some p =>
      right
      rw [show (⟨some p, i, none⟩ : TypeId) = .packaged p i from rfl, type?_packaged] at ht
      obtain ⟨pack, hpack, hi⟩ := Option.bind_eq_some_iff.mp ht
      replace hp : package = m.packages[p]? := hp
      rw [ho, hp, hpack]
      exact ⟨p, pack, i, t, hpack, hi, rfl⟩

theorem outer_eq_none_of_mem_declaredTypes {m : Model} {e : Entry} (he : e ∈ m.declaredTypes) :
    e.outer = none := by
  obtain ⟨hentry, hin⟩ := mem_declaredTypes_iff.mp he
  rw [(entry?_eq_some_iff.mp hentry).2.2.2, outer?, TypeId.isInner, hin]
  rfl

theorem mem_innerTypes_iff {m : Model} {e : Entry} :
    e ∈ m.innerTypes ↔ m.entry? e.id = some e ∧ e.id.isInner = true := by
  unfold innerTypes
  rw [List.mem_flatMap]
  constructor
  · rintro ⟨d, hd, he⟩
    obtain ⟨hde, hdi⟩ := mem_declaredTypes_iff.mp hd
    obtain ⟨hdt, _, hdp, _⟩ := entry?_eq_some_iff.mp hde
    obtain ⟨s, inner, i, t, hs, hi, rfl⟩ := Entry.mem_inners.mp he
    have hout : d.id.outer = d.id := by rw [TypeId.outer, ← hdi]
    have ht : m.type? d.id.outer = some (.struct s inner) := by rw [hout, hdt, hs]
    refine ⟨entry?_eq_some_iff.mpr ⟨?_, rfl, hdp, ?_⟩, rfl⟩
    · show m.type? (d.id.withInner i) = some t
      rw [type?_withInner, ht]
      exact hi
    · show some s = (m.type? d.id.outer).bind TypeDef.struct?
      rw [ht]
      rfl
  · rintro ⟨he, hin⟩
    obtain ⟨ht, _, hp, ho⟩ := entry?_eq_some_iff.mp he
    obtain ⟨⟨pk, i, inn⟩, package, outer, t⟩ := e
    cases inn with
    | none => exact absurd hin Bool.false_ne_true
    | some j =>
      rw [show (⟨pk, i, some j⟩ : TypeId) = (⟨pk, i, none⟩ : TypeId).withInner j from rfl,
        type?_withInner] at ht
      obtain ⟨d, hd, hj⟩ := Option.bind_eq_some_iff.mp ht
      replace hd : m.type? ⟨pk, i, none⟩ = some d := hd
      cases d with
      | struct s inner =>
        replace ho : outer = (m.type? ⟨pk, i, none⟩).bind TypeDef.struct? := ho
        rw [hd] at ho
        refine ⟨⟨⟨pk, i, none⟩, package, none, .struct s inner⟩, ?_, ?_⟩
        · exact mem_declaredTypes_iff.mpr ⟨entry?_eq_some_iff.mpr ⟨hd, rfl, hp, rfl⟩, rfl⟩
        · refine Entry.mem_inners.mpr ⟨s, inner, j, t, rfl, hj, ?_⟩
          rw [ho]
          rfl
      | enumeration y => exact absurd hj (by simp [TypeDef.innerTypes])
      | array a => exact absurd hj (by simp [TypeDef.innerTypes])
      | «alias» a => exact absurd hj (by simp [TypeDef.innerTypes])

/-- an entry is listed if and only if its handle points to it -/
theorem mem_allTypes_iff {m : Model} {e : Entry} :
    e ∈ m.allTypes ↔ m.entry? e.id = some e := by
  unfold allTypes
  rw [List.mem_append, mem_declaredTypes_iff, mem_innerTypes_iff, ← and_or_left, and_iff_left]
  cases h : e.id.inner with
  | none => exact Or.inl rfl
  | some i => exact Or.inr (by rw [TypeId.isInner, h]; rfl)

theorem entry?_eq_some_iff_mem {m : Model} {id : TypeId} {e : Entry} :
    m.entry? id = some e ↔ e ∈ m.allTypes ∧ e.id = id := by
  rw [mem_allTypes_iff]
  constructor
  · intro h
    have hid := (entry?_eq_some_iff.mp h).2.1
    exact ⟨hid.symm ▸ h, hid⟩
  · rintro ⟨h, rfl⟩
    exact h

theorem mem_walk_iff {m : Model} {e : Entry} : e ∈ m.walk ↔ e ∈ m.allTypes := by
  unfold walk allTypes innerTypes
  rw [List.mem_append, List.mem_flatMap, List.mem_flatMap]
  constructor
  · rintro ⟨d, hd, he⟩
    rcases List.mem_cons.mp he with rfl | he
    · exact Or.inl hd
    · exact Or.inr ⟨d, hd, he⟩
  · rintro (he | ⟨d, hd, he⟩)
    · exact ⟨e, he, List.mem_cons_self⟩
    · exact ⟨d, hd, List.mem_cons_of_mem _ he⟩

theorem type?_id_of_mem {m : Model} {e : Entry} (he : e ∈ m.allTypes) :
    m.type? e.id = some e.type :=
  (entry?_eq_some_iff.mp (mem_allTypes_iff.mp he)).1

/-- every handle that points to a declaration is the handle of an entry -/
theorem exists_entry_of_type? {m : Model} {id : TypeId} {t : TypeDef} (h : m.type? id = some t) :
    ∃ e ∈ m.allTypes, m.entry? id = some e ∧ e.id = id ∧ e.type = t := by
  have he : m.entry? id = some ⟨id, m.package? id, m.outer? id, t⟩ :=
    entry?_eq_some_iff.mpr ⟨h, rfl, rfl, rfl⟩
  exact ⟨_, mem_allTypes_iff.mpr he, he, rfl, rfl⟩

theorem eq_of_id_eq {m : Model} {a b : Entry} (ha : a ∈ m.allTypes) (hb : b ∈ m.allTypes)
    (h : a.id = b.id) : a = b := by
  rw [mem_allTypes_iff] at ha hb
  rw [h, hb] at ha
  exact (Option.some.inj ha).symm

/-! ## different handles -/

theorem pairwise_id_topLevelTypes (m : Model) :
    m.topLevelTypes.Pairwise fun a b => a.id ≠ b.id := by
  refine pairwise_mapIdx ?_ _
  intro i j a b hij h
  have hindex : i = j := congrArg TypeId.index h
  omega

theorem pairwise_id_packagedTypes (m : Model) :
    m.packagedTypes.Pairwise fun a b => a.id ≠ b.id := by
  refine List.pairwise_flatten.mpr ⟨?_, pairwise_mapIdx ?_ _⟩
  · intro es hes
    obtain ⟨p, package, _, rfl⟩ := mem_mapIdx_iff.mp hes
    refine pairwise_mapIdx ?_ _
    intro i j a b hij h
    have hindex : i = j := congrArg TypeId.index h
    omega
  · intro p q a b hpq x hx y hy h
    obtain ⟨i, t, _, rfl⟩ := mem_mapIdx_iff.mp hx
    obtain ⟨j, u, _, rfl⟩ := mem_mapIdx_iff.mp hy
    have hpackage : p = q := Option.some.inj (congrArg TypeId.package h)
    omega

theorem pairwise_id_declaredTypes (m : Model) :
    m.declaredTypes.Pairwise fun a b => a.id ≠ b.id := by
  refine List.pairwise_append.mpr
    ⟨m.pairwise_id_topLevelTypes, m.pairwise_id_packagedTypes, ?_⟩
  intro a ha b hb h
  obtain ⟨i, t, _, rfl⟩ := mem_topLevelTypes.mp ha
  obtain ⟨p, package, j, u, _, _, rfl⟩ := mem_packagedTypes.mp hb
  cases congrArg TypeId.package h

theorem outer_id_of_mem_inners {e x : Entry} (h : x ∈ e.inners) : x.id.outer = e.id.outer := by
  obtain ⟨s, inner, i, t, _, _, rfl⟩ := Entry.mem_inners.mp h
  rfl

theorem pairwise_id_inners (e : Entry) : e.inners.Pairwise fun a b => a.id ≠ b.id := by
  unfold Entry.inners
  split
  · refine pairwise_mapIdx ?_ _
    intro i j a b hij h
    have hinner : i = j := Option.some.inj (congrArg TypeId.inner h)
    omega
  · exact List.Pairwise.nil

/-- a handle tells the declaration around it, and the place inside that one -/
theorem nodup_ids_walk (m : Model) : (m.walk.map (·.id)).Nodup := by
  rw [List.nodup_iff_pairwise_ne, List.pairwise_map]
  unfold walk
  rw [List.pairwise_flatMap]
  constructor
  · intro e he
    refine List.pairwise_cons.mpr ⟨?_, pairwise_id_inners e⟩
    intro x hx h
    obtain ⟨s, inner, i, t, _, _, rfl⟩ := Entry.mem_inners.mp hx
    have hinner : e.id.inner = some i := congrArg TypeId.inner h
    rw [(mem_declaredTypes_iff.mp he).2] at hinner
    cases hinner
  · refine m.pairwise_id_declaredTypes.imp_of_mem ?_
    intro a b ha hb hne x hx y hy h
    have houter : ∀ e ∈ m.declaredTypes, ∀ z ∈ e :: e.inners, z.id.outer = e.id := by
      intro e he z hz
      have hid : e.id.outer = e.id := by rw [TypeId.outer, ← (mem_declaredTypes_iff.mp he).2]
      rcases List.mem_cons.mp hz with rfl | hz
      · exact hid
      · exact (outer_id_of_mem_inners hz).trans hid
    apply hne
    rw [← houter a ha x hx, ← houter b hb y hy, h]

theorem allTypes_perm_walk (m : Model) : m.allTypes.Perm m.walk := by
  have h := List.map_append_flatMap_perm m.declaredTypes id Entry.inners
  rw [List.map_id] at h
  exact h

theorem nodup_ids_allTypes (m : Model) : (m.allTypes.map (·.id)).Nodup :=
  (m.allTypes_perm_walk.map _).nodup_iff.mpr m.nodup_ids_walk

end Model

end TypeModel
