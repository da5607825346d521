import TypeModel.Proofs.Proto.EnumValues
import TypeModel.Proofs.Proto.Layout

/-!
# The names in a C++ enum

A C++ enum has the enumerators of all enumerations that its own extends, and C++ wants all their
names to be different.  Analysis compares the names inside one enumeration only.

* `Model.RepeatsNone m e`            the enumeration `e` repeats no name of an enumerator that it
                                     inherits;
* `BasesEnd.foldedNames_cons`        the names along a chain of bases: those inherited, then its own;
* `SoundBases.nodup_foldedNames_iff` they are different if and only if no enumeration on the chain
                                     repeats a name;
* `enumerators_distinct_iff`         the same for the enum that is written, after analysis;
* `not_distinct_skipping`            a name comes back in the second enumeration behind its first.
-/

namespace TypeModel

namespace Model
variable {m : Model}

/-- no enumerator of `e` is named like one of an enumeration that `e` extends, near or far -/
def RepeatsNone (m : Model) (e : Entry) : Prop :=
  ∀ x, e.type = .enumeration x → ∀ b ∈ m.allTypes, ∀ y, b.type = .enumeration y →
    Reaches m.baseOf e.id b.id → ∀ v ∈ x.enumerators, ∀ w ∈ y.enumerators, v.name ≠ w.name

/-- the names in the enum of an enumeration -/
def foldedNames (m : Model) (id : TypeId) (x : EnumerationType) : List Name :=
  (m.foldedEnumerators id x).map Prod.fst

theorem foldedNames_eq (m : Model) (id : TypeId) (x : EnumerationType) :
    m.foldedNames id x =
      ((m.baseEnumerations id).reverse.flatMap (·.enumerators)).map Enumerator.name ++
        x.enumerators.map Enumerator.name := by
  unfold foldedNames foldedEnumerators
  rw [map_fst_numberFrom, List.map_append]

theorem foldedNames_of_none {id : TypeId} (h : m.baseOf id = none) (x : EnumerationType) :
    m.foldedNames id x = x.enumerators.map Enumerator.name := by
  rw [foldedNames_eq, baseEnumerations_of_none h]
  rfl

theorem BasesEnd.foldedNames_cons (hm : m.BasesEnd) {a b : TypeId} (h : m.baseOf a = some b)
    {y : EnumerationType} (hb : m.type? b = some (.enumeration y)) (x : EnumerationType) :
    m.foldedNames a x = m.foldedNames b y ++ x.enumerators.map Enumerator.name := by
  rw [foldedNames_eq, foldedNames_eq, hm.baseEnumerations_cons h hb, List.reverse_cons,
    List.flatMap_append, List.map_append, List.flatMap_singleton]

/-- the base of an enumeration is an enumeration -/
theorem SoundBases.exists_enumeration (hm : m.SoundBases) {e : Entry} (he : e ∈ m.allTypes)
    {x : EnumerationType} (ht : e.type = .enumeration x) {b : TypeId}
    (h : m.baseOf e.id = some b) :
    ∃ d ∈ m.allTypes, d.id = b ∧ ∃ y, d.type = .enumeration y := by
  obtain ⟨d, hd, hid, hk⟩ := hm.exists_base he h
  refine ⟨d, hd, hid, ?_⟩
  rw [ht] at hk
  cases hdt : d.type with
  | enumeration y => exact ⟨y, rfl⟩
  | struct sb innerb => rw [hdt] at hk; cases hk
  | array a => rw [hdt] at hk; cases hk
  | «alias» a => rw [hdt] at hk; cases hk

/-- what the enum of the base has, the enumeration inherits -/
theorem BasesEnd.mem_foldedNames_base (hm : m.BasesEnd) {e d : Entry} (hd : d ∈ m.allTypes)
    (h : m.baseOf e.id = some d.id) {y : EnumerationType} (hdt : d.type = .enumeration y)
    {n : Name} : n ∈ m.foldedNames d.id y ↔
      ∃ b ∈ m.allTypes, ∃ z, b.type = .enumeration z ∧ Reaches m.baseOf e.id b.id ∧
        ∃ w ∈ z.enumerators, w.name = n := by
  rw [foldedNames_eq, List.mem_append, List.map_flatMap, List.mem_flatMap]
  simp only [List.mem_reverse, List.mem_map, mem_baseEnumerations, TypeDef.enumeration?_eq_some]
  constructor
  · rintro (⟨z, ⟨b, hb, hbt, hr, _⟩, w, hw, hn⟩ | ⟨w, hw, hn⟩)
    · exact ⟨b, hb, z, hbt, Reaches.cons h hr, w, hw, hn⟩
    · exact ⟨d, hd, y, hdt, Reaches.single h, w, hw, hn⟩
  · rintro ⟨b, hb, z, hbt, hr, w, hw, hn⟩
    obtain ⟨c, hc, hcb⟩ := hr.next
    rw [h] at hc
    obtain rfl := Option.some.inj hc
    rcases hcb with hcb | hcb
    · obtain rfl := eq_of_id_eq hd hb hcb
      rw [hdt] at hbt
      obtain rfl := TypeDef.enumeration.inj hbt
      exact Or.inr ⟨w, hw, hn⟩
    · refine Or.inl ⟨z, ⟨b, hb, hbt, hcb, ?_⟩, w, hw, hn⟩
      intro hbd
      rw [hbd] at hcb
      exact hm _ hcb

/-- the names that an enumeration inherits are different by the hypothesis for its base, and what it
adds is different from them if and only if it repeats none -/
theorem SoundBases.nodup_foldedNames_iff (hm : m.SoundBases)
    (hown : ∀ e ∈ m.allTypes, ∀ x, e.type = .enumeration x →
      (x.enumerators.map Enumerator.name).Nodup) :
    ∀ e ∈ m.allTypes, ∀ x, e.type = .enumeration x →
      ((m.foldedNames e.id x).Nodup ↔
        m.RepeatsNone e ∧ ∀ a ∈ m.allTypes, Reaches m.baseOf e.id a.id → m.RepeatsNone a) := by
  have hall : ∀ id, ∀ e ∈ m.allTypes, e.id = id → ∀ x, e.type = .enumeration x →
      ((m.foldedNames e.id x).Nodup ↔
        m.RepeatsNone e ∧ ∀ a ∈ m.allTypes, Reaches m.baseOf e.id a.id → m.RepeatsNone a) := by
    refine hm.ends.induction ?_ ?_
    · rintro _ hb e he rfl x ht
      have hends : ∀ a, ¬ Reaches m.baseOf e.id a := by
        intro a ha
        obtain ⟨c, hc, _⟩ := ha.next
        rw [hb] at hc
        cases hc
      rw [foldedNames_of_none hb]
      refine iff_of_true (hown e he x ht) ⟨?_, fun a _ ha => absurd ha (hends a.id)⟩
      exact fun _ _ b _ _ _ hr => absurd hr (hends b.id)
    · rintro _ b hb ih e he rfl x ht
      obtain ⟨d, hd, rfl, y, hdt⟩ := hm.exists_enumeration he ht hb
      have hrest : (∀ a ∈ m.allTypes, Reaches m.baseOf e.id a.id → m.RepeatsNone a) ↔
          m.RepeatsNone d ∧ ∀ a ∈ m.allTypes, Reaches m.baseOf d.id a.id → m.RepeatsNone a := by
        constructor
        · exact fun h => ⟨h d hd (Reaches.single hb), fun a ha hr => h a ha (Reaches.cons hb hr)⟩
        · rintro ⟨hfirst, hothers⟩ a ha hr
          obtain ⟨c, hc, hca⟩ := hr.next
          rw [hb] at hc
          obtain rfl := Option.some.inj hc
          rcases hca with hca | hca
          · exact eq_of_id_eq hd ha hca ▸ hfirst
          · exact hothers a ha hca
      have hnew : (∀ n ∈ m.foldedNames d.id y, ∀ k ∈ x.enumerators.map Enumerator.name, n ≠ k) ↔
          m.RepeatsNone e := by
        constructor
        · intro h x' ht' b hbm z hbt hr v hv w hw hvw
          rw [ht] at ht'
          obtain rfl := TypeDef.enumeration.inj ht'
          have hmem : w.name ∈ m.foldedNames d.id y :=
            (hm.ends.mem_foldedNames_base hd hb hdt).mpr ⟨b, hbm, z, hbt, hr, w, hw, rfl⟩
          exact h w.name hmem v.name (List.mem_map_of_mem hv) hvw.symm
        · intro h n hn k hk hnk
          obtain ⟨b, hbm, z, hbt, hr, w, hw, rfl⟩ :=
            (hm.ends.mem_foldedNames_base hd hb hdt).mp hn
          obtain ⟨v, hv, rfl⟩ := List.mem_map.mp hk
          exact h x ht b hbm z hbt hr v hv w hw hnk.symm
      have hbase : m.type? d.id = some (.enumeration y) :=
        (type?_id_of_mem hd).trans (congrArg some hdt)
      rw [hm.ends.foldedNames_cons hb hbase, List.nodup_append, hnew, ih d hd rfl y hdt, hrest,
        and_iff_right (hown e he x ht), and_comm]
  exact fun e he x ht => hall e.id e he rfl x ht

end Model

namespace Cpp

/-- after analysis, the names in the C++ enum of an enumeration are different if and only if neither
it nor an enumeration that it extends repeats a name that it inherits -/
theorem enumerators_distinct_iff {m r : Model} {ds : Diagnostics} (h : m.analyze = (r, .ok ds))
    {e : Entry} (he : e ∈ r.allTypes) {x : EnumerationType} (ht : e.type = .enumeration x) :
    ∃ c, Proto.CppEnum r e x c ∧
      ((c.values.map Prod.fst).Nodup ↔
        r.RepeatsNone e ∧ ∀ a ∈ r.allTypes, Reaches r.baseOf e.id a.id → r.RepeatsNone a) := by
  have hr : m.analyze.1 = r := congrArg Prod.fst h
  have hok : m.analyze.2 = .ok ds := congrArg Prod.snd h
  have hm : r.SoundBases := hr ▸ Model.soundBases_of_analyze hok
  have hsound : ∀ e ∈ r.allTypes, e.type.Sound := hr ▸ Model.sound_of_analyze hok
  have hown : ∀ e ∈ r.allTypes, ∀ x, e.type = .enumeration x →
      (x.enumerators.map Enumerator.name).Nodup := by
    intro e he x ht
    have := hsound e he
    rwa [ht] at this
  have hc := Proto.cppEnum_enumDeclaration (m := r) ht
  exact ⟨_, hc, hm.nodup_foldedNames_iff hown e he x ht⟩

/-- `Derived` repeats an enumerator of `Base`, which it extends by way of `Middle` -/
def skipping : Model :=
  { types :=
      [.enumeration { name := "Base", enumerators := [{ name := "NONE" }] },
        .enumeration
          { name := "Middle", base := some { name := "Base" },
            enumerators := [{ name := "LOW" }] },
        .enumeration
          { name := "Derived", base := some { name := "Middle" },
            enumerators := [{ name := "NONE" }] }] }

theorem analyze_skipping : skipping.analyze = (skipping.analyze.1, .ok []) :=
  Prod.ext rfl (by decide +kernel)

/-- the names are different in the enum of `Middle`, and not in that of `Derived` -/
theorem enumerators_distinct_iff_skipping :
    skipping.analyze = (skipping.analyze.1, .ok []) ∧
      (∃ e ∈ skipping.analyze.1.allTypes, e.name = "Middle" ∧
        skipping.analyze.1.RepeatsNone e) ∧
      ∃ e ∈ skipping.analyze.1.allTypes, e.name = "Derived" ∧
        ¬ (skipping.analyze.1.RepeatsNone e ∧ ∀ a ∈ skipping.analyze.1.allTypes,
          Reaches skipping.analyze.1.baseOf e.id a.id → skipping.analyze.1.RepeatsNone a) := by
  have hmiddle := List.mem_of_getElem? (l := skipping.analyze.1.allTypes) (i := 1) rfl
  have hderived := List.mem_of_getElem? (l := skipping.analyze.1.allTypes) (i := 2) rfl
  refine ⟨analyze_skipping, ⟨_, hmiddle, rfl, ?_⟩, _, hderived, rfl, ?_⟩
  · obtain ⟨c, hc, hiff⟩ := enumerators_distinct_iff analyze_skipping hmiddle rfl
    refine (hiff.mp ?_).1
    rw [hc.values]
    decide +kernel
  · obtain ⟨c, hc, hiff⟩ := enumerators_distinct_iff analyze_skipping hderived rfl
    refine mt hiff.mpr ?_
    rw [hc.values]
    decide +kernel

/-- the enum of `Derived` has the enumerator `NONE` twice -/
theorem not_distinct_skipping :
    skipping.analyze.2 = .ok [] ∧
      ∃ e ∈ skipping.analyze.1.allTypes, ∃ x, e.type = .enumeration x ∧
        skipping.analyze.1.foldedEnumerators e.id x = [("NONE", 0), ("LOW", 1), ("NONE", 2)] :=
  ⟨congrArg Prod.snd analyze_skipping, _, List.mem_of_getElem? (i := 2) rfl, _, rfl, by
    decide +kernel⟩

end Cpp

end TypeModel
