import TypeModel.Proofs.Analysis.Names
import TypeModel.Proofs.Generation.Cpp

/-!
# When two types are spelled alike

A type is written behind its namespace, which is left out where the namespace is open already.
Analysis compares the names in each list of types, but types of several lists may come together in
one namespace, and a name without a namespace is not marked as one.

* `fullName e`                    a type as written outside all namespaces;
* `Unambiguous m`                 full names are different, and no type is hidden by the short name
                                  of another;
* `spellings_differ_iff`          after analysis, all types are spelled differently in every
                                  namespace of the model if and only if it is unambiguous; then a
                                  spelling tells what a reference is bound to;
* `not_spellings_differ_hidden`   a type without a namespace and a packaged one of the same name.
-/

namespace TypeModel

namespace Cpp
variable {m : Model} {a b e : Entry} {ns : Option String}

/-! ## spellings -/

def fullName (e : Entry) : String := qualifiedName e none

theorem fullName_of_some {space : String} (h : namespaceOf e = some space) :
    fullName e = space ++ "::" ++ localName e := by
  rw [fullName, qualifiedName, h]
  rfl

theorem fullName_of_none (h : namespaceOf e = none) : fullName e = localName e := by
  rw [fullName, qualifiedName, h]

/-- a type is written by its short name in its own namespace, and by its full name elsewhere -/
theorem qualifiedName_eq (e : Entry) (ns : Option String) :
    qualifiedName e ns = if namespaceOf e = ns then localName e else fullName e := by
  cases he : namespaceOf e with
  | none =>
    rw [fullName_of_none he, ite_self, qualifiedName, he]
  | some space =>
    rw [fullName_of_some he, qualifiedName, he]

theorem fullName_eq_iff (h : namespaceOf a = namespaceOf b) :
    fullName a = fullName b ↔ localName a = localName b := by
  cases ha : namespaceOf a with
  | none => rw [fullName_of_none ha, fullName_of_none (h ▸ ha)]
  | some space =>
    rw [fullName_of_some ha, fullName_of_some (h ▸ ha)]
    exact String.append_right_inj _

/-- in one namespace, two types are spelled alike from everywhere or from nowhere -/
theorem qualifiedName_eq_iff (h : namespaceOf a = namespaceOf b) :
    qualifiedName a ns = qualifiedName b ns ↔ fullName a = fullName b := by
  rw [qualifiedName_eq, qualifiedName_eq, h]
  by_cases hns : namespaceOf b = ns
  · rw [if_pos hns, if_pos hns, fullName_eq_iff h]
  · rw [if_neg hns, if_neg hns]

theorem name_eq_of_localName_eq (houter : a.outer = b.outer) (h : localName a = localName b) :
    a.name = b.name := by
  unfold localName at h
  rw [houter] at h
  cases hb : b.outer with
  | none =>
    rw [hb] at h
    exact h
  | some outer =>
    rw [hb] at h
    exact (String.append_right_inj _).mp h

/-! ## what has to be different -/

structure Unambiguous (m : Model) : Prop where
  /-- types of different lists or different namespaces have different full names -/
  apart : ∀ a ∈ m.allTypes, ∀ b ∈ m.allTypes,
    a.id.scope ≠ b.id.scope ∨ namespaceOf a ≠ namespaceOf b → fullName a ≠ fullName b
  /-- inside a namespace, the short name of a type is not the full name of one from outside -/
  unhidden : ∀ a ∈ m.allTypes, ∀ b ∈ m.allTypes, ∀ space,
    namespaceOf a = some space → namespaceOf b ≠ some space → localName a ≠ fullName b

/-- analysis has compared the types of one list, so with one namespace they are different -/
theorem Unambiguous.fullName_ne (hu : Unambiguous m) (hm : m.DistinctNames) (ha : a ∈ m.allTypes)
    (hb : b ∈ m.allTypes) (hab : a ≠ b) : fullName a ≠ fullName b := by
  by_cases hns : namespaceOf a = namespaceOf b
  · by_cases hscope : a.id.scope = b.id.scope
    · intro h
      have houter := Model.outer_eq_of_scope_eq ha hb hscope
      have hname := name_eq_of_localName_eq houter ((fullName_eq_iff hns).mp h)
      exact hab (hm.eq_of_name_eq ha hb hscope hname)
    · exact hu.apart a ha b hb (Or.inl hscope)
  · exact hu.apart a ha b hb (Or.inr hns)

theorem Unambiguous.localName_ne (hu : Unambiguous m) (ha : a ∈ m.allTypes) (hb : b ∈ m.allTypes)
    (hne : namespaceOf a ≠ namespaceOf b) : localName a ≠ fullName b := by
  cases hns : namespaceOf a with
  | none =>
    rw [← fullName_of_none hns]
    exact hu.apart a ha b hb (Or.inr hne)
  | some space => exact hu.unhidden a ha b hb space hns fun h => hne (hns.trans h.symm)

theorem Unambiguous.qualifiedName_ne (hu : Unambiguous m) (hm : m.DistinctNames)
    (ha : a ∈ m.allTypes) (hb : b ∈ m.allTypes) (hab : a ≠ b) (ns : Option String) :
    qualifiedName a ns ≠ qualifiedName b ns := by
  have hfull := hu.fullName_ne hm ha hb hab
  by_cases hne : namespaceOf a = namespaceOf b
  · exact mt (qualifiedName_eq_iff hne).mp hfull
  · rw [qualifiedName_eq, qualifiedName_eq]
    -- at most one of the two is in its own namespace
    by_cases hans : namespaceOf a = ns
    · rw [if_pos hans, if_neg fun h => hne (hans.trans h.symm)]
      exact hu.localName_ne ha hb hne
    · rw [if_neg hans]
      by_cases hbns : namespaceOf b = ns
      · rw [if_pos hbns]
        exact (hu.localName_ne hb ha (Ne.symm hne)).symm
      · rw [if_neg hbns]
        exact hfull

/-- a namespace that a header may be written in -/
def IsNamespace (m : Model) (ns : Option String) : Prop :=
  ns = none ∨ ∃ e ∈ m.allTypes, ns = namespaceOf e

theorem unambiguous_iff (hm : m.DistinctNames) :
    (∀ a ∈ m.allTypes, ∀ b ∈ m.allTypes, a ≠ b → ∀ ns, IsNamespace m ns →
      qualifiedName a ns ≠ qualifiedName b ns) ↔ Unambiguous m := by
  constructor
  · intro h
    constructor
    · intro a ha b hb hapart
      have hab : a ≠ b := by
        rintro rfl
        exact hapart.elim (absurd rfl) (absurd rfl)
      exact h a ha b hb hab none (Or.inl rfl)
    · intro a ha b hb space hspace hne
      have hab : a ≠ b := by
        rintro rfl
        exact hne hspace
      have hdiffer := h a ha b hb hab (some space) (Or.inr ⟨a, ha, hspace.symm⟩)
      rw [qualifiedName_eq, qualifiedName_eq, if_pos hspace, if_neg hne] at hdiffer
      exact hdiffer
  · intro hu a ha b hb hab ns _
    exact hu.qualifiedName_ne hm ha hb hab ns

/-! ## references -/

theorem Unambiguous.binding_eq (hu : Unambiguous m) (hm : m.DistinctNames) {x y : TypeRef}
    {id id' : TypeId} {spelling : String} (hx : typeOf m ns x = .ok (.declared id spelling))
    (hy : typeOf m ns y = .ok (.declared id' spelling)) : x.binding = y.binding := by
  obtain ⟨hbx, a, hxa, hsa⟩ := typeOf_eq_declared.mp hx
  obtain ⟨hby, b, hyb, hsb⟩ := typeOf_eq_declared.mp hy
  obtain ⟨ha, hida⟩ := Model.entry?_eq_some_iff_mem.mp hxa
  obtain ⟨hb, hidb⟩ := Model.entry?_eq_some_iff_mem.mp hyb
  by_cases hab : a = b
  · rw [hbx, hby, ← hida, ← hidb, hab]
  · exact absurd (hsa.symm.trans hsb) (hu.qualifiedName_ne hm ha hb hab ns)

/-- after analysis, spellings make out types exactly in an unambiguous model, and references there
with one spelling are bound to one declaration -/
theorem spellings_differ_iff (m : Model) {r : Model} {ds : Diagnostics}
    (h : m.analyze = (r, .ok ds)) :
    ((∀ a ∈ r.allTypes, ∀ b ∈ r.allTypes, a ≠ b → ∀ ns, IsNamespace r ns →
      qualifiedName a ns ≠ qualifiedName b ns) ↔ Unambiguous r) ∧
    (Unambiguous r → ∀ ns x y id id' spelling, typeOf r ns x = .ok (.declared id spelling) →
      typeOf r ns y = .ok (.declared id' spelling) → x.binding = y.binding) := by
  have hr : m.analyze.1 = r := congrArg Prod.fst h
  have hok : m.analyze.2 = .ok ds := congrArg Prod.snd h
  have hm : r.DistinctNames := hr ▸ Model.distinctNames_of_analyze hok
  exact ⟨unambiguous_iff hm, fun hu ns x y id id' spelling => hu.binding_eq hm⟩

/-- a struct `Point` outside all namespaces, another in the package `geo`, and a field there that
is bound to the first -/
def hidden : Model :=
  { types := [.struct { name := "Point" } []]
    packages :=
      [{ name := "geo",
         types :=
          [.struct { name := "Point" } [],
            .struct
              { name := "Line",
                fields := [{ name := "start", typeRef := { name := "Point" } }] } []] }] }

theorem analyze_hidden : hidden.analyze = (hidden.analyze.1, .ok []) :=
  Prod.ext rfl (by decide +kernel)

/-- in `geo` both structs are written `Point` -/
theorem exists_alike_hidden :
    ∃ a ∈ hidden.analyze.1.allTypes, ∃ b ∈ hidden.analyze.1.allTypes, a ≠ b ∧
      ∃ ns, IsNamespace hidden.analyze.1 ns ∧ qualifiedName a ns = qualifiedName b ns := by
  have ha := List.mem_of_getElem? (l := hidden.analyze.1.allTypes) (i := 0) rfl
  have hb := List.mem_of_getElem? (l := hidden.analyze.1.allTypes) (i := 1) rfl
  refine ⟨_, ha, _, hb, fun h => ?_, _, Or.inr ⟨_, hb, rfl⟩, by decide +kernel⟩
  cases congrArg Entry.id h

theorem spellings_differ_iff_hidden :
    hidden.analyze = (hidden.analyze.1, .ok []) ∧ ¬ Unambiguous hidden.analyze.1 := by
  refine ⟨analyze_hidden, fun hu => ?_⟩
  obtain ⟨a, ha, b, hb, hab, ns, hns, halike⟩ := exists_alike_hidden
  exact (spellings_differ_iff hidden analyze_hidden).1.mpr hu a ha b hb hab ns hns halike

/-- the header of `Line` writes `Point` for the struct outside `geo`, which is the name of the one
inside -/
theorem not_spellings_differ_hidden :
    hidden.analyze.2 = .ok [] ∧
      (∃ a ∈ hidden.analyze.1.allTypes, ∃ b ∈ hidden.analyze.1.allTypes, a ≠ b ∧
        ∃ ns, IsNamespace hidden.analyze.1 ns ∧ qualifiedName a ns = qualifiedName b ns) ∧
      ∃ e ∈ hidden.analyze.1.allTypes, ∃ s f, e.type.struct? = some s ∧ f ∈ s.fields ∧
        namespaceOf e = some "geo" ∧
        typeOf hidden.analyze.1 (some "geo") f.typeRef =
          .ok (.declared (.topLevel 0) "Point") := by
  refine ⟨congrArg Prod.snd analyze_hidden, exists_alike_hidden, ?_⟩
  exact ⟨_, List.mem_of_getElem? (i := 2) rfl, _, _, rfl, List.mem_cons_self, rfl, rfl⟩

end Cpp

end TypeModel
