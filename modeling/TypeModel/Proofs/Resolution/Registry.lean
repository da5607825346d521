import TypeModel.Analysis.Namespace
import TypeModel.Proofs.Model.Entries

/-!
# What the tables of a namespace hold

The tables are filled one type after the other.  What a name is found as in the end is said by the
list of types alone:

* `Entry.Carries e n`      `n` is the simple name, the `Outer.Inner` name or the qualified name
                           of `e`;
* `foldl_orInsert`         a table filled with `orInsert` gives a name the first value entered
                           for it;
* `carriers_foldl_add`     a name of the third table has the types that carry it, in order and each
                           once, if no type is entered twice;
* `basic?_ofModel`, `global?_ofModel`, `carriers_ofModel`   the three tables of a model.
-/

namespace TypeModel

/-! ## the names of a declaration -/

/-- the names under which a packaged or inner declaration is found -/
def Entry.lookupNames (e : Entry) : List Name :=
  e.name :: (e.outer.map fun outer => outer.name.qualify e.name).toList ++ [e.qualifiedName]

def Entry.Carries (e : Entry) (n : Name) : Prop :=
  n = e.name ∨ (∃ s, e.outer = some s ∧ n = s.name.qualify e.name) ∨ n = e.qualifiedName

theorem Entry.mem_lookupNames {e : Entry} {n : Name} : n ∈ e.lookupNames ↔ e.Carries n := by
  unfold Entry.lookupNames Entry.Carries
  cases e.outer <;> simp

instance (e : Entry) (n : Name) : Decidable (e.Carries n) :=
  decidable_of_iff (n ∈ e.lookupNames) Entry.mem_lookupNames

/-! ## packaged and inner declarations -/

namespace Model

/-- the first top-level type of a name -/
def firstTopLevel? (m : Model) (n : Name) : Option Entry :=
  m.topLevelTypes.find? fun e => e.name = n

theorem allTypes_eq_append (m : Model) :
    m.allTypes = m.topLevelTypes ++ (m.packagedTypes ++ m.innerTypes) := by
  unfold allTypes declaredTypes
  exact List.append_assoc _ _ _

theorem mem_allTypes_split {m : Model} {e : Entry} :
    e ∈ m.allTypes ↔ e ∈ m.topLevelTypes ∨ e ∈ m.packagedTypes ++ m.innerTypes := by
  rw [allTypes_eq_append, List.mem_append]

theorem isGlobal_of_mem_topLevelTypes {m : Model} {e : Entry} (he : e ∈ m.topLevelTypes) :
    e.id.isGlobal = true := by
  obtain ⟨i, t, _, rfl⟩ := mem_topLevelTypes.mp he
  rfl

/-- packaged and inner types are not at top level -/
theorem isGlobal_of_mem_others {m : Model} {e : Entry} (he : e ∈ m.packagedTypes ++ m.innerTypes) :
    e.id.isGlobal = false := by
  rcases List.mem_append.mp he with hp | hi
  · obtain ⟨p, package, i, t, _, _, rfl⟩ := mem_packagedTypes.mp hp
    rfl
  · have hinner := (mem_innerTypes_iff.mp hi).2
    unfold TypeId.isInner at hinner
    unfold TypeId.isGlobal
    rw [Option.isNone_eq_false_iff.mpr hinner, Bool.and_false]

end Model

/-! ## tables in which the first value stays -/

/-- where each step leaves a value that is there and else gives the one of its element, the first
element that has one gives the value -/
theorem foldl_orInsert {σ α β : Type} (look : σ → Option β) {step : σ → α → σ} {p : α → Bool}
    {value : α → β}
    (h : ∀ s x, look (step s x) = (look s).or (if p x then some (value x) else none)) (s : σ)
    (xs : List α) : look (xs.foldl step s) = (look s).or ((xs.find? p).map value) := by
  induction xs generalizing s with
  | nil => exact (Option.or_none).symm
  | cons x xs ih =>
    rw [List.foldl_cons, ih, h, Option.or_assoc, List.find?_cons]
    cases p x <;> rfl

theorem NameTable.get?_orInsert_or {α : Type} (t : NameTable α) (n k : Name) (a : α) :
    (t.orInsert n a).get? k = (t.get? k).or (if n = k then some a else none) := by
  rw [t.get?_orInsert]
  by_cases h : k = n
  · rw [if_pos h, if_pos h.symm, h]
    cases t.get? n <;> rfl
  · rw [if_neg h, if_neg (Ne.symm h), Option.or_none]

theorem Candidate.enlist_of_fresh {c : Candidate} {cs : List Candidate}
    (h : ∀ x ∈ cs, x.id ≠ c.id) : c.enlist cs = cs ++ [c] := by
  unfold Candidate.enlist
  rw [if_neg]
  simpa using h

/-- entered under one name, a type is not entered again under an equal one -/
theorem Candidate.enlist_enlist (c : Candidate) (cs : List Candidate) :
    c.enlist (c.enlist cs) = c.enlist cs := by
  have hthere : (c.enlist cs).any (·.id = c.id) = true := by
    unfold Candidate.enlist
    split
    · assumption
    · simp
  exact if_pos hthere

namespace Namespace

theorem basic?_addPrimitive (ns : Namespace) (p : BasicId × BasicType) (n : Name) :
    (ns.addPrimitive p).basic? n =
      (ns.basic? n).or (if decide (p.2.name = n) then some p.1 else none) := by
  simp only [decide_eq_true_eq]
  exact ns.primitives.get?_orInsert_or p.2.name n p.1

/-! ## the table of packaged and inner declarations -/

theorem carriers_register (ns : Namespace) (n k : Name) (c : Candidate) :
    (ns.register n c).carriers k =
      if k = n then c.enlist (ns.carriers k) else ns.carriers k := by
  unfold register carriers
  rw [NameTable.get?_alter]
  by_cases hk : k = n
  · rw [if_pos hk, if_pos hk, hk, Option.getD_some]
  · rw [if_neg hk, if_neg hk]

theorem carriers_foldl_register (ns : Namespace) (names : List Name) (k : Name) (c : Candidate) :
    (names.foldl (fun ns n => ns.register n c) ns).carriers k =
      if k ∈ names then c.enlist (ns.carriers k) else ns.carriers k := by
  induction names generalizing ns with
  | nil => exact (if_neg List.not_mem_nil).symm
  | cons n names ih =>
    rw [List.foldl_cons, ih, carriers_register]
    by_cases hk : k = n
    · subst hk
      rw [if_pos rfl, if_pos List.mem_cons_self, c.enlist_enlist, ite_self]
    · rw [if_neg hk]
      simp only [List.mem_cons, hk, false_or]

theorem registerAll_eq (ns : Namespace) (e : Entry) :
    ns.registerAll e = e.lookupNames.foldl (fun ns n => ns.register n e.candidate) ns := by
  unfold registerAll Entry.lookupNames
  cases e.outer <;> rfl

theorem basic?_add (ns : Namespace) (e : Entry) (n : Name) : (ns.add e).basic? n = ns.basic? n := by
  unfold add registerAll
  cases e.outer <;> split <;> rfl

theorem global?_add (ns : Namespace) (e : Entry) (n : Name) :
    (ns.add e).global? n =
      (ns.global? n).or
        (if e.id.isGlobal && decide (e.name = n) then some e.candidate else none) := by
  unfold add Candidate.isGlobal
  cases hg : e.id.isGlobal with
  | true =>
    rw [if_pos (show e.candidate.id.isGlobal = true from hg)]
    simp only [Bool.true_and, decide_eq_true_eq]
    exact ns.globals.get?_orInsert_or e.name n e.candidate
  | false =>
    rw [if_neg (show ¬ e.candidate.id.isGlobal = true from ne_true_of_eq_false hg)]
    unfold registerAll
    cases e.outer <;> exact (Option.or_none).symm

/-- a type that was not entered before is entered once under each name that it carries -/
theorem carriers_add {ns : Namespace} {e : Entry} {n : Name}
    (hfresh : ∀ c ∈ ns.carriers n, c.id ≠ e.id) :
    (ns.add e).carriers n =
      ns.carriers n ++ if ¬ e.id.isGlobal ∧ e.Carries n then [e.candidate] else [] := by
  unfold add Candidate.isGlobal
  by_cases hg : e.candidate.id.isGlobal
  · rw [if_pos hg, if_neg fun h => h.1 hg]
    exact (List.append_nil _).symm
  · rw [if_neg hg, registerAll_eq, carriers_foldl_register]
    by_cases hc : e.Carries n
    · rw [if_pos (Entry.mem_lookupNames.mpr hc), if_pos ⟨hg, hc⟩]
      exact Candidate.enlist_of_fresh hfresh
    · rw [if_neg (mt Entry.mem_lookupNames.mp hc), if_neg fun h => hc h.2, List.append_nil]

theorem carriers_foldl_add (n : Name) (es : List Entry) (ns : Namespace)
    (hids : (es.map (·.id)).Nodup) (hfresh : ∀ e ∈ es, ∀ c ∈ ns.carriers n, c.id ≠ e.id) :
    (es.foldl add ns).carriers n =
      ns.carriers n ++
        (es.filter fun e => ¬ e.id.isGlobal ∧ e.Carries n).map Entry.candidate := by
  induction es generalizing ns with
  | nil => exact (List.append_nil _).symm
  | cons e es ih =>
    have hadd := carriers_add (hfresh e List.mem_cons_self)
    obtain ⟨hnew, hids⟩ := List.nodup_cons.mp hids
    have hrest : ∀ x ∈ es, ∀ c ∈ (ns.add e).carriers n, c.id ≠ x.id := by
      intro x hx c hc
      rw [hadd] at hc
      rcases List.mem_append.mp hc with hc | hc
      · exact hfresh x (List.mem_cons_of_mem e hx) c hc
      · split at hc
        · rw [List.mem_singleton.mp hc]
          exact fun h => hnew (List.mem_map.mpr ⟨x, hx, h.symm⟩)
        · cases hc
    rw [List.foldl_cons, ih _ hids hrest, hadd, List.append_assoc, List.filter_cons]
    simp only [decide_eq_true_eq]
    split <;> rfl

/-! ## the tables of a model -/

theorem basic?_foldl_add (es : List Entry) (ns : Namespace) (n : Name) :
    (es.foldl add ns).basic? n = ns.basic? n := by
  induction es generalizing ns with
  | nil => rfl
  | cons e es ih => rw [List.foldl_cons, ih, basic?_add]

/-- primitive types are entered in their own table -/
theorem foldl_addPrimitive_tables (xs : List (BasicId × BasicType)) (ns : Namespace) :
    (xs.foldl addPrimitive ns).globals = ns.globals ∧
      (xs.foldl addPrimitive ns).declared = ns.declared := by
  induction xs generalizing ns with
  | nil => exact ⟨rfl, rfl⟩
  | cons x xs ih => exact ih (ns.addPrimitive x)

theorem basic?_ofModel (m : Model) (n : Name) :
    (ofModel m).basic? n = (m.basicTypes.find? fun x => x.2.name = n).map (·.1) := by
  unfold ofModel
  rw [basic?_foldl_add, foldl_orInsert (basic? · n) fun ns x => ns.basic?_addPrimitive x n]
  exact Option.none_or

theorem global?_ofModel (m : Model) (n : Name) :
    (ofModel m).global? n = (m.firstTopLevel? n).map Entry.candidate := by
  have hbefore : (m.basicTypes.foldl addPrimitive {}).global? n = none := by
    unfold global?
    rw [(foldl_addPrimitive_tables m.basicTypes {}).1]
    rfl
  have hothers : (m.packagedTypes ++ m.innerTypes).find?
      (fun e => e.id.isGlobal && decide (e.name = n)) = none := by
    refine List.find?_eq_none.mpr fun e he => ?_
    rw [Model.isGlobal_of_mem_others he]
    exact Bool.false_ne_true
  have htop : m.topLevelTypes.find? (fun e => e.id.isGlobal && decide (e.name = n)) =
      m.firstTopLevel? n := by
    unfold Model.firstTopLevel?
    rw [← List.head?_filter, ← List.head?_filter]
    refine congrArg _ (List.filter_congr fun e he => ?_)
    rw [Model.isGlobal_of_mem_topLevelTypes he, Bool.true_and]
  unfold ofModel
  rw [foldl_orInsert (global? · n) fun ns e => ns.global?_add e n, hbefore,
    Option.none_or, m.allTypes_eq_append, List.find?_append, hothers, Option.or_none, htop]

theorem carriers_ofModel (m : Model) (n : Name) :
    (ofModel m).carriers n =
      ((m.packagedTypes ++ m.innerTypes).filter fun e => e.Carries n).map Entry.candidate := by
  have hbefore : (m.basicTypes.foldl addPrimitive {}).carriers n = [] := by
    unfold carriers
    rw [(foldl_addPrimitive_tables m.basicTypes {}).2]
    rfl
  have htop : m.topLevelTypes.filter (fun e => ¬ e.id.isGlobal ∧ e.Carries n) = [] := by
    refine List.filter_eq_nil_iff.mpr fun e he h => ?_
    exact (of_decide_eq_true h).1 (Model.isGlobal_of_mem_topLevelTypes he)
  have hothers : (m.packagedTypes ++ m.innerTypes).filter
        (fun e => ¬ e.id.isGlobal ∧ e.Carries n) =
      (m.packagedTypes ++ m.innerTypes).filter fun e => e.Carries n := by
    refine List.filter_congr fun e he => ?_
    simp [Model.isGlobal_of_mem_others he]
  have hfresh : ∀ e ∈ m.allTypes, ∀ c ∈ (m.basicTypes.foldl addPrimitive {}).carriers n,
      c.id ≠ e.id := by
    rw [hbefore]
    exact fun _ _ c hc => absurd hc List.not_mem_nil
  unfold ofModel
  rw [carriers_foldl_add n _ _ m.nodup_ids_allTypes hfresh, hbefore, List.nil_append, m.allTypes_eq_append, List.filter_append, htop, hothers, List.nil_append]

end Namespace

end TypeModel
