import TypeModel.Cpp.TestStub
import TypeModel.Proofs.Generation.Depth

/-!
# Which classes a test creates

A class is abstract if a pure method is left open.  A struct and the structs it extends are its
levels, the struct itself first.  A pure method of a level is left open if no level in front of it has
another method of its name; other methods of the same level do not count.

* `levels m id s`             the levels of a struct;
* `LeftOpen ls i x`           the pure method `x` of level `i` is left open;
* `isAbstractAlong_iff`       going through the levels finds a method that is left open, if there is
                              one that was not implemented before;
* `Creates className script`  the program declares a variable of the class;
* `creates_iff`               it does if and only if the class counts as constructible;
* `abstract_iff_leftOpen`     both in terms of the levels.
-/

namespace TypeModel.Cpp

/-! ## methods that are left open -/

/-- the struct has a method of that name that is not pure -/
def Implements (s : StructType) (name : Name) : Prop :=
  ∃ y ∈ s.methods, y.isPure = false ∧ y.name = name

def levels (m : Model) (id : TypeId) (s : StructType) : List StructType := s :: m.baseStructs id

def LeftOpen (ls : List StructType) (i : Nat) (x : Method) : Prop :=
  ∃ s, ls[i]? = some s ∧ x ∈ s.methods ∧ x.isPure = true ∧
    ∀ j < i, ∀ t, ls[j]? = some t → ¬ Implements t x.name

section
variable {s : StructType} {ls : List StructType} {i : Nat} {x : Method}

theorem leftOpen_zero : LeftOpen (s :: ls) 0 x ↔ x ∈ s.methods ∧ x.isPure = true := by
  constructor
  · rintro ⟨t, ht, hx, hpure, _⟩
    obtain rfl : s = t := Option.some.inj ht
    exact ⟨hx, hpure⟩
  · rintro ⟨hx, hpure⟩
    exact ⟨s, rfl, hx, hpure, fun j hj => absurd hj (Nat.not_lt_zero j)⟩

/-- a level in front may implement the method -/
theorem leftOpen_succ :
    LeftOpen (s :: ls) (i + 1) x ↔ ¬ Implements s x.name ∧ LeftOpen ls i x := by
  constructor
  · rintro ⟨t, ht, hx, hpure, hopen⟩
    refine ⟨hopen 0 (by omega) s rfl, t, ht, hx, hpure, fun j hj u hu => ?_⟩
    exact hopen (j + 1) (by omega) u hu
  · rintro ⟨hs, t, ht, hx, hpure, hopen⟩
    refine ⟨t, ht, hx, hpure, fun j hj u hu => ?_⟩
    cases j with
    | zero =>
      obtain rfl : s = u := Option.some.inj hu
      exact hs
    | succ j => exact hopen j (by omega) u hu

theorem mem_implemented_iff {name : Name} :
    name ∈ (s.methods.filter (!·.isPure)).map (·.name) ↔ Implements s name := by
  simp [Implements, and_assoc]

/-- the induction is on the levels; what they implement is carried on to the next one -/
theorem isAbstractAlong_iff (ls : List StructType) : ∀ implemented : List Name,
    isAbstractAlong implemented ls = true ↔
      ∃ i x, LeftOpen ls i x ∧ x.name ∉ implemented := by
  induction ls with
  | nil =>
    intro implemented
    exact iff_of_false Bool.false_ne_true (by rintro ⟨_, _, ⟨_, h, _⟩, _⟩; cases h)
  | cons s ls ih =>
    intro implemented
    have hhere : (s.methods.any fun x => x.isPure && !implemented.contains x.name) = true ↔
        ∃ x, LeftOpen (s :: ls) 0 x ∧ x.name ∉ implemented := by
      simp [leftOpen_zero, and_assoc]
    have hbehind : isAbstractAlong ((s.methods.filter (!·.isPure)).map (·.name) ++ implemented) ls =
        true ↔ ∃ i x, LeftOpen (s :: ls) (i + 1) x ∧ x.name ∉ implemented := by
      simp only [ih, List.mem_append, mem_implemented_iff, not_or, leftOpen_succ]
      exact exists₂_congr fun i x => by tauto
    rw [isAbstractAlong, Bool.or_eq_true, hhere, hbehind]
    constructor
    · rintro (⟨x, hx⟩ | ⟨i, x, hx⟩)
      · exact ⟨0, x, hx⟩
      · exact ⟨i + 1, x, hx⟩
    · rintro ⟨i, x, hx⟩
      cases i with
      | zero => exact Or.inl ⟨x, hx⟩
      | succ i => exact Or.inr ⟨i, x, hx⟩

theorem isAbstract_iff (m : Model) (id : TypeId) (s : StructType) :
    isAbstract m id s = true ↔ ∃ i x, LeftOpen (levels m id s) i x := by
  rw [isAbstract, isAbstractAlong_iff]
  simp [levels]

/-- every pure method of the levels is implemented by a level in front of the one that has it -/
def AllImplemented (ls : List StructType) : Prop :=
  ∀ (i : Nat) (t : StructType), ls[i]? = some t → ∀ x ∈ t.methods, x.isPure = true →
    ∃ j < i, ∃ u, ls[j]? = some u ∧ Implements u x.name

theorem allImplemented_iff : AllImplemented ls ↔ ¬ ∃ i x, LeftOpen ls i x := by
  simp only [AllImplemented, LeftOpen]
  push Not
  constructor
  · exact fun h i x t ht hx hpure => h i t ht x hx hpure
  · exact fun h i t ht x hx hpure => h i x t ht hx hpure

end

/-! ## what the program does -/

/-- the statements that declare a variable of the class -/
def creations (className : String) : List String :=
  [className ++ " instance;", className ++ " copy(instance);", className ++ " restored;"]

def Creates (className : String) (script : Text.Script) : Prop :=
  ∃ body, .indented body ∈ script ∧ ∃ text ∈ creations className, .line text ∈ body

/-- the constructors without parameters that are written by hand are public -/
def DefaultIsPublic (s : StructType) : Prop :=
  ∀ c ∈ s.constructors, c.parameters = [] → c.visibility = .publicAccess

theorem isConstructible_iff (m : Model) (id : TypeId) (s : StructType) :
    isConstructible m id s = true ↔ AllImplemented (levels m id s) ∧ DefaultIsPublic s := by
  have hpublic : (s.constructors.filter (·.parameters.isEmpty)).all
      (·.visibility = .publicAccess) = true ↔ DefaultIsPublic s := by
    simp [DefaultIsPublic, or_iff_not_imp_left]
  rw [isConstructible, Bool.and_eq_true, hpublic, Bool.not_eq_true', ← Bool.not_eq_true,
    isAbstract_iff, ← allImplemented_iff, and_comm]

/-- the last two characters, the last one first -/
def ending (text : String) : List Char := text.toList.reverse.take 2

theorem ending_append {a b : String} (h : 2 ≤ b.toList.length) : ending (a ++ b) = ending b := by
  unfold ending
  rw [String.toList_append, List.reverse_append, List.take_append_of_le_length]
  rwa [List.length_reverse]

theorem ending_of_mem_creations {className text : String} (h : text ∈ creations className) :
    ending text ∈ [[';', 'e'], [';', ')'], [';', 'd']] := by
  simp only [creations, List.mem_cons, List.not_mem_nil, or_false] at h
  rcases h with rfl | rfl | rfl
  · rw [ending_append (by decide)]
    decide
  · rw [ending_append (by decide)]
    decide
  · rw [ending_append (by decide)]
    decide

/-- the steps around the body of `main` declare nothing -/
theorem creates_testScript {m : Model} {e : Entry} {s : StructType} {script : Text.Script}
    (h : testScript m e s = .ok script) :
    ∃ body, testBody m e s = .ok body ∧ ∀ className,
      (Creates className script ↔ ∃ text ∈ creations className, .line text ∈ body) := by
  unfold testScript at h
  obtain ⟨body, hbody, h⟩ := bind_eq_ok.mp h
  cases h
  refine ⟨body, hbody, fun className => ?_⟩
  simp [Creates]

theorem creates_iff {m : Model} {e : Entry} {s : StructType} {script : Text.Script}
    (h : testScript m e s = .ok script) :
    Creates (qualifiedName e none) script ↔ isConstructible m e.id s = true := by
  obtain ⟨body, hbody, hcreates⟩ := creates_testScript h
  rw [hcreates]
  unfold testBody at hbody
  by_cases hc : isConstructible m e.id s = true
  · rw [if_pos hc] at hbody
    obtain ⟨calls, _, hbody⟩ := bind_eq_ok.mp hbody
    cases hbody
    exact iff_of_true ⟨_, List.mem_cons_self, by simp⟩ hc
  · rw [if_neg hc] at hbody
    cases hbody
    refine iff_of_false ?_ hc
    rintro ⟨text, htext, hmem⟩
    -- the other program prints a line and returns
    have hending := ending_of_mem_creations htext
    simp only [printLine, List.mem_cons, Text.Step.line.injEq, List.not_mem_nil, or_false] at hmem
    rcases hmem with rfl | rfl
    · rw [ending_append (by decide)] at hending
      exact absurd hending (by decide)
    · exact absurd hending (by decide)

/-- a class is abstract if and only if a pure method of one of its levels is left open, and its test
creates an instance if and only if all are implemented and a constructor without parameters is public
where there is one -/
theorem abstract_iff_leftOpen (m : Model) (e : Entry) (s : StructType) :
    (isAbstract m e.id s = true ↔ ∃ i x, LeftOpen (levels m e.id s) i x) ∧
    ∀ script, testScript m e s = .ok script →
      (Creates (qualifiedName e none) script ↔
        AllImplemented (levels m e.id s) ∧ DefaultIsPublic s) := by
  refine ⟨isAbstract_iff m e.id s, fun script h => ?_⟩
  rw [creates_iff h, isConstructible_iff]

def figure : StructType :=
  { name := "Figure", base := some { name := "Square", binding := .type (.topLevel 2) },
    methods :=
      [{ name := "draw", modifiers := [.pureVirtual] },
        { name := "area", modifiers := [.pureVirtual] }] }

def filled : StructType :=
  { name := "Filled", base := some { name := "Figure", binding := .type (.topLevel 0) },
    methods := [{ name := "draw" }, { name := "fill", modifiers := [.pureVirtual] }] }

/-- implements what the structs it extends leave open -/
def square : StructType :=
  { name := "Square", base := some { name := "Filled", binding := .type (.topLevel 1) },
    methods := [{ name := "area" }, { name := "fill" }] }

/-- `Square` extends `Filled`, which extends `Figure`, which extends `Square` -/
def figures : Model := { types := [.struct figure [], .struct filled [], .struct square []] }

theorem abstract_iff_leftOpen_figures :
    levels figures (.topLevel 1) filled = [filled, figure, square] ∧
    (∃ i x, LeftOpen (levels figures (.topLevel 1) filled) i x) ∧
    levels figures (.topLevel 2) square = [square, filled, figure] ∧
    AllImplemented (levels figures (.topLevel 2) square) ∧ DefaultIsPublic square := by
  have hfilled := abstract_iff_leftOpen figures (Model.topLevelEntry 1 (.struct filled [])) filled
  have hsquare := abstract_iff_leftOpen figures (Model.topLevelEntry 2 (.struct square [])) square
  obtain ⟨script, hscript⟩ : Succeeds
      (testScript figures (Model.topLevelEntry 2 (.struct square [])) square) :=
    succeeds_iff_isOk.mpr (by decide +kernel)
  have hcreates := (creates_iff hscript).mpr (by decide +kernel)
  exact ⟨rfl, hfilled.1.mp (by decide +kernel), rfl, (hsquare.2 script hscript).mp hcreates⟩

end TypeModel.Cpp
