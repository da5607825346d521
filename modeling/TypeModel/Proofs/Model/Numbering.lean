import TypeModel.Proofs.Model.Bases

/-!
# Numbers of enumerators, level by level

The enumerators of an enumeration and of those that it extends are numbered in one run, while each
enumeration has values of its own, counted from zero.

* `numberFrom_append`           a run goes on with the number after its last (`nextAfter`);
* `getElem?_numberFrom_congr`   from an explicit value on, it does not matter where a run started;
* `numberFrom_implicit`         before that, the numbers go up by one as far as there are any;
* `Model.levels m id x`         the enumerations of a chain, farthest base first;
* `Level before x here`         `here` are the numbers of `x` in a run that starts with `before`;
* `foldedEnumerators_levels`    the run of a chain is made of its levels, and starts with the run of
                                the base.
-/

namespace TypeModel

/-! ## one run -/

theorem map_fst_numberFrom (xs : List Enumerator) :
    ∀ k : Int64, (numberFrom k xs).map Prod.fst = xs.map Enumerator.name := by
  induction xs with
  | nil => exact fun _ => rfl
  | cons x xs ih =>
    intro k
    rw [numberFrom, List.map_cons, List.map_cons, ih]

theorem length_numberFrom (xs : List Enumerator) (k : Int64) :
    (numberFrom k xs).length = xs.length := by
  have h := congrArg List.length (map_fst_numberFrom xs k)
  rwa [List.length_map, List.length_map] at h

/-- the number that follows those of `xs`, in a run from `k` -/
def nextAfter (k : Int64) (xs : List Enumerator) : Int64 :=
  match (numberFrom k xs).getLast? with
  | none => k
  | some v => succSaturating v.2

theorem nextAfter_cons (k : Int64) (x : Enumerator) (xs : List Enumerator) :
    nextAfter k (x :: xs) =
      nextAfter (succSaturating ((x.value.map Expression.evaluate).getD k)) xs := by
  unfold nextAfter
  rw [numberFrom, List.getLast?_cons]
  cases (numberFrom _ xs).getLast? with
  | none => rfl
  | some v => rfl

theorem numberFrom_append (xs ys : List Enumerator) :
    ∀ k, numberFrom k (xs ++ ys) = numberFrom k xs ++ numberFrom (nextAfter k xs) ys := by
  induction xs with
  | nil => exact fun _ => rfl
  | cons x xs ih =>
    intro k
    rw [List.cons_append, numberFrom, numberFrom, ih, nextAfter_cons, List.cons_append]

/-- an explicit value makes two runs equal from there on -/
theorem getElem?_numberFrom_congr {xs : List Enumerator} :
    ∀ {i j : Nat} {x : Enumerator}, j ≤ i → xs[j]? = some x → x.value ≠ none →
      ∀ k k' : Int64, (numberFrom k xs)[i]? = (numberFrom k' xs)[i]? := by
  induction xs with
  | nil => exact fun _ hx => absurd hx nofun
  | cons y ys ih =>
    intro i j x hji hx hvalue k k'
    rw [numberFrom, numberFrom]
    cases j with
    | zero =>
      obtain rfl : y = x := Option.some.inj hx
      obtain ⟨v, hv⟩ := Option.ne_none_iff_exists'.mp hvalue
      rw [hv]
      rfl
    | succ j =>
      cases i with
      | zero => omega
      | succ i => exact ih (Nat.le_of_succ_le_succ hji) hx hvalue _ _

/-! ## going up -/

theorem toInt_succSaturating (v : Int64) :
    (succSaturating v).toInt = min (v.toInt + 1) Int64.maxValue.toInt := by
  unfold succSaturating
  have hle : v.toInt ≤ Int64.maxValue.toInt := v.toInt_le
  split
  case isTrue h =>
    rw [h]
    omega
  case isFalse h =>
    have hne : v.toInt ≠ Int64.maxValue.toInt := fun he => h (Int64.toInt_inj.mp he)
    have hlow := v.le_toInt
    rw [Int64.toInt_add, show (1 : Int64).toInt = 1 from rfl]
    rw [Int64.toInt_maxValue] at hle hne ⊢
    rw [Int.bmod_eq_of_le (by omega) (by omega)]
    omega

/-- the numbers in front of the first explicit value -/
theorem numberFrom_implicit {xs : List Enumerator} :
    ∀ {k : Int64} {i : Nat} {v : Name × Int64}, (numberFrom k xs)[i]? = some v →
      (∀ j ≤ i, ∀ x, xs[j]? = some x → x.value = none) →
      v.2.toInt = min (k.toInt + i) Int64.maxValue.toInt := by
  induction xs with
  | nil => exact fun hv => absurd hv nofun
  | cons y ys ih =>
    intro k i v hv himplicit
    have hy : y.value = none := himplicit 0 (Nat.zero_le i) y rfl
    rw [numberFrom, hy] at hv
    cases i with
    | zero =>
      obtain rfl : (y.name, k) = v := Option.some.inj hv
      have hle : k.toInt ≤ Int64.maxValue.toInt := k.toInt_le
      show k.toInt = _
      omega
    | succ i =>
      have hrest := ih hv fun j hj x hx => himplicit (j + 1) (by omega) x hx
      rw [hrest, show (Option.map Expression.evaluate none).getD k = k from rfl,
        toInt_succSaturating]
      omega

/-! ## levels -/

/-- the integer that comes after the numbers `before`, and zero at the start -/
def followingInt (before : List (Name × Int64)) : Int :=
  match before.getLast? with
  | none => 0
  | some v => v.2.toInt + 1

/-- numbers of the enumerators of `x` behind the numbers `before`: those of `x` alone from the first
explicit value on, and up to there the integers that follow -/
structure Level (before : List (Name × Int64)) (x : EnumerationType)
    (here : List (Name × Int64)) : Prop where
  names : here.map Prod.fst = x.enumerators.map Enumerator.name
  explicit : ∀ i : Nat, (∃ j ≤ i, ∃ e, x.enumerators[j]? = some e ∧ e.value ≠ none) →
    (here[i]?).map Prod.snd = x.effectiveValues[i]?
  implicit : ∀ (i : Nat) v, here[i]? = some v →
    (∀ j ≤ i, ∀ e, x.enumerators[j]? = some e → e.value = none) →
    v.2.toInt = min (followingInt before + i) Int64.maxValue.toInt

theorem level_numberFrom (xs : List Enumerator) (x : EnumerationType) :
    Level (numberFrom 0 xs) x (numberFrom (nextAfter 0 xs) x.enumerators) := by
  refine ⟨map_fst_numberFrom _ _, ?_, ?_⟩
  · rintro i ⟨j, hj, e, he, hvalue⟩
    unfold EnumerationType.effectiveValues
    rw [List.getElem?_map, getElem?_numberFrom_congr hj he hvalue (nextAfter 0 xs) 0]
  · intro i v hv himplicit
    rw [numberFrom_implicit hv himplicit]
    unfold nextAfter followingInt
    cases (numberFrom 0 xs).getLast? with
    | none => rfl
    | some w =>
      show min ((succSaturating w.2).toInt + i) _ = min (w.2.toInt + 1 + i) _
      rw [toInt_succSaturating]
      omega

namespace Model
variable {m : Model}

/-- the enumerations that an enumeration extends, farthest first, and then the enumeration -/
def levels (m : Model) (id : TypeId) (x : EnumerationType) : List EnumerationType :=
  (m.baseEnumerations id).reverse ++ [x]

theorem foldedEnumerators_eq_levels (m : Model) (id : TypeId) (x : EnumerationType) :
    m.foldedEnumerators id x = numberFrom 0 ((m.levels id x).flatMap (·.enumerators)) := by
  unfold foldedEnumerators levels
  rw [List.flatMap_append, List.flatMap_singleton]

/-- the run of a base is where the run of what extends it starts -/
theorem foldedEnumerators_base {a b : TypeId} (h : m.baseOf a = some b)
    (ha : ¬ Reaches m.baseOf a a) {y : EnumerationType} (hb : m.type? b = some (.enumeration y))
    (x : EnumerationType) : m.foldedEnumerators b y <+: m.foldedEnumerators a x := by
  have hlevels : m.levels a x = m.levels b y ++ [x] := by
    unfold levels
    rw [baseEnumerations_cons h ha hb, List.reverse_cons]
  rw [foldedEnumerators_eq_levels, foldedEnumerators_eq_levels, hlevels, List.flatMap_append,
    numberFrom_append]
  exact List.prefix_append _ _

/-- the enumerators of a chain are those of its levels in order, each level numbered behind the
earlier ones, with values between the least and the greatest integer; and an enumeration that does
not extend itself starts with the run of its base -/
theorem foldedEnumerators_levels (m : Model) (id : TypeId) (x : EnumerationType) :
    (m.foldedEnumerators id x).map Prod.fst =
      (m.levels id x).flatMap (fun level => level.enumerators.map Enumerator.name) ∧
    (∀ earlier level later, m.levels id x = earlier ++ level :: later →
      ∃ before here after, m.foldedEnumerators id x = before ++ here ++ after ∧
        before.map Prod.fst = earlier.flatMap (fun l => l.enumerators.map Enumerator.name) ∧
        Level before level here) ∧
    (∀ v ∈ m.foldedEnumerators id x,
      Int64.minValue.toInt ≤ v.2.toInt ∧ v.2.toInt ≤ Int64.maxValue.toInt) ∧
    ∀ b y, m.baseOf id = some b → m.type? b = some (.enumeration y) →
      ¬ Reaches m.baseOf id id → m.foldedEnumerators b y <+: m.foldedEnumerators id x := by
  refine ⟨?_, ?_, fun v _ => ⟨v.2.minValue_le_toInt, v.2.toInt_le⟩,
    fun b y hb hy hid => foldedEnumerators_base hb hid hy x⟩
  · rw [foldedEnumerators_eq_levels, map_fst_numberFrom, List.map_flatMap]
  · intro earlier level later hlevels
    rw [foldedEnumerators_eq_levels, hlevels, List.flatMap_append, List.flatMap_cons,
      numberFrom_append, numberFrom_append, ← List.append_assoc]
    refine ⟨_, _, _, rfl, ?_, level_numberFrom _ level⟩
    rw [map_fst_numberFrom, List.map_flatMap]

def climbingMiddle : EnumerationType :=
  { name := "Middle", base := some { name := "Base", binding := .type (.topLevel 0) },
    enumerators := [{ name := "C" }, { name := "D", value := some (.integer Int64.maxValue) }] }

def climbingTop : EnumerationType :=
  { name := "Top", base := some { name := "Middle", binding := .type (.topLevel 1) },
    enumerators := [{ name := "E" }, { name := "F", value := some (.integer (-2)) }, { name := "G" }] }

/-- three enumerations, of which the second ends with the greatest number -/
def climbing : Model :=
  { types :=
      [.enumeration
          { name := "Base",
            enumerators := [{ name := "A" }, { name := "B", value := some (.integer 5) }] },
        .enumeration climbingMiddle, .enumeration climbingTop] }

theorem foldedEnumerators_levels_climbing :
    climbing.foldedEnumerators (.topLevel 2) climbingTop =
      [("A", 0), ("B", 5), ("C", 6), ("D", Int64.maxValue), ("E", Int64.maxValue), ("F", -2),
        ("G", -1)] ∧
    climbing.foldedEnumerators (.topLevel 1) climbingMiddle <+:
      climbing.foldedEnumerators (.topLevel 2) climbingTop ∧
    ∃ before here after,
      climbing.foldedEnumerators (.topLevel 2) climbingTop = before ++ here ++ after ∧
        before.length = 4 ∧ Level before climbingTop here := by
  obtain ⟨_, hlevels, _, hbase⟩ :=
    climbing.foldedEnumerators_levels (.topLevel 2) climbingTop
  have hsplit : climbing.levels (.topLevel 2) climbingTop =
      (climbing.baseEnumerations (.topLevel 2)).reverse ++ climbingTop :: [] := rfl
  obtain ⟨before, here, after, hrun, hnames, hlevel⟩ := hlevels _ _ _ hsplit
  have hbefore : before.length = 4 := by
    have h := congrArg List.length hnames
    rw [List.length_map] at h
    exact h
  refine ⟨by decide +kernel, hbase _ _ rfl rfl fun h => ?_, before, here, after, hrun, hbefore,
    hlevel⟩
  exact absurd ((last_step_iff startsAtTypes_baseOf _).mpr h) (by decide +kernel)

end Model

end TypeModel
