import TypeModel.Proofs.Model.Bases

/-!
# Chains without a bound

A chain is computed with a bound on its steps.  What it is, is said here without one: the steps from
the start, one after another, up to the first that ends or comes back.

* `stepsFrom step a k`      where `k` steps from `a` lead;
* `IsTrail step a chain`    `chain` is that sequence, cut in front of the first repetition;
* `IsTrail.unique`          there is one such list at most;
* `isTrail_chain`           a chain of a model is one, whatever the bindings are;
* `chain_of_bound`          a greater bound changes nothing;
* `length_chain_le`         no chain is longer than the list of all types;
* `baseChain_isTrail`       all of this for the declarations that a declaration extends.
-/

namespace TypeModel

section
variable {α : Type} {step : α → Option α} {a b : α}

def stepsFrom (step : α → Option α) (a : α) : Nat → Option α
  | 0 => some a
  | k + 1 => (stepsFrom step a k).bind step

theorem stepsFrom_cons (h : step a = some b) (k : Nat) :
    stepsFrom step a (k + 1) = stepsFrom step b k := by
  induction k with
  | zero => exact h
  | succ k ih =>
    show (stepsFrom step a (k + 1)).bind step = (stepsFrom step b k).bind step
    rw [ih]

theorem stepsFrom_of_none (h : step a = none) (k : Nat) : stepsFrom step a (k + 1) = none := by
  induction k with
  | zero => exact h
  | succ k ih =>
    show (stepsFrom step a (k + 1)).bind step = none
    rw [ih]
    rfl

theorem reaches_iff_stepsFrom : Reaches step a b ↔ ∃ k, stepsFrom step a (k + 1) = some b := by
  constructor
  · intro h
    induction h with
    | single hs => exact ⟨0, hs⟩
    | tail _ hs ih =>
      obtain ⟨k, hk⟩ := ih
      refine ⟨k + 1, ?_⟩
      show (stepsFrom step a (k + 1)).bind step = _
      rw [hk]
      exact hs
  · rintro ⟨k, hk⟩
    induction k generalizing a with
    | zero => exact Reaches.single hk
    | succ k ih =>
      cases hs : step a with
      | none =>
        rw [stepsFrom_of_none hs] at hk
        cases hk
      | some n =>
        rw [stepsFrom_cons hs] at hk
        exact Reaches.cons hs (ih hk)

/-- the members are where the steps lead, none comes up twice, and the next step ends the walk or
comes back to it -/
structure IsTrail (step : α → Option α) (a : α) (chain : List α) : Prop where
  follows : ∀ i < chain.length, chain[i]? = stepsFrom step a (i + 1)
  fresh : (a :: chain).Nodup
  ends : ∀ x, stepsFrom step a (chain.length + 1) = some x → x ∈ a :: chain

namespace IsTrail
variable {chain chain' : List α}

/-- one walk cannot go on where another ends -/
theorem length_le (h : IsTrail step a chain) (h' : IsTrail step a chain') :
    chain'.length ≤ chain.length := by
  by_contra hlt
  rw [Nat.not_le] at hlt
  obtain ⟨x, hx⟩ : ∃ x, chain'[chain.length]? = some x := ⟨_, List.getElem?_eq_getElem hlt⟩
  have hback : x ∈ a :: chain := h.ends x (by rw [← h'.follows _ hlt, hx])
  obtain ⟨i, hi⟩ := List.mem_iff_getElem?.mp hback
  have hle : i < chain.length + 1 := by
    rw [← List.length_cons (a := a)]
    exact (List.getElem?_eq_some_iff.mp hi).1
  have hi' : (a :: chain')[i]? = some x := by
    cases i with
    | zero => exact hi
    | succ i =>
      rw [List.getElem?_cons_succ] at hi ⊢
      rw [h'.follows i (by omega), ← h.follows i (by omega), hi]
  have hx' : (a :: chain')[chain.length + 1]? = some x := hx
  have hsame := (List.getElem?_inj (by rw [List.length_cons]; omega) h'.fresh).mp
    (hi'.trans hx'.symm)
  omega

theorem unique (h : IsTrail step a chain) (h' : IsTrail step a chain') : chain = chain' := by
  have hlen : chain.length = chain'.length :=
    Nat.le_antisymm (h'.length_le h) (h.length_le h')
  apply List.ext_getElem?
  intro i
  by_cases hi : i < chain.length
  · rw [h.follows i hi, h'.follows i (hlen ▸ hi)]
  · rw [List.getElem?_eq_none (by omega), List.getElem?_eq_none (by omega)]

end IsTrail

/-! ## trails -/

variable [DecidableEq α]

theorem getElem?_trailFrom (fuel : Nat) :
    ∀ (a : α) (passed : List α) (i : Nat), i < (trailFrom step fuel passed (step a)).length →
      (trailFrom step fuel passed (step a))[i]? = stepsFrom step a (i + 1) := by
  induction fuel with
  | zero =>
    intro a passed i hi
    exact absurd hi (Nat.not_lt_zero i)
  | succ fuel ih =>
    intro a passed i hi
    cases hs : step a with
    | none =>
      rw [hs] at hi
      exact absurd hi (Nat.not_lt_zero i)
    | some n =>
      rw [hs] at hi
      by_cases hn : n ∈ passed
      · rw [trailFrom_succ_mem fuel hn] at hi
        exact absurd hi (Nat.not_lt_zero i)
      · rw [trailFrom_succ_some fuel hn] at hi ⊢
        rw [stepsFrom_cons hs]
        cases i with
        | zero => rfl
        | succ i => exact ih n (n :: passed) i (Nat.lt_of_succ_lt_succ hi)

end

/-! ## chains of a model -/

namespace Model
variable {m : Model} {step : TypeId → Option TypeId}

theorem isTrail_chain (hs : m.StartsAtTypes step) (a : TypeId) : IsTrail step a (m.chain step a) := by
  have hfollows : ∀ i < (m.chain step a).length, (m.chain step a)[i]? = stepsFrom step a (i + 1) :=
    getElem?_trailFrom _ a [a]
  refine ⟨hfollows, nodup_cons_chain step a, fun x hx => ?_⟩
  obtain ⟨y, hy, hyx⟩ := Option.bind_eq_some_iff.mp hx
  refine chain_closed hs a y ?_ x hyx
  -- the last member is where as many steps lead as the chain has members
  cases hlen : (m.chain step a).length with
  | zero =>
    rw [hlen] at hy
    cases hy
    exact List.mem_cons_self
  | succ k =>
    rw [hlen] at hy
    refine List.mem_cons_of_mem a (List.mem_of_getElem? (i := k) ?_)
    exact (hfollows k (by omega)).trans hy

/-- a step starts at every member in front of the last -/
theorem exists_step_of_mem_dropLast {a x : TypeId} (hx : x ∈ (a :: m.chain step a).dropLast) :
    ∃ y, step x = some y := by
  rcases next_mem_trailFrom (m.allTypes.length + 1) a [a] (List.dropLast_subset _ hx) with
    hlast | ⟨y, _, hy⟩
  · exfalso
    have hsplit := List.dropLast_append_getLast? x hlast
    have hnd := m.nodup_cons_chain step a
    change (a :: m.chain step a).dropLast ++ [x] = a :: m.chain step a at hsplit
    rw [← hsplit] at hnd
    exact (List.nodup_append.mp hnd).2.2 x hx x (List.mem_singleton_self x) rfl
  · exact ⟨y, hy⟩

/-- steps start at different declarations, so there are no more of them than declarations -/
theorem length_chain_le (hs : m.StartsAtTypes step) (a : TypeId) :
    (m.chain step a).length ≤ m.allTypes.length := by
  have hstarts : ∀ x ∈ (a :: m.chain step a).dropLast, x ∈ m.allTypes.map (·.id) := by
    intro x hx
    obtain ⟨y, hy⟩ := exists_step_of_mem_dropLast hx
    exact hs.mem_ids x y hy
  have hnd : (a :: m.chain step a).dropLast.Nodup :=
    (m.nodup_cons_chain step a).sublist (List.dropLast_sublist _)
  have hle := (List.Nodup.subperm hnd hstarts).length_le
  rw [List.length_dropLast, List.length_cons, List.length_map] at hle
  exact hle

theorem chain_of_bound (hs : m.StartsAtTypes step) (a : TypeId) {bound : Nat}
    (h : m.allTypes.length < bound) : trailFrom step bound [a] (step a) = m.chain step a := by
  obtain ⟨k, rfl⟩ := Nat.exists_eq_add_of_le (Nat.succ_le_of_lt h)
  induction k with
  | zero => rfl
  | succ k ih =>
    rw [← ih (by omega)]
    refine trailFrom_enough (m.allTypes.map (·.id)) hs.mem_ids (m.allTypes.length + 1 + k) a []
      (List.nodup_singleton a) (fun _ hx => absurd hx List.not_mem_nil) ?_
    rw [List.length_map, List.length_nil]
    omega

/-- the chain of bases is the walk from base to base, however many steps are allowed: it repeats no
handle and has none that points nowhere but at its end, it is no longer than the list of types, and
where the start does not come up again it is the base with the chain of the base -/
theorem baseChain_isTrail (m : Model) (id : TypeId) :
    (∀ chain, IsTrail m.baseOf id chain ↔ chain = m.baseChain id) ∧
    (∀ bound, m.allTypes.length < bound →
      trailFrom m.baseOf bound [id] (m.baseOf id) = m.baseChain id) ∧
    (m.baseChain id).Nodup ∧ id ∉ m.baseChain id ∧
    (∀ b ∈ (m.baseChain id).dropLast, ∃ t, m.type? b = some t) ∧
    (m.baseChain id).length ≤ m.allTypes.length ∧
    ∀ b, m.baseOf id = some b → (∀ k, stepsFrom m.baseOf id (k + 1) ≠ some id) →
      m.baseChain id = b :: m.baseChain b := by
  have hs : m.StartsAtTypes m.baseOf := startsAtTypes_baseOf
  have htrail : IsTrail m.baseOf id (m.baseChain id) := isTrail_chain hs id
  obtain ⟨hfresh, hnd⟩ := List.nodup_cons.mp htrail.fresh
  refine ⟨fun chain => ⟨fun h => h.unique htrail, fun h => h ▸ htrail⟩,
    fun bound h => chain_of_bound hs id h, hnd, hfresh, ?_, length_chain_le hs id, ?_⟩
  · intro b hb
    have hmem : b ∈ (id :: m.baseChain id).dropLast := by
      rw [List.dropLast_cons_of_ne_nil (List.ne_nil_of_mem (List.dropLast_subset _ hb))]
      exact List.mem_cons_of_mem id hb
    obtain ⟨c, hc⟩ := exists_step_of_mem_dropLast hmem
    obtain ⟨r, hr, _⟩ := Option.bind_eq_some_iff.mp hc
    obtain ⟨t, ht, _⟩ := Option.bind_eq_some_iff.mp hr
    exact ⟨t, ht⟩
  · intro b hb hnever
    refine baseChain_cons hb fun h => ?_
    obtain ⟨k, hk⟩ := reaches_iff_stepsFrom.mp h
    exact hnever k hk

/-- a struct whose base is bound to the given handle -/
def extending (name : Name) (b : TypeId) : TypeDef :=
  .struct { name, base := some { name := "Base", binding := .type b } } []

/-- the first struct leads into a circle of two others, and the last one to nothing -/
def entangled : Model :=
  { types :=
      [extending "Entry" (.topLevel 1), extending "Left" (.topLevel 2),
        extending "Right" (.topLevel 1), extending "Stray" (.packaged 7 3)] }

theorem baseChain_isTrail_entangled :
    entangled.baseChain (.topLevel 3) = [.packaged 7 3] ∧
      entangled.baseChain (.topLevel 0) = [.topLevel 1, .topLevel 2] ∧
      entangled.baseChain (.topLevel 0) = .topLevel 1 :: entangled.baseChain (.topLevel 1) := by
  have hcircle : ∀ k, stepsFrom entangled.baseOf (.topLevel 0) (k + 1) = some (.topLevel 1) ∨
      stepsFrom entangled.baseOf (.topLevel 0) (k + 1) = some (.topLevel 2) := by
    intro k
    induction k with
    | zero => exact Or.inl rfl
    | succ k ih =>
      show (stepsFrom entangled.baseOf _ (k + 1)).bind _ = _ ∨
        (stepsFrom entangled.baseOf _ (k + 1)).bind _ = _
      rcases ih with h | h
      · rw [h]
        exact Or.inr rfl
      · rw [h]
        exact Or.inl rfl
  refine ⟨by decide +kernel, by decide +kernel, ?_⟩
  refine (entangled.baseChain_isTrail (.topLevel 0)).2.2.2.2.2.2 _ rfl fun k h => ?_
  rcases hcircle k with hk | hk
  · rw [hk] at h
    cases h
  · rw [hk] at h
    cases h

end Model

end TypeModel
