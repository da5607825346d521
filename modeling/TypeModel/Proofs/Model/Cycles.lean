import Mathlib.Data.List.Cycle
import TypeModel.Proofs.Model.Bases

/-!
# The cycles of a step

A step leads from a declaration to at most one other, so its cycles do not meet: a declaration
lies on one cycle at most, and that cycle is its chain.

* `IsCycleOf step c`        `c` lists different members, each stepping to the next and the last to
                            the first; where the list starts does not matter (`Cycle`);
* `isCycleOf_chain`         the chain of a member that reaches itself closes to a cycle;
* `eq_chain_of_isCycleOf`   every cycle is the chain of each of its members.
-/

namespace TypeModel

section
variable {α : Type} {step : α → Option α}

structure IsCycleOf (step : α → Option α) (c : Cycle α) : Prop where
  nonempty : c ≠ Cycle.nil
  nodup : c.Nodup
  steps : c.Chain fun a b => step a = some b

/-- each member of a list but the last steps to the next -/
def Follows (step : α → Option α) (l : List α) : Prop := l.IsChain fun a b => step a = some b

theorem follows_cons_cons {a b : α} {l : List α} :
    Follows step (a :: b :: l) ↔ step a = some b ∧ Follows step (b :: l) := List.isChain_cons_cons

theorem Follows.reaches {z : α} : ∀ {l : List α} {a : α}, Follows step (a :: (l ++ [z])) →
    Reaches step a z := by
  intro l
  induction l with
  | nil =>
    intro a h
    exact Reaches.single (follows_cons_cons.mp h).1
  | cons b l ih =>
    intro a h
    obtain ⟨hab, hb⟩ := follows_cons_cons.mp h
    exact Reaches.cons hab (ih hb)

/-- all members in front of the last step somewhere -/
theorem Follows.steps {z : α} : ∀ {l : List α} {a : α}, Follows step (a :: (l ++ [z])) →
    ∀ x ∈ a :: l, ∃ y, step x = some y := by
  intro l
  induction l with
  | nil =>
    intro a h x hx
    obtain rfl := List.mem_singleton.mp hx
    exact ⟨z, (follows_cons_cons.mp h).1⟩
  | cons b l ih =>
    intro a h x hx
    obtain ⟨hab, hb⟩ := follows_cons_cons.mp h
    rcases List.mem_cons.mp hx with rfl | hx
    · exact ⟨b, hab⟩
    · exact ih hb x hx

/-- a cycle, listed from one of its members on -/
theorem IsCycleOf.exists_cons {c : Cycle α} (hc : IsCycleOf step c) {a : α} (ha : a ∈ c) :
    ∃ l : List α, c = (a :: l : List α) ∧ (a :: l).Nodup ∧ Follows step (a :: (l ++ [a])) := by
  induction c using Quotient.inductionOn' with
  | h members =>
    obtain ⟨front, back, rfl⟩ := List.append_of_mem (Cycle.mem_coe_iff.mp ha)
    have hrotated : ((front ++ a :: back : List α) : Cycle α) = (a :: (back ++ front) : List α) :=
      Cycle.coe_eq_coe.mpr List.isRotated_append
    change IsCycleOf step ((front ++ a :: back : List α) : Cycle α) at hc
    rw [hrotated] at hc
    refine ⟨back ++ front, hrotated, Cycle.nodup_coe_iff.mp hc.nodup, ?_⟩
    exact (Cycle.chain_coe_cons _ a (back ++ front)).mp hc.steps

theorem IsCycleOf.reaches {c : Cycle α} (hc : IsCycleOf step c) {a : α} (ha : a ∈ c) :
    Reaches step a a := by
  obtain ⟨l, _, _, hl⟩ := hc.exists_cons ha
  exact hl.reaches

theorem IsCycleOf.exists_mem {c : Cycle α} (hc : IsCycleOf step c) : ∃ a, a ∈ c := by
  induction c using Quotient.inductionOn' with
  | h members =>
    cases members with
    | nil => exact absurd rfl hc.nonempty
    | cons a l => exact ⟨a, List.mem_cons_self⟩

end

section
variable {α : Type} [DecidableEq α] {step : α → Option α}

theorem follows_trailFrom (fuel : Nat) :
    ∀ (a : α) (passed : List α), Follows step (a :: trailFrom step fuel passed (step a)) := by
  induction fuel with
  | zero => intro a passed; exact List.isChain_singleton a
  | succ fuel ih =>
    intro a passed
    cases hs : step a with
    | none => exact List.isChain_singleton a
    | some n =>
      by_cases hn : n ∈ passed
      · rw [trailFrom_succ_mem fuel hn]
        exact List.isChain_singleton a
      · rw [trailFrom_succ_some fuel hn]
        exact follows_cons_cons.mpr ⟨hs, ih n (n :: passed)⟩

/-- a list of steps that comes to something new each time, and then to something passed, is what
the trail lists -/
theorem trailFrom_of_follows {z : α} : ∀ (l : List α) (fuel : Nat) (a : α) (passed : List α),
    Follows step (a :: (l ++ [z])) → z ∈ passed → l.Nodup → (∀ x ∈ l, x ∉ passed) →
      l.length < fuel → trailFrom step fuel passed (step a) = l := by
  intro l
  induction l with
  | nil =>
    intro fuel a passed h hz _ _ hfuel
    obtain ⟨fuel, rfl⟩ := Nat.exists_eq_succ_of_ne_zero (Nat.ne_of_gt hfuel)
    rw [(follows_cons_cons.mp h).1]
    exact trailFrom_succ_mem fuel hz
  | cons b l ih =>
    intro fuel a passed h hz hnd hnew hfuel
    obtain ⟨hab, hb⟩ := follows_cons_cons.mp h
    obtain ⟨fuel, rfl⟩ := Nat.exists_eq_succ_of_ne_zero (Nat.ne_zero_of_lt hfuel)
    obtain ⟨hbl, hl⟩ := List.nodup_cons.mp hnd
    have hahead : ∀ x ∈ l, x ∉ b :: passed := by
      intro x hx hmem
      rcases List.mem_cons.mp hmem with rfl | hmem
      · exact hbl hx
      · exact hnew x (List.mem_cons_of_mem b hx) hmem
    rw [hab]
    show trailFrom step (fuel + 1) passed (some b) = b :: l
    rw [trailFrom_succ_some fuel (hnew b List.mem_cons_self),
      ih fuel b (b :: passed) hb (List.mem_cons_of_mem b hz) hl hahead
        (Nat.lt_of_succ_lt_succ hfuel)]

end

namespace Model
variable {m : Model} {step : TypeId → Option TypeId}

theorem isCycleOf_chain (hs : m.StartsAtTypes step) {a : TypeId} (h : Reaches step a a) :
    IsCycleOf step ((a :: m.chain step a : List TypeId) : Cycle TypeId) := by
  refine ⟨mt (Cycle.coe_eq_nil _).mp (List.cons_ne_nil _ _),
    Cycle.nodup_coe_iff.mpr (nodup_cons_chain step a), ?_⟩
  show List.IsChain _ ((a :: m.chain step a) ++ [a])
  refine List.isChain_append.mpr ⟨follows_trailFrom _ a [a], List.isChain_singleton a, ?_⟩
  intro x hx y hy
  obtain rfl : a = y := Option.some.inj hy
  have hlast := (last_step_iff hs a).mpr h
  rw [Option.mem_def.mp hx] at hlast
  exact hlast

/-- a cycle through a declaration is its chain: it steps from there, each time to something new,
until it is back -/
theorem eq_chain_of_isCycleOf (hs : m.StartsAtTypes step) {c : Cycle TypeId}
    (hc : IsCycleOf step c) {a : TypeId} (ha : a ∈ c) :
    c = ((a :: m.chain step a : List TypeId) : Cycle TypeId) := by
  obtain ⟨l, rfl, hnd, hl⟩ := hc.exists_cons ha
  obtain ⟨hal, hlnd⟩ := List.nodup_cons.mp hnd
  have hids : ∀ x ∈ a :: l, x ∈ m.allTypes.map (·.id) := by
    intro x hx
    obtain ⟨y, hy⟩ := hl.steps x hx
    exact hs.mem_ids x y hy
  have hle : (a :: l).length ≤ (m.allTypes.map (·.id)).length :=
    (List.Nodup.subperm hnd hids).length_le
  have hnew : ∀ x ∈ l, x ∉ [a] := by
    intro x hx hmem
    rw [List.mem_singleton.mp hmem] at hx
    exact hal hx
  have hchain : m.chain step a = l :=
    trailFrom_of_follows l _ a [a] hl (List.mem_singleton.mpr rfl) hlnd hnew (by
      rw [List.length_cons, List.length_map] at hle
      omega)
  rw [hchain]

end Model

end TypeModel
