import Mathlib.Data.List.Sort
import TypeModel.Model.Reference

/-!
# Handles in ascending order

Handles are compared by package, then by position, then by inner position (`le_iff`), which is a
linear order, so a list of handles in ascending order is told by its members alone:

* `sorted_eq_iff_perm`   two lists of handles are equal in ascending order if and only if they have
                         the same members.
-/

namespace TypeModel

namespace TypeId

/-- nothing counts as zero -/
def rank (position : Option Nat) : Nat := (position.map (· + 1)).getD 0

theorem rank_injective : Function.Injective rank := by
  rintro (_ | a) (_ | b) h
  · rfl
  · exact absurd h (Nat.succ_ne_zero b).symm
  · exact absurd h (Nat.succ_ne_zero a)
  · exact congrArg some (Nat.succ.inj h)

theorem compareOption_eq (a b : Option Nat) :
    compareOption a b = Ord.compare (rank a) (rank b) := by
  cases a with
  | none =>
    cases b with
    | none => rfl
    | some b => exact (Nat.compare_eq_lt.mpr (Nat.succ_pos b)).symm
  | some a =>
    cases b with
    | none => exact (Nat.compare_eq_gt.mpr (Nat.succ_pos a)).symm
    | some b =>
      show Ord.compare a b = Ord.compare (a + 1) (b + 1)
      simp only [Nat.compare_eq_ite_lt, Nat.add_lt_add_iff_right]

theorem le_iff {a b : TypeId} :
    a.le b = true ↔ rank a.package < rank b.package ∨ (rank a.package = rank b.package ∧
      (a.index < b.index ∨ (a.index = b.index ∧ rank a.inner ≤ rank b.inner))) := by
  unfold le compare
  rw [compareOption_eq, compareOption_eq, bne_iff_ne]
  simp only [Nat.compare_eq_ite_lt]
  split_ifs <;> simp [Ordering.then] <;> omega

instance : Std.Total fun a b : TypeId => a.le b = true :=
  ⟨fun a b => by rw [le_iff, le_iff]; omega⟩

instance : IsTrans TypeId fun a b => a.le b = true :=
  ⟨fun a b c hab hbc => by rw [le_iff] at hab hbc ⊢; omega⟩

theorem le_antisymm {a b : TypeId} (hab : a.le b = true) (hba : b.le a = true) : a = b := by
  rw [le_iff] at hab hba
  have hp : rank a.package = rank b.package := by omega
  have hi : a.index = b.index := by omega
  have hn : rank a.inner = rank b.inner := by omega
  obtain ⟨p, i, n⟩ := a
  obtain ⟨p', i', n'⟩ := b
  obtain rfl : p = p' := rank_injective hp
  obtain rfl : i = i' := hi
  obtain rfl : n = n' := rank_injective hn
  rfl

theorem insertSorted_eq (a : TypeId) (ids : List TypeId) :
    insertSorted a ids = ids.orderedInsert (fun a b => a.le b = true) a := by
  induction ids with
  | nil => rfl
  | cons b ids ih => rw [insertSorted, List.orderedInsert_cons, ih]

theorem sorted_eq (ids : List TypeId) :
    sorted ids = ids.insertionSort fun a b => a.le b = true := by
  induction ids with
  | nil => rfl
  | cons a ids ih =>
    rw [List.insertionSort_cons, ← ih, ← insertSorted_eq]
    rfl

theorem sorted_eq_iff_perm {xs ys : List TypeId} : sorted xs = sorted ys ↔ xs.Perm ys := by
  rw [sorted_eq, sorted_eq]
  constructor
  · intro h
    exact ((List.perm_insertionSort _ xs).symm.trans (.of_eq h)).trans
      (List.perm_insertionSort _ ys)
  · intro h
    refine List.Perm.eq_of_pairwise (fun _ _ _ _ => le_antisymm) (List.pairwise_insertionSort _ xs)
      (List.pairwise_insertionSort _ ys) ?_
    exact ((List.perm_insertionSort _ xs).trans h).trans (List.perm_insertionSort _ ys).symm

end TypeId

end TypeModel
