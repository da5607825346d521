import Mathlib.Data.List.Basic
import TypeModel.Text.Split

/-!
# Cutting what was joined

Names joined with a separator between them are cut again where the separator stands: between two of
them, and where a name has the separator itself.

* `splitOn_append`              a text with the separator in it is cut there;
* `splitOn_append_of_cons`      two texts without a separator between them share a part;
* `notMem_of_mem_split`         a part has no separator;
* `subset_of_mem_split`, `exists_mem_split`   the parts have the characters of the text;
* `mem_splitOn_append`          where the parts of two texts lie, if one of them is not cut;
* `split_joinWith`              the parts of joined names are the parts of each;
* `split_joinWith_of_notMem`    names without the separator come back as they were;
* `length_split_joinWith`       and only those do;
* `isDigit_of_mem_repr`, `sign_or_isDigit`   numbers, which are cut nowhere.
-/

namespace TypeModel.Text

theorem splitOn_append (sep : Char) (a b : List Char) :
    splitOn sep (a ++ sep :: b) = splitOn sep a ++ splitOn sep b := by
  induction a with
  | nil => exact if_pos rfl
  | cons c a ih =>
    rw [List.cons_append, splitOn, splitOn, ih]
    by_cases h : c = sep
    · rw [if_pos h, if_pos h]
      rfl
    · rw [if_neg h, if_neg h]
      cases hs : splitOn sep a with
      | nil => exact absurd hs (splitOn_ne_nil sep a)
      | cons w ws => rfl

theorem splitOn_of_notMem {sep : Char} {cs : List Char} (h : sep ∉ cs) : splitOn sep cs = [cs] := by
  induction cs with
  | nil => rfl
  | cons c cs ih =>
    obtain ⟨hc, hcs⟩ := not_or.mp (mt List.mem_cons.mpr h)
    rw [splitOn, if_neg (Ne.symm hc), ih hcs]
    rfl

theorem head?_splitOn (sep : Char) (cs : List Char) :
    (splitOn sep cs).head? = some (cs.takeWhile (· ≠ sep)) := by
  induction cs with
  | nil => rfl
  | cons c cs ih =>
    rw [splitOn, List.takeWhile_cons]
    by_cases hc : c = sep
    · simp [hc]
    · obtain ⟨rest, hrest⟩ := List.head?_eq_some_iff.mp ih
      simp [hc, hrest, consHead]

/-- two texts are cut as each of them is, but for the parts where they meet -/
theorem splitOn_append_of_cons {sep : Char} {b first : List Char} {rest : List (List Char)}
    (hb : splitOn sep b = first :: rest) (a : List Char) :
    ∃ front last, splitOn sep a = front ++ [last] ∧
      splitOn sep (a ++ b) = front ++ (last ++ first) :: rest := by
  induction a with
  | nil => exact ⟨[], [], rfl, hb⟩
  | cons c a ih =>
    obtain ⟨front, last, ha, hab⟩ := ih
    rw [List.cons_append, splitOn, splitOn, ha, hab]
    by_cases hc : c = sep
    · rw [if_pos hc, if_pos hc]
      exact ⟨[] :: front, last, rfl, rfl⟩
    · rw [if_neg hc, if_neg hc]
      cases front with
      | nil => exact ⟨[], c :: last, rfl, rfl⟩
      | cons w front => exact ⟨(c :: w) :: front, last, rfl, rfl⟩

theorem one_lt_length_splitOn {sep : Char} {cs : List Char} (h : sep ∈ cs) :
    1 < (splitOn sep cs).length := by
  obtain ⟨a, b, rfl⟩ := List.append_of_mem h
  rw [splitOn_append, List.length_append]
  have ha := List.length_pos_of_ne_nil (splitOn_ne_nil sep a)
  have hb := List.length_pos_of_ne_nil (splitOn_ne_nil sep b)
  omega

theorem length_split (sep : Char) (s : String) :
    (split sep s).length = (splitOn sep s.toList).length := List.length_map _

theorem split_of_notMem {sep : Char} {s : String} (h : sep ∉ s.toList) : split sep s = [s] := by
  unfold split
  rw [splitOn_of_notMem h]
  simp

theorem notMem_of_mem_splitOn {sep : Char} {cs w : List Char} (h : w ∈ splitOn sep cs) :
    sep ∉ w := by
  induction cs generalizing w with
  | nil =>
    rw [List.mem_singleton.mp h]
    exact List.not_mem_nil
  | cons c cs ih =>
    rw [splitOn] at h
    by_cases hc : c = sep
    · rw [if_pos hc] at h
      rcases List.mem_cons.mp h with rfl | h
      · exact List.not_mem_nil
      · exact ih h
    · rw [if_neg hc] at h
      cases hs : splitOn sep cs with
      | nil => exact absurd hs (splitOn_ne_nil sep cs)
      | cons v vs =>
        rw [hs] at h ih
        rcases List.mem_cons.mp h with rfl | h
        · rw [List.mem_cons, not_or]
          exact ⟨Ne.symm hc, ih List.mem_cons_self⟩
        · exact ih (List.mem_cons_of_mem v h)

theorem mem_consHead {c : Char} {ws : List (List Char)} {part : List Char}
    (h : part ∈ consHead c ws) : part = [c] ∨ (∃ w ∈ ws, part = c :: w) ∨ part ∈ ws := by
  cases ws with
  | nil => exact Or.inl (List.mem_singleton.mp h)
  | cons w ws =>
    rcases List.mem_cons.mp h with rfl | h
    · exact Or.inr (Or.inl ⟨w, List.mem_cons_self, rfl⟩)
    · exact Or.inr (Or.inr (List.mem_cons_of_mem w h))

/-- a part of two texts, the second of which is not cut, lies in the first or ends with the
second -/
theorem mem_splitOn_append {sep : Char} {a b part : List Char} (hb : sep ∉ b)
    (h : part ∈ splitOn sep (a ++ b)) : part ⊆ a ∨ ∃ front, part = front ++ b := by
  induction a generalizing part with
  | nil =>
    rw [List.nil_append, splitOn_of_notMem hb] at h
    exact Or.inr ⟨[], List.mem_singleton.mp h⟩
  | cons c a ih =>
    have hrest : part ∈ splitOn sep (a ++ b) → part ⊆ c :: a ∨ ∃ front, part = front ++ b :=
      fun h => (ih h).imp_left fun hsub => List.subset_cons_of_subset c hsub
    rw [List.cons_append, splitOn] at h
    split at h
    · rcases List.mem_cons.mp h with rfl | h
      · exact Or.inl (List.nil_subset _)
      · exact hrest h
    · rcases mem_consHead h with rfl | ⟨w, hw, rfl⟩ | h
      · exact Or.inl (List.cons_subset.mpr ⟨List.mem_cons_self, List.nil_subset _⟩)
      · rcases ih hw with hsub | ⟨front, rfl⟩
        · exact Or.inl (List.cons_subset_cons c hsub)
        · exact Or.inr ⟨c :: front, rfl⟩
      · exact hrest h

theorem notMem_of_mem_split {sep : Char} {s w : String} (h : w ∈ split sep s) :
    sep ∉ w.toList := by
  obtain ⟨cs, hcs, rfl⟩ := List.mem_map.mp h
  rw [String.toList_ofList]
  exact notMem_of_mem_splitOn hcs

theorem mem_joinParts {sep x : Char} {ws : List (List Char)} (h : x ∈ joinParts sep ws) :
    x = sep ∨ ∃ w ∈ ws, x ∈ w := by
  induction ws with
  | nil => cases h
  | cons w ws ih =>
    cases ws with
    | nil => exact Or.inr ⟨w, List.mem_cons_self, h⟩
    | cons w' ws =>
      rw [joinParts, List.mem_append, List.mem_cons] at h
      rcases h with h | h | h
      · exact Or.inr ⟨w, List.mem_cons_self, h⟩
      · exact Or.inl h
      · rcases ih h with h | ⟨v, hv, hx⟩
        · exact Or.inl h
        · exact Or.inr ⟨v, List.mem_cons_of_mem w hv, hx⟩

theorem subset_joinParts (sep : Char) {ws : List (List Char)} {w : List Char} (h : w ∈ ws) :
    w ⊆ joinParts sep ws := by
  induction ws with
  | nil => cases h
  | cons v ws ih =>
    cases ws with
    | nil =>
      rw [List.mem_singleton.mp h]
      exact List.Subset.refl v
    | cons v' ws =>
      rw [joinParts]
      rcases List.mem_cons.mp h with rfl | h
      · exact List.subset_append_left _ _
      · exact List.subset_append_of_subset_right _ (List.subset_cons_of_subset _ (ih h))

theorem subset_of_mem_splitOn {sep : Char} {cs w : List Char} (h : w ∈ splitOn sep cs) :
    w ⊆ cs := by
  have hsub := subset_joinParts sep h
  rwa [joinParts_splitOn] at hsub

theorem subset_of_mem_split {sep : Char} {s w : String} (h : w ∈ split sep s) :
    w.toList ⊆ s.toList := by
  obtain ⟨cs, hcs, rfl⟩ := List.mem_map.mp h
  rw [String.toList_ofList]
  exact subset_of_mem_splitOn hcs

theorem exists_mem_split {sep c : Char} {s : String} (hc : c ∈ s.toList) (hne : c ≠ sep) :
    ∃ w ∈ split sep s, c ∈ w.toList := by
  rw [← joinParts_splitOn sep s.toList] at hc
  obtain ⟨cs, hcs, hc⟩ := (mem_joinParts hc).resolve_left hne
  exact ⟨String.ofList cs, List.mem_map_of_mem hcs, by rwa [String.toList_ofList]⟩

theorem mem_joinWith {sep : String} {ws : List String} {c : Char}
    (h : c ∈ (joinWith sep ws).toList) : c ∈ sep.toList ∨ ∃ w ∈ ws, c ∈ w.toList := by
  induction ws with
  | nil => simp [joinWith] at h
  | cons w ws ih =>
    cases ws with
    | nil =>
      simp [joinWith] at h
      exact Or.inr ⟨w, List.mem_cons_self, h⟩
    | cons w' ws =>
      have hjoin : (joinWith sep (w :: w' :: ws)).toList =
          w.toList ++ (sep.toList ++ (joinWith sep (w' :: ws)).toList) := by
        simp [joinWith]
      rw [hjoin, List.mem_append, List.mem_append] at h
      rcases h with h | h | h
      · exact Or.inr ⟨w, List.mem_cons_self, h⟩
      · exact Or.inl h
      · exact (ih h).imp_right fun ⟨x, hx, hc⟩ => ⟨x, List.mem_cons_of_mem w hx, hc⟩

section
variable {c : Char} {sep : String} (hsep : sep.toList = [c]) {path : List String}
include hsep

theorem split_joinWith (h : path ≠ []) :
    split c (joinWith sep path) = path.flatMap (split c) := by
  induction path with
  | nil => exact absurd rfl h
  | cons n path ih =>
    cases path with
    | nil => simp [joinWith]
    | cons n' path =>
      have hjoin : (joinWith sep (n :: n' :: path)).toList =
          n.toList ++ c :: (joinWith sep (n' :: path)).toList := by
        simp [joinWith, hsep]
      rw [List.flatMap_cons, ← ih (List.cons_ne_nil _ _)]
      unfold split
      rw [hjoin, splitOn_append, List.map_append]

theorem split_joinWith_of_notMem (hne : path ≠ []) (h : ∀ n ∈ path, c ∉ n.toList) :
    split c (joinWith sep path) = path := by
  rw [split_joinWith hsep hne]
  clear hne
  induction path with
  | nil => rfl
  | cons n path ih =>
    rw [List.flatMap_cons, split_of_notMem (h n List.mem_cons_self), List.singleton_append,
      ih fun x hx => h x (List.mem_cons_of_mem n hx)]

/-- there is a part for each name, and more where a name has separators of its own -/
theorem length_split_joinWith (hne : path ≠ []) :
    path.length ≤ (split c (joinWith sep path)).length ∧
      ((split c (joinWith sep path)).length = path.length → ∀ n ∈ path, c ∉ n.toList) := by
  rw [split_joinWith hsep hne]
  clear hne
  induction path with
  | nil => exact ⟨Nat.le_refl 0, fun _ _ h => absurd h List.not_mem_nil⟩
  | cons n path ih =>
    obtain ⟨hle, heq⟩ := ih
    have hn := List.length_pos_of_ne_nil (splitOn_ne_nil c n.toList)
    rw [List.flatMap_cons, List.length_append, List.length_cons, length_split]
    refine ⟨by omega, fun h => ?_⟩
    rw [List.forall_mem_cons]
    refine ⟨fun hdot => ?_, heq (by omega)⟩
    have := one_lt_length_splitOn hdot
    omega

end

/-! ## numbers -/

theorem repr_ne_nil (n : Nat) : (Nat.repr n).toList ≠ [] := by
  rw [Nat.repr_eq_ofList_toDigits, String.toList_ofList]
  exact Nat.toDigits_ne_nil

theorem isDigit_of_mem_repr {n : Nat} {c : Char} (h : c ∈ (Nat.repr n).toList) :
    c.isDigit = true := by
  rw [Nat.repr_eq_ofList_toDigits, String.toList_ofList] at h
  exact Nat.isDigit_of_mem_toDigits (by omega) (by omega) h

theorem sign_or_isDigit {n : Int} {c : Char} (h : c ∈ (Int.repr n).toList) :
    c = '-' ∨ c.isDigit = true := by
  cases n with
  | ofNat k => exact Or.inr (isDigit_of_mem_repr h)
  | negSucc k =>
    rw [Int.repr, String.toList_append] at h
    exact (List.mem_append.mp h).imp List.mem_singleton.mp isDigit_of_mem_repr

end TypeModel.Text
