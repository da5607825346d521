/-!
# Ordered lists of texts

Texts in ascending order, each once.  `insertOrdered` keeps both properties; the members of
`orderedOf xs` are those of `xs` (`mem_orderedOf`).
-/

namespace TypeModel.Text

def insertOrdered (x : String) : List String → List String
  | [] => [x]
  | y :: ys =>
    if x < y then x :: y :: ys
    else if x = y then y :: ys
    else y :: insertOrdered x ys

def orderedOf (xs : List String) : List String := xs.foldr insertOrdered []

theorem mem_insertOrdered {x z : String} {ys : List String} :
    z ∈ insertOrdered x ys ↔ z = x ∨ z ∈ ys := by
  induction ys with
  | nil => simp [insertOrdered]
  | cons y ys ih =>
    simp only [insertOrdered]
    split
    · simp
    · split
      · rename_i h; subst h; simp
      · simp only [List.mem_cons, ih]; grind

theorem mem_orderedOf {z : String} {xs : List String} : z ∈ orderedOf xs ↔ z ∈ xs := by
  induction xs with
  | nil => simp [orderedOf]
  | cons x xs ih =>
    rw [List.mem_cons, ← ih]
    exact mem_insertOrdered

end TypeModel.Text
