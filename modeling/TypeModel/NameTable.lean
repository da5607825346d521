import TypeModel.Name

/-!
# Tables

A table gives values to names and keeps its rows in the order in which the names first came up.

* `NameTable.get? t n`        the value of a name;
* `NameTable.alter t n a f`   the table with the value of a name changed by `f`, where a name without
                              a value starts from `a`;
* `NameTable.orInsert t n a`  the table in which a name without a value has the value `a`.
-/

namespace TypeModel

structure NameTable (α : Type) where
  rows : List (Name × α) := []
  deriving Repr

namespace NameTable
variable {α : Type}

def get? (t : NameTable α) (n : Name) : Option α := t.rows.lookup n

/-- rows with the value of a name changed; a new name ends them -/
def alterRows (n : Name) (a : α) (f : α → α) : List (Name × α) → List (Name × α)
  | [] => [(n, f a)]
  | row :: rows => if row.1 = n then (row.1, f row.2) :: rows else row :: alterRows n a f rows

def alter (t : NameTable α) (n : Name) (a : α) (f : α → α) : NameTable α :=
  { rows := alterRows n a f t.rows }

/-- a value that is there stays -/
def orInsert (t : NameTable α) (n : Name) (a : α) : NameTable α := t.alter n a id

theorem lookup_alterRows (n k : Name) (a : α) (f : α → α) (rows : List (Name × α)) :
    (alterRows n a f rows).lookup k =
      if k = n then some (f ((rows.lookup n).getD a)) else rows.lookup k := by
  induction rows with
  | nil =>
    rw [alterRows, List.lookup_cons]
    by_cases hk : k = n
    · rw [beq_iff_eq.mpr hk, if_pos hk]
      rfl
    · rw [beq_eq_false_iff_ne.mpr hk, if_neg hk]
  | cons row rows ih =>
    rw [alterRows, List.lookup_cons, List.lookup_cons]
    by_cases hn : row.1 = n
    · rw [if_pos hn, List.lookup_cons, ← hn, beq_self_eq_true]
      by_cases hk : k = row.1
      · rw [beq_iff_eq.mpr hk, if_pos hk]
        rfl
      · rw [beq_eq_false_iff_ne.mpr hk, if_neg hk]
    · rw [if_neg hn, List.lookup_cons, ih, beq_eq_false_iff_ne.mpr (Ne.symm hn)]
      by_cases hk : k = row.1
      · rw [beq_iff_eq.mpr hk]
        exact (if_neg (hk ▸ hn)).symm
      · rw [beq_eq_false_iff_ne.mpr hk]

theorem get?_alter (t : NameTable α) (n k : Name) (a : α) (f : α → α) :
    (t.alter n a f).get? k = if k = n then some (f ((t.get? n).getD a)) else t.get? k :=
  lookup_alterRows n k a f t.rows

theorem get?_orInsert (t : NameTable α) (n k : Name) (a : α) :
    (t.orInsert n a).get? k = if k = n then some ((t.get? n).getD a) else t.get? k :=
  t.get?_alter n k a id

end NameTable

end TypeModel
