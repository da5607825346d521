import TypeModel.Proofs.Text.Writer

/-!
# The lines of a written text

Whatever a script does, its text consists of whole lines none of which ends in a blank, and empty
lines stand only where the script asks for them.

* `Steady P ok`             `P` is kept by writing a part that is `ok`, by an empty line and by a
                            change of depth;
* `Steady.trace`            then every step keeps it, nested steps and failing ones included, and it
                            holds wherever a text is recorded on the way;
* `Tidy`, `EndsOnce`, `Spaced`   what is said about texts;
* `Writer.Neat.tidy`, `Writer.Neat.endsOnce`, `Writer.Neat.spaced`   what the lines of a writer say
                            about its text;
* `layout_runAll`           the layout of every text that a script gives.
-/

namespace TypeModel.Text

/-! ## lines and their text -/

/-- lines, oldest first, each ended by a line feed -/
def joinLines (ls : List String) : String := String.join (ls.map (· ++ "\n"))

theorem toList_joinLines_cons (line : String) (ls : List String) :
    (joinLines (line :: ls)).toList = line.toList ++ '\n' :: (joinLines ls).toList := by
  simp [joinLines]

theorem splitOn_joinLines {ls : List String} (h : ∀ line ∈ ls, '\n' ∉ line.toList) :
    splitOn '\n' (joinLines ls).toList = ls.map String.toList ++ [[]] := by
  induction ls with
  | nil => decide
  | cons line ls ih =>
    obtain ⟨hline, hls⟩ := List.forall_mem_cons.mp h
    rw [toList_joinLines_cons, splitOn_append, splitOn_of_notMem hline, ih hls]
    rfl

namespace Writer

/-- the text of a line, newest first, and those before it -/
theorem toList_textOf_cons (line : String) (written : List String) :
    (textOf (line :: written)).toList = (textOf written).toList ++ line.toList ++ ['\n'] := by
  simp [textOf]

end Writer

/-! ## what every run keeps -/

/-- every part of a text between line feeds is `ok` -/
def PartsOk (ok : List Char → Prop) (text : String) : Prop :=
  ∀ part ∈ splitOn '\n' text.toList, ok part

/-- a property of writers that their operations keep, where every part that is written is `ok` -/
structure Steady (P : Writer → Prop) (ok : List Char → Prop) : Prop where
  part : ∀ w part, P w → '\n' ∉ part → ok part → P (w.push (w.layOut part))
  blank : ∀ w, P w → P w.blank
  atDepth : ∀ w depth, P w → P (w.atDepth depth)

/-- the mark is a failure or the text of a writer with the property -/
def Mark.Shows (P : Writer → Prop) : Mark → Prop
  | .failed => True
  | .text soFar => ∃ w, P w ∧ soFar = w.text

/-- a traced step ends in a writer with the property, fails as it should and shows the property on
its way -/
structure Kept (P : Writer → Prop) (r : (Writer × Bool) × List Mark) (fails : Bool) : Prop where
  writer : P r.1.1
  fails : r.1.2 = fails
  marks : ∀ mark ∈ r.2, mark.Shows P

section
variable {P : Writer → Prop} {ok : List Char → Prop}

theorem Steady.and {Q : Writer → Prop} (h : Steady P ok) (h' : Steady Q ok) :
    Steady (fun w => P w ∧ Q w) ok where
  part := fun w part hw hpart hok => ⟨h.part w part hw.1 hpart hok, h'.part w part hw.2 hpart hok⟩
  blank := fun w hw => ⟨h.blank w hw.1, h'.blank w hw.2⟩
  atDepth := fun w depth hw => ⟨h.atDepth w depth hw.1, h'.atDepth w depth hw.2⟩

theorem Steady.line (h : Steady P ok) {w : Writer} (hw : P w) {text : String}
    (htext : PartsOk ok text) : P (w.line text) := by
  unfold Writer.line
  refine List.foldlRecOn _ _ hw ?_
  intro w hw part hpart
  exact h.part w part hw (notMem_of_mem_splitOn hpart) (htext part hpart)

theorem Steady.comment (h : Steady P ok) {w : Writer} (hw : P w) {mark : String}
    {texts : List String} (htexts : ∀ text ∈ texts, PartsOk ok (Writer.commentLine mark text)) :
    P (w.comment mark texts) := by
  unfold Writer.comment
  refine List.foldlRecOn _ _ hw ?_
  intro w hw text htext
  exact h.line hw (htexts text htext)

theorem shows_concat {marks : List Mark} (hmarks : ∀ mark ∈ marks, mark.Shows P) {w : Writer}
    (hw : P w) : ∀ mark ∈ marks ++ [.text w.text], mark.Shows P := by
  intro mark hmark
  rcases List.mem_append.mp hmark with hmark | hmark
  · exact hmarks mark hmark
  · rw [List.mem_singleton.mp hmark]
    exact ⟨w, hw, rfl⟩

/-- a step that is completed at once -/
theorem Kept.of_writer {w : Writer} (hw : P w) : Kept P ((w, false), [.text w.text]) false where
  writer := hw
  fails := rfl
  marks := by
    have hnone : ∀ mark ∈ ([] : List Mark), mark.Shows P := fun _ h => absurd h List.not_mem_nil
    exact shows_concat hnone hw

mutual

theorem Steady.trace (h : Steady P ok) {w : Writer} (hw : P w) :
    ∀ s : Step, (∀ text ∈ s.texts.1, PartsOk ok text) → Kept P (s.trace w) s.texts.2
  | .line text => by
    intro htexts
    rw [Step.trace, Step.texts]
    exact .of_writer (h.line hw (htexts text (List.mem_singleton_self text)))
  | .blank => by
    intro _
    rw [Step.trace, Step.texts]
    exact .of_writer (h.blank w hw)
  | .comment mark texts => by
    intro htexts
    rw [Step.trace, Step.texts]
    exact .of_writer (h.comment hw fun text htext => htexts _ (List.mem_map_of_mem htext))
  | .indented body => by
    intro htexts
    rw [Step.texts] at htexts
    obtain ⟨hbody, hfails, hmarks⟩ := h.traceAll (h.atDepth w (w.depth + 1) hw) body htexts
    have hend := h.atDepth _ w.depth hbody
    rw [Step.trace, Step.texts]
    refine ⟨hend, hfails, ?_⟩
    dsimp only
    split
    · exact hmarks
    · exact shows_concat hmarks hend
  | .guarded body => by
    intro htexts
    rw [Step.texts] at htexts
    obtain ⟨hbody, -, hmarks⟩ := h.traceAll (h.atDepth w (w.depth + 1) hw) body htexts
    have hend := h.atDepth _ w.depth hbody
    rw [Step.trace, Step.texts]
    refine ⟨hend, rfl, shows_concat ?_ hend⟩
    split
    · exact fun mark hmark => (List.mem_append.mp hmark).elim (hmarks mark)
        fun hmark => List.mem_singleton.mp hmark ▸ trivial
    · exact hmarks
  | .fail => by
    intro _
    rw [Step.trace, Step.texts]
    exact ⟨hw, rfl, fun mark hmark => absurd hmark List.not_mem_nil⟩

theorem Steady.traceAll (h : Steady P ok) {w : Writer} (hw : P w) :
    ∀ ss : List Step, (∀ text ∈ (Step.textsAll ss).1, PartsOk ok text) →
      Kept P (Step.traceAll ss w) (Step.textsAll ss).2
  | [] => by
    intro _
    rw [Step.traceAll, Step.textsAll]
    exact ⟨hw, rfl, fun mark hmark => absurd hmark List.not_mem_nil⟩
  | s :: ss => by
    intro htexts
    rw [Step.textsAll] at htexts ⊢
    rw [Step.traceAll]
    dsimp only at htexts ⊢
    cases hf : s.texts.2 with
    -- the steps behind one that fails are not run
    | true =>
      rw [hf, if_pos rfl] at htexts
      have hfirst := h.trace hw s htexts
      rw [hfirst.fails, hf, if_pos rfl, if_pos rfl]
      exact hfirst
    | false =>
      rw [hf, if_neg Bool.false_ne_true] at htexts
      have hfirst := h.trace hw s fun text htext => htexts text (List.mem_append_left _ htext)
      have hrest := h.traceAll hfirst.writer ss fun text htext =>
        htexts text (List.mem_append_right _ htext)
      rw [hfirst.fails, hf, if_neg Bool.false_ne_true, if_neg Bool.false_ne_true]
      exact ⟨hrest.writer, hrest.fails, fun mark hmark =>
        (List.mem_append.mp hmark).elim (hfirst.marks mark) (hrest.marks mark)⟩

end

end

mutual

/-- recording changes nothing -/
theorem Step.trace_eq_run (w : Writer) : ∀ s : Step, (s.trace w).1 = s.run w
  | .line text => by rw [Step.trace, Step.run]
  | .blank => by rw [Step.trace, Step.run]
  | .comment mark texts => by rw [Step.trace, Step.run]
  | .indented body => by rw [Step.trace, Step.run, ← Step.traceAll_eq_runAll]
  | .guarded body => by rw [Step.trace, Step.run, ← Step.traceAll_eq_runAll]
  | .fail => by rw [Step.trace, Step.run]

theorem Step.traceAll_eq_runAll (w : Writer) :
    ∀ ss : List Step, (Step.traceAll ss w).1 = Step.runAll ss w
  | [] => by rw [Step.traceAll, Step.runAll]
  | s :: ss => by
    rw [Step.traceAll, Step.runAll, ← Step.trace_eq_run]
    dsimp only
    split
    · rfl
    · exact Step.traceAll_eq_runAll (s.trace w).1.1 ss

end

theorem Step.runAll_depth (ss : List Step) (w : Writer) :
    (Step.runAll ss w).1.depth = w.depth := by
  induction ss generalizing w with
  | nil => rw [Step.runAll]
  | cons s ss ih =>
    rw [Step.runAll]
    split
    · exact s.run_depth w
    · rw [ih, s.run_depth w]

/-! ## lines without blanks at their end -/

/-- whole lines, none of which ends in a blank -/
structure Tidy (text : String) : Prop where
  ended : text = "" ∨ ['\n'] <:+ text.toList
  trimmed : ∀ line ∈ splitOn '\n' text.toList, ∀ c ∈ line.getLast?, isBlank c = false

/-- empty, or with one line feed at the end and no more -/
def EndsOnce (text : String) : Prop :=
  text = "" ∨ ['\n'] <:+ text.toList ∧ ¬ ['\n', '\n'] <:+ text.toList

/-- no empty line at the start, and nowhere two in a row -/
structure Spaced (text : String) : Prop where
  start : text.toList.head? ≠ some '\n'
  apart : ¬ ['\n', '\n', '\n'] <:+: text.toList

theorem isBlank_getLast?_trimEnd {cs : List Char} {c : Char} (h : c ∈ (trimEnd cs).getLast?) :
    isBlank c = false := by
  unfold trimEnd at h
  rw [List.getLast?_reverse, Option.mem_def] at h
  have hnot := List.head?_dropWhile_not isBlank cs.reverse
  rw [h] at hnot
  exact hnot

namespace Writer

/-- a line as a writer has them -/
structure NeatLine (line : String) : Prop where
  whole : '\n' ∉ line.toList
  trimmed : ∀ c ∈ line.toList.getLast?, isBlank c = false

structure Neat (w : Writer) : Prop where
  unit : IsBlankLine w.unit
  lines : ∀ line ∈ w.written, NeatLine line

section
variable {w : Writer}

theorem neatLine_empty : NeatLine "" where
  whole := List.not_mem_nil
  trimmed := fun c hc => by cases hc

theorem layOut_of_not_blank {part : List Char} (hpart : allBlank part = false) :
    (w.layOut part).toList = w.indentation.toList ++ trimEnd part := by
  unfold layOut
  rw [hpart, if_neg Bool.false_ne_true, String.toList_append, String.toList_ofList]

theorem neatLine_layOut (hindent : '\n' ∉ w.indentation.toList) {part : List Char}
    (hpart : '\n' ∉ part) : NeatLine (w.layOut part) := by
  cases hblank : allBlank part with
  | true =>
    unfold layOut
    rw [if_pos hblank]
    exact neatLine_empty
  | false =>
    obtain ⟨e, _, htrim⟩ := trimEnd_eq part
    have hne := trimEnd_ne_nil hblank
    refine ⟨?_, ?_⟩
    · rw [layOut_of_not_blank hblank, List.mem_append, not_or]
      exact ⟨hindent, fun hmem => hpart (htrim ▸ List.mem_append_left e hmem)⟩
    · intro c hc
      rw [layOut_of_not_blank hblank, List.getLast?_append_of_ne_nil _ hne] at hc
      exact isBlank_getLast?_trimEnd hc

theorem steady_neat (ok : List Char → Prop) : Steady Neat ok where
  part := by
    intro w part hw hpart _
    have hindent := (isBlankLine_indentation hw.unit).2
    exact ⟨hw.unit, List.forall_mem_cons.mpr ⟨neatLine_layOut hindent hpart, hw.lines⟩⟩
  blank := by
    intro w hw
    unfold blank
    split
    · exact ⟨hw.unit, List.forall_mem_cons.mpr ⟨neatLine_empty, hw.lines⟩⟩
    · exact hw
  atDepth := fun w depth hw => ⟨hw.unit, hw.lines⟩

theorem textOf_ended (written : List String) :
    textOf written = "" ∨ ['\n'] <:+ (textOf written).toList := by
  cases written with
  | nil => exact Or.inl rfl
  | cons line written =>
    right
    rw [toList_textOf_cons]
    exact List.suffix_append _ _

theorem Neat.tidy (h : w.Neat) : Tidy w.text where
  ended := textOf_ended w.written
  trimmed := by
    intro line hline
    have hwhole : ∀ line ∈ w.written.reverse, '\n' ∉ line.toList := fun line hline =>
      (h.lines line (List.mem_reverse.mp hline)).whole
    replace hline : line ∈ splitOn '\n' (joinLines w.written.reverse).toList := hline
    rw [splitOn_joinLines hwhole] at hline
    rcases List.mem_append.mp hline with hline | hline
    · obtain ⟨x, hx, rfl⟩ := List.mem_map.mp hline
      exact (h.lines x (List.mem_reverse.mp hx)).trimmed
    · rw [List.mem_singleton.mp hline]
      exact neatLine_empty.trimmed

/-! ## empty lines -/

/-- what ends in a line that is not empty has no line feed at its end -/
theorem not_suffix_append (before : List Char) {line : String} (hline : '\n' ∉ line.toList)
    (hne : line ≠ "") : ¬ ['\n'] <:+ before ++ line.toList := by
  rintro ⟨front, hfront⟩
  have hnil : line.toList ≠ [] := fun h => hne (String.toList_eq_nil_iff.mp h)
  have hlast := congrArg List.getLast? hfront
  rw [List.getLast?_concat, List.getLast?_append_of_ne_nil _ hnil] at hlast
  exact hline (List.mem_of_getLast? hlast.symm)

/-- a text whose last line is not empty, or which has but that line, ends in one line feed -/
theorem not_suffix_textOf {line : String} {written : List String} (hline : '\n' ∉ line.toList)
    (h : line = "" → written = []) : ¬ ['\n', '\n'] <:+ (textOf (line :: written)).toList := by
  rw [toList_textOf_cons, show ['\n', '\n'] = ['\n'] ++ ['\n'] from rfl,
    List.suffix_append_self_iff]
  by_cases hempty : line = ""
  · rw [h hempty, hempty]
    decide
  · exact not_suffix_append _ hline hempty

theorem endsOnce_dropTrailing {written : List String}
    (hlines : ∀ line ∈ written, '\n' ∉ line.toList) : EndsOnce (textOf (dropTrailing written)) := by
  fun_induction dropTrailing written with
  | case1 line written ih => exact ih (List.forall_mem_cons.mp hlines).2
  | case2 written hlast =>
    cases written with
    | nil => exact Or.inl rfl
    | cons line written =>
      refine Or.inr ⟨?_, not_suffix_textOf (hlines line List.mem_cons_self) ?_⟩
      · rw [toList_textOf_cons]
        exact List.suffix_append _ _
      · intro hempty
        cases written with
        | nil => rfl
        | cons before written => exact absurd (hempty ▸ rfl) (hlast before written)

theorem Neat.endsOnce (h : w.Neat) : EndsOnce w.finish :=
  endsOnce_dropTrailing fun line hline => (h.lines line hline).whole

/-- lines, newest first: the oldest is not empty, and neither is the line before an empty one -/
def Apart : List String → Prop
  | [] => True
  | [line] => line ≠ ""
  | line :: before :: written => (line = "" → before ≠ "") ∧ Apart (before :: written)

theorem Apart.cons {written : List String} (h : Apart written) {line : String} (hne : line ≠ "") :
    Apart (line :: written) := by
  cases written with
  | nil => exact hne
  | cons before written => exact ⟨fun heq => absurd heq hne, h⟩

theorem Apart.tail {line : String} {written : List String} (h : Apart (line :: written)) :
    Apart written := by
  cases written with
  | nil => trivial
  | cons before written => exact h.2

/-- an empty line is written only behind one that is not -/
theorem Apart.blank (h : Apart w.written) : Apart w.blank.written := by
  unfold Writer.blank
  split
  case isFalse => exact h
  case isTrue htakes =>
    show Apart ("" :: w.written)
    match hw : w.written with
    | [] =>
      rw [hw] at htakes
      cases htakes
    | [line] =>
      rw [hw] at h
      exact ⟨fun _ => h, h⟩
    | line :: before :: written =>
      rw [hw] at h htakes
      exact ⟨fun _ => bne_iff_ne.mp htakes, h⟩

theorem steady_apart : Steady (fun w => Apart w.written) fun part => allBlank part = false where
  part := by
    intro w part hw _ hpart
    refine hw.cons fun hempty => trimEnd_ne_nil hpart ?_
    have hlay := layOut_of_not_blank (w := w) hpart
    rw [hempty] at hlay
    exact (List.append_eq_nil_iff.mp hlay.symm).2
  blank := fun w hw => hw.blank
  atDepth := fun w depth hw => hw

/-- a run of characters that the end of a text does not have lies before that end -/
theorem infix_of_infix_append {run front back : List Char} (hrun : run ≠ [])
    (hback : ∀ c ∈ run, c ∉ back) (h : run <:+: front ++ back) : run <:+: front := by
  rcases List.infix_append_iff.mp h with h | h | ⟨a, b, rfl, ha, hb⟩
  · exact h
  · obtain ⟨c, hc⟩ := List.exists_mem_of_ne_nil run hrun
    exact absurd (h.subset hc) (hback c hc)
  · cases b with
    | nil => rw [List.append_nil]; exact ha.isInfix
    | cons c b =>
      exact absurd (hb.subset List.mem_cons_self)
        (hback c (List.mem_append_right a List.mem_cons_self))

theorem head?_textOf {written : List String} (hlines : ∀ line ∈ written, '\n' ∉ line.toList)
    (h : Apart written) : (textOf written).toList.head? ≠ some '\n' := by
  induction written with
  | nil => decide
  | cons line written ih =>
    obtain ⟨hline, hrest⟩ := List.forall_mem_cons.mp hlines
    rw [toList_textOf_cons, List.append_assoc]
    cases written with
    | nil =>
      have hne : line.toList ≠ [] := fun hnil => h (String.toList_eq_nil_iff.mp hnil)
      show (line.toList ++ ['\n']).head? ≠ _
      rw [List.head?_append_of_ne_nil _ hne]
      exact fun hhead => hline (List.mem_of_mem_head? hhead)
    | cons before written =>
      have hne : (textOf (before :: written)).toList ≠ [] := by
        rw [toList_textOf_cons]
        exact List.append_ne_nil_of_right_ne_nil _ (List.cons_ne_nil _ _)
      rw [List.head?_append_of_ne_nil _ hne]
      exact ih hrest h.tail

theorem not_infix_textOf {written : List String} (hlines : ∀ line ∈ written, '\n' ∉ line.toList)
    (h : Apart written) : ¬ ['\n', '\n', '\n'] <:+: (textOf written).toList := by
  induction written with
  | nil => decide
  | cons line written ih =>
    obtain ⟨hline, hrest⟩ := List.forall_mem_cons.mp hlines
    rw [toList_textOf_cons, List.infix_concat_iff, not_or]
    constructor
    · -- two line feeds before the last one: the line is empty, and so is the one before it
      rw [show ['\n', '\n', '\n'] = ['\n', '\n'] ++ ['\n'] from rfl, List.suffix_append_self_iff]
      intro hend
      by_cases hempty : line = ""
      · cases written with
        | nil => exact h hempty
        | cons before written =>
          have hbefore := h.1 hempty
          rw [hempty, String.toList_empty, List.append_nil] at hend
          exact not_suffix_textOf (hrest before List.mem_cons_self)
            (fun heq => absurd heq hbefore) hend
      · exact not_suffix_append _ hline hempty ((List.suffix_cons _ _).trans hend)
    · intro hin
      refine ih hrest h.tail (infix_of_infix_append (List.cons_ne_nil _ _) ?_ hin)
      simp [hline]

theorem Neat.spaced (h : w.Neat) (hapart : Apart w.written) : Spaced w.text :=
  have hlines := fun line hline => (h.lines line hline).whole
  ⟨head?_textOf hlines hapart, not_infix_textOf hlines hapart⟩

end

end Writer

/-! ## texts without blank parts -/

/-- no part of the text between line feeds is blank -/
def isSolid (text : String) : Bool := (splitOn '\n' text.toList).all (!allBlank ·)

mutual

/-- marks and texts have no blank parts; a text behind a mark may be blank as a whole -/
def Step.isSolid : Step → Bool
  | .line text => Text.isSolid text
  | .comment mark texts =>
    Text.isSolid mark && texts.all fun text => allBlank text.toList || Text.isSolid text
  | .indented body | .guarded body => Step.areSolid body
  | .blank | .fail => true

def Step.areSolid : List Step → Bool
  | [] => true
  | s :: ss => s.isSolid && Step.areSolid ss

end

theorem isSolid_iff {text : String} :
    isSolid text = true ↔ PartsOk (fun part => allBlank part = false) text := by
  simp [isSolid, PartsOk]

theorem allBlank_of_mem_splitOn {cs part : List Char} (hcs : allBlank cs = true)
    (h : part ∈ splitOn '\n' cs) : allBlank part = true := by
  unfold allBlank at hcs ⊢
  rw [List.all_eq_true] at hcs ⊢
  exact fun c hc => hcs c (subset_of_mem_splitOn h hc)

theorem allBlank_append (a b : List Char) : allBlank (a ++ b) = (allBlank a && allBlank b) :=
  List.all_append

/-- the blanks at the end of a solid text are all in its last part -/
theorem allBlank_part_trimEnd {cs : List Char}
    (h : ∀ part ∈ splitOn '\n' cs, allBlank part = false) :
    ∀ part ∈ splitOn '\n' (trimEnd cs), allBlank part = false := by
  obtain ⟨e, he, hcs⟩ := trimEnd_eq cs
  obtain ⟨first, rest, hsplit⟩ := List.exists_cons_of_ne_nil (splitOn_ne_nil '\n' e)
  obtain ⟨front, last, htrim, hall⟩ := splitOn_append_of_cons hsplit (trimEnd cs)
  rw [← hcs] at hall
  rw [hall] at h
  have hfirst : allBlank first = true :=
    allBlank_of_mem_splitOn he (hsplit ▸ List.mem_cons_self)
  have hlast := h (last ++ first) (List.mem_append_right _ List.mem_cons_self)
  rw [allBlank_append, hfirst, Bool.and_true] at hlast
  intro part hpart
  rw [htrim] at hpart
  rcases List.mem_append.mp hpart with hpart | hpart
  · exact h part (List.mem_append_left _ hpart)
  · rw [List.mem_singleton.mp hpart]
    exact hlast

theorem commentLine_of_blank (mark : String) {text : String} (h : allBlank text.toList = true) :
    Writer.commentLine mark text = mark := by
  have hnil : trimEnd text.toList = [] := trimEnd_append [] h
  unfold Writer.commentLine
  rw [hnil]
  rfl

theorem toList_commentLine (mark : String) {text : String} (h : allBlank text.toList = false) :
    (Writer.commentLine mark text).toList = mark.toList ++ ' ' :: trimEnd text.toList := by
  have hne : (trimEnd text.toList).isEmpty = false := by
    simpa using trimEnd_ne_nil h
  unfold Writer.commentLine
  dsimp only
  rw [hne, if_neg Bool.false_ne_true]
  simp

/-- a comment line has the parts of the mark and those of the text, one of each joined -/
theorem splitOn_commentLine (mark : String) {text : String} (h : allBlank text.toList = false)
    {first : List Char} {rest : List (List Char)}
    (hsplit : splitOn '\n' (trimEnd text.toList) = first :: rest) :
    ∃ front last, splitOn '\n' mark.toList = front ++ [last] ∧
      splitOn '\n' (Writer.commentLine mark text).toList =
        front ++ (last ++ ' ' :: first) :: rest := by
  have hspaced : splitOn '\n' (' ' :: trimEnd text.toList) = (' ' :: first) :: rest := by
    rw [splitOn, if_neg (by decide), hsplit]
    rfl
  rw [toList_commentLine mark h]
  exact splitOn_append_of_cons hspaced mark.toList

theorem isSolid_commentLine {mark text : String} (hmark : isSolid mark = true)
    (htext : allBlank text.toList = true ∨ isSolid text = true) :
    isSolid (Writer.commentLine mark text) = true := by
  cases hblank : allBlank text.toList with
  | true =>
    rw [commentLine_of_blank mark hblank]
    exact hmark
  | false =>
    have htext := htext.resolve_left (by rw [hblank]; exact Bool.false_ne_true)
    have hbody := allBlank_part_trimEnd (isSolid_iff.mp htext)
    obtain ⟨first, rest, hsplit⟩ :=
      List.exists_cons_of_ne_nil (splitOn_ne_nil '\n' (trimEnd text.toList))
    obtain ⟨front, last, hparts, hall⟩ := splitOn_commentLine mark hblank hsplit
    have hmark := isSolid_iff.mp hmark
    unfold PartsOk at hmark
    rw [hparts] at hmark
    rw [hsplit] at hbody
    rw [isSolid_iff, PartsOk, hall]
    intro part hpart
    rcases List.mem_append.mp hpart with hpart | hpart
    · exact hmark part (List.mem_append_left _ hpart)
    · rcases List.mem_cons.mp hpart with rfl | hpart
      · rw [allBlank_append, hmark last (List.mem_append_right _ (List.mem_singleton_self last)),
          Bool.false_and]
      · exact hbody part (List.mem_cons_of_mem _ hpart)

mutual

theorem Step.isSolid_of_mem_texts :
    ∀ s : Step, s.isSolid = true → ∀ text ∈ s.texts.1, Text.isSolid text = true
  | .line text => by
    intro h x hx
    rw [Step.texts] at hx
    rw [List.mem_singleton.mp hx]
    rwa [Step.isSolid] at h
  | .comment mark texts => by
    intro h x hx
    rw [Step.texts] at hx
    rw [Step.isSolid] at h
    obtain ⟨hmark, htexts⟩ := Bool.and_eq_true_iff.mp h
    obtain ⟨text, htext, rfl⟩ := List.mem_map.mp hx
    exact isSolid_commentLine hmark
      (Bool.or_eq_true_iff.mp (List.all_eq_true.mp htexts text htext))
  | .indented body => by
    rw [Step.isSolid, Step.texts]
    exact Step.isSolid_of_mem_textsAll body
  | .guarded body => by
    rw [Step.isSolid, Step.texts]
    exact Step.isSolid_of_mem_textsAll body
  | .blank => by
    intro _ x hx
    rw [Step.texts] at hx
    cases hx
  | .fail => by
    intro _ x hx
    rw [Step.texts] at hx
    cases hx

theorem Step.isSolid_of_mem_textsAll :
    ∀ ss : List Step, Step.areSolid ss = true →
      ∀ text ∈ (Step.textsAll ss).1, Text.isSolid text = true
  | [] => by
    intro _ x hx
    rw [Step.textsAll] at hx
    cases hx
  | s :: ss => by
    intro h x hx
    rw [Step.areSolid] at h
    obtain ⟨hs, hss⟩ := Bool.and_eq_true_iff.mp h
    rw [Step.textsAll] at hx
    dsimp only at hx
    split at hx
    · exact Step.isSolid_of_mem_texts s hs x hx
    · rcases List.mem_append.mp hx with hx | hx
      · exact Step.isSolid_of_mem_texts s hs x hx
      · exact Step.isSolid_of_mem_textsAll ss hss x hx

end

/-! ## the layout of what a script gives -/

theorem isBlankLine_of_spaces {unit : String} (h : ∀ c ∈ unit.toList, c = ' ') :
    IsBlankLine unit := by
  constructor
  · unfold allBlank
    rw [List.all_eq_true]
    intro c hc
    rw [h c hc]
    rfl
  · intro hmem
    cases h _ hmem

/-- every text that a script gives, on its way and at its end, has whole lines without blanks at
their end; the depth comes back; and where no part is blank, empty lines stand apart -/
theorem layout_runAll {unit : String} (hunit : ∀ c ∈ unit.toList, c = ' ') (script : Script) :
    (∀ w : Writer, (Step.runAll script w).1.depth = w.depth) ∧
    Tidy (Step.runAll script { unit := unit }).1.text ∧
    EndsOnce (Step.runAll script { unit := unit }).1.finish ∧
    (Step.areSolid script = true → Spaced (Step.runAll script { unit := unit }).1.text) ∧
    ∀ soFar, Mark.text soFar ∈ (Step.traceAll script { unit := unit }).2 →
      Tidy soFar ∧ (Step.areSolid script = true → Spaced soFar) := by
  have hstart : Writer.Neat { unit := unit } :=
    ⟨isBlankLine_of_spaces hunit, fun line hline => absurd hline List.not_mem_nil⟩
  have hneat := (Writer.steady_neat fun _ => True).traceAll hstart script fun _ _ _ _ => trivial
  have hboth : Step.areSolid script = true → Kept (fun w => w.Neat ∧ Writer.Apart w.written)
      (Step.traceAll script { unit := unit }) (Step.textsAll script).2 := fun hsolid =>
    ((Writer.steady_neat _).and Writer.steady_apart).traceAll ⟨hstart, trivial⟩ script
      fun text htext => isSolid_iff.mp (Step.isSolid_of_mem_textsAll script hsolid text htext)
  have hrun := Step.traceAll_eq_runAll { unit := unit } script
  refine ⟨Step.runAll_depth script, ?_, ?_, ?_, ?_⟩
  · rw [← hrun]
    exact hneat.writer.tidy
  · rw [← hrun]
    exact hneat.writer.endsOnce
  · intro hsolid
    obtain ⟨hlines, hapart⟩ := (hboth hsolid).writer
    rw [← hrun]
    exact hlines.spaced hapart
  · intro soFar hmark
    constructor
    · obtain ⟨w, hw, rfl⟩ := hneat.marks _ hmark
      exact hw.tidy
    · intro hsolid
      obtain ⟨w, hw, rfl⟩ := (hboth hsolid).marks _ hmark
      exact hw.1.spaced hw.2

/-- empty lines asked for more often than they may stand, and a failure two levels deep -/
def restless : Script :=
  [.blank, .comment "//" ["A person.  ", ""],
    .guarded [.line "int x;", .blank, .indented [.line "int y;", .blank, .fail], .line "never"],
    .blank, .line "done", .blank]

theorem layout_runAll_restless :
    Step.areSolid restless = true ∧
    Tidy "// A person.\n//\n  int x;\n\n    int y;\n\ndone\n\n" ∧
    Spaced "// A person.\n//\n  int x;\n\n    int y;\n\ndone\n\n" ∧
    EndsOnce "// A person.\n//\n  int x;\n\n    int y;\n\ndone\n" := by
  have hunit : ∀ c ∈ "  ".toList, c = ' ' := by simp
  obtain ⟨-, htidy, hends, hspaced, -⟩ := layout_runAll hunit restless
  have hsolid : Step.areSolid restless = true := by decide
  exact ⟨hsolid, htidy, hspaced hsolid, hends⟩

/-- a mark that is not blank but has a line feed in it: the text starts with an empty line -/
theorem not_spaced_brokenMark :
    allBlank "\n//".toList = false ∧ isSolid "a" = true ∧
      (Step.runAll [.comment "\n//" ["a"]] { unit := "  " }).1.text = "\n// a\n" ∧
      ¬ Spaced (Step.runAll [.comment "\n//" ["a"]] { unit := "  " }).1.text := by
  have htext : (Step.runAll [.comment "\n//" ["a"]] { unit := "  " }).1.text = "\n// a\n" := by
    decide
  refine ⟨by decide, by decide, htext, ?_⟩
  rw [htext]
  exact fun h => h.start (by decide)

end TypeModel.Text
