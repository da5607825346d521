import TypeModel.Proofs.Text.Split
import TypeModel.Text.Writer

/-!
# What is written

A script gives its texts line by line, indented and without blanks at the end of a line, with empty
lines between some of them.  Apart from blanks, what is written is the texts themselves.

* `Writer.laidOut`        the lines that a text adds, as they are written;
* `statements text`       the lines of a text without blanks around them, blank ones left out;
* `Step.texts`            the texts of a step, and whether it fails;
* `statements_render`     the statements of a rendered script are those of its texts;
* `Yields ss texts`       the steps give the texts and do not fail.
-/

namespace TypeModel.Text

/-! ## blanks -/

theorem trimEnd_eq (cs : List Char) : ∃ e, allBlank e = true ∧ cs = trimEnd cs ++ e := by
  refine ⟨(cs.reverse.takeWhile isBlank).reverse, ?_, ?_⟩
  · unfold allBlank
    rw [List.all_reverse, List.all_takeWhile]
  · unfold trimEnd
    rw [← List.reverse_append, List.takeWhile_append_dropWhile, List.reverse_reverse]

theorem trimEnd_append {e : List Char} (cs : List Char) (he : allBlank e = true) :
    trimEnd (cs ++ e) = trimEnd cs := by
  unfold trimEnd
  rw [List.reverse_append, List.dropWhile_append_of_pos]
  exact fun c hc => List.all_eq_true.mp he c (List.mem_reverse.mp hc)

theorem trimStart_append {a : List Char} (ha : allBlank a = true) (cs : List Char) :
    trimStart (a ++ cs) = trimStart cs :=
  List.dropWhile_append_of_pos (List.all_eq_true.mp ha)

theorem trimStart_of_allBlank {a : List Char} (ha : allBlank a = true) : trimStart a = [] := by
  rw [← List.append_nil a, trimStart_append ha]
  rfl

theorem trim_trimEnd (cs : List Char) : trim (trimEnd cs) = trim cs := by
  obtain ⟨e, he, hcs⟩ := trimEnd_eq cs
  -- the blanks at the end go with those at the start if there is nothing between them
  have hstart : trimStart cs = if (trimStart (trimEnd cs)).isEmpty then []
      else trimStart (trimEnd cs) ++ e := by
    conv_lhs => rw [hcs]
    unfold trimStart
    rw [List.dropWhile_append]
    split
    · exact trimStart_of_allBlank he
    · rfl
  unfold trim
  rw [hstart]
  split
  case isTrue hempty => rw [List.isEmpty_iff.mp hempty]
  case isFalse => rw [trimEnd_append _ he]

theorem allBlank_trimEnd (cs : List Char) : allBlank (trimEnd cs) = allBlank cs := by
  obtain ⟨e, he, hcs⟩ := trimEnd_eq cs
  conv_rhs => rw [hcs]
  unfold allBlank at he ⊢
  rw [List.all_append, he, Bool.and_true]

theorem trimEnd_ne_nil {cs : List Char} (h : allBlank cs = false) : trimEnd cs ≠ [] := by
  intro hnil
  rw [← allBlank_trimEnd, hnil] at h
  cases h

theorem trimEnd_append_of_not_blank (a : List Char) {b : List Char} (h : allBlank b = false) :
    trimEnd (a ++ b) = a ++ trimEnd b := by
  have hne : (b.reverse.dropWhile isBlank).isEmpty = false := by
    have := trimEnd_ne_nil h
    unfold trimEnd at this
    simpa using this
  unfold trimEnd
  rw [List.reverse_append, List.dropWhile_append, hne, if_neg Bool.false_ne_true,
    List.reverse_append, List.reverse_reverse]

/-- what ends without a blank stays whole when blanks behind it go -/
theorem trimEnd_append_of_getLast? {a : List Char} (ha : a.getLast?.map isBlank = some false)
    (rest : List Char) : trimEnd (a ++ rest) = a ++ trimEnd rest := by
  cases hrest : allBlank rest with
  | true =>
    obtain ⟨c, hc, hcb⟩ := Option.map_eq_some_iff.mp ha
    obtain ⟨front, rfl⟩ := List.getLast?_eq_some_iff.mp hc
    have hnil : trimEnd rest = [] := trimEnd_append [] hrest
    rw [trimEnd_append _ hrest, trimEnd_concat, if_neg (by simp [hcb]), hnil, List.append_nil]
  | false => exact trimEnd_append_of_not_blank a hrest

/-- a text that begins without a blank only loses blanks at its end -/
theorem trim_of_head? {cs : List Char} (h : cs.head?.map isBlank = some false) :
    trim cs = trimEnd cs := by
  obtain ⟨c, hc, hcb⟩ := Option.map_eq_some_iff.mp h
  obtain ⟨rest, rfl⟩ := List.head?_eq_some_iff.mp hc
  have hstart : trimStart (c :: rest) = c :: rest := List.dropWhile_cons_of_neg (by simp [hcb])
  unfold trim
  rw [hstart]

theorem trim_eq_self {cs : List Char} (hfirst : cs.head?.map isBlank = some false)
    (hlast : cs.getLast?.map isBlank = some false) : trim cs = cs := by
  have hend := trimEnd_append_of_getLast? hlast []
  rw [List.append_nil, trimEnd_nil, List.append_nil] at hend
  rw [trim_of_head? hfirst, hend]

/-- what begins and ends without a blank stays in front of what is trimmed -/
theorem trim_append {a : List Char} (hfirst : a.head?.map isBlank = some false)
    (hlast : a.getLast?.map isBlank = some false) (rest : List Char) :
    trim (a ++ rest) = a ++ trimEnd rest := by
  have hne : a ≠ [] := by
    rintro rfl
    cases hfirst
  rw [trim_of_head? (by rwa [List.head?_append_of_ne_nil _ hne]),
    trimEnd_append_of_getLast? hlast]

theorem getLast?_trim {c : Char} (cs : List Char) (hc : isBlank c = false) :
    (trim (cs ++ [c])).getLast? = some c := by
  have hstart : ∃ front, trimStart (cs ++ [c]) = front ++ [c] := by
    unfold trimStart
    rw [List.dropWhile_append]
    split
    · exact ⟨[], List.dropWhile_cons_of_neg (by simp [hc])⟩
    · exact ⟨_, rfl⟩
  obtain ⟨front, hfront⟩ := hstart
  unfold trim
  rw [hfront, trimEnd_concat, if_neg (by simp [hc]), List.getLast?_concat]

theorem mem_of_mem_trim {c : Char} {cs : List Char} (h : c ∈ trim cs) : c ∈ cs := by
  unfold trim trimEnd trimStart at h
  have hstart := (List.dropWhile_sublist _).subset (List.mem_reverse.mp h)
  exact (List.dropWhile_sublist _).subset (List.mem_reverse.mp hstart)

/-! ## statements -/

/-- the lines of a text without blanks around them; lines of blanks are left out -/
def statementsOf (cs : List Char) : List String :=
  ((splitOn '\n' cs).filter (!allBlank ·)).map fun l => String.ofList (trim l)

def statements (text : String) : List String := statementsOf text.toList

theorem statements_empty : statements "" = [] := by decide

theorem statementsOf_append (a b : List Char) :
    statementsOf (a ++ '\n' :: b) = statementsOf a ++ statementsOf b := by
  unfold statementsOf
  rw [splitOn_append, List.filter_append, List.map_append]

/-- a reading that takes a text line by line -/
structure ByLine (read : String → List String) : Prop where
  empty : read "" = []
  append : ∀ a b, read (a ++ "\n" ++ b) = read a ++ read b

theorem byLine_statements : ByLine statements where
  empty := statements_empty
  append := fun a b => by
    have hlist : (a ++ "\n" ++ b).toList = a.toList ++ '\n' :: b.toList := by simp
    unfold statements
    rw [hlist, statementsOf_append]

theorem statementsOf_of_notMem {cs : List Char} (h : '\n' ∉ cs) :
    statementsOf cs = if allBlank cs then [] else [String.ofList (trim cs)] := by
  unfold statementsOf
  rw [splitOn_of_notMem h]
  cases hb : allBlank cs <;> simp [hb]

/-- a line that neither starts nor ends with a blank is a statement as it is -/
theorem statements_of_line {text : String} (hfirst : text.toList.head?.map isBlank = some false)
    (hlast : text.toList.getLast?.map isBlank = some false) (hn : '\n' ∉ text.toList) :
    statements text = [text] := by
  have hblank : allBlank text.toList = false := by
    obtain ⟨a, ha, hab⟩ := Option.map_eq_some_iff.mp hfirst
    rw [allBlank, List.all_eq_false]
    exact ⟨a, List.mem_of_mem_head? ha, by simp [hab]⟩
  unfold statements
  rw [statementsOf_of_notMem hn, hblank, trim_eq_self hfirst hlast, String.ofList_toList]
  rfl

/-- a text with which such a line can begin -/
def opensLine (s : String) : Bool :=
  s.toList.head?.map isBlank = some false && !s.toList.contains '\n'

/-- a text with which such a line can end -/
def closesLine (s : String) : Bool :=
  s.toList.getLast?.map isBlank = some false && !s.toList.contains '\n'

theorem statements_between {opening middle closing : String} (hopen : opensLine opening = true)
    (hclose : closesLine closing = true) (hmiddle : '\n' ∉ middle.toList) :
    statements (opening ++ middle ++ closing) = [opening ++ middle ++ closing] := by
  obtain ⟨hfirst, hopen⟩ := Bool.and_eq_true_iff.mp hopen
  obtain ⟨hlast, hclose⟩ := Bool.and_eq_true_iff.mp hclose
  obtain ⟨a, ha, hab⟩ := Option.map_eq_some_iff.mp (of_decide_eq_true hfirst)
  obtain ⟨b, hb, hbb⟩ := Option.map_eq_some_iff.mp (of_decide_eq_true hlast)
  refine statements_of_line ?_ ?_ ?_
  · rw [String.toList_append, String.toList_append, List.head?_append, List.head?_append, ha]
    exact congrArg some hab
  · rw [String.toList_append, List.getLast?_append, hb]
    exact congrArg some hbb
  · simpa [hmiddle] using And.intro hopen hclose

theorem exists_of_mem_statements {text s : String} (h : s ∈ statements text) :
    ∃ line ∈ splitOn '\n' text.toList, s.toList = trim line := by
  obtain ⟨line, hline, rfl⟩ := List.mem_map.mp h
  exact ⟨line, List.mem_of_mem_filter hline, String.toList_ofList⟩

/-! ## writers -/

/-- a text of blanks on one line -/
def IsBlankLine (s : String) : Prop := allBlank s.toList = true ∧ '\n' ∉ s.toList

namespace Writer

def statements (w : Writer) : List String := w.written.reverse.flatMap Text.statements

theorem statements_push (w : Writer) (line : String) :
    (w.push line).statements = w.statements ++ Text.statements line := by
  unfold statements push
  rw [List.reverse_cons, List.flatMap_append, List.flatMap_singleton]

section
variable {read : String → List String} (h : ByLine read)
include h

theorem read_textOf (written : List String) :
    read (textOf written) = written.reverse.flatMap read := by
  unfold textOf
  induction written.reverse with
  | nil => exact h.empty
  | cons line lines ih =>
    have hjoin : String.join ((line :: lines).map (· ++ "\n")) =
        line ++ "\n" ++ String.join (lines.map (· ++ "\n")) := by
      refine String.toList_injective ?_
      simp
    rw [List.flatMap_cons, ← ih, hjoin, h.append]

theorem read_dropTrailing (written : List String) :
    (dropTrailing written).reverse.flatMap read = written.reverse.flatMap read := by
  fun_induction dropTrailing written with
  | case1 l ls ih =>
    rw [ih, List.reverse_cons (a := ""), List.flatMap_append, List.flatMap_singleton,
      h.empty, List.append_nil]
  | case2 => rfl

theorem read_finish (w : Writer) : read w.finish = w.written.reverse.flatMap read := by
  unfold finish
  rw [read_textOf h, read_dropTrailing h]

end

theorem statements_finish (w : Writer) : Text.statements w.finish = w.statements :=
  read_finish byLine_statements w

section
variable {w : Writer}

theorem isBlankLine_indentation (hunit : IsBlankLine w.unit) : IsBlankLine w.indentation := by
  obtain ⟨hblank, hline⟩ := hunit
  unfold IsBlankLine indentation
  induction w.depth with
  | zero => exact ⟨rfl, List.not_mem_nil⟩
  | succ n ih =>
    have hjoin : (String.join (List.replicate (n + 1) w.unit)).toList =
        w.unit.toList ++ (String.join (List.replicate n w.unit)).toList := by
      rw [List.replicate_succ]
      simp
    rw [hjoin]
    refine ⟨?_, fun hmem => (List.mem_append.mp hmem).elim hline ih.2⟩
    unfold allBlank at hblank ih ⊢
    rw [List.all_append, hblank, ih.1]
    rfl

theorem statements_layOut (hunit : IsBlankLine w.unit) {part : List Char} (hpart : '\n' ∉ part) :
    Text.statements (w.layOut part) = statementsOf part := by
  obtain ⟨hblank, hline⟩ := isBlankLine_indentation hunit
  unfold layOut
  rw [statementsOf_of_notMem hpart]
  split
  case isTrue => exact statements_empty
  case isFalse hne =>
    obtain ⟨e, _, htrim⟩ := trimEnd_eq part
    have hend : '\n' ∉ trimEnd part := fun hmem =>
      hpart (htrim ▸ List.mem_append_left e hmem)
    unfold Text.statements
    rw [String.toList_append, String.toList_ofList, statementsOf_of_notMem
      (fun hmem => (List.mem_append.mp hmem).elim hline hend)]
    have hkept : allBlank (w.indentation.toList ++ trimEnd part) = allBlank part := by
      rw [← allBlank_trimEnd part]
      unfold allBlank at hblank ⊢
      rw [List.all_append, hblank, Bool.true_and]
    rw [hkept, if_neg hne]
    unfold trim
    rw [trimStart_append hblank]
    exact congrArg (fun cs => [String.ofList cs]) (trim_trimEnd part)

theorem unit_line (w : Writer) (text : String) : (w.line text).unit = w.unit := by
  unfold line
  induction splitOn '\n' text.toList generalizing w with
  | nil => rfl
  | cons part parts ih =>
    rw [List.foldl_cons, ih]
    rfl

/-- the lines that the parts of a text give -/
def laidOut (w : Writer) (text : String) : List String :=
  (splitOn '\n' text.toList).map w.layOut

theorem written_line (w : Writer) (text : String) :
    (w.line text).written = (w.laidOut text).reverse ++ w.written := by
  unfold line laidOut
  induction splitOn '\n' text.toList generalizing w with
  | nil => rfl
  | cons part parts ih =>
    have hlay : (w.push (w.layOut part)).layOut = w.layOut := rfl
    rw [List.foldl_cons, ih, hlay]
    simp [push]

theorem layOut_line (w : Writer) (text : String) : (w.line text).layOut = w.layOut := by
  have hindent : (w.line text).indentation = w.indentation := by
    unfold indentation
    rw [line_depth, unit_line]
  unfold layOut
  rw [hindent]

theorem written_comment (w : Writer) (mark : String) (texts : List String) :
    (w.comment mark texts).written =
      (texts.flatMap fun text => w.laidOut (commentLine mark text)).reverse ++ w.written := by
  unfold comment
  induction texts generalizing w with
  | nil => rfl
  | cons text texts ih =>
    rw [List.foldl_cons, ih, written_line]
    unfold laidOut
    rw [layOut_line]
    simp

/-- the lines of a text say what it says -/
theorem statements_laidOut (hunit : IsBlankLine w.unit) (text : String) :
    (w.laidOut text).flatMap Text.statements = Text.statements text := by
  have hparts : ∀ parts : List (List Char), (∀ part ∈ parts, '\n' ∉ part) →
      (parts.map w.layOut).flatMap Text.statements =
        (parts.filter (!allBlank ·)).map fun l => String.ofList (trim l) := by
    intro parts
    induction parts with
    | nil => exact fun _ => rfl
    | cons part parts ih =>
      intro hparts
      obtain ⟨hpart, hparts⟩ := List.forall_mem_cons.mp hparts
      rw [List.map_cons, List.flatMap_cons, ih hparts, statements_layOut hunit hpart,
        statementsOf_of_notMem hpart]
      cases hb : allBlank part <;> simp [hb]
  exact hparts _ fun part hpart => notMem_of_mem_splitOn hpart

theorem statements_line (hunit : IsBlankLine w.unit) (text : String) :
    (w.line text).statements = w.statements ++ Text.statements text := by
  unfold statements
  rw [written_line, List.reverse_append, List.reverse_reverse, List.flatMap_append,
    statements_laidOut hunit]

theorem statements_blank (w : Writer) : w.blank.statements = w.statements := by
  unfold blank
  split
  · rw [statements_push, statements_empty, List.append_nil]
  · rfl

theorem unit_blank (w : Writer) : w.blank.unit = w.unit := by
  unfold blank
  split <;> rfl

theorem unit_comment (w : Writer) (mark : String) (texts : List String) :
    (w.comment mark texts).unit = w.unit := by
  unfold comment
  induction texts generalizing w with
  | nil => rfl
  | cons text texts ih => rw [List.foldl_cons, ih, unit_line]

theorem statements_comment (hunit : IsBlankLine w.unit) (mark : String) (texts : List String) :
    (w.comment mark texts).statements =
      w.statements ++ (texts.map (commentLine mark)).flatMap Text.statements := by
  unfold statements
  rw [written_comment, List.reverse_append, List.reverse_reverse, List.flatMap_append,
    List.flatMap_assoc, List.flatMap_map]
  simp only [statements_laidOut hunit]

end

end Writer

/-! ## scripts -/

mutual

/-- the texts that a step gives, and whether it fails behind them -/
def Step.texts : Step → List String × Bool
  | .line text => ([text], false)
  | .blank => ([], false)
  | .comment mark lines => (lines.map (Writer.commentLine mark), false)
  | .indented body => Step.textsAll body
  | .guarded body => ((Step.textsAll body).1, false)
  | .fail => ([], true)

def Step.textsAll : List Step → List String × Bool
  | [] => ([], false)
  | s :: ss =>
    let r := Step.texts s
    if r.2 then r
    else
      let rest := Step.textsAll ss
      (r.1 ++ rest.1, rest.2)

end

/-- the statements of a writer are those of another and of the texts that were written behind it -/
structure Writer.Follows (w w' : Writer) (texts : List String) : Prop where
  unit : w'.unit = w.unit
  statements : w'.statements = w.statements ++ texts.flatMap Text.statements

theorem Writer.Follows.trans {w w' w'' : Writer} {texts texts' : List String}
    (h : w.Follows w' texts) (h' : w'.Follows w'' texts') :
    w.Follows w'' (texts ++ texts') where
  unit := h'.unit.trans h.unit
  statements := by
    rw [h'.statements, h.statements, List.flatMap_append, List.append_assoc]

mutual

theorem Step.follows_run {w : Writer} (hunit : IsBlankLine w.unit) :
    ∀ s : Step, w.Follows (s.run w).1 s.texts.1 ∧ (s.run w).2 = s.texts.2
  | .line text => by
    rw [Step.run, Step.texts]
    refine ⟨⟨w.unit_line text, ?_⟩, rfl⟩
    rw [Writer.statements_line hunit, List.flatMap_singleton]
  | .blank => by
    rw [Step.run, Step.texts]
    exact ⟨⟨w.unit_blank, w.statements_blank.trans (List.append_nil _).symm⟩, rfl⟩
  | .comment mark lines => by
    rw [Step.run, Step.texts]
    exact ⟨⟨w.unit_comment mark lines, Writer.statements_comment hunit mark lines⟩, rfl⟩
  | .indented body => by
    rw [Step.run, Step.texts]
    obtain ⟨hfollows, hfails⟩ := Step.follows_runAll (w := w.deeper) hunit body
    exact ⟨⟨hfollows.unit, hfollows.statements⟩, hfails⟩
  | .guarded body => by
    rw [Step.run, Step.texts]
    obtain ⟨hfollows, _⟩ := Step.follows_runAll (w := w.deeper) hunit body
    exact ⟨⟨hfollows.unit, hfollows.statements⟩, rfl⟩
  | .fail => by
    rw [Step.run, Step.texts]
    exact ⟨⟨rfl, (List.append_nil _).symm⟩, rfl⟩

theorem Step.follows_runAll {w : Writer} (hunit : IsBlankLine w.unit) :
    ∀ ss : List Step, w.Follows (Step.runAll ss w).1 (Step.textsAll ss).1 ∧
      (Step.runAll ss w).2 = (Step.textsAll ss).2
  | [] => by
    rw [Step.runAll, Step.textsAll]
    exact ⟨⟨rfl, (List.append_nil _).symm⟩, rfl⟩
  | s :: ss => by
    obtain ⟨hfirst, hfails⟩ := Step.follows_run hunit s
    rw [Step.runAll, Step.textsAll]
    dsimp only
    rw [hfails]
    cases hf : s.texts.2 with
    -- the steps behind one that fails are not run
    | true => exact ⟨hfirst, hfails⟩
    | false =>
      obtain ⟨hrest, hrestFails⟩ := Step.follows_runAll (w := (s.run w).1) (hfirst.unit ▸ hunit) ss
      exact ⟨hfirst.trans hrest, hrestFails⟩

end

/-- what is written is what the texts say -/
theorem statements_render {unit : String} (hunit : IsBlankLine unit) (script : Script) :
    statements (Script.render unit script) = (Step.textsAll script).1.flatMap statements := by
  unfold Script.render
  rw [Writer.statements_finish]
  exact (Step.follows_runAll (w := { unit := unit }) hunit script).1.statements

/-! ### scripts that do not fail -/

/-- the steps give the texts and do not fail -/
def Yields (ss : List Step) (texts : List String) : Prop := Step.textsAll ss = (texts, false)

section
variable {ss ss' : List Step} {texts texts' : List String}

theorem Yields.append (h : Yields ss texts) (h' : Yields ss' texts') :
    Yields (ss ++ ss') (texts ++ texts') := by
  induction ss generalizing texts with
  | nil =>
    obtain ⟨rfl, -⟩ := Prod.mk.inj h
    exact h'
  | cons s ss ih =>
    unfold Yields at h
    rw [Step.textsAll] at h
    dsimp only at h
    split at h
    case isTrue hfails =>
      rw [h] at hfails
      cases hfails
    case isFalse hfails =>
      obtain ⟨rfl, hrest⟩ := Prod.mk.inj h
      have hss := ih (Prod.ext rfl hrest : Yields ss (Step.textsAll ss).1)
      unfold Yields at hss ⊢
      rw [List.cons_append, Step.textsAll, hss]
      dsimp only
      rw [if_neg hfails, List.append_assoc]

theorem yields_line (text : String) : Yields [.line text] [text] := rfl

theorem yields_lines {α : Type} (f : α → String) (xs : List α) :
    Yields (xs.map fun x => .line (f x)) (xs.map f) := by
  induction xs with
  | nil => rfl
  | cons x xs ih => exact (yields_line (f x)).append ih

theorem yields_flatMap {α : Type} {f : α → List Step} {g : α → List String} {xs : List α}
    (h : ∀ x ∈ xs, Yields (f x) (g x)) : Yields (xs.flatMap f) (xs.flatMap g) := by
  induction xs with
  | nil => rfl
  | cons x xs ih =>
    obtain ⟨hx, hxs⟩ := List.forall_mem_cons.mp h
    rw [List.flatMap_cons, List.flatMap_cons]
    exact hx.append (ih hxs)

theorem Yields.indented (h : Yields ss texts) : Yields [.indented ss] texts := by
  unfold Yields at h ⊢
  rw [Step.textsAll, Step.texts, h]
  exact congrArg (·, false) (List.append_nil texts)

end

theorem Yields.statements_render {unit : String} {script : Script} {texts : List String}
    (h : Yields script texts) (hunit : IsBlankLine unit) :
    statements (script.render unit) = texts.flatMap statements := by
  rw [TypeModel.Text.statements_render hunit, h]

end TypeModel.Text
