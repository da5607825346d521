import TypeModel.Compiler
import TypeModel.Proofs.Text.Lines

/-!
# Comments behind their mark

A comment is written text by text, each behind its mark, and a text is cut at its line feeds like
any other line.  Only the first of its lines is behind the mark then.

* `Writer.marked_layOut_iff`   which parts are empty or begin with the mark once they are written;
* `StaysBehind mark text`      the lines of the text that are not blank are all behind the mark;
* `staysBehind_iff`            what that means for the parts of the line that is written;
* `comment_marked_iff`         all lines that a comment adds begin with the mark if and only if all
                               its texts stay behind it.
-/

namespace TypeModel.Text

/-! ## lines that begin with a mark -/

namespace Writer

theorem textOf_append (ls written : List String) :
    textOf (ls.reverse ++ written) = textOf written ++ joinLines ls := by
  simp [textOf, joinLines]

/-- when a line that was laid out is empty or begins with the mark -/
theorem marked_layOut_iff (w : Writer) (mark : String) (part : List Char) :
    (w.layOut part ≠ "" → (w.indentation ++ mark).toList <+: (w.layOut part).toList) ↔
      allBlank part = true ∨ mark.toList <+: trimEnd part := by
  cases hblank : allBlank part with
  | true =>
    have hempty : w.layOut part = "" := if_pos hblank
    exact ⟨fun _ => Or.inl rfl, fun _ hne => absurd hempty hne⟩
  | false =>
    have hne : w.layOut part ≠ "" := by
      intro hempty
      have hlay := layOut_of_not_blank (w := w) hblank
      rw [hempty] at hlay
      exact trimEnd_ne_nil hblank (List.append_eq_nil_iff.mp hlay.symm).2
    rw [layOut_of_not_blank hblank, String.toList_append, List.prefix_append_right_inj]
    exact ⟨fun h => Or.inr (h hne), fun h _ => h.resolve_left Bool.false_ne_true⟩

end Writer

/-! ## texts behind a mark -/

/-- the lines of a text behind a mark: the first is behind it (a mark with nothing behind it loses
the blanks at its end), every other one is blank or begins with the mark by itself -/
structure StaysBehind (mark text : List Char) : Prop where
  first : ∀ part ∈ (splitOn '\n' (trimEnd text)).head?, allBlank part = true → trimEnd mark = mark
  others : ∀ part ∈ (splitOn '\n' (trimEnd text)).tail,
    allBlank part = true ∨ mark <+: trimEnd part

theorem prefix_trimEnd_iff (mark : List Char) : mark <+: trimEnd mark ↔ trimEnd mark = mark := by
  obtain ⟨e, _, hmark⟩ := trimEnd_eq mark
  constructor
  · intro h
    have hle := h.length_le
    have hlen := congrArg List.length hmark
    rw [List.length_append] at hlen
    have he : e = [] := List.eq_nil_of_length_eq_zero (by omega)
    rw [he, List.append_nil] at hmark
    exact hmark.symm
  · intro h
    exact ⟨[], by rw [List.append_nil, h]⟩

/-- the mark with the first part of a text behind it -/
theorem prefix_trimEnd_first (mark : List Char) (first : List Char) :
    mark <+: trimEnd (mark ++ ' ' :: first) ↔ (allBlank first = true → trimEnd mark = mark) := by
  cases hblank : allBlank first with
  | true =>
    have hend : allBlank (' ' :: first) = true := hblank
    rw [trimEnd_append mark hend, prefix_trimEnd_iff]
    exact ⟨fun h _ => h, fun h => h rfl⟩
  | false =>
    have hend : allBlank (' ' :: first) = false := hblank
    rw [trimEnd_append_of_not_blank mark hend]
    exact ⟨fun _ h => absurd h Bool.false_ne_true, fun _ => List.prefix_append _ _⟩

/-- a comment line begins with the mark, and goes on with the text behind it -/
theorem exists_lead {mark : String} (hline : '\n' ∉ mark.toList)
    (hsolid : allBlank mark.toList = false) {text : String} {first : List Char}
    {rest : List (List Char)} (hsplit : splitOn '\n' (trimEnd text.toList) = first :: rest) :
    ∃ lead, splitOn '\n' (Writer.commentLine mark text).toList = lead :: rest ∧
      allBlank lead = false ∧
      (mark.toList <+: trimEnd lead ↔
        (allBlank first = true → trimEnd mark.toList = mark.toList)) := by
  cases hblank : allBlank text.toList with
  | true =>
    have hnil : trimEnd text.toList = [] := trimEnd_append [] hblank
    rw [hnil] at hsplit
    obtain ⟨rfl, rfl⟩ := List.cons.inj hsplit
    rw [commentLine_of_blank mark hblank, splitOn_of_notMem hline]
    refine ⟨mark.toList, rfl, hsolid, (prefix_trimEnd_iff mark.toList).trans ?_⟩
    exact ⟨fun h _ => h, fun h => h rfl⟩
  | false =>
    obtain ⟨front, last, hmark, hall⟩ := splitOn_commentLine mark hblank hsplit
    rw [splitOn_of_notMem hline] at hmark
    -- the mark has one part
    obtain ⟨rfl, rfl⟩ : front = [] ∧ last = mark.toList := by
      simpa using (List.append_eq_singleton_iff.mp hmark.symm)
    refine ⟨_, hall, ?_, prefix_trimEnd_first mark.toList first⟩
    rw [allBlank_append, hsolid, Bool.false_and]

theorem staysBehind_iff {mark : String} (hline : '\n' ∉ mark.toList)
    (hsolid : allBlank mark.toList = false) (text : String) :
    PartsOk (fun part => allBlank part = true ∨ mark.toList <+: trimEnd part)
        (Writer.commentLine mark text) ↔
      StaysBehind mark.toList text.toList := by
  obtain ⟨first, rest, hsplit⟩ :=
    List.exists_cons_of_ne_nil (splitOn_ne_nil '\n' (trimEnd text.toList))
  obtain ⟨lead, hparts, hlead, hfirst⟩ := exists_lead hline hsolid hsplit
  rw [PartsOk, hparts, List.forall_mem_cons, hlead, hfirst]
  constructor
  · rintro ⟨h, hrest⟩
    refine ⟨?_, by rw [hsplit]; exact hrest⟩
    rw [hsplit]
    intro part hpart
    obtain rfl := Option.some.inj hpart
    exact h.resolve_left Bool.false_ne_true
  · rintro ⟨h, hrest⟩
    rw [hsplit] at h hrest
    exact ⟨Or.inr (h first rfl), hrest⟩

/-! ## what a comment adds to a text -/

/-- a comment adds lines to the text, and they all begin with the mark, empty ones apart, if and
only if every text in it stays behind the mark -/
theorem comment_marked_iff (w : Writer) {mark : String} (hline : '\n' ∉ mark.toList)
    (hsolid : allBlank mark.toList = false) (texts : List String) :
    ∃ added : List String,
      (w.comment mark texts).text = w.text ++ joinLines added ∧
      ('\n' ∉ w.indentation.toList →
        splitOn '\n' (joinLines added).toList = added.map String.toList ++ [[]]) ∧
      ((∀ line ∈ added, line ≠ "" → (w.indentation ++ mark).toList <+: line.toList) ↔
        ∀ text ∈ texts, StaysBehind mark.toList text.toList) := by
  refine ⟨texts.flatMap fun text => w.laidOut (Writer.commentLine mark text), ?_, ?_, ?_⟩
  · unfold Writer.text
    rw [w.written_comment mark texts, Writer.textOf_append]
  · intro hindent
    apply splitOn_joinLines
    intro line hmem
    obtain ⟨text, _, hmem⟩ := List.mem_flatMap.mp hmem
    obtain ⟨part, hpart, rfl⟩ := List.mem_map.mp hmem
    exact (Writer.neatLine_layOut hindent (notMem_of_mem_splitOn hpart)).whole
  · rw [List.forall_mem_flatMap]
    refine forall₂_congr fun text _ => ?_
    rw [← staysBehind_iff hline hsolid text, Writer.laidOut, List.forall_mem_map]
    exact forall₂_congr fun part _ => w.marked_layOut_iff mark part

/-- a second line that begins with the mark by itself -/
theorem comment_marked_iff_twoLines :
    ∃ added : List String,
      (Writer.comment { unit := "  ", depth := 1 } "//" ["A person.\n\n// Or two.", ""]).text =
        joinLines added ∧
      joinLines added = "  // A person.\n\n  // Or two.\n  //\n" ∧
      ∀ line ∈ added, line ≠ "" → "  //".toList <+: line.toList := by
  have hmark : '\n' ∉ "//".toList := by decide
  obtain ⟨added, htext, -, hiff⟩ := comment_marked_iff { unit := "  ", depth := 1 } hmark
    (by decide) ["A person.\n\n// Or two.", ""]
  have hbehind : ∀ text ∈ ["A person.\n\n// Or two.", ""],
      StaysBehind "//".toList text.toList := by
    rw [List.forall_mem_cons, List.forall_mem_singleton]
    exact ⟨⟨by decide, by decide⟩, ⟨by decide, by decide⟩⟩
  have hempty : Writer.text { unit := "  ", depth := 1 } = "" := rfl
  rw [hempty, String.empty_append] at htext
  exact ⟨added, htext, htext.symm.trans (by decide), hiff.mpr hbehind⟩

/-- a struct whose comment has a line feed in it -/
def talkative : Model :=
  { types := [.struct { name := "Person", comment := ["A person.\nimport \"other.proto\";"] } []] }

/-- the second line of the comment is an import in the schema -/
theorem not_marked_talkative :
    (Writer.comment { unit := "  " } "//" ["A person.\nimport \"other.proto\";"]).text =
      "// A person.\nimport \"other.proto\";\n" ∧
    ¬ (∀ line ∈ splitOn '\n' "// A person.\nimport \"other.proto\";\n".toList, line ≠ [] →
      "//".toList <+: line) ∧
    talkative.analyze.2 = .ok [] ∧
    (Proto.Schema.ofModel talkative.analyze.1 {}).map (fun schema => statements schema.text) =
      .ok ["// Auto-generated by typeforge. Do not edit.", "syntax = \"proto3\";", "// A person.",
        "import \"other.proto\";", "message Person \x7b", "\x7d"] := by
  refine ⟨by decide, by decide, by decide +kernel, ?_⟩
  decide +kernel

end TypeModel.Text
