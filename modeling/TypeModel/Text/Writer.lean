import TypeModel.Text.Blank
import TypeModel.Text.Split

/-!
# Line-oriented text

A `Writer` holds the lines written so far, newest first, and the current depth of indentation.
Generated text is described by a `Script`, a list of steps, and `Script.run` performs it.

* `line text`        the parts of `text` between line feeds, each indented and without blanks at
                     its end; a blank part gives an empty line;
* `blank`            an empty line, never at the start and never two in a row;
* `comment mark ls`  each element of `ls` behind `mark`;
* `indented body`    `body` one level deeper;
* `guarded body`     the same, and a failure inside `body` ends here;
* `fail`             stops everything up to the nearest `guarded`.

Every line is ended by a line feed when the text is put together (`Writer.text`), so a text is
empty or ends in a line feed.  Steps keep the depth (`Step.run_depth`).
-/

namespace TypeModel.Text

structure Writer where
  /-- indentation of one level -/
  unit : String
  depth : Nat := 0
  /-- lines without their line feeds, newest first -/
  written : List String := []

namespace Writer

/-- the text of a list of lines, newest first -/
def textOf (written : List String) : String :=
  String.join (written.reverse.map (· ++ "\n"))

def text (w : Writer) : String := textOf w.written

def indentation (w : Writer) : String := String.join (List.replicate w.depth w.unit)

/-- one part of a text as a line of its own -/
def layOut (w : Writer) (part : List Char) : String :=
  if allBlank part then "" else w.indentation ++ String.ofList (trimEnd part)

def push (w : Writer) (line : String) : Writer := { w with written := line :: w.written }

def line (w : Writer) (text : String) : Writer :=
  (splitOn '\n' text.toList).foldl (fun w part => w.push (w.layOut part)) w

/-- whether an empty line may follow -/
def takesBlank : List String → Bool
  | [] => false
  | [_] => true
  | last :: _ :: _ => last != ""

def blank (w : Writer) : Writer := if takesBlank w.written then w.push "" else w

/-- a comment line: `mark` alone, or `mark` and the text after a space -/
def commentLine (mark : String) (text : String) : String :=
  let body := trimEnd text.toList
  if body.isEmpty then mark else mark ++ " " ++ String.ofList body

def comment (w : Writer) (mark : String) (lines : List String) : Writer :=
  lines.foldl (fun w text => w.line (commentLine mark text)) w

def deeper (w : Writer) : Writer := { w with depth := w.depth + 1 }

def atDepth (w : Writer) (depth : Nat) : Writer := { w with depth := depth }

/-- lines newest first without the empty lines at the end; the last line left stays, empty or
not -/
def dropTrailing : List String → List String
  | "" :: l :: ls => dropTrailing (l :: ls)
  | ls => ls

/-- the text, with at most one line feed at its end -/
def finish (w : Writer) : String := textOf (dropTrailing w.written)

end Writer

/-- one step in writing a text -/
inductive Step where
  | line (text : String)
  | blank
  | comment (mark : String) (lines : List String)
  | indented (body : List Step)
  | guarded (body : List Step)
  | fail

abbrev Script := List Step

mutual

/-- perform a step; the flag tells whether it failed -/
def Step.run : Step → Writer → Writer × Bool
  | .line text, w => (w.line text, false)
  | .blank, w => (w.blank, false)
  | .comment mark lines, w => (w.comment mark lines, false)
  | .indented body, w =>
    let r := Step.runAll body w.deeper
    (r.1.atDepth w.depth, r.2)
  | .guarded body, w => ((Step.runAll body w.deeper).1.atDepth w.depth, false)
  | .fail, w => (w, true)

/-- perform steps in order, up to the first that fails -/
def Step.runAll : List Step → Writer → Writer × Bool
  | [], w => (w, false)
  | s :: ss, w =>
    let r := Step.run s w
    if r.2 then r else Step.runAll ss r.1

end

/-- what is recorded while a script is performed -/
inductive Mark where
  /-- a step was completed with this text -/
  | text (soFar : String)
  /-- a failure ended at a `guarded` step -/
  | failed
  deriving DecidableEq, Repr

mutual

/-- perform a step and record the text after every completed step, innermost steps first -/
def Step.trace : Step → Writer → (Writer × Bool) × List Mark
  | .indented body, w =>
    let r := Step.traceAll body w.deeper
    let w' := r.1.1.atDepth w.depth
    ((w', r.1.2), if r.1.2 then r.2 else r.2 ++ [.text w'.text])
  | .guarded body, w =>
    let r := Step.traceAll body w.deeper
    let w' := r.1.1.atDepth w.depth
    ((w', false), (if r.1.2 then r.2 ++ [.failed] else r.2) ++ [.text w'.text])
  | .fail, w => ((w, true), [])
  | .line text, w => let w' := w.line text; ((w', false), [.text w'.text])
  | .blank, w => let w' := w.blank; ((w', false), [.text w'.text])
  | .comment mark lines, w => let w' := w.comment mark lines; ((w', false), [.text w'.text])

def Step.traceAll : List Step → Writer → (Writer × Bool) × List Mark
  | [], w => ((w, false), [])
  | s :: ss, w =>
    let r := Step.trace s w
    if r.1.2 then r
    else
      let rest := Step.traceAll ss r.1.1
      (rest.1, r.2 ++ rest.2)

end

theorem Writer.line_depth (w : Writer) (text : String) : (w.line text).depth = w.depth := by
  unfold Writer.line
  induction splitOn '\n' text.toList generalizing w with
  | nil => rfl
  | cons p ps ih => rw [List.foldl_cons, ih]; rfl

theorem Writer.blank_depth (w : Writer) : w.blank.depth = w.depth := by
  unfold Writer.blank
  split <;> rfl

theorem Writer.comment_depth (w : Writer) (mark : String) (lines : List String) :
    (w.comment mark lines).depth = w.depth := by
  unfold Writer.comment
  induction lines generalizing w with
  | nil => rfl
  | cons l ls ih => rw [List.foldl_cons, ih, Writer.line_depth]

/-- a step leaves the depth as it was, whether it fails or not -/
theorem Step.run_depth (s : Step) (w : Writer) : (s.run w).1.depth = w.depth := by
  match s with
  | .line text => simp only [Step.run, Writer.line_depth]
  | .blank => simp only [Step.run, Writer.blank_depth]
  | .comment mark lines => simp only [Step.run, Writer.comment_depth]
  | .indented body => simp only [Step.run, Writer.atDepth]
  | .guarded body => simp only [Step.run, Writer.atDepth]
  | .fail => rfl

/-- the finished text of a script, indented by `unit` -/
def Script.render (unit : String) (script : Script) : String :=
  (Step.runAll script { unit := unit }).1.finish

end TypeModel.Text
