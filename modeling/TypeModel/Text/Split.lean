/-!
# Cutting text at separators

* `splitOn sep cs`   the parts of `cs` between occurrences of `sep`, empty parts included;
* `split sep s`      the same on strings;
* `lines s`          the lines of `s`: cut at line feeds, one carriage return before a line feed
                     dropped, no empty line after a final line feed;
* `joinWith sep ws`  the parts with `sep` between them.

`splitOn` loses nothing: putting `sep` back between the parts gives the text again
(`joinParts_splitOn`).
-/

namespace TypeModel.Text

/-- put `c` in front of the first part -/
def consHead (c : Char) : List (List Char) → List (List Char)
  | [] => [[c]]
  | w :: ws => (c :: w) :: ws

def splitOn (sep : Char) : List Char → List (List Char)
  | [] => [[]]
  | c :: cs => if c = sep then [] :: splitOn sep cs else consHead c (splitOn sep cs)

/-- the parts with `sep` between them -/
def joinParts (sep : Char) : List (List Char) → List Char
  | [] => []
  | [w] => w
  | w :: w' :: ws => w ++ sep :: joinParts sep (w' :: ws)

theorem splitOn_ne_nil (sep : Char) (cs : List Char) : splitOn sep cs ≠ [] := by
  cases cs with
  | nil => simp [splitOn]
  | cons c cs =>
    simp only [splitOn]
    split
    · simp
    · cases splitOn sep cs <;> simp [consHead]

theorem joinParts_consHead (sep c : Char) (ws : List (List Char)) (h : ws ≠ []) :
    joinParts sep (consHead c ws) = c :: joinParts sep ws := by
  match ws, h with
  | [w], _ => rfl
  | w :: w' :: ws, _ => rfl

theorem joinParts_splitOn (sep : Char) (cs : List Char) :
    joinParts sep (splitOn sep cs) = cs := by
  induction cs with
  | nil => rfl
  | cons c cs ih =>
    have hne := splitOn_ne_nil sep cs
    by_cases h : c = sep
    · simp only [splitOn, h, if_true]
      cases hs : splitOn sep cs with
      | nil => exact absurd hs hne
      | cons w ws => rw [joinParts, ← hs, ih]; rfl
    · simp only [splitOn, h, if_false]
      rw [joinParts_consHead sep c _ hne, ih]

def split (sep : Char) (s : String) : List String :=
  (splitOn sep s.toList).map String.ofList

def joinWith (sep : String) (parts : List String) : String := String.intercalate sep parts

/-- a part without the carriage return that ends it, if one does -/
def dropReturn (cs : List Char) : List Char :=
  match cs.reverse with
  | '\r' :: r => r.reverse
  | _ => cs

/-- the parts of a text as lines: every part but the last was ended by a line feed and sheds one
carriage return; the last one is a line only if it is not empty -/
def endedLines : List (List Char) → List (List Char)
  | [] => []
  | [w] => if w.isEmpty then [] else [w]
  | w :: ws => dropReturn w :: endedLines ws

def lines (s : String) : List String :=
  (endedLines (splitOn '\n' s.toList)).map String.ofList

end TypeModel.Text
