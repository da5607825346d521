import TypeModel.Text.CaseTable
import TypeModel.Text.CasedTable
import TypeModel.Text.Cluster
import TypeModel.Text.Split

/-!
# Letter case and case styles

* `upper c`, `lower c`   the full case mappings of one character (`ß` has the image `SS`);
* `upperAll`, `lowerAll` the same for a text, where a sigma at the end of a word has its own small
                         form;
* `words cs`             a name cut into words, at separators (`_`, `-`, blank) and between
                         clusters whose classes differ;
* `Style.apply st s`     the words of `s` written in one of four styles.

Words are cut by looking at one cluster and the two that follow it (`cutsAfter`), so the words of a
name do not depend on what stands before them.  Empty words are kept: a doubled separator shows in
the result.
-/

namespace TypeModel.Text

def mapCase (special : List (Nat × List Nat)) (runs : List CaseRun) (c : Char) : List Char :=
  match special.lookup c.toNat with
  | some image => image.map Char.ofNat
  | none => [Char.ofNat (mapByRuns runs c.toNat)]

def upper (c : Char) : List Char :=
  if c.toNat < 128 then [c.toUpper] else mapCase upperSpecial upperRuns c

def lower (c : Char) : List Char :=
  if c.toNat < 128 then [c.toLower] else mapCase lowerSpecial lowerRuns c

def upperAll (cs : List Char) : List Char := cs.flatMap upper

/-- the first character that case does not look through is a letter with case -/
def startsCased (cs : List Char) : Bool := ((cs.dropWhile isCaseIgnorable).head?).any isCased

/-- the lower case of `c` between two texts, the first of them written backwards; a capital sigma
that ends a word has a form of its own -/
def lowerBetween (before : List Char) (c : Char) (behind : List Char) : List Char :=
  if c == 'Σ' && startsCased before && !startsCased behind then ['ς'] else lower c

def lowerAfter : (before : List Char) → List Char → List Char
  | _, [] => []
  | before, c :: cs => lowerBetween before c cs ++ lowerAfter (c :: before) cs

def lowerAll (cs : List Char) : List Char := lowerAfter [] cs

def toUpper (s : String) : String := String.ofList (upperAll s.toList)

/-- the first character in upper case, the others as they are -/
def capitalizeFirst : List Char → List Char
  | [] => []
  | c :: cs => upper c ++ cs

def capitalize (s : String) : String := String.ofList (capitalizeFirst s.toList)

/-- a cluster that has two cases and is in its upper one -/
def isUpper (g : List Char) : Bool := upperAll g != lowerAll g && upperAll g == g

/-- a cluster that has two cases and is in its lower one -/
def isLower (g : List Char) : Bool := upperAll g != lowerAll g && lowerAll g == g

def isDigits (g : List Char) : Bool := g.all Char.isDigit

def isSeparator (g : List Char) : Bool := g == ['_'] || g == ['-'] || g == [' ']

/-- a word ends after `g` when `g` and the next cluster differ in class, or when `g` is the last
capital of an acronym that a capitalized word follows -/
def cutsAfter (g : List Char) : List (List Char) → Bool
  | [] => false
  | h :: hs =>
    (isLower g && isUpper h) || (isLower g && isDigits h) || (isUpper g && isDigits h) ||
      (isDigits g && isLower h) || (isDigits g && isUpper h) ||
      match hs with
      | k :: _ => isUpper g && isUpper h && isLower k
      | [] => false

/-- put `g` in front of the first word -/
def prependHead (g : List Char) : List (List Char) → List (List Char)
  | [] => [g]
  | w :: ws => (g ++ w) :: ws

def cutWords : List (List Char) → List (List Char)
  | [] => [[]]
  | g :: gs =>
    if isSeparator g then [] :: cutWords gs
    else if cutsAfter g gs then g :: cutWords gs
    else prependHead g (cutWords gs)

/-- the words of a name; the empty name has none -/
def words (cs : List Char) : List (List Char) :=
  if cs.isEmpty then [] else cutWords (clusters cs)

/-- the first character in upper case, the others in lower case -/
def capitalWord : List Char → List Char
  | [] => []
  | c :: cs => upper c ++ lowerAll cs

/-- ways of writing a name made of words -/
inductive Style where
  /-- `lowerCamel` -/
  | camel
  /-- `UpperCamel` -/
  | upperCamel
  /-- `CONSTANT_CASE` -/
  | constant
  /-- `snake_case` -/
  | snake
  deriving DecidableEq, Repr

def Style.ofWords : Style → List (List Char) → List Char
  | .camel, [] => []
  | .camel, w :: ws => lowerAll w ++ ws.flatMap capitalWord
  | .upperCamel, ws => ws.flatMap capitalWord
  | .constant, ws => joinParts '_' (ws.map upperAll)
  | .snake, ws => joinParts '_' (ws.map lowerAll)

def Style.apply (st : Style) (s : String) : String :=
  String.ofList (st.ofWords (words s.toList))

/-- every character that is not an ASCII letter or digit replaced by `_`; `model` if nothing is
left -/
def sanitize (s : String) : String :=
  if s.isEmpty then "model"
  else String.ofList (s.toList.map fun c => if c.isAlphanum then c else '_')

end TypeModel.Text
