import TypeModel.Document.Value
import TypeModel.Number.Double
import TypeModel.Text.Split

/-!
# TOML documents

* `Toml.parse? s`    the table a TOML document describes; dates and times are not supported;
* `Toml.render t`    a document for a table: members with plain values on a line each, tables and
                     arrays of tables below headers.

Reading goes in two steps.  Statements (`key = value`, `[table]`, `[[table]]`) are read off the
text one after the other, and each changes a tree of `Item`s, which knows what may still be added
to: a value is closed, a table may be opened once, an array of tables grows.

Readers take a list of characters and give what they read and the rest.  Those that call themselves
on a rest take a number of steps; two steps for each character of the text are enough, because only
an element of an array or a member of a table begins without a character of its own.

Documents are not nested without bounds: at most `maxOpen` brackets and braces may be open at once,
and a key has at most `maxKeyParts` parts.
-/

namespace TypeModel.Toml

abbrev Reader (α : Type) := List Char → Option (α × List Char)

/-! ## blanks and comments -/

def isSpace (c : Char) : Bool := c == ' ' || c == '\t'

def skipSpaces (cs : List Char) : List Char := cs.dropWhile isSpace

/-- a control character that may stand neither in a comment nor in a string on one line -/
def isForbidden (c : Char) : Bool := (c.toNat < 0x20 && c != '\t') || c.toNat == 0x7F

/-- the rest of a line that has nothing more to say -/
def endOfLine : Reader Unit := fun cs =>
  let cs := skipSpaces cs
  let cs :=
    match cs with
    | '#' :: cs => cs.dropWhile (!isForbidden ·)
    | cs => cs
  match cs with
  | [] => some ((), [])
  | '\n' :: cs => some ((), cs)
  | '\r' :: '\n' :: cs => some ((), cs)
  | _ => none

/-- skip blanks, line ends and comments, up to a character that is none of them -/
def skipTrivia : (inComment : Bool) → List Char → List Char
  | _, [] => []
  | _, '\n' :: cs => skipTrivia false cs
  | _, '\r' :: '\n' :: cs => skipTrivia false cs
  | true, c :: cs => if isForbidden c then c :: cs else skipTrivia true cs
  | false, c :: cs =>
    if isSpace c then skipTrivia false cs
    else if c == '#' then skipTrivia true cs
    else c :: cs

/-! ## strings -/

def hexValue? (c : Char) : Option Nat :=
  if c.isDigit then some (c.toNat - '0'.toNat)
  else if 'a' ≤ c && c ≤ 'f' then some (c.toNat - 'a'.toNat + 10)
  else if 'A' ≤ c && c ≤ 'F' then some (c.toNat - 'A'.toNat + 10)
  else none

def hexNumber? (ds : List Char) : Option Nat :=
  ds.foldlM (fun n d => (hexValue? d).map (16 * n + ·)) 0

/-- the character with a given number, written with a fixed count of digits -/
def codePoint (digits : Nat) : Reader Char := fun cs =>
  let ds := cs.take digits
  if ds.length < digits then none
  else
    match hexNumber? ds with
    | some n => if n.isValidChar then some (Char.ofNat n, cs.drop digits) else none
    | none => none

/-- the character that an escape stands for, behind its backslash -/
def escape : Reader Char
  | 'b' :: cs => some (Char.ofNat 8, cs)
  | 't' :: cs => some ('\t', cs)
  | 'n' :: cs => some ('\n', cs)
  | 'f' :: cs => some (Char.ofNat 12, cs)
  | 'r' :: cs => some ('\r', cs)
  | 'e' :: cs => some (Char.ofNat 27, cs)
  | '"' :: cs => some ('"', cs)
  | '\\' :: cs => some ('\\', cs)
  | 'x' :: cs => codePoint 2 cs
  | 'u' :: cs => codePoint 4 cs
  | 'U' :: cs => codePoint 8 cs
  | _ => none

/-- a string in quotes with escapes, behind its first quote -/
def basicString : (fuel : Nat) → Reader (List Char)
  | 0, _ => none
  | _ + 1, [] => none
  | _ + 1, '"' :: cs => some ([], cs)
  | fuel + 1, '\\' :: cs => do
    let (c, cs) ← escape cs
    let (rest, cs) ← basicString fuel cs
    return (c :: rest, cs)
  | fuel + 1, c :: cs =>
    if isForbidden c then none
    else do
      let (rest, cs) ← basicString fuel cs
      return (c :: rest, cs)

/-- a string between apostrophes, behind the first -/
def literalString : Reader (List Char) := fun cs =>
  let text := cs.takeWhile (· != '\'')
  match cs.dropWhile (· != '\'') with
  | _ :: rest => if text.any isForbidden then none else some (text, rest)
  | [] => none

/-- quotes at the end of a text over several lines: up to two belong to the text -/
def closeQuotes (quote : Char) : Reader (List Char) := fun cs =>
  let n := (cs.takeWhile (· == quote)).length
  if n < 3 then none
  else
    let kept := min (n - 3) 2
    some (List.replicate kept quote, cs.drop (kept + 3))

/-- a backslash at the end of a line takes the following blanks away -/
def joinsLines (cs : List Char) : Option (List Char) :=
  match skipSpaces cs with
  | '\n' :: rest | '\r' :: '\n' :: rest =>
    some (rest.dropWhile fun c => isSpace c || c == '\n' || c == '\r')
  | _ => none

/-- a line ends with `c`, or with `c` and the character behind it -/
def startsLineEnd (c : Char) (cs : List Char) : Bool :=
  c == '\n' || (c == '\r' && cs.head? == some '\n')

/-- a text over several lines with escapes, behind its three quotes -/
def multilineBasic : (fuel : Nat) → Reader (List Char)
  | 0, _ => none
  | _ + 1, [] => none
  | fuel + 1, '\\' :: cs =>
    match joinsLines cs with
    | some cs => multilineBasic fuel cs
    | none => do
      let (c, cs) ← escape cs
      let (rest, cs) ← multilineBasic fuel cs
      return (c :: rest, cs)
  | fuel + 1, c :: cs =>
    match closeQuotes '"' (c :: cs) with
    | some closed => some closed
    | none =>
      if isForbidden c && !startsLineEnd c cs then none
      else do
        let (rest, cs) ← multilineBasic fuel cs
        return (c :: rest, cs)

/-- a text over several lines without escapes -/
def multilineLiteral : Reader (List Char)
  | [] => none
  | c :: cs =>
    match closeQuotes '\'' (c :: cs) with
    | some closed => some closed
    | none =>
      if isForbidden c && !startsLineEnd c cs then none
      else do
        let (rest, cs) ← multilineLiteral cs
        return (c :: rest, cs)

/-- a line end right behind the opening quotes does not count -/
def dropFirstLineEnd : List Char → List Char
  | '\n' :: cs => cs
  | '\r' :: '\n' :: cs => cs
  | cs => cs

/-- a string on one line, as it may stand in a key -/
def lineString (fuel : Nat) : Reader String
  | '"' :: cs => (basicString fuel cs).map fun (s, rest) => (String.ofList s, rest)
  | '\'' :: cs => (literalString cs).map fun (s, rest) => (String.ofList s, rest)
  | _ => none

def anyString (fuel : Nat) : Reader String
  | '"' :: '"' :: '"' :: cs =>
    (multilineBasic fuel (dropFirstLineEnd cs)).map fun (s, rest) => (String.ofList s, rest)
  | '\'' :: '\'' :: '\'' :: cs =>
    (multilineLiteral (dropFirstLineEnd cs)).map fun (s, rest) => (String.ofList s, rest)
  | cs => lineString fuel cs

/-! ## keys -/

def isBareKeyChar (c : Char) : Bool := c.isAlphanum || c == '_' || c == '-'

def simpleKey (fuel : Nat) : Reader String := fun cs =>
  match cs with
  | '"' :: _ | '\'' :: _ => lineString fuel cs
  | _ =>
    let name := cs.takeWhile isBareKeyChar
    if name.isEmpty then none else some (String.ofList name, cs.dropWhile isBareKeyChar)

/-- keys with dots between them -/
def dottedKey : (fuel : Nat) → Reader (List String)
  | 0, _ => none
  | fuel + 1, cs => do
    let (key, cs) ← simpleKey fuel (skipSpaces cs)
    match skipSpaces cs with
    | '.' :: cs =>
      let (keys, cs) ← dottedKey fuel cs
      return (key :: keys, cs)
    | cs => return ([key], cs)

/-- the most parts a key may have -/
def maxKeyParts : Nat := 80

def keyParts (fuel : Nat) : Reader (List String) := fun cs => do
  let (keys, cs) ← dottedKey fuel cs
  if keys.length ≤ maxKeyParts then some (keys, cs) else none

/-! ## numbers and words -/

def isTokenChar (c : Char) : Bool := c.isAlphanum || c == '_' || c == '+' || c == '-' || c == '.'

/-- digits with single underscores between them, without the underscores -/
def digitRun? (isDigit : Char → Bool) (cs : List Char) : Option (List Char) :=
  let groups := Text.splitOn '_' cs
  if groups.all fun g => !g.isEmpty && g.all isDigit then some groups.flatten else none

def noLeadingZero (ds : List Char) : Bool := ds.head? != some '0' || ds.length == 1

def inRange (n : Int) : Option Value :=
  if Int64.minValue.toInt ≤ n ∧ n ≤ Int64.maxValue.toInt then some (.integer (Int64.ofInt n)) else none

/-- a number in base 16, 8 or 2 -/
def basedInteger? : List Char → Option Value
  | '0' :: 'x' :: ds => do inRange (← hexNumber? (← digitRun? (fun c => (hexValue? c).isSome) ds))
  | '0' :: 'o' :: ds => do
    let ds ← digitRun? (fun c => '0' ≤ c && c ≤ '7') ds
    inRange (Int.ofNat (ds.foldl (fun n d => 8 * n + (d.toNat - '0'.toNat)) 0))
  | '0' :: 'b' :: ds => do
    let ds ← digitRun? (fun c => c == '0' || c == '1') ds
    inRange (Int.ofNat (ds.foldl (fun n d => 2 * n + (d.toNat - '0'.toNat)) 0))
  | _ => none

def decimalInteger? (cs : List Char) : Option Value := do
  let (negative, cs) := Number.splitSign cs
  let ds ← digitRun? Char.isDigit cs
  if noLeadingZero ds then
    let n := Int.ofNat (Number.digitsValue ds)
    inRange (if negative then -n else n)
  else none

/-- digits, or digits with a point between them -/
def mantissa? (cs : List Char) : Option (List Char) :=
  match Text.splitOn '.' cs with
  | [whole] => digitRun? Char.isDigit whole
  | [whole, part] => do
    let whole ← digitRun? Char.isDigit whole
    let part ← digitRun? Char.isDigit part
    return whole ++ '.' :: part
  | _ => none

/-- an exponent with its mark, or nothing -/
def exponent? : List Char → Option (List Char)
  | [] => some []
  | _ :: cs =>
    let (negative, ds) := Number.splitSign cs
    (digitRun? Char.isDigit ds).map fun ds => 'e' :: (if negative then '-' :: ds else ds)

/-- a number with a fraction, an exponent or both; underscores only between digits -/
def float? (cs : List Char) : Option Value := do
  let (negative, cs) := Number.splitSign cs
  let isMark (c : Char) : Bool := c == 'e' || c == 'E'
  let digits ← mantissa? (cs.takeWhile (!isMark ·))
  let exponent ← exponent? (cs.dropWhile (!isMark ·))
  if noLeadingZero (digits.takeWhile (· != '.')) then
    let x ← Number.Double.parse? (String.ofList (digits ++ exponent))
    return .float (if negative then -x else x)
  else none

def word? (cs : List Char) : Option Value :=
  match String.ofList cs with
  | "true" => some (.bool true)
  | "false" => some (.bool false)
  | "inf" | "+inf" | "-inf" | "nan" | "+nan" | "-nan" =>
    (Number.Double.parse? (String.ofList cs)).map .float
  | _ => none

def scalar : Reader Value := fun cs => do
  let token := cs.takeWhile isTokenChar
  let value ←
    (word? token).orElse fun _ => (basedInteger? token).orElse fun _ =>
      (decimalInteger? token).orElse fun _ => float? token
  return (value, cs.dropWhile isTokenChar)

/-! ## the tree of a document -/

inductive Item where
  /-- a finished value -/
  | value (v : Value)
  /-- a table; `isOpened` if it has a header of its own -/
  | table (isOpened : Bool) (members : List (String × Item))
  /-- an array of tables, newest last -/
  | tables (elements : List (List (String × Item)))

abbrev Members := List (String × Item)

def replaceMember (key : String) (item : Item) (ms : Members) : Members :=
  ms.map fun m => if m.1 == key then (key, item) else m

/-- change the members of the table at a path; tables on the way are created as needed, and of an
array of tables the newest is meant -/
def updateAt : List String → (Members → Option Members) → Members → Option Members
  | [], f, ms => f ms
  | key :: keys, f, ms =>
    match ms.lookup key with
    | none => (updateAt keys f []).map fun sub => ms ++ [(key, .table false sub)]
    | some (.table isOpened sub) =>
      (updateAt keys f sub).map fun sub => replaceMember key (.table isOpened sub) ms
    | some (.tables elements) => do
      let last ← elements.getLast?
      let sub ← updateAt keys f last
      return replaceMember key (.tables (elements.dropLast ++ [sub])) ms
    | some (.value _) => none

/-- add a value under a new name -/
def addValue (key : String) (v : Value) (ms : Members) : Option Members :=
  match ms.lookup key with
  | none => some (ms ++ [(key, .value v)])
  | some _ => none

/-- open a table that has no header yet -/
def openTable (key : String) (ms : Members) : Option Members :=
  match ms.lookup key with
  | none => some (ms ++ [(key, .table true [])])
  | some (.table false sub) => some (replaceMember key (.table true sub) ms)
  | _ => none

/-- add a table to an array of tables -/
def addTable (key : String) (ms : Members) : Option Members :=
  match ms.lookup key with
  | none => some (ms ++ [(key, .tables [[]])])
  | some (.tables elements) => some (replaceMember key (.tables (elements ++ [[]])) ms)
  | _ => none

mutual

def Item.toValue : Item → Value
  | .value v => v
  | .table _ members => .table (membersToTable members)
  | .tables elements => .array (elementsToArray elements)

def membersToTable : List (String × Item) → List (String × Value)
  | [] => []
  | (key, item) :: ms => (key, item.toValue) :: membersToTable ms

def elementsToArray : List (List (String × Item)) → List Value
  | [] => []
  | ms :: es => .table (membersToTable ms) :: elementsToArray es

end

/-! ## values -/

/-- put a value at a dotted key -/
def setKey (keys : List String) (v : Value) (ms : Members) : Option Members := do
  let last ← keys.getLast?
  updateAt keys.dropLast (addValue last v) ms

/-- the most brackets and braces that may be open at once -/
def maxOpen : Nat := 80

mutual

/-- a value; `room` tells how many more brackets and braces may be opened -/
def value : (fuel : Nat) → (room : Nat) → Reader Value
  | 0, _, _ => none
  | fuel + 1, room, cs =>
    match cs, room with
    | '"' :: _, _ | '\'' :: _, _ => (anyString fuel cs).map fun (s, rest) => (.string s, rest)
    | '[' :: _, 0 | '\x7b' :: _, 0 => none
    | '[' :: cs, room + 1 => do
      let (items, cs) ← arrayItems fuel room (skipTrivia false cs)
      return (.array items, cs)
    | '\x7b' :: cs, room + 1 => do
      let (members, cs) ← inlineMembers fuel room [] (skipTrivia false cs)
      return (.table (membersToTable members), cs)
    | _, _ => scalar cs

/-- elements of an array up to its end; a comma may stand behind the last -/
def arrayItems : (fuel : Nat) → (room : Nat) → Reader (List Value)
  | 0, _, _ => none
  | fuel + 1, room, cs =>
    match cs with
    | ']' :: cs => some ([], cs)
    | _ => do
      let (item, cs) ← value fuel room cs
      match skipTrivia false cs with
      | ',' :: cs =>
        let (items, cs) ← arrayItems fuel room (skipTrivia false cs)
        return (item :: items, cs)
      | ']' :: cs => return ([item], cs)
      | _ => none

/-- members of a table in braces, up to its end; a comma may stand behind the last -/
def inlineMembers : (fuel : Nat) → (room : Nat) → Members → Reader Members
  | 0, _, _, _ => none
  | fuel + 1, room, ms, cs =>
    match cs with
    | '\x7d' :: cs => some (ms, cs)
    | _ => do
      let (keys, cs) ← keyParts fuel cs
      match skipSpaces cs with
      | '=' :: cs =>
        let (v, cs) ← value fuel room (skipSpaces cs)
        let ms ← setKey keys v ms
        match skipTrivia false cs with
        | ',' :: cs => inlineMembers fuel room ms (skipTrivia false cs)
        | '\x7d' :: cs => return (ms, cs)
        | _ => none
      | _ => none

end

/-! ## documents -/

/-- read statements to the end of the text; `path` is the table that is open -/
def statements : (fuel : Nat) → (path : List String) → Members → List Char → Option Members
  | 0, _, _, _ => none
  | fuel + 1, path, ms, cs =>
    match skipTrivia false cs with
    | [] => some ms
    | '[' :: '[' :: cs => do
      let (keys, cs) ← keyParts fuel cs
      match cs with
      | ']' :: ']' :: cs =>
        let ((), cs) ← endOfLine cs
        let last ← keys.getLast?
        statements fuel keys (← updateAt keys.dropLast (addTable last) ms) cs
      | _ => none
    | '[' :: cs => do
      let (keys, cs) ← keyParts fuel cs
      match cs with
      | ']' :: cs =>
        let ((), cs) ← endOfLine cs
        let last ← keys.getLast?
        statements fuel keys (← updateAt keys.dropLast (openTable last) ms) cs
      | _ => none
    | cs => do
      let (keys, cs) ← keyParts fuel cs
      match skipSpaces cs with
      | '=' :: cs =>
        let (v, cs) ← value fuel maxOpen (skipSpaces cs)
        let ((), cs) ← endOfLine cs
        statements fuel path (← updateAt path (setKey keys v) ms) cs
      | _ => none

/-- a byte order mark in front of a document does not count -/
def dropMark : List Char → List Char
  | '\uFEFF' :: cs => cs
  | cs => cs

def parse? (s : String) : Option Value :=
  (statements (2 * s.length + 2) [] [] (dropMark s.toList)).map fun ms =>
    .table (membersToTable ms)

/-! ## writing -/

def hexDigit (n : Nat) : Char :=
  if n < 10 then Char.ofNat ('0'.toNat + n) else Char.ofNat ('a'.toNat + (n - 10))

def escaped (c : Char) : List Char :=
  if c == '"' then ['\\', '"']
  else if c == '\\' then ['\\', '\\']
  else if c.toNat < 0x20 || c.toNat == 0x7F then
    ['\\', 'u', '0', '0', hexDigit (c.toNat / 16), hexDigit (c.toNat % 16)]
  else [c]

def stringText (s : String) : String := String.ofList ('"' :: s.toList.flatMap escaped ++ ['"'])

def floatText (x : Float) : String :=
  match Number.Double.decode x with
  | .nan => "nan"
  | d => d.render

mutual

def valueText : Value → String
  | .bool true => "true"
  | .bool false => "false"
  | .integer i => Int.repr i.toInt
  | .float x => floatText x
  | .string s => stringText s
  | .array items => "[" ++ Text.joinWith ", " (itemTexts items) ++ "]"
  | .table members => "\x7b" ++ Text.joinWith ", " (memberTexts members) ++ "\x7d"

def itemTexts : List Value → List String
  | [] => []
  | v :: vs => valueText v :: itemTexts vs

def memberTexts : List (String × Value) → List String
  | [] => []
  | (key, v) :: ms => (stringText key ++ " = " ++ valueText v) :: memberTexts ms

end

/-- an array that can be written as tables below headers -/
def isTableArray (items : List Value) : Bool :=
  !items.isEmpty && items.all fun v =>
    match v with
    | .table _ => true
    | _ => false

/-- members that need no header, on a line each -/
def plainLines (t : Table) : List String :=
  t.filterMap fun (key, v) =>
    match v with
    | .table _ => none
    | .array items =>
      if isTableArray items then none else some (stringText key ++ " = " ++ valueText v)
    | _ => some (stringText key ++ " = " ++ valueText v)

def pathText (path : List String) : String := Text.joinWith "." (path.map stringText)

mutual

/-- members that need headers, for the table at a path -/
def sectionLines (path : List String) : List (String × Value) → List String
  | [] => []
  | (key, v) :: ms => memberSections (path ++ [key]) v ++ sectionLines path ms

/-- the member at a path, if it needs headers -/
def memberSections (path : List String) : Value → List String
  | .table t => ("[" ++ pathText path ++ "]") :: plainLines t ++ sectionLines path t
  | .array items => if isTableArray items then elementSections path items else []
  | _ => []

def elementSections (path : List String) : List Value → List String
  | [] => []
  | .table t :: vs =>
    ("[[" ++ pathText path ++ "]]") :: plainLines t ++ sectionLines path t ++
      elementSections path vs
  | _ :: vs => elementSections path vs

end

def render (t : Table) : String :=
  String.join ((plainLines t ++ sectionLines [] t).map (· ++ "\n"))

end TypeModel.Toml
