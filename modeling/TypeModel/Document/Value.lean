/-!
# Document values

A document is a table of named values: booleans, integers, floats, strings, arrays and tables.
Models and settings are read from such values by decoders.

* `Decoder α`                 reads an `α` off a value, or says what is wrong with it;
* `asWord ws`, `asChoice e ws`  one of the words `ws`, plain or as the only member of a table;
* `Table.required t n d`      the member `n`, read by `d`;
* `Table.optional t n d`      the same, `none` when the member is missing;
* `Table.orElse t n d a`      the same, `a` when the member is missing;
* `Table.only t ns`           refuses members with other names.
-/

namespace TypeModel

inductive Value where
  | bool (value : Bool)
  | integer (value : Int64)
  | float (value : Float)
  | string (value : String)
  | array (items : List Value)
  | table (members : List (String × Value))

abbrev Table := List (String × Value)

inductive DecodeError where
  | expected (what : String)
  | missing (member : String)
  | unknown (member : String)
  /-- a member given under two names -/
  | repeated (member : String)
  deriving DecidableEq, Repr

def DecodeError.message : DecodeError → String
  | .expected what => "expected " ++ what
  | .missing member => "missing member `" ++ member ++ "`"
  | .unknown member => "unknown member `" ++ member ++ "`"
  | .repeated member => "member `" ++ member ++ "` given twice"

abbrev Decoder (α : Type) := Value → Except DecodeError α

namespace Value

mutual

/-- the number of values inside each other -/
def depth : Value → Nat
  | .array items => depthOfItems items + 1
  | .table members => depthOfMembers members + 1
  | _ => 1

def depthOfItems : List Value → Nat
  | [] => 0
  | v :: vs => max (depth v) (depthOfItems vs)

def depthOfMembers : List (String × Value) → Nat
  | [] => 0
  | (_, v) :: ms => max (depth v) (depthOfMembers ms)

end

def asBool : Decoder Bool
  | .bool b => .ok b
  | _ => .error (.expected "a boolean")

def asString : Decoder String
  | .string s => .ok s
  | _ => .error (.expected "a string")

def asInteger : Decoder Int64
  | .integer i => .ok i
  | _ => .error (.expected "an integer")

/-- the largest number a line or a length may be -/
def maxNatural : Nat := UInt32.size - 1

/-- an integer that is not negative and fits 32 bits -/
def asNatural : Decoder Nat
  | .integer i =>
    if 0 ≤ i.toInt ∧ i.toInt ≤ maxNatural then .ok i.toInt.toNat
    else .error (.expected "a 32 bit number")
  | _ => .error (.expected "a 32 bit number")

def asTable : Decoder Table
  | .table members => .ok members
  | _ => .error (.expected "a table")

def asList {α : Type} (item : Decoder α) : Decoder (List α)
  | .array items => items.mapM item
  | _ => .error (.expected "an array")

/-- one of the given words -/
def asWord {α : Type} (words : List (String × α)) : Decoder α
  | .string s =>
    match words.lookup s with
    | some a => .ok a
    | none => .error (.expected ("one of " ++ String.intercalate ", " (words.map (·.1))))
  | _ => .error (.expected "a word")

def isEmptyTable : Value → Bool
  | .table [] => true
  | _ => false

def isEmptyArray : Value → Bool
  | .array [] => true
  | _ => false

/-- one of the given words, or a table with that word as its only member; the member's value has
nothing to say, which `isIdle` tells -/
def asChoice {α : Type} (isIdle : Value → Bool) (words : List (String × α)) : Decoder α
  | .table [(word, v)] =>
    if isIdle v then asWord words (.string word) else .error (.expected "nothing beside a word")
  | v => asWord words v

end Value

namespace Table

def optional {α : Type} (t : Table) (name : String) (d : Decoder α) :
    Except DecodeError (Option α) :=
  match t.lookup name with
  | some v => (d v).map some
  | none => .ok none

def required {α : Type} (t : Table) (name : String) (d : Decoder α) : Except DecodeError α :=
  match t.lookup name with
  | some v => d v
  | none => .error (.missing name)

def orElse {α : Type} (t : Table) (name : String) (d : Decoder α) (missing : α) :
    Except DecodeError α :=
  match t.lookup name with
  | some v => d v
  | none => .ok missing

def only (t : Table) (names : List String) : Except DecodeError Unit :=
  match t.find? fun m => !names.contains m.1 with
  | some m => .error (.unknown m.1)
  | none => .ok ()

end Table

end TypeModel
