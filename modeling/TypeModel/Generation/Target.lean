import TypeModel.Model.Chain

/-!
# What references point to

Generators follow references through `Model.target`.  A reference that was never bound, or whose
handle points nowhere, is a `GenerationError`.

* `Model.isScalar r`   values of the type are cheap to copy; aliases are followed;
* `Model.expand r`     the primitive, struct or enumeration behind aliases and arrays, and whether
                       an array was passed.

Both follow at most `maxExpansion` references, so a circle of aliases ends in an error that names
the reference they started from.
-/

namespace TypeModel

inductive GenerationError where
  | unresolved (name : Name)
  /-- the handle of a reference points to no declaration -/
  | dangling (name : Name) (handle : String)
  deriving DecidableEq, Repr

def GenerationError.message : GenerationError → String
  | .unresolved name => "type reference `" ++ name ++ "` is not resolved"
  | .dangling name handle =>
    "type reference `" ++ name ++ "` points to missing declaration " ++ handle

/-- the declaration behind a reference -/
inductive Target where
  | basic (b : BasicType)
  | declared (e : Entry)

/-- the number of references followed before a chain counts as circular -/
def maxExpansion : Nat := 16

namespace Model

def target (m : Model) (r : TypeRef) : Except GenerationError Target :=
  match r.binding with
  | .basic id =>
    match m.basic? id with
    | some b => .ok (.basic b)
    | none => .error (.dangling r.name id.text)
  | .type id =>
    match m.entry? id with
    | some e => .ok (.declared e)
    | none => .error (.dangling r.name id.text)
  | .pending | .unresolved => .error (.unresolved r.name)

/-- `isScalar` with a bound on the references followed; `origin` names the first one -/
def isScalarWithin (m : Model) (origin : Name) : Nat → TypeRef → Except GenerationError Bool
  | 0, _ => .error (.unresolved origin)
  | n + 1, r => do
    match ← m.target r with
    | .basic b => return b.kind ≠ .text
    | .declared e =>
      match e.type with
      | .enumeration _ => return true
      | .struct _ _ | .array _ => return false
      | .alias a =>
        match a.actualType with
        | some actual => isScalarWithin m origin n actual
        | none => throw (.unresolved a.name)

/-- booleans, numbers, enumerations, and aliases of those -/
def isScalar (m : Model) (r : TypeRef) : Except GenerationError Bool :=
  m.isScalarWithin r.name maxExpansion r

/-- `expand` with a bound on the references followed; `repeated` tells whether an array was passed
so far -/
def expandWithin (m : Model) (origin : Name) :
    Nat → (repeated : Bool) → TypeRef → Except GenerationError (Target × Bool)
  | 0, _, _ => .error (.unresolved origin)
  | n + 1, repeated, r => do
    match ← m.target r with
    | .basic b => return (.basic b, repeated)
    | .declared e =>
      match e.type with
      | .struct _ _ | .enumeration _ => return (.declared e, repeated)
      | .alias a =>
        match a.actualType with
        | some actual => expandWithin m origin n repeated actual
        | none => throw (.unresolved r.name)
      | .array a =>
        match a.elementType with
        | some element => expandWithin m origin n true element
        | none => throw (.unresolved r.name)

def expand (m : Model) (r : TypeRef) : Except GenerationError (Target × Bool) :=
  m.expandWithin r.name maxExpansion false r

end Model

/-! ## primitive types in the two languages -/

namespace PrimitiveKind

def cppName : PrimitiveKind → String
  | .boolean => "bool"
  | .text => "std::string"
  | .float bits => if bits = 32 then "float" else "double"
  | .integer bits signed =>
    let sign := if signed then "int" else "uint"
    if bits ≤ 8 then sign ++ "8_t"
    else if bits ≤ 16 then sign ++ "16_t"
    else if bits ≤ 32 then sign ++ "32_t"
    else sign ++ "64_t"

def protoName : PrimitiveKind → String
  | .boolean => "bool"
  | .text => "string"
  | .float bits => if bits = 32 then "float" else "double"
  | .integer bits _ => if bits ≤ 32 then "int32" else "int64"

end PrimitiveKind

/-- first line of every generated file, behind a comment mark -/
def banner : String := "Auto-generated by typeforge. Do not edit."

end TypeModel
