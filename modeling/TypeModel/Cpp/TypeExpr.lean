import TypeModel.Cpp.Name
import TypeModel.Generation.Target

/-!
# Types as written in generated C++

A `TypeExpr` is a type as it stands in generated code.  Types of the model keep their handles, so
that the declarations a text refers to can be read off (`TypeExpr.handles`).

Parameters of scalar types are passed by value, all others by constant reference.
-/

namespace TypeModel.Cpp

inductive TypeExpr where
  | primitive (kind : PrimitiveKind)
  /-- a declared type, as written at the place of use -/
  | declared (id : TypeId) (spelling : String)
  /-- a type outside the model, or the class itself -/
  | named (text : String)
  | array (element : TypeExpr) (size : Int64)
  | vector (element : TypeExpr)
  | map (key value : TypeExpr)
  | constRef (type : TypeExpr)
  | ref (type : TypeExpr)
  | rvalueRef (type : TypeExpr)
  deriving DecidableEq

namespace TypeExpr

def text : TypeExpr → String
  | .primitive kind => kind.cppName
  | .declared _ spelling => spelling
  | .named text => text
  | .array element size => "std::array<" ++ element.text ++ ", " ++ Int.repr size.toInt ++ ">"
  | .vector element => "std::vector<" ++ element.text ++ ">"
  | .map key value => "std::map<" ++ key.text ++ ", " ++ value.text ++ ">"
  | .constRef type => "const " ++ type.text ++ "&"
  | .ref type => type.text ++ "&"
  | .rvalueRef type => type.text ++ "&&"

/-- handles of the declared types in a type -/
def handles : TypeExpr → List TypeId
  | .declared id _ => [id]
  | .primitive _ | .named _ => []
  | .array t _ | .vector t | .constRef t | .ref t | .rvalueRef t => t.handles
  | .map key value => key.handles ++ value.handles

end TypeExpr

/-- a type as seen from the namespace `ns` -/
def typeOf (m : Model) (ns : Option String) (r : TypeRef) : Except GenerationError TypeExpr := do
  match ← m.target r with
  | .basic b => return .primitive b.kind
  | .declared e => return .declared e.id (qualifiedName e ns)

def parameterType (m : Model) (ns : Option String) (r : TypeRef) :
    Except GenerationError TypeExpr := do
  let type ← typeOf m ns r
  return if ← m.isScalar r then type else .constRef type

/-- the type of a member, with its map and its inline array -/
def memberType (m : Model) (ns : Option String) (f : Field) : Except GenerationError TypeExpr := do
  let value ← typeOf m ns f.typeRef
  let mapped ←
    match f.key with
    | some key => pure (.map (← typeOf m ns key) value)
    | none => pure value
  return match f.arraySize with
    | some size => .array mapped size
    | none => mapped

/-- how a whole member is passed to a function -/
def memberParameterType (m : Model) (ns : Option String) (f : Field) :
    Except GenerationError TypeExpr :=
  if f.isSingleValued then parameterType m ns f.typeRef
  else return .constRef (← memberType m ns f)

def memberIsScalar (m : Model) (f : Field) : Except GenerationError Bool :=
  if f.isSingleValued then m.isScalar f.typeRef else return false

/-- the width of a bit-field; only booleans and integers can be bit-fields -/
def bitFieldWidth (m : Model) (f : Field) : Except GenerationError (Option Nat) :=
  match f.typeRef.bitLength with
  | none => return none
  | some bits =>
    if f.isStatic || !f.isSingleValued then return none
    else do
      match ← m.target f.typeRef with
      | .basic b =>
        match b.kind with
        | .boolean | .integer _ _ => return some bits
        | .float _ | .text => return none
      | .declared _ => return none

def isEnumeration (m : Model) (r : TypeRef) : Except GenerationError Bool := do
  match ← m.target r with
  | .declared e => return e.type.kind = .enumeration
  | .basic _ => return false

/-- the default of a single value; a constant of an enumeration is qualified and an integer cast
to it -/
def defaultText (m : Model) (ns : Option String) (f : Field) :
    Except GenerationError (Option String) :=
  match f.defaultValue with
  | none => return none
  | some value =>
    if !f.isSingleValued then return none
    else do
      if ← isEnumeration m f.typeRef then
        let type ← typeOf m ns f.typeRef
        match value with
        | .literal (.integer v) =>
          return some ("static_cast<" ++ type.text ++ ">(" ++ Int.repr v.toInt ++ ")")
        | .identifier name => return some (type.text ++ "::" ++ name)
        | _ => return some value.text
      else return some value.text

end TypeModel.Cpp
