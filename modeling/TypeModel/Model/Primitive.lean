import TypeModel.Name

/-!
# Primitive types

The leaves of a model: named types given by a category, a length in bits and an encoding, in
groups.  `BasicType.kind` reads off what such a type is:

* text, when its category says so;
* a floating point number, when encoded so;
* a boolean, by its name or a length of one bit;
* an integer otherwise, signed unless its encoding or a leading `u` in its name says unsigned.
-/

namespace TypeModel

inductive Category where
  | value
  | string
  deriving DecidableEq, Repr

inductive Encoding where
  | none
  | ieee754
  | signed
  | unsigned
  | utf8
  deriving DecidableEq, Repr

/-- what a primitive type is -/
inductive PrimitiveKind where
  | boolean
  | integer (bits : Nat) (signed : Bool)
  | float (bits : Nat)
  | text
  deriving DecidableEq, Repr

structure BasicType where
  name : Name
  category : Category := .value
  bitLength : Option Nat := none
  encoding : Encoding := .none
  line : Option Nat := none
  deriving DecidableEq, Repr

structure PrimitiveGroup where
  name : Name
  dataTypes : List BasicType := []
  deriving DecidableEq, Repr

def PrimitiveKind.isFloat : PrimitiveKind → Bool
  | .float _ => true
  | _ => false

namespace BasicType

/-- the length of an integer type that gives none -/
def defaultIntegerBits : Nat := 32

/-- the length of a floating point type that gives none -/
def defaultFloatBits : Nat := 64

/-- `bool` or `boolean` in any letter case -/
def hasBooleanName (b : BasicType) : Bool :=
  let lowered := b.name.toList.map Char.toLower
  lowered == "bool".toList || lowered == "boolean".toList

def hasUnsignedName (b : BasicType) : Bool :=
  match b.name.toList with
  | c :: _ => c == 'u' || c == 'U'
  | [] => false

def isSigned (b : BasicType) : Bool :=
  match b.encoding with
  | .unsigned => false
  | .signed => true
  | _ => !b.hasUnsignedName

def kind (b : BasicType) : PrimitiveKind :=
  if b.category = .string then .text
  else if b.encoding = .ieee754 then .float (b.bitLength.getD defaultFloatBits)
  else if b.hasBooleanName || b.bitLength == some 1 then .boolean
  else .integer (b.bitLength.getD defaultIntegerBits) b.isSigned

end BasicType

/-- `boolean`, `text`, `float64`, `int32`, `uint8` and so on -/
def PrimitiveKind.label : PrimitiveKind → String
  | .boolean => "boolean"
  | .text => "text"
  | .float bits => "float" ++ Nat.repr bits
  | .integer bits true => "int" ++ Nat.repr bits
  | .integer bits false => "uint" ++ Nat.repr bits

def Encoding.text : Encoding → String
  | .none => "none"
  | .ieee754 => "ieee754"
  | .signed => "signed"
  | .unsigned => "unsigned"
  | .utf8 => "utf8"

def Category.text : Category → String
  | .value => "value"
  | .string => "string"

end TypeModel
