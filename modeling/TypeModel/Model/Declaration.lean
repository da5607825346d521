import TypeModel.Model.Expression
import TypeModel.Model.Reference

/-!
# Declared types

* `TypeDef.struct s inner`   a struct with fields, methods and constructors, and the types
                             declared inside it;
* `TypeDef.enumeration e`    named integer constants;
* `TypeDef.array a`          a named array;
* `TypeDef.alias a`          another name for a type.

Structs and enumerations may extend one other declaration (`TypeDef.base?`); arrays and aliases
stand for what they refer to (`TypeDef.expands?`).
-/

namespace TypeModel

inductive TypeKind where
  | struct
  | enumeration
  | array
  | alias
  deriving DecidableEq, Repr

def TypeKind.text : TypeKind → String
  | .struct => "struct"
  | .enumeration => "enumeration"
  | .array => "array"
  | .alias => "alias"

inductive Visibility where
  | privateAccess
  | protectedAccess
  | publicAccess
  deriving DecidableEq, Repr

def Visibility.text : Visibility → String
  | .privateAccess => "private"
  | .protectedAccess => "protected"
  | .publicAccess => "public"

/-! ## members of structs -/

structure Field where
  name : Name
  visibility : Visibility := .privateAccess
  typeRef : TypeRef
  /-- key type of a map; `typeRef` is then the value type -/
  key : Option TypeRef := none
  defaultValue : Option Expression := none
  isStatic : Bool := false
  /-- size of an inline array -/
  arraySize : Option Int64 := none
  comment : List String := []
  line : Option Nat := none

/-- holds exactly one value: no inline array, no map -/
def Field.isSingleValued (f : Field) : Bool := f.arraySize.isNone && f.key.isNone

inductive Modifier where
  | const
  | virtual
  | static
  | override
  | noexcept
  | pureVirtual
  deriving DecidableEq, Repr

def Modifier.text : Modifier → String
  | .const => "const"
  | .virtual => "virtual"
  | .static => "static"
  | .override => "override"
  | .noexcept => "noexcept"
  | .pureVirtual => "pure_virtual"

structure Parameter where
  name : Name
  typeRef : TypeRef
  deriving DecidableEq, Repr

structure Method where
  name : Name
  visibility : Visibility := .publicAccess
  /-- `none` is `void` -/
  returns : Option TypeRef := none
  parameters : List Parameter := []
  modifiers : List Modifier := []
  description : Option String := none
  /-- body text, taken as it is -/
  body : Option String := none
  line : Option Nat := none
  deriving DecidableEq, Repr

namespace Method

def has (m : Method) (x : Modifier) : Bool := m.modifiers.contains x

def isPure (m : Method) : Bool := m.has .pureVirtual

end Method

/-- one entry `member(value)` of an initializer list -/
structure Initializer where
  member : Name
  value : String
  deriving DecidableEq, Repr

structure Constructor where
  visibility : Visibility := .publicAccess
  explicit : Bool := false
  parameters : List Parameter := []
  initializers : List Initializer := []
  body : Option String := none
  line : Option Nat := none
  deriving DecidableEq, Repr

inductive Friend where
  | classNamed (name : String)
  /-- a function, by its signature -/
  | functionOf (signature : String)
  deriving DecidableEq, Repr

/-- features generated on demand -/
structure StructOptions where
  threading : Bool := false
  serialization : Bool := false
  operators : Bool := false
  copySemantics : Bool := false
  moveSemantics : Bool := false
  deriving DecidableEq, Repr

/-! ## structs -/

/-- a struct without the types declared inside it -/
structure StructType where
  name : Name
  base : Option TypeRef := none
  comment : List String := []
  fields : List Field := []
  methods : List Method := []
  constructors : List Constructor := []
  friends : List Friend := []
  options : StructOptions := {}
  /-- a namespace of its own, with `::` or `.` between segments -/
  ownNamespace : Option String := none
  line : Option Nat := none

namespace StructType

/-- the fields that belong to instances, in order -/
def instanceFields (s : StructType) : List Field := s.fields.filter (!·.isStatic)

def staticFields (s : StructType) : List Field := s.fields.filter (·.isStatic)

def isAbstract (s : StructType) : Bool := s.methods.any Method.isPure

def hasVirtualMethods (s : StructType) : Bool :=
  s.methods.any fun m => m.has .virtual || m.isPure

def hasMethodNamed (s : StructType) (name : String) : Bool := s.methods.any (·.name == name)

end StructType

/-! ## enumerations -/

structure Enumerator where
  name : Name
  value : Option Expression := none
  line : Option Nat := none

/-- the value written as an integer literal, if one is -/
def Enumerator.explicitInteger? (e : Enumerator) : Option Int64 :=
  e.value.bind Expression.integer?

/-- the next integer, or the same one at the end of the range -/
def succSaturating (v : Int64) : Int64 := if v = Int64.maxValue then v else v + 1

/-- values of enumerators in order: an explicit value is evaluated, an implicit one is `next` and
follows its predecessor after that -/
def numberFrom (next : Int64) : List Enumerator → List (Name × Int64)
  | [] => []
  | e :: es =>
    let value := (e.value.map Expression.evaluate).getD next
    (e.name, value) :: numberFrom (succSaturating value) es

structure EnumerationType where
  name : Name
  base : Option TypeRef := none
  comment : List String := []
  enumerators : List Enumerator := []
  /-- underlying type, taken as it is -/
  underlyingType : Option String := none
  isEnumClass : Bool := true
  line : Option Nat := none

namespace EnumerationType

/-- the values of the enumerators, counted from zero -/
def effectiveValues (e : EnumerationType) : List Int64 :=
  (numberFrom 0 e.enumerators).map (·.2)

def hasZero (e : EnumerationType) : Bool := e.effectiveValues.contains 0

end EnumerationType

/-! ## arrays and aliases -/

structure ArrayType where
  name : Name
  elementType : Option TypeRef := none
  /-- a missing size means a sequence of any length -/
  size : Option Int64 := none
  comment : List String := []
  line : Option Nat := none
  deriving DecidableEq

structure AliasType where
  name : Name
  actualType : Option TypeRef := none
  comment : List String := []
  line : Option Nat := none
  deriving DecidableEq

/-! ## any declared type -/

inductive TypeDef where
  | struct (s : StructType) (inner : List TypeDef)
  | enumeration (e : EnumerationType)
  | array (a : ArrayType)
  | alias (a : AliasType)

namespace TypeDef

def name : TypeDef → Name
  | .struct s _ => s.name
  | .enumeration e => e.name
  | .array a => a.name
  | .alias a => a.name

def comment : TypeDef → List String
  | .struct s _ => s.comment
  | .enumeration e => e.comment
  | .array a => a.comment
  | .alias a => a.comment

def line : TypeDef → Option Nat
  | .struct s _ => s.line
  | .enumeration e => e.line
  | .array a => a.line
  | .alias a => a.line

def kind : TypeDef → TypeKind
  | .struct _ _ => .struct
  | .enumeration _ => .enumeration
  | .array _ => .array
  | .alias _ => .alias

/-- the declaration that a struct or an enumeration extends -/
def base? : TypeDef → Option TypeRef
  | .struct s _ => s.base
  | .enumeration e => e.base
  | .array _ | .alias _ => none

/-- the type that an array or an alias stands for -/
def expands? : TypeDef → Option TypeRef
  | .array a => a.elementType
  | .alias a => a.actualType
  | .struct _ _ | .enumeration _ => none

def struct? : TypeDef → Option StructType
  | .struct s _ => some s
  | _ => none

def enumeration? : TypeDef → Option EnumerationType
  | .enumeration e => some e
  | _ => none

def innerTypes : TypeDef → List TypeDef
  | .struct _ inner => inner
  | _ => []

end TypeDef

end TypeModel
