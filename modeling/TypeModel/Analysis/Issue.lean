import TypeModel.Analysis.Convention
import TypeModel.Diagnostic.Basic
import TypeModel.Model.Declaration

/-!
# What can be wrong with a model

An `Issue` is the cause of a diagnostic.  Its code, severity, wording and advice are functions of
the cause; `Issue.toDiagnostic` puts it at a place.
-/

namespace TypeModel

/-- limits of a model -/
def maxArraySize : Int64 := 10000
def maxBitLength : Nat := 64
def maxPrimitiveLength : Nat := 1024
def maxEnumeratorValue : Int64 := 65535

/-- which chain closes to a cycle -/
inductive CycleKind where
  | struct
  | enumeration
  | expansion
  deriving DecidableEq, Repr

/-- what a name belongs to -/
inductive Named where
  | type
  | field
  | enumerator
  deriving DecidableEq, Repr

def Named.text : Named → String
  | .type => "type"
  | .field => "field"
  | .enumerator => "enumerator"

inductive Issue where
  | undefinedType (name : Name)
  | undefinedBase (name : Name)
  /-- candidates are given by their qualified names; `other` is one that was not chosen -/
  | ambiguous (name chosen : Name) (candidates : List Name) (other : Option Name)
  | baseIsSelf (name : Name) (kind : TypeKind)
  | baseOfOtherKind (name : Name) (found kind : TypeKind)
  | baseIsPrimitive (name : Name) (kind : TypeKind)
  | duplicateType (name : Name) (scope : String)
  | duplicatePrimitive (name group : Name)
  | duplicateField (field owner : Name)
  | inheritedField (field owner base : Name)
  | cycle (kind : CycleKind) (path : List Name)
  | duplicateEnumerator (name owner : Name)
  | duplicateValue (name : Name) (value : Int64) (first : Name)
  | missingZero (name : Name)
  | arraySizeNotPositive (size : Int64)
  | arraySizeLarge (size : Int64)
  | bitLengthInvalid (bits : Nat) (name : Name)
  | bitLengthOnDeclared (kind : TypeKind) (name : Name)
  | missingElementType (name : Name)
  | missingActualType (name : Name)
  | valueOutOfRange (name : Name) (value : Int64)
  | conflictingModifiers (method : Name) (labels : List String)
  | overrideWithoutBase (method owner : Name)
  | emptyPackageName
  | invalidMapKey (name : Name)
  | fieldNaming (name : Name)
  | typeNaming (name : Name)
  | packageNaming (name : Name)
  | enumeratorNaming (name : Name)
  | longName (what : Named) (name : Name)
  | largePrimitive (name : Name) (length : Nat)
  | stringLength (name : Name) (length : Nat)
  | unusualFloat (name : Name) (length : Nat)

/-- the article in front of a kind -/
def TypeKind.article : TypeKind → String
  | .struct => "a"
  | .enumeration | .array | .alias => "an"

/-- `a struct`, `an enumeration` and so on -/
def TypeKind.withArticle (k : TypeKind) : String := k.article ++ " " ++ k.text

def int64Text (v : Int64) : String := Int.repr v.toInt

namespace Issue

/-- a name between the marks that set it off in messages -/
def mark (name : String) : String := "`" ++ name ++ "`"

def code : Issue → Code
  | .undefinedType _ | .undefinedBase _ => .undefinedType
  | .ambiguous .. => .ambiguousType
  | .baseIsSelf .. | .baseOfOtherKind .. | .baseIsPrimitive .. => .invalidBase
  | .duplicateType .. => .duplicateType
  | .duplicatePrimitive .. => .duplicatePrimitive
  | .duplicateField .. | .inheritedField .. => .duplicateField
  | .cycle .struct _ => .structCycle
  | .cycle .enumeration _ => .enumerationCycle
  | .cycle .expansion _ => .expansionCycle
  | .duplicateEnumerator .. => .duplicateEnumerator
  | .duplicateValue .. => .duplicateValue
  | .missingZero _ => .missingZero
  | .arraySizeNotPositive _ => .invalidArraySize
  | .arraySizeLarge _ => .largeArraySize
  | .bitLengthInvalid .. => .invalidBitLength
  | .bitLengthOnDeclared .. => .bitLengthOnDeclared
  | .missingElementType _ => .missingElementType
  | .missingActualType _ => .missingActualType
  | .valueOutOfRange .. => .valueOutOfRange
  | .conflictingModifiers .. => .conflictingModifiers
  | .overrideWithoutBase .. => .overrideWithoutBase
  | .emptyPackageName => .emptyPackageName
  | .invalidMapKey _ => .invalidMapKey
  | .fieldNaming _ => .fieldNaming
  | .typeNaming _ => .typeNaming
  | .packageNaming _ => .packageNaming
  | .enumeratorNaming _ => .enumeratorNaming
  | .longName .. => .longName
  | .largePrimitive .. => .largePrimitive
  | .stringLength .. => .stringLength
  | .unusualFloat .. => .unusualFloat

def severity (i : Issue) : Severity :=
  match i.code with
  | .undefinedType | .invalidBase | .duplicateType | .duplicatePrimitive | .duplicateField
  | .structCycle | .enumerationCycle | .duplicateEnumerator | .invalidArraySize
  | .invalidBitLength | .missingElementType | .missingActualType | .conflictingModifiers
  | .overrideWithoutBase | .emptyPackageName | .expansionCycle | .invalidMapKey => .error
  | .ambiguousType | .duplicateValue | .missingZero | .largeArraySize | .bitLengthOnDeclared
  | .valueOutOfRange | .fieldNaming | .typeNaming | .packageNaming | .enumeratorNaming
  | .longName | .largePrimitive | .unusualFloat => .warning
  | .stringLength => .info

def cycleWords : CycleKind → String
  | .struct => "circular struct inheritance"
  | .enumeration => "circular enumeration inheritance"
  | .expansion => "circular type definition"

def message : Issue → String
  | .undefinedType name => "undefined type " ++ mark name
  | .undefinedBase name => "undefined base type " ++ mark name
  | .ambiguous name chosen candidates _ =>
    "ambiguous type " ++ mark name ++ " resolved to " ++ mark chosen ++ "; candidates are " ++
      Text.joinWith ", " (candidates.map mark)
  | .baseIsSelf name _ =>
    "invalid base type: " ++ mark name ++ " refers to the declaration itself"
  | .baseOfOtherKind name found kind =>
    "invalid base type: " ++ mark name ++ " is " ++ found.withArticle ++ ", expected " ++
      kind.withArticle
  | .baseIsPrimitive name kind =>
    "invalid base type: " ++ mark name ++ " is a primitive type, expected " ++ kind.withArticle
  | .duplicateType name scope =>
    "type " ++ mark name ++ " is defined multiple times in " ++ scope
  | .duplicatePrimitive name group =>
    "primitive type " ++ mark name ++ " is defined multiple times in group " ++ mark group
  | .duplicateField field owner =>
    "field " ++ mark field ++ " is defined multiple times in " ++ mark owner
  | .inheritedField field owner base =>
    "field " ++ mark field ++ " of " ++ mark owner ++ " duplicates a field inherited from " ++
      mark base
  | .cycle kind path => cycleWords kind ++ ": " ++ Text.joinWith " -> " path
  | .duplicateEnumerator name owner =>
    "enumerator " ++ mark name ++ " is defined multiple times in " ++ mark owner
  | .duplicateValue name value first =>
    "enumerator " ++ mark name ++ " repeats value " ++ int64Text value ++ " of " ++ mark first
  | .missingZero name => "enumeration " ++ mark name ++ " has no enumerator with value 0"
  | .arraySizeNotPositive size => "array size must be positive, found " ++ int64Text size
  | .arraySizeLarge size =>
    "array size " ++ int64Text size ++ " is larger than " ++ int64Text maxArraySize ++ " elements"
  | .bitLengthInvalid bits name =>
    "bit length " ++ Nat.repr bits ++ " of " ++ mark name ++ " must be between 1 and " ++
      Nat.repr maxBitLength
  | .bitLengthOnDeclared kind name =>
    "bit length applied to " ++ kind.text ++ " " ++ mark name ++
      "; only primitive types can be bit-packed"
  | .missingElementType name => "array type " ++ mark name ++ " has no element type"
  | .missingActualType name => "type alias " ++ mark name ++ " has no actual type"
  | .valueOutOfRange name value =>
    "enumerator " ++ mark name ++ " has value " ++ int64Text value ++ " outside 0..=" ++
      int64Text maxEnumeratorValue
  | .conflictingModifiers method labels =>
    "static method " ++ mark method ++ " cannot be " ++ Text.joinWith " or " labels
  | .overrideWithoutBase method owner =>
    "method " ++ mark method ++ " is marked override but " ++ mark owner ++ " has no base"
  | .emptyPackageName => "package name must not be empty"
  | .invalidMapKey name =>
    "map key " ++ mark name ++ " must be an integer, boolean or string type"
  | .fieldNaming name => "field name " ++ mark name ++ " should start with a lowercase letter"
  | .typeNaming name => "type name " ++ mark name ++ " should start with an uppercase letter"
  | .packageNaming name => "package name " ++ mark name ++ " should be lowercase and dot separated"
  | .enumeratorNaming name => "enumerator name " ++ mark name ++ " should be upper case"
  | .longName what name =>
    what.text ++ " name " ++ mark name ++ " is " ++ Nat.repr name.chars ++
      " characters long (maximum " ++ Nat.repr Convention.maxNameLength ++ ")"
  | .largePrimitive name length =>
    "primitive type " ++ mark name ++ " has length " ++ Nat.repr length ++ ", above " ++
      Nat.repr maxPrimitiveLength ++ " bits"
  | .stringLength name length =>
    "length " ++ Nat.repr length ++ " of string type " ++ mark name ++ " is its maximum length"
  | .unusualFloat name length =>
    "IEEE754 type " ++ mark name ++ " has length " ++ Nat.repr length ++ "; expected 32 or 64"

def renameTo (name : String) : String := "rename to " ++ mark name

def extendsOnly (kind : TypeKind) : String :=
  kind.withArticle ++ " may only extend another " ++ kind.text

def help? : Issue → Option String
  | .undefinedType name =>
    some ("declare " ++ mark name ++ " as a primitive or a type, or fix the spelling")
  | .ambiguous _ _ _ other => other.map fun o => "use a qualified name such as " ++ mark o
  | .baseIsSelf _ kind | .baseOfOtherKind _ _ kind | .baseIsPrimitive _ kind =>
    some (extendsOnly kind)
  | .duplicateType .. => some "remove the duplicate or use a different name"
  | .inheritedField .. => some "rename the field or remove it from one of the structs"
  | .missingZero _ =>
    some "Protobuf requires a zero value; an `_UNSPECIFIED` entry will be added"
  | .arraySizeLarge _ => some "consider a dynamically sized sequence"
  | .invalidMapKey _ => some "Protobuf map keys are limited to integral and string scalars"
  | .fieldNaming name => some (renameTo (Convention.suggestField name))
  | .typeNaming name => some (renameTo (Convention.suggestType name))
  | .packageNaming name => some (renameTo (Convention.suggestPackage name))
  | .enumeratorNaming name => some (renameTo (Convention.suggestEnumerator name))
  | _ => none

/-- the issue as a diagnostic about a place -/
def toDiagnostic (i : Issue) (location : Location) : Diagnostic :=
  { severity := i.severity, code := some i.code, message := i.message,
    location := some location, help := i.help? }

end Issue

end TypeModel
