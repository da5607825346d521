/-!
# Codes of diagnostics

One constructor for each kind of finding.  `E1..` come from resolving names, `E2..` are rules a
model has to keep, `E3..` are matters of style.
-/

namespace TypeModel

inductive Code where
  | undefinedType
  | ambiguousType
  | invalidBase
  | duplicateType
  | duplicatePrimitive
  | duplicateField
  | structCycle
  | enumerationCycle
  | duplicateEnumerator
  | duplicateValue
  | missingZero
  | invalidArraySize
  | largeArraySize
  | invalidBitLength
  | bitLengthOnDeclared
  | missingElementType
  | missingActualType
  | valueOutOfRange
  | conflictingModifiers
  | overrideWithoutBase
  | emptyPackageName
  | expansionCycle
  | invalidMapKey
  | fieldNaming
  | typeNaming
  | packageNaming
  | enumeratorNaming
  | longName
  | largePrimitive
  | stringLength
  | unusualFloat
  deriving DecidableEq, Repr

namespace Code

/-- all codes in the order of their texts -/
def all : List Code := [
  .undefinedType, .ambiguousType, .invalidBase, .duplicateType, .duplicatePrimitive,
  .duplicateField, .structCycle, .enumerationCycle, .duplicateEnumerator, .duplicateValue,
  .missingZero, .invalidArraySize, .largeArraySize, .invalidBitLength, .bitLengthOnDeclared,
  .missingElementType, .missingActualType, .valueOutOfRange, .conflictingModifiers,
  .overrideWithoutBase, .emptyPackageName, .expansionCycle, .invalidMapKey, .fieldNaming,
  .typeNaming, .packageNaming, .enumeratorNaming, .longName, .largePrimitive, .stringLength,
  .unusualFloat]

def text : Code → String
  | .undefinedType => "E100"
  | .ambiguousType => "E101"
  | .invalidBase => "E102"
  | .duplicateType => "E200"
  | .duplicatePrimitive => "E201"
  | .duplicateField => "E202"
  | .structCycle => "E203"
  | .enumerationCycle => "E204"
  | .duplicateEnumerator => "E205"
  | .duplicateValue => "E206"
  | .missingZero => "E207"
  | .invalidArraySize => "E208"
  | .largeArraySize => "E209"
  | .invalidBitLength => "E210"
  | .bitLengthOnDeclared => "E211"
  | .missingElementType => "E212"
  | .missingActualType => "E213"
  | .valueOutOfRange => "E214"
  | .conflictingModifiers => "E215"
  | .overrideWithoutBase => "E216"
  | .emptyPackageName => "E217"
  | .expansionCycle => "E218"
  | .invalidMapKey => "E219"
  | .fieldNaming => "E300"
  | .typeNaming => "E301"
  | .packageNaming => "E302"
  | .enumeratorNaming => "E303"
  | .longName => "E304"
  | .largePrimitive => "E305"
  | .stringLength => "E306"
  | .unusualFloat => "E307"

def description : Code → String
  | .undefinedType => "undefined type"
  | .ambiguousType => "ambiguous type reference"
  | .invalidBase => "invalid base type"
  | .duplicateType => "duplicate type name"
  | .duplicatePrimitive => "duplicate primitive type name"
  | .duplicateField => "duplicate field name"
  | .structCycle => "circular struct inheritance"
  | .enumerationCycle => "circular enumeration inheritance"
  | .duplicateEnumerator => "duplicate enumerator name"
  | .duplicateValue => "duplicate enumerator value"
  | .missingZero => "missing zero enumerator"
  | .invalidArraySize => "invalid array size"
  | .largeArraySize => "large array size"
  | .invalidBitLength => "invalid bit length"
  | .bitLengthOnDeclared => "bit length on non-primitive type"
  | .missingElementType => "missing element type"
  | .missingActualType => "missing actual type"
  | .valueOutOfRange => "enumerator value out of range"
  | .conflictingModifiers => "conflicting method modifiers"
  | .overrideWithoutBase => "override without base"
  | .emptyPackageName => "empty package name"
  | .expansionCycle => "circular type definition"
  | .invalidMapKey => "invalid map key type"
  | .fieldNaming => "field naming convention"
  | .typeNaming => "type naming convention"
  | .packageNaming => "package naming convention"
  | .enumeratorNaming => "enumerator naming convention"
  | .longName => "name too long"
  | .largePrimitive => "large primitive length"
  | .stringLength => "string length"
  | .unusualFloat => "unusual floating point length"

/-- the code with the given text -/
def ofText? (s : String) : Option Code := all.find? (·.text == s)

end Code

end TypeModel
