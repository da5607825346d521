import TypeModel.Document.Value
import TypeModel.Model.Basic

/-!
# Reading models from documents

`Model.decode` reads a model off a document value.  Every table has a fixed set of members; a
member with another name is an error, except beside `ident` in an expression.  Members other
than names, referenced types and the `kind` of a type may be left out.

Words other than a `kind` may also be written as the only member of a table.  What such a member
holds is empty: a table or an array in a primitive type, a table in a declared one.
-/

namespace TypeModel

open Value

/-- a word in a primitive type -/
def asBasicWord {α : Type} (words : List (String × α)) : Decoder α :=
  asChoice (fun v => v.isEmptyTable || v.isEmptyArray) words

/-- a word in a declared type -/
def asTypeWord {α : Type} (words : List (String × α)) : Decoder α :=
  asChoice isEmptyTable words

def Category.decode : Decoder Category :=
  asBasicWord [("value", .value), ("string", .string)]

def Encoding.decode : Decoder Encoding :=
  asBasicWord [("none", .none), ("ieee754", .ieee754), ("IEEE754", .ieee754),
    ("signed", .signed), ("unsigned", .unsigned), ("utf8", .utf8)]

def Visibility.decode : Decoder Visibility :=
  asTypeWord [("private", .privateAccess), ("protected", .protectedAccess),
    ("public", .publicAccess)]

def Modifier.decode : Decoder Modifier :=
  asTypeWord ([Modifier.const, .virtual, .static, .override, .noexcept, .pureVirtual].map
    fun x => (x.text, x))

def BasicType.decode : Decoder BasicType := fun v => do
  let t ← asTable v
  t.only ["name", "category", "bit_length", "encoding", "line"]
  return {
    name := ← t.required "name" asString
    category := ← t.orElse "category" Category.decode .value
    bitLength := ← t.optional "bit_length" asNatural
    encoding := ← t.orElse "encoding" Encoding.decode .none
    line := ← t.optional "line" asNatural }

def PrimitiveGroup.decode : Decoder PrimitiveGroup := fun v => do
  let t ← asTable v
  t.only ["name", "data_types"]
  return {
    name := ← t.required "name" asString
    dataTypes := ← t.orElse "data_types" (asList BasicType.decode) [] }

def TypeRef.decode : Decoder TypeRef := fun v => do
  let t ← asTable v
  t.only ["name", "bit_length"]
  return {
    name := ← t.required "name" asString
    bitLength := ← t.optional "bit_length" asNatural }

/-- a literal, or a table that names a constant by its member `ident` -/
def Expression.decode : Decoder Expression
  | .bool b => .ok (.literal (.bool b))
  | .integer i => .ok (.literal (.integer i))
  | .float x => .ok (.literal (.float x))
  | .string s => .ok (.literal (.string s))
  | .table t => (Table.required t "ident" asString).map .identifier
  | .array _ => .error (.expected "an expression")

/-- a flag that may be written under either of two names, not under both -/
def decodeFlag (t : Table) (name other : String) : Except DecodeError Bool := do
  if (t.lookup name).isSome && (t.lookup other).isSome then throw (.repeated name)
  if (t.lookup name).isSome then t.required name asBool else t.orElse other asBool false

def Field.decode : Decoder Field := fun v => do
  let t ← asTable v
  t.only ["name", "visibility", "type_ref", "key", "default", "is_static", "static", "array_size",
    "comment", "line"]
  return {
    name := ← t.required "name" asString
    visibility := ← t.orElse "visibility" Visibility.decode .privateAccess
    typeRef := ← t.required "type_ref" TypeRef.decode
    key := ← t.optional "key" TypeRef.decode
    defaultValue := ← t.optional "default" Expression.decode
    isStatic := ← decodeFlag t "is_static" "static"
    arraySize := ← t.optional "array_size" asInteger
    comment := ← t.orElse "comment" (asList asString) []
    line := ← t.optional "line" asNatural }

def Parameter.decode : Decoder Parameter := fun v => do
  let t ← asTable v
  t.only ["name", "type_ref"]
  return {
    name := ← t.required "name" asString
    typeRef := ← t.required "type_ref" TypeRef.decode }

def Method.decode : Decoder Method := fun v => do
  let t ← asTable v
  t.only ["name", "visibility", "returns", "parameters", "modifiers", "description", "body",
    "line"]
  return {
    name := ← t.required "name" asString
    visibility := ← t.orElse "visibility" Visibility.decode .publicAccess
    returns := ← t.optional "returns" TypeRef.decode
    parameters := ← t.orElse "parameters" (asList Parameter.decode) []
    modifiers := ← t.orElse "modifiers" (asList Modifier.decode) []
    description := ← t.optional "description" asString
    body := ← t.optional "body" asString
    line := ← t.optional "line" asNatural }

def Initializer.decode : Decoder Initializer := fun v => do
  let t ← asTable v
  t.only ["member", "value"]
  return {
    member := ← t.required "member" asString
    value := ← t.required "value" asString }

def Constructor.decode : Decoder Constructor := fun v => do
  let t ← asTable v
  t.only ["visibility", "explicit", "parameters", "initializers", "body", "line"]
  return {
    visibility := ← t.orElse "visibility" Visibility.decode .publicAccess
    explicit := ← t.orElse "explicit" asBool false
    parameters := ← t.orElse "parameters" (asList Parameter.decode) []
    initializers := ← t.orElse "initializers" (asList Initializer.decode) []
    body := ← t.optional "body" asString
    line := ← t.optional "line" asNatural }

def Friend.decode : Decoder Friend
  | .table [("class", .string name)] => .ok (.classNamed name)
  | .table [("function", .string signature)] => .ok (.functionOf signature)
  | _ => .error (.expected "a friend class or function")

def StructOptions.decode : Decoder StructOptions := fun v => do
  let t ← asTable v
  t.only ["threading", "serialization", "operators", "copy_semantics", "move_semantics"]
  return {
    threading := ← t.orElse "threading" asBool false
    serialization := ← t.orElse "serialization" asBool false
    operators := ← t.orElse "operators" asBool false
    copySemantics := ← t.orElse "copy_semantics" asBool false
    moveSemantics := ← t.orElse "move_semantics" asBool false }

def Enumerator.decode : Decoder Enumerator := fun v => do
  let t ← asTable v
  t.only ["name", "value", "line"]
  return {
    name := ← t.required "name" asString
    value := ← t.optional "value" Expression.decode
    line := ← t.optional "line" asNatural }

/-- a struct, from a table without its `kind`; its inner types are read on their own -/
def StructType.decode (t : Table) : Except DecodeError StructType := do
  t.only ["name", "base", "comment", "fields", "methods", "constructors", "friends", "options",
    "namespace", "inner_types", "line"]
  return {
    name := ← t.required "name" asString
    base := ← t.optional "base" TypeRef.decode
    comment := ← t.orElse "comment" (asList asString) []
    fields := ← t.orElse "fields" (asList Field.decode) []
    methods := ← t.orElse "methods" (asList Method.decode) []
    constructors := ← t.orElse "constructors" (asList Constructor.decode) []
    friends := ← t.orElse "friends" (asList Friend.decode) []
    options := ← t.orElse "options" StructOptions.decode {}
    ownNamespace := ← t.optional "namespace" asString
    line := ← t.optional "line" asNatural }

def EnumerationType.decode (t : Table) : Except DecodeError EnumerationType := do
  t.only ["name", "base", "comment", "enumerators", "underlying_type", "is_enum_class", "line"]
  return {
    name := ← t.required "name" asString
    base := ← t.optional "base" TypeRef.decode
    comment := ← t.orElse "comment" (asList asString) []
    enumerators := ← t.orElse "enumerators" (asList Enumerator.decode) []
    underlyingType := ← t.optional "underlying_type" asString
    isEnumClass := ← t.orElse "is_enum_class" asBool true
    line := ← t.optional "line" asNatural }

def ArrayType.decode (t : Table) : Except DecodeError ArrayType := do
  t.only ["name", "element_type", "size", "comment", "line"]
  return {
    name := ← t.required "name" asString
    elementType := ← t.optional "element_type" TypeRef.decode
    size := ← t.optional "size" asInteger
    comment := ← t.orElse "comment" (asList asString) []
    line := ← t.optional "line" asNatural }

def AliasType.decode (t : Table) : Except DecodeError AliasType := do
  t.only ["name", "actual_type", "comment", "line"]
  return {
    name := ← t.required "name" asString
    actualType := ← t.optional "actual_type" TypeRef.decode
    comment := ← t.orElse "comment" (asList asString) []
    line := ← t.optional "line" asNatural }

/-- a declared type with at most `levels` of types inside each other -/
def TypeDef.decodeWithin : (levels : Nat) → Decoder TypeDef
  | 0, _ => .error (.expected "fewer levels of inner types")
  | levels + 1, v => do
    let t ← asTable v
    let kind ← t.required "kind" (asWord
      ([TypeKind.struct, .enumeration, .array, .alias].map fun k => (k.text, k)))
    let body := t.filter (·.1 != "kind")
    match kind with
    | .struct =>
      let s ← StructType.decode body
      let inner ← Table.orElse body "inner_types" (asList (TypeDef.decodeWithin levels)) []
      return .struct s inner
    | .enumeration => return .enumeration (← EnumerationType.decode body)
    | .array => return .array (← ArrayType.decode body)
    | .alias => return .alias (← AliasType.decode body)

/-- every level of inner types takes at least one level of values -/
def TypeDef.decode : Decoder TypeDef := fun v => TypeDef.decodeWithin v.depth v

def Package.decode : Decoder Package := fun v => do
  let t ← asTable v
  t.only ["name", "types", "line"]
  return {
    name := ← t.required "name" asString
    types := ← t.orElse "types" (asList TypeDef.decode) []
    line := ← t.optional "line" asNatural }

def Model.decode : Decoder Model := fun v => do
  let t ← asTable v
  t.only ["name", "primitive_definitions", "types", "packages"]
  return {
    name := ← t.optional "name" asString
    primitives := ← t.orElse "primitive_definitions" (asList PrimitiveGroup.decode) []
    types := ← t.orElse "types" (asList TypeDef.decode) []
    packages := ← t.orElse "packages" (asList Package.decode) [] }

end TypeModel
