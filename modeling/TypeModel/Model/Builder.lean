import TypeModel.Model.Basic

/-!
# Building models step by step

Short forms for declarations written in code, and `Model.rebuild`, which puts a model together
again from them.  They set what a declaration is and leave out where it came from: source lines
(except those of fields), comments (except those of structs), descriptions and bodies of
constructors are not kept.
-/

namespace TypeModel

namespace BasicType

def ofValue (name : Name) (bits : Nat) : BasicType := { name, bitLength := some bits }

def ofFloat (name : Name) (bits : Nat) : BasicType :=
  { ofValue name bits with encoding := .ieee754 }

def ofString (name : Name) : BasicType := { name, category := .string }

def withEncoding (b : BasicType) (encoding : Encoding) : BasicType := { b with encoding }

def rebuild (b : BasicType) : BasicType :=
  if b.category = .string then (ofString b.name).withEncoding b.encoding
  else if b.encoding = .ieee754 then ofFloat b.name (b.bitLength.getD defaultFloatBits)
  else (ofValue b.name (b.bitLength.getD defaultIntegerBits)).withEncoding b.encoding

end BasicType

def TypeRef.rebuild (r : TypeRef) : TypeRef := { name := r.name, bitLength := r.bitLength }

def Field.rebuild (f : Field) : Field :=
  { name := f.name, visibility := f.visibility, typeRef := f.typeRef.rebuild,
    key := f.key.map TypeRef.rebuild, defaultValue := f.defaultValue, isStatic := f.isStatic,
    arraySize := f.arraySize, line := f.line }

namespace Method

/-- adds a modifier unless the method has it -/
def withModifier (m : Method) (x : Modifier) : Method :=
  if m.has x then m else { m with modifiers := m.modifiers ++ [x] }

def rebuild (m : Method) : Method :=
  m.modifiers.foldl withModifier
    { name := m.name, visibility := m.visibility, returns := m.returns.map TypeRef.rebuild,
      parameters := m.parameters.map fun p => { p with typeRef := p.typeRef.rebuild },
      body := m.body }

end Method

def Constructor.rebuild (c : Constructor) : Constructor :=
  { explicit := c.explicit,
    parameters := c.parameters.map fun p => { p with typeRef := p.typeRef.rebuild },
    initializers := c.initializers }

def StructType.rebuild (s : StructType) : StructType :=
  { name := s.name, base := s.base.map TypeRef.rebuild, comment := s.comment,
    fields := s.fields.map Field.rebuild, methods := s.methods.map Method.rebuild,
    constructors := s.constructors.map Constructor.rebuild, friends := s.friends,
    options := s.options, ownNamespace := s.ownNamespace }

namespace Enumerator

def ofInteger (name : Name) (value : Int64) : Enumerator := { name, value := some (.integer value) }

def rebuild (e : Enumerator) : Enumerator :=
  match e.value with
  | some value => ofInteger e.name value.evaluate
  | none => { name := e.name }

end Enumerator

def EnumerationType.rebuild (e : EnumerationType) : EnumerationType :=
  { name := e.name, base := e.base.map TypeRef.rebuild,
    enumerators := e.enumerators.map Enumerator.rebuild, underlyingType := e.underlyingType }

/-- an array without an element type stays as it is -/
def ArrayType.rebuild (a : ArrayType) : ArrayType :=
  match a.elementType with
  | some element => { name := a.name, elementType := some element.rebuild, size := a.size }
  | none => a

/-- an alias without an actual type stays as it is -/
def AliasType.rebuild (a : AliasType) : AliasType :=
  match a.actualType with
  | some actual => { name := a.name, actualType := some actual.rebuild }
  | none => a

mutual

def TypeDef.rebuild : TypeDef → TypeDef
  | .struct s inner => .struct s.rebuild (TypeDef.rebuildAll inner)
  | .enumeration e => .enumeration e.rebuild
  | .array a => .array a.rebuild
  | .alias a => .alias a.rebuild

def TypeDef.rebuildAll : List TypeDef → List TypeDef
  | [] => []
  | t :: ts => t.rebuild :: TypeDef.rebuildAll ts

end

def Package.rebuild (p : Package) : Package :=
  { name := p.name, types := TypeDef.rebuildAll p.types }

def Model.rebuild (m : Model) : Model :=
  { name := m.name,
    primitives := m.primitives.map fun g =>
      { name := g.name, dataTypes := g.dataTypes.map BasicType.rebuild },
    types := TypeDef.rebuildAll m.types,
    packages := m.packages.map Package.rebuild }

end TypeModel
