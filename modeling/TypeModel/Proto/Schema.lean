import TypeModel.Config
import TypeModel.Generation.Target
import TypeModel.Output.FileSet
import TypeModel.Proto.Name
import TypeModel.Text.Writer

/-!
# Protobuf schemas

A schema has a message for every struct and an enum for every enumeration; arrays and aliases are
expanded where they are used.

* `Schema.ofModel m c`   the schema of a model;
* `Schema.script`        its text;
* `warnings m`           map fields that would have to be repeated, as far as fields are written.

A model with one package whose names do not clash with top-level ones uses it as the package of
the file.  Otherwise every package becomes a message that wraps its declarations.

A message has the fields of the extended structs first, farthest first, and numbers all of them
from one.  An enum starts with a zero, as the format asks: one of its enumerators is moved to the
front, or a zero is added.
-/

namespace TypeModel.Proto

/-! ## parts of a schema -/

inductive TypeName where
  | scalar (name : String)
  /-- a message or enum by its path in the file -/
  | declared (id : TypeId) (path : List String)
  deriving DecidableEq, Repr

def TypeName.text : TypeName → String
  | .scalar name => name
  | .declared _ path => Text.joinWith "." path

inductive Shape where
  | single (type : TypeName)
  | repeated (type : TypeName)
  | map (key value : TypeName)
  deriving DecidableEq, Repr

structure MessageField where
  comment : List String
  shape : Shape
  name : Name
  number : Nat
  deriving DecidableEq, Repr

def Shape.text : Shape → String
  | .single type => type.text
  | .repeated type => "repeated " ++ type.text
  | .map key value => "map<" ++ key.text ++ ", " ++ value.text ++ ">"

def MessageField.text (f : MessageField) : String :=
  f.shape.text ++ " " ++ f.name ++ " = " ++ Nat.repr f.number ++ ";"

inductive Declaration where
  | message (name : Name) (comment : List String) (nested : List Declaration)
      (fields : List MessageField)
  | enumeration (name : Name) (comment : List String) (values : List (String × Int64))

/-- a message around the declarations of a package -/
structure Wrapper where
  package : Name
  declarations : List Declaration

def Wrapper.name (w : Wrapper) : String := wrapperName w.package

structure Schema where
  package : Option String
  declarations : List Declaration
  wrappers : List Wrapper

/-! ## names and files -/

/-- structs and enumerations have a declaration of their own -/
def isDeclared (t : TypeDef) : Bool :=
  match t with
  | .struct _ _ | .enumeration _ => true
  | .array _ | .alias _ => false

/-- whether packages become messages: not if there is only one and its names do not clash with
top-level ones -/
def wrapsPackages (m : Model) : Bool :=
  match m.packages with
  | [] => false
  | [p] =>
    let topLevel := (m.types.filter isDeclared).map TypeDef.name
    (p.types.filter isDeclared).any fun t => topLevel.contains t.name
  | _ => true

def fileName (m : Model) (c : ProtoConfig) : String :=
  Text.sanitize (c.fileStem.getD (m.nameOr "model")) ++ ".proto"

def filePackage (m : Model) (c : ProtoConfig) : Option String :=
  match m.packages with
  | [p] => if wrapsPackages m then c.defaultPackage else some p.name
  | _ => c.defaultPackage

/-- the path of a struct or enumeration in the file -/
def declarationPath (m : Model) (e : Entry) : List String :=
  (if wrapsPackages m then (e.package.map fun p => wrapperName p.name).toList else []) ++
    (e.outer.map (·.name)).toList ++ [e.name]

/-! ## fields and enumerators -/

/-- the type behind a reference, and whether it is repeated -/
def fieldType (m : Model) (r : TypeRef) : Except GenerationError (TypeName × Bool) := do
  match ← m.expand r with
  | (.basic b, repeated) => return (.scalar b.kind.protoName, repeated)
  | (.declared e, repeated) => return (.declared e.id (declarationPath m e), repeated)

/-- the shape of a field, and whether it is a map that would have to be repeated -/
def fieldShape (m : Model) (f : Field) : Except GenerationError (Shape × Bool) := do
  let (value, repeated) ← fieldType m f.typeRef
  match f.key with
  | some key =>
    let (key, keyRepeated) ← fieldType m key
    return (.map key value, keyRepeated || repeated || f.arraySize.isSome)
  | none =>
    return (if repeated || f.arraySize.isSome then .repeated value else .single value, false)

def messageField (m : Model) (f : Field) (number : Nat) : Except GenerationError MessageField := do
  let (shape, _) ← fieldShape m f
  return { comment := f.comment, shape, name := f.name, number }

/-- fields numbered from `number` on -/
def messageFieldsFrom (m : Model) (number : Nat) :
    List Field → Except GenerationError (List MessageField)
  | [] => return []
  | f :: fs => do
    let field ← messageField m f number
    return field :: (← messageFieldsFrom m (number + 1) fs)

/-- the first zero moved to the front, or `zero` added there -/
def zeroFirst (zero : String) (values : List (String × Int64)) : List (String × Int64) :=
  match values.findIdx? (·.2 = 0) with
  | some i => (values[i]?).toList ++ values.eraseIdx i
  | none => (zero, 0) :: values

def enumValues (m : Model) (id : TypeId) (e : EnumerationType) : List (String × Int64) :=
  zeroFirst (unspecifiedName e.name)
    ((m.foldedEnumerators id e).map fun (name, value) => (enumeratorName e.name name, value))

/-- two enumerators have one value -/
def hasAliases (values : List (String × Int64)) : Bool :=
  match values with
  | [] => false
  | (_, v) :: rest => rest.any (·.2 = v) || hasAliases rest

/-! ## building schemas -/

mutual

/-- the declaration of a type at a handle, if it has one; the handle decides what is inherited -/
def declare (m : Model) (id : TypeId) : TypeDef → Except GenerationError (List Declaration)
  | .struct s inner => do
    let nested ← declareAll m id 0 inner
    let fields ← messageFieldsFrom m 1 (m.flattenedFields id s)
    return [.message s.name s.comment nested fields]
  | .enumeration e => return [.enumeration e.name e.comment (enumValues m id e)]
  | .array _ | .alias _ => return []

/-- declarations of the types inside the struct at a handle, from position `i` on -/
def declareAll (m : Model) (id : TypeId) (i : Nat) :
    List TypeDef → Except GenerationError (List Declaration)
  | [] => return []
  | t :: ts => do
    let first ← declare m (id.withInner i) t
    let rest ← declareAll m id (i + 1) ts
    return first ++ rest

end

def declareEntries (m : Model) (es : List Entry) : Except GenerationError (List Declaration) := do
  return (← es.mapM fun e => declare m e.id e.type).flatten

def wrapper (m : Model) (p : Nat) (package : Package) : Except GenerationError Wrapper := do
  return { package := package.name,
           declarations := ← declareEntries m (Model.typesOfPackage p package) }

def Schema.ofModel (m : Model) (c : ProtoConfig) : Except GenerationError Schema := do
  let wraps := wrapsPackages m
  let declarations ← declareEntries m (if wraps then m.topLevelTypes else m.declaredTypes)
  let wrappers ←
    if wraps then (m.packages.zipIdx).mapM fun (package, p) => wrapper m p package else pure []
  return { package := filePackage m c, declarations, wrappers }

/-! ## fields in the order they are written -/

mutual

def writtenFields (m : Model) (id : TypeId) : TypeDef → List Field
  | .struct s inner => writtenFieldsOfAll m id 0 inner ++ m.flattenedFields id s
  | .enumeration _ | .array _ | .alias _ => []

def writtenFieldsOfAll (m : Model) (id : TypeId) (i : Nat) : List TypeDef → List Field
  | [] => []
  | t :: ts => writtenFields m (id.withInner i) t ++ writtenFieldsOfAll m id (i + 1) ts

end

/-- the field can be written -/
def isWritable (m : Model) (f : Field) : Bool := (fieldShape m f).isOk

/-- the field is a map that would have to be repeated -/
def isRepeatedMap (m : Model) (f : Field) : Bool :=
  match fieldShape m f with
  | .ok (_, repeated) => repeated
  | .error _ => false

/-- names of the map fields that would have to be repeated, up to the first field that cannot be
written -/
def warnings (m : Model) : List Name :=
  (((m.declaredTypes.flatMap fun e => writtenFields m e.id e.type).takeWhile
    (isWritable m)).filter (isRepeatedMap m)).map (·.name)

/-! ## the text of a schema -/

/-- scripts with an empty line between them -/
def separated : List Text.Script → Text.Script
  | [] => []
  | [s] => s
  | s :: ss => s ++ .blank :: separated ss

def MessageField.script (f : MessageField) : Text.Script :=
  [.comment "//" f.comment, .line f.text]

def enumScript (name : Name) (values : List (String × Int64)) : Text.Script :=
  [.line ("enum " ++ name ++ " \x7b"),
    .indented ((if hasAliases values then [.line "option allow_alias = true;"] else []) ++
      values.map fun (enumerator, value) =>
        .line (enumerator ++ " = " ++ Int.repr value.toInt ++ ";")),
    .line "\x7d"]

mutual

def Declaration.script : Declaration → Text.Script
  | .message name comment nested fields =>
    [.comment "//" comment, .line ("message " ++ name ++ " \x7b"),
      .indented (separated (Declaration.scripts nested) ++
        (if nested.isEmpty || fields.isEmpty then [] else [.blank]) ++
        fields.flatMap MessageField.script),
      .line "\x7d"]
  | .enumeration name comment values => .comment "//" comment :: enumScript name values

def Declaration.scripts : List Declaration → List Text.Script
  | [] => []
  | d :: ds => d.script :: Declaration.scripts ds

end

def Wrapper.script (w : Wrapper) : Text.Script :=
  [.line ("// Package " ++ w.package), .line ("message " ++ w.name ++ " \x7b"),
    .indented (separated (Declaration.scripts w.declarations)), .line "\x7d"]

def Schema.script (s : Schema) : Text.Script :=
  [.line ("// " ++ banner), .blank, .line "syntax = \"proto3\";"] ++
    (match s.package with
      | some package => [.blank, .line ("package " ++ package ++ ";")]
      | none => []) ++
    (Declaration.scripts s.declarations).flatMap (fun d => .blank :: d) ++
    s.wrappers.flatMap fun w => .blank :: w.script

/-- indentation of a schema -/
def indent : String := "  "

def Schema.text (s : Schema) : String := Text.Script.render indent s.script

/-- the schema file -/
def generate (m : Model) (c : ProtoConfig) : Except GenerationError FileSet := do
  let schema ← Schema.ofModel m c
  return ({} : FileSet).insert (fileName m c) schema.text

end TypeModel.Proto
