import TypeModel.Model.Site

/-!
# Visiting a model

`Model.visits` lists what a walk through a model comes across: primitive types, then the
top-level types, then each package with its types.  A type is followed by its members and the
references in them, and a struct that is not itself an inner type by the types inside it.
-/

namespace TypeModel

/-- where type names have to be different -/
inductive Scope where
  | global
  | package (p : Package)
  | struct (e : Entry)

namespace Scope

/-- the qualified name of a type in the scope -/
def qualify : Scope → Name → Name
  | .global, n => n
  | .package p, n => p.name.qualify n
  | .struct e, n => e.qualifiedName.qualify n

def text : Scope → String
  | .global => "global scope"
  | .package p => "package `" ++ p.name ++ "`"
  | .struct e => "struct `" ++ e.qualifiedName ++ "`"

end Scope

inductive Visit where
  /-- the primitive type at position `i` of a group -/
  | primitive (group : PrimitiveGroup) (i : Nat) (b : BasicType)
  | package (p : Package)
  /-- the types of one scope -/
  | scope (s : Scope) (types : List TypeDef)
  | entry (e : Entry)
  | field (owner : Entry) (f : Field)
  | method (owner : Entry) (m : Method)
  | enumerator (owner : Entry) (x : Enumerator)
  | reference (owner : Entry) (r : TypeRef) (location : Location)
  /-- an array or alias after the type it stands for -/
  | expansion (e : Entry)

def Field.visits (e : Entry) (f : Field) : List Visit :=
  let location := e.memberLocation f.name f.line
  .field e f :: .reference e f.typeRef location ::
    (f.key.map fun key => Visit.reference e key location).toList

def Method.visits (e : Entry) (m : Method) : List Visit :=
  let location := e.memberLocation m.name m.line
  .method e m :: (m.returns.map fun r => Visit.reference e r location).toList ++
    m.parameters.map fun p => .reference e p.typeRef location

namespace Entry

/-- an entry and its members -/
def visits (e : Entry) : List Visit :=
  .entry e ::
    match e.type with
    | .struct s _ => s.fields.flatMap (Field.visits e) ++ s.methods.flatMap (Method.visits e)
    | .enumeration x => x.enumerators.map (.enumerator e)
    | .array _ | .alias _ =>
      (e.type.expands?.map fun r => Visit.reference e r e.location).toList ++ [.expansion e]

/-- an entry, its members, and the types inside it -/
def visitsWithInner (e : Entry) : List Visit :=
  e.visits ++
    match e.type with
    | .struct _ inner => .scope (.struct e) inner :: e.inners.flatMap visits
    | _ => []

end Entry

def Package.visits (p : Nat) (package : Package) : List Visit :=
  .package package :: .scope (.package package) package.types ::
    (Model.typesOfPackage p package).flatMap Entry.visitsWithInner

def Model.visits (m : Model) : List Visit :=
  (m.primitives.flatMap fun g => g.dataTypes.mapIdx (.primitive g)) ++
    .scope .global m.types :: m.topLevelTypes.flatMap Entry.visitsWithInner ++
    (m.packages.mapIdx Package.visits).flatten

/-- one line about a visit; visits of whole types and members are passed over -/
def Visit.text? : Visit → Option String
  | .primitive g _ b => some ("basic " ++ g.name ++ "/" ++ b.name)
  | .package p => some ("package " ++ p.name)
  | .scope s types =>
    some ("scope " ++ s.text ++ ": " ++
      Text.joinWith "," (types.map fun t => s.qualify t.name))
  | .enumerator e x => some ("enumerator " ++ x.name ++ " of " ++ e.id.text)
  | .reference e r location =>
    some ("ref " ++ r.name ++ " of " ++ e.id.text ++ " at " ++ location.path ++ " (" ++
      location.text ++ ")")
  | .entry _ | .field _ _ | .method _ _ | .expansion _ => none

end TypeModel
