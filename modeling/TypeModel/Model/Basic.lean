import TypeModel.Model.Declaration
import TypeModel.Model.Primitive

/-!
# Models

A model owns groups of primitive types, top-level types and packages of types.

* `Model.type? id`, `Model.entry? id`   the declaration at a handle;
* `Model.declaredTypes`                 top-level types, then packaged ones;
* `Model.innerTypes`                    the types inside structs, one level deep;
* `Model.allTypes`                      declared types, then inner ones;
* `Model.walk`                          the same entries, each struct followed by its inner types.

An `Entry` is a declaration with its surroundings: handle, package and enclosing struct.
-/

namespace TypeModel

structure Package where
  name : Name
  types : List TypeDef := []
  line : Option Nat := none

structure Model where
  name : Option String := none
  primitives : List PrimitiveGroup := []
  types : List TypeDef := []
  packages : List Package := []

/-- a declaration with its surroundings -/
structure Entry where
  id : TypeId
  package : Option Package := none
  outer : Option StructType := none
  type : TypeDef

namespace Entry

def name (e : Entry) : Name := e.type.name

/-- names of the scopes around a declaration, outermost first -/
def scopes (e : Entry) : List Name :=
  (e.package.map (·.name)).toList ++ (e.outer.map (·.name)).toList

/-- the name behind all its scopes -/
def qualifiedName (e : Entry) : Name :=
  match e.scopes with
  | [] => e.name
  | s :: ss => (ss.foldl Name.qualify s).qualify e.name

/-- the entry of the type at position `i` inside a struct -/
def innerEntry (e : Entry) (s : StructType) (i : Nat) (t : TypeDef) : Entry :=
  { id := e.id.withInner i, package := e.package, outer := some s, type := t }

/-- entries of the types inside a struct -/
def inners (e : Entry) : List Entry :=
  match e.type with
  | .struct s inner => inner.mapIdx (e.innerEntry s)
  | _ => []

end Entry

namespace Model

/-- the list of types that a handle points into -/
def container? (m : Model) (package : Option Nat) : Option (List TypeDef) :=
  match package with
  | some p => (m.packages[p]?).map (·.types)
  | none => some m.types

def type? (m : Model) (id : TypeId) : Option TypeDef := do
  let types ← m.container? id.package
  let t ← types[id.index]?
  match id.inner with
  | some i => t.innerTypes[i]?
  | none => some t

def package? (m : Model) (id : TypeId) : Option Package := id.package.bind (m.packages[·]?)

/-- the struct around the declaration at a handle of an inner type -/
def outer? (m : Model) (id : TypeId) : Option StructType :=
  if id.isInner then (m.type? id.outer).bind TypeDef.struct? else none

def entry? (m : Model) (id : TypeId) : Option Entry :=
  (m.type? id).map fun t =>
    { id, package := m.package? id, outer := m.outer? id, type := t }

def basic? (m : Model) (id : BasicId) : Option BasicType :=
  (m.primitives[id.group]?).bind (·.dataTypes[id.index]?)

/-- primitive types with their handles, group by group -/
def basicTypes (m : Model) : List (BasicId × BasicType) :=
  (m.primitives.mapIdx fun g group => group.dataTypes.mapIdx fun i b => (⟨g, i⟩, b)).flatten

def topLevelEntry (i : Nat) (t : TypeDef) : Entry := { id := .topLevel i, type := t }

def packagedEntry (p : Nat) (package : Package) (i : Nat) (t : TypeDef) : Entry :=
  { id := .packaged p i, package := some package, type := t }

def topLevelTypes (m : Model) : List Entry := m.types.mapIdx topLevelEntry

def typesOfPackage (p : Nat) (package : Package) : List Entry :=
  package.types.mapIdx (packagedEntry p package)

def packagedTypes (m : Model) : List Entry := (m.packages.mapIdx typesOfPackage).flatten

def declaredTypes (m : Model) : List Entry := m.topLevelTypes ++ m.packagedTypes

def innerTypes (m : Model) : List Entry := m.declaredTypes.flatMap Entry.inners

def allTypes (m : Model) : List Entry := m.declaredTypes ++ m.innerTypes

def walk (m : Model) : List Entry := m.declaredTypes.flatMap fun e => e :: e.inners

/-- the structs that extend the declaration at a handle -/
def derivedStructs (m : Model) (id : TypeId) : List TypeId :=
  (m.allTypes.filter fun e =>
    (e.type.struct?.bind (·.base)).bind TypeRef.type? == some id).map (·.id)

def nameOr (m : Model) (fallback : String) : String := m.name.getD fallback

end Model

end TypeModel
