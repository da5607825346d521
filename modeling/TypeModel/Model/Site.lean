import TypeModel.Diagnostic.Basic
import TypeModel.Model.Basic

/-!
# Reference sites

The places of a declaration where another type is named, in a fixed order: the base, then value
and key type of each field, result and parameters of each method, parameters of each
constructor; the element type of an array; the actual type of an alias.

* `TypeDef.sites t`            the sites of `t`, without those of its inner types;
* `TypeDef.mapRefs fb f t`     `t` with `fb` applied at its base and `f` at every other site;
* `Site.location s e`          the place of a site of the entry `e` in diagnostics.
-/

namespace TypeModel

/-- what a reference is for; members are given by position -/
inductive Role where
  | base
  | field (i : Nat)
  | fieldKey (i : Nat)
  | returns (i : Nat)
  | methodParameter (i j : Nat)
  | constructorParameter (i j : Nat)
  | element
  | actual
  deriving DecidableEq, Repr

namespace Role

def indexed (word : String) (i : Nat) : String := word ++ "[" ++ Nat.repr i ++ "]"

def text : Role → String
  | .base => "base"
  | .field i => indexed "field" i
  | .fieldKey i => indexed "field" i ++ ".key"
  | .returns i => indexed "method" i ++ ".returns"
  | .methodParameter i j => indexed "method" i ++ "." ++ indexed "param" j
  | .constructorParameter i j => indexed "ctor" i ++ "." ++ indexed "param" j
  | .element => "element"
  | .actual => "actual"

end Role

structure Site where
  role : Role
  ref : TypeRef
  /-- name and line of the member the reference belongs to -/
  member : Option (Name × Option Nat) := none

def Entry.location (e : Entry) : Location := { path := e.qualifiedName, line := e.type.line }

/-- the place of a member of a declaration -/
def Entry.memberLocation (e : Entry) (name : Name) (line : Option Nat) : Location :=
  (e.location.child name).withLine line

def Site.location (s : Site) (e : Entry) : Location :=
  match s.member with
  | some (name, line) => e.memberLocation name line
  | none => e.location

def Field.sites (i : Nat) (f : Field) : List Site :=
  let member := some (f.name, f.line)
  { role := .field i, ref := f.typeRef, member } ::
    (f.key.map fun key => { role := .fieldKey i, ref := key, member }).toList

def Method.sites (i : Nat) (m : Method) : List Site :=
  let member := some (m.name, m.line)
  (m.returns.map fun returns => { role := .returns i, ref := returns, member }).toList ++
    m.parameters.mapIdx fun j p => { role := .methodParameter i j, ref := p.typeRef, member }

/-- constructors bear the name of their struct -/
def Constructor.sites (owner : Name) (i : Nat) (c : Constructor) : List Site :=
  c.parameters.mapIdx fun j p =>
    { role := .constructorParameter i j, ref := p.typeRef, member := some (owner, c.line) }

def StructType.sites (s : StructType) : List Site :=
  (s.base.map fun base => { role := .base, ref := base }).toList ++
    (s.fields.mapIdx Field.sites).flatten ++
    (s.methods.mapIdx Method.sites).flatten ++
    (s.constructors.mapIdx (Constructor.sites s.name)).flatten

def TypeDef.sites : TypeDef → List Site
  | .struct s _ => s.sites
  | .enumeration e => (e.base.map fun base => { role := .base, ref := base }).toList
  | .array a => (a.elementType.map fun element => { role := .element, ref := element }).toList
  | .alias a => (a.actualType.map fun actual => { role := .actual, ref := actual }).toList

def Entry.sites (e : Entry) : List Site := e.type.sites

/-! ## changing references -/

def Parameter.mapRef (f : TypeRef → TypeRef) (p : Parameter) : Parameter :=
  { p with typeRef := f p.typeRef }

def Field.mapRefs (f : TypeRef → TypeRef) (x : Field) : Field :=
  { x with typeRef := f x.typeRef, key := x.key.map f }

def Method.mapRefs (f : TypeRef → TypeRef) (m : Method) : Method :=
  { m with returns := m.returns.map f, parameters := m.parameters.map (Parameter.mapRef f) }

def Constructor.mapRefs (f : TypeRef → TypeRef) (c : Constructor) : Constructor :=
  { c with parameters := c.parameters.map (Parameter.mapRef f) }

def StructType.mapRefs (fb f : TypeRef → TypeRef) (s : StructType) : StructType :=
  { s with
    base := s.base.map fb
    fields := s.fields.map (Field.mapRefs f)
    methods := s.methods.map (Method.mapRefs f)
    constructors := s.constructors.map (Constructor.mapRefs f) }

def TypeDef.mapRefs (fb f : TypeRef → TypeRef) : TypeDef → TypeDef
  | .struct s inner => .struct (s.mapRefs fb f) inner
  | .enumeration e => .enumeration { e with base := e.base.map fb }
  | .array a => .array { a with elementType := a.elementType.map f }
  | .alias a => .alias { a with actualType := a.actualType.map f }

/-- change every declaration of a model by a function of its handle; types nested deeper than one
level stay -/
def Model.mapTypes (g : TypeId → TypeDef → TypeDef) (m : Model) : Model :=
  let withInner (id : TypeId) (t : TypeDef) : TypeDef :=
    match g id t with
    | .struct s inner => .struct s (inner.mapIdx fun i x => g (id.withInner i) x)
    | t' => t'
  { m with
    types := m.types.mapIdx fun i t => withInner (.topLevel i) t
    packages := m.packages.mapIdx fun p package =>
      { package with types := package.types.mapIdx fun i t => withInner (.packaged p i) t } }

end TypeModel
