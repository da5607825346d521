import TypeModel.Analysis.Namespace
import TypeModel.Model.Site

/-!
# Resolution

`Model.resolve` binds every reference of a model by name and reports the names that are unknown
or ambiguous.  It is one pass over the declarations, `Namespace.pass`: the top-level types by their
positions, then those of each package, and behind each struct the types inside it.  A declaration
is put back with its references bound, in the order base, fields, methods, constructors, and what
there is to report about a reference is emitted where it is bound.

What a reference is bound to depends on its name and on the declarations of the model, never on an
earlier binding.  Types nested deeper than one level are left as they are.
-/

namespace TypeModel

/-- the declarations that a pass has come to, in order, and what it has reported -/
structure Pass where
  visited : List Entry := []
  diagnostics : Diagnostics := []

namespace Pass

def comeTo (e : Entry) : StateM Pass Unit := modify fun p => { p with visited := p.visited ++ [e] }

def emit (location : Location) (issue : Option Issue) : StateM Pass Unit :=
  modify fun p =>
    { p with diagnostics := p.diagnostics ++ (issue.map (·.toDiagnostic location)).toList }

end Pass

/-- a step for each element of a list, from position `i` on -/
def forEachFrom {α β : Type} (step : Nat → α → StateM Pass β) (i : Nat) :
    List α → StateM Pass (List β)
  | [] => return []
  | x :: xs => do
    let y ← step i x
    let ys ← forEachFrom step (i + 1) xs
    return y :: ys

namespace Namespace

/-! ## references -/

/-- bind a reference that is no base -/
def visitRef (ns : Namespace) (location : Location) (r : TypeRef) : StateM Pass TypeRef := do
  let (binding, issue) := ns.resolve r.name
  Pass.emit location issue
  return { r with binding := binding }

/-- bind the base of the declaration `referrer` -/
def visitBase (ns : Namespace) (kind : TypeKind) (referrer : TypeId) (location : Location)
    (r : TypeRef) : StateM Pass TypeRef := do
  let (binding, issue) := ns.resolveBase r.name kind referrer
  Pass.emit location issue
  return { r with binding := binding }

/-! ## members; their places are inside that of the declaration -/

def visitField (ns : Namespace) (location : Location) (f : Field) : StateM Pass Field := do
  let place := (location.child f.name).withLine f.line
  let typeRef ← ns.visitRef place f.typeRef
  let key ← f.key.mapM (ns.visitRef place)
  return { f with typeRef := typeRef, key := key }

def visitParameter (ns : Namespace) (place : Location) (p : Parameter) : StateM Pass Parameter := do
  let typeRef ← ns.visitRef place p.typeRef
  return { p with typeRef := typeRef }

def visitMethod (ns : Namespace) (location : Location) (x : Method) : StateM Pass Method := do
  let place := (location.child x.name).withLine x.line
  let returns ← x.returns.mapM (ns.visitRef place)
  let parameters ← x.parameters.mapM (ns.visitParameter place)
  return { x with returns := returns, parameters := parameters }

/-- constructors bear the name of their struct -/
def visitConstructor (ns : Namespace) (location : Location) (owner : Name) (c : Constructor) :
    StateM Pass Constructor := do
  let place := (location.child owner).withLine c.line
  let parameters ← c.parameters.mapM (ns.visitParameter place)
  return { c with parameters := parameters }

/-! ## declarations -/

def visitStruct (ns : Namespace) (id : TypeId) (location : Location) (s : StructType) :
    StateM Pass StructType := do
  let base ← s.base.mapM (ns.visitBase .struct id location)
  let fields ← s.fields.mapM (ns.visitField location)
  let methods ← s.methods.mapM (ns.visitMethod location)
  let constructors ← s.constructors.mapM (ns.visitConstructor location s.name)
  return { s with
    base := base, fields := fields, methods := methods, constructors := constructors }

/-- bind the references of a declaration, those of the types inside it apart -/
def visit (ns : Namespace) (e : Entry) (location : Location) : StateM Pass TypeDef := do
  Pass.comeTo e
  match e.type with
  | .struct s inner => do
    let bound ← ns.visitStruct e.id location s
    return .struct bound inner
  | .enumeration x => do
    let base ← x.base.mapM (ns.visitBase .enumeration e.id location)
    return .enumeration { x with base := base }
  | .array a => do
    let elementType ← a.elementType.mapM (ns.visitRef location)
    return .array { a with elementType := elementType }
  | .alias a => do
    let actualType ← a.actualType.mapM (ns.visitRef location)
    return .alias { a with actualType := actualType }

/-- bind a declaration outside structs, then the types inside it by their positions -/
def visitWithInner (ns : Namespace) (e : Entry) (location : Location) : StateM Pass TypeDef := do
  match e.type, ← ns.visit e location with
  | .struct s inner, .struct bound _ => do
    let types ← forEachFrom
      (fun i x => ns.visit (e.innerEntry s i x) ((location.child x.name).withLine x.line)) 0 inner
    return .struct bound types
  | _, t => return t

def visitTopLevel (ns : Namespace) (i : Nat) (t : TypeDef) : StateM Pass TypeDef :=
  ns.visitWithInner (Model.topLevelEntry i t) { path := t.name, line := t.line }

def visitPackaged (ns : Namespace) (p : Nat) (package : Package) (i : Nat) (t : TypeDef) :
    StateM Pass TypeDef :=
  ns.visitWithInner (Model.packagedEntry p package i t)
    { path := package.name.qualify t.name, line := t.line }

def visitPackage (ns : Namespace) (p : Nat) (package : Package) : StateM Pass Package := do
  let types ← forEachFrom (ns.visitPackaged p package) 0 package.types
  return { package with types := types }

/-- bind the top-level types by their positions, then those of each package -/
def pass (ns : Namespace) (m : Model) : StateM Pass Model := do
  let types ← forEachFrom ns.visitTopLevel 0 m.types
  let packages ← forEachFrom ns.visitPackage 0 m.packages
  return { m with types := types, packages := packages }

end Namespace

structure Resolution where
  model : Model
  diagnostics : Diagnostics

namespace Model

def resolve (m : Model) : Resolution :=
  let r := ((Namespace.ofModel m).pass m).run {}
  { model := r.1, diagnostics := r.2.diagnostics }

/-- inner structs with types inside them, which resolution leaves alone -/
def deeplyNested (m : Model) : List Name :=
  (m.walk.filter fun e => e.id.isInner && !e.type.innerTypes.isEmpty).map (·.name)

/-- every reference of the listed types with the handle of its declaration -/
def referenceSites (m : Model) : List (TypeId × Site) :=
  m.allTypes.flatMap fun e => e.sites.map (e.id, ·)

end Model

end TypeModel
