import TypeModel.Model.Basic

/-!
# Editing models

Edits add, remove and exchange declarations by position.  References keep the bindings they have,
so handles may go stale until the model is resolved again.
-/

namespace TypeModel

/-- a list of types in a model: top-level or of a package, or inside a struct of that list -/
structure Container where
  package : Option Nat := none
  innerOf : Option Nat := none
  deriving DecidableEq, Repr

inductive Edit where
  | rename (name : Option String)
  | pushType (c : Container) (t : TypeDef)
  | insertType (c : Container) (index : Nat) (t : TypeDef)
  | removeType (c : Container) (index : Nat)
  | swapTypes (c : Container) (index other : Nat)
  | pushPackage (p : Package)
  | removePackage (index : Nat)
  | pushGroup (g : PrimitiveGroup)
  | removeGroup (index : Nat)

/-- which position does not exist -/
inductive EditError where
  | package
  | innerOf
  | index
  deriving DecidableEq, Repr

def EditError.text : EditError → String
  | .package => "package"
  | .innerOf => "inner_of"
  | .index => "index"

/-- a list without the element at a position -/
def removeAt {α : Type} (i : Nat) (xs : List α) : Except EditError (List α) :=
  if i < xs.length then .ok (xs.eraseIdx i) else .error .index

def insertAt {α : Type} (i : Nat) (x : α) (xs : List α) : Except EditError (List α) :=
  if i ≤ xs.length then .ok (xs.insertIdx i x) else .error .index

def swapAt {α : Type} (i j : Nat) (xs : List α) : Except EditError (List α) :=
  match xs[i]?, xs[j]? with
  | some x, some y => .ok ((xs.set i y).set j x)
  | _, _ => .error .index

abbrev ListEdit := List TypeDef → Except EditError (List TypeDef)

/-- edit the types inside the struct at a position, or the list itself -/
def editWithin (innerOf : Option Nat) (f : ListEdit) : ListEdit := fun ts =>
  match innerOf with
  | none => f ts
  | some i =>
    match ts[i]? with
    | some (.struct s inner) => return ts.set i (.struct s (← f inner))
    | _ => .error .innerOf

namespace Model

def editTypes (m : Model) (c : Container) (f : ListEdit) : Except EditError Model :=
  match c.package with
  | none => return { m with types := ← editWithin c.innerOf f m.types }
  | some p =>
    match m.packages[p]? with
    | none => .error .package
    | some package => do
      let types ← editWithin c.innerOf f package.types
      return { m with packages := m.packages.set p { package with types } }

def apply (m : Model) : Edit → Except EditError Model
  | .rename name => return { m with name }
  | .pushType c t => m.editTypes c fun ts => return ts ++ [t]
  | .insertType c i t => m.editTypes c (insertAt i t)
  | .removeType c i => m.editTypes c (removeAt i)
  | .swapTypes c i j => m.editTypes c (swapAt i j)
  | .pushPackage p => return { m with packages := m.packages ++ [p] }
  | .removePackage i => return { m with packages := ← removeAt i m.packages }
  | .pushGroup g => return { m with primitives := m.primitives ++ [g] }
  | .removeGroup i => return { m with primitives := ← removeAt i m.primitives }

end Model

end TypeModel
