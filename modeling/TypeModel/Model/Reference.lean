import TypeModel.Name

/-!
# Handles and references

A declaration is addressed by its position: `TypeId` for a declared type, `BasicId` for a
primitive one.  A reference holds a name as written and a `Binding`: nothing is known of it yet,
it is bound to a handle, or no declaration carries the name.

Handles are ordered by package (types outside packages first), position and inner position
(`TypeId.compare`).  There is room for one inner level: `withInner` on a handle of an inner type
replaces the inner position.

Positions are numbers of 32 bits.  A handle made from other numbers (`TypeId.ofNumbers`,
`BasicId.ofNumbers`) has their low 32 bits.
-/

namespace TypeModel

/-- the position a number stands for: its low 32 bits -/
def positionOf (n : Nat) : Nat := n % UInt32.size

theorem positionOf_of_lt {n : Nat} (h : n < UInt32.size) : positionOf n = n := Nat.mod_eq_of_lt h

/-- position of a declared type: in a package or at top level, and inside a struct or not -/
structure TypeId where
  package : Option Nat := none
  index : Nat
  inner : Option Nat := none
  deriving Repr

/-- positions differ more often than packages, so they are compared first -/
instance : DecidableEq TypeId := fun a b =>
  if hi : a.index = b.index then
    if ho : a.package = b.package ∧ a.inner = b.inner then
      isTrue (by cases a; cases b; simp_all)
    else isFalse (by rintro rfl; exact ho ⟨rfl, rfl⟩)
  else isFalse (by rintro rfl; exact hi rfl)

namespace TypeId

def topLevel (index : Nat) : TypeId := { index }

def packaged (package index : Nat) : TypeId := { package := some package, index }

/-- the handle with the positions that numbers stand for -/
def ofNumbers (package : Option Nat) (index : Nat) (inner : Option Nat) : TypeId :=
  { package := package.map positionOf, index := positionOf index, inner := inner.map positionOf }

def withInner (id : TypeId) (inner : Nat) : TypeId := { id with inner := some inner }

/-- the handle of the struct around an inner type, or the handle itself -/
def outer (id : TypeId) : TypeId := { id with inner := none }

def isInner (id : TypeId) : Bool := id.inner.isSome

/-- neither in a package nor inside a struct -/
def isGlobal (id : TypeId) : Bool := id.package.isNone && id.inner.isNone

/-- `3`, `3.0`, `p0:1`, `p0:1.2` -/
def text (id : TypeId) : String :=
  let position :=
    match id.package with
    | some package => "p" ++ Nat.repr package ++ ":" ++ Nat.repr id.index
    | none => Nat.repr id.index
  match id.inner with
  | some inner => position ++ "." ++ Nat.repr inner
  | none => position

/-- nothing comes before something -/
def compareOption : Option Nat → Option Nat → Ordering
  | none, none => .eq
  | none, some _ => .lt
  | some _, none => .gt
  | some a, some b => Ord.compare a b

def compare (a b : TypeId) : Ordering :=
  (compareOption a.package b.package).then <|
    (Ord.compare a.index b.index).then (compareOption a.inner b.inner)

def le (a b : TypeId) : Bool := a.compare b != .gt

/-- handles with one more, in front of the first that does not come before it -/
def insertSorted (a : TypeId) : List TypeId → List TypeId
  | [] => [a]
  | b :: ids => if a.le b then a :: b :: ids else b :: insertSorted a ids

/-- handles in ascending order -/
def sorted (ids : List TypeId) : List TypeId := ids.foldr insertSorted []

theorem outer_withInner (id : TypeId) (i : Nat) : (id.withInner i).outer = id.outer := rfl

theorem withInner_withInner (id : TypeId) (i j : Nat) :
    (id.withInner i).withInner j = id.withInner j := rfl

end TypeId

/-- position of a primitive type: its group and its place in it -/
structure BasicId where
  group : Nat
  index : Nat
  deriving DecidableEq, Repr

/-- the handle with the positions that numbers stand for -/
def BasicId.ofNumbers (group index : Nat) : BasicId := ⟨positionOf group, positionOf index⟩

def BasicId.text (id : BasicId) : String := Nat.repr id.group ++ ":" ++ Nat.repr id.index

inductive Binding where
  | pending
  | basic (id : BasicId)
  | type (id : TypeId)
  | unresolved
  deriving DecidableEq, Repr

namespace Binding

def isResolved : Binding → Bool
  | .basic _ | .type _ => true
  | .pending | .unresolved => false

def type? : Binding → Option TypeId
  | .type id => some id
  | _ => none

def basic? : Binding → Option BasicId
  | .basic id => some id
  | _ => none

def text : Binding → String
  | .pending => "pending"
  | .unresolved => "unresolved"
  | .basic id => "basic:" ++ id.text
  | .type id => "type:" ++ id.text

end Binding

structure TypeRef where
  name : Name
  bitLength : Option Nat := none
  binding : Binding := .pending
  deriving DecidableEq, Repr

namespace TypeRef

def type? (r : TypeRef) : Option TypeId := r.binding.type?

def basic? (r : TypeRef) : Option BasicId := r.binding.basic?

end TypeRef

end TypeModel
