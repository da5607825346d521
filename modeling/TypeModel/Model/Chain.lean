import TypeModel.Model.Basic

/-!
# Chains of declarations

Extending and expanding are steps from a declaration to at most one other.  `trailFrom` follows
such a step and stops where it ends or comes back to a handle already passed.

* `Model.baseOf`, `Model.baseChain`   the declaration a declaration extends, and all it extends;
* `Model.expansionOf`                 the declared type an array or alias stands for;
* `Model.cycleFrom? step id`          the members of the cycle through `id`, starting with `id`.

A step leaves the declarations of the model at most once, and a trail never passes a handle
twice, so it has at most one member more than there are declarations: that bound is the number
of steps `trailFrom` is given.
-/

namespace TypeModel

/-- follow `step` from the newest member of `passed` (newest first) for at most `fuel` steps, and
list the members that were not passed before -/
def trailFrom {α : Type} [DecidableEq α] (step : α → Option α) :
    Nat → (passed : List α) → Option α → List α
  | 0, _, _ => []
  | _ + 1, _, none => []
  | fuel + 1, passed, some next =>
    if next ∈ passed then [] else next :: trailFrom step fuel (next :: passed) (step next)

namespace Model

def baseOf (m : Model) (id : TypeId) : Option TypeId :=
  ((m.type? id).bind TypeDef.base?).bind TypeRef.type?

def expansionOf (m : Model) (id : TypeId) : Option TypeId :=
  ((m.type? id).bind TypeDef.expands?).bind TypeRef.type?

/-- what `step` reaches from `id`, without `id` -/
def chain (m : Model) (step : TypeId → Option TypeId) (id : TypeId) : List TypeId :=
  trailFrom step (m.allTypes.length + 1) [id] (step id)

def baseChain (m : Model) (id : TypeId) : List TypeId := m.chain m.baseOf id

def cycleFrom? (m : Model) (step : TypeId → Option TypeId) (id : TypeId) :
    Option (List TypeId) :=
  let trail := id :: m.chain step id
  if (trail.getLast?.bind step) = some id then some trail else none

/-- the structs a struct extends, nearest first -/
def baseStructs (m : Model) (id : TypeId) : List StructType :=
  (m.baseChain id).filterMap fun b => (m.type? b).bind TypeDef.struct?

/-- the enumerations an enumeration extends, nearest first -/
def baseEnumerations (m : Model) (id : TypeId) : List EnumerationType :=
  (m.baseChain id).filterMap fun b => (m.type? b).bind TypeDef.enumeration?

/-- instance fields of the extended structs, farthest first, and then those of the struct -/
def flattenedFields (m : Model) (id : TypeId) (s : StructType) : List Field :=
  (m.baseStructs id).reverse.flatMap StructType.instanceFields ++ s.instanceFields

/-- the enumerators of the extended enumerations, farthest first, and then those of the
enumeration, numbered in one run -/
def foldedEnumerators (m : Model) (id : TypeId) (e : EnumerationType) : List (Name × Int64) :=
  numberFrom 0 ((m.baseEnumerations id).reverse.flatMap (·.enumerators) ++ e.enumerators)

end Model

end TypeModel
