import TypeModel.Model.Basic
import TypeModel.Analysis.Issue
import TypeModel.NameTable

/-!
# Namespaces and lookup

A model is gone through once, and its types are entered into three tables, which are asked in this
order:

1. primitive types, by name;
2. top-level types, by name;
3. packaged types and then inner types, by simple name, by `Outer.Inner` for inner types, and by
   qualified name.

A name in the first two tables belongs to the first type that was entered under it (`orInsert`).
In the third every type that was entered stands once, whichever of its names are equal
(`register`), and the first one is taken: where there are several, the choice is reported as
ambiguous.

A base is looked up among declarations of one kind other than the declaration itself
(`resolveBase`); a top-level declaration is again preferred without a report, and primitive types
are no bases.
-/

namespace TypeModel

/-- a declaration as something to be found by name -/
structure Candidate where
  id : TypeId
  kind : TypeKind
  qualified : Name
  deriving DecidableEq, Repr

def Candidate.isGlobal (c : Candidate) : Bool := c.id.isGlobal

/-- the candidates of a name with one more, unless it is among them -/
def Candidate.enlist (c : Candidate) (cs : List Candidate) : List Candidate :=
  if cs.any (·.id = c.id) then cs else cs ++ [c]

def Entry.candidate (e : Entry) : Candidate :=
  { id := e.id, kind := e.type.kind, qualified := e.qualifiedName }

structure Namespace where
  primitives : NameTable BasicId := {}
  globals : NameTable Candidate := {}
  declared : NameTable (List Candidate) := {}
  deriving Repr

namespace Namespace

def addPrimitive (ns : Namespace) (p : BasicId × BasicType) : Namespace :=
  { ns with primitives := ns.primitives.orInsert p.2.name p.1 }

def register (ns : Namespace) (n : Name) (c : Candidate) : Namespace :=
  { ns with declared := ns.declared.alter n [] c.enlist }

/-- enter a packaged or inner declaration under all its names -/
def registerAll (ns : Namespace) (e : Entry) : Namespace :=
  let simple := ns.register e.name e.candidate
  let dotted :=
    match e.outer with
    | some outer => simple.register (outer.name.qualify e.name) e.candidate
    | none => simple
  dotted.register e.candidate.qualified e.candidate

def add (ns : Namespace) (e : Entry) : Namespace :=
  if e.candidate.isGlobal then { ns with globals := ns.globals.orInsert e.name e.candidate }
  else ns.registerAll e

def ofModel (m : Model) : Namespace := m.allTypes.foldl add (m.basicTypes.foldl addPrimitive {})

def basic? (ns : Namespace) (n : Name) : Option BasicId := ns.primitives.get? n

def global? (ns : Namespace) (n : Name) : Option Candidate := ns.globals.get? n

/-- the packaged and inner declarations that carry a name -/
def carriers (ns : Namespace) (n : Name) : List Candidate := (ns.declared.get? n).getD []

/-- the report of a choice among several candidates -/
def ambiguity (n : Name) (chosen : Candidate) (candidates : List Candidate) : Issue :=
  .ambiguous n chosen.qualified (candidates.map (·.qualified))
    ((candidates.find? (·.id ≠ chosen.id)).map (·.qualified))

/-- the binding of a reference that is no base, and what there is to report about it -/
def resolve (ns : Namespace) (n : Name) : Binding × Option Issue :=
  match ns.basic? n, ns.global? n, ns.carriers n with
  | some b, _, _ => (.basic b, none)
  | none, some c, _ => (.type c.id, none)
  | none, none, [] => (.unresolved, some (.undefinedType n))
  | none, none, [c] => (.type c.id, none)
  | none, none, c :: cs => (.type c.id, some (ambiguity n c (c :: cs)))

/-- every declaration that carries a name, the top-level one first -/
def allCarriers (ns : Namespace) (n : Name) : List Candidate :=
  (ns.global? n).toList ++ ns.carriers n

/-- why no declaration among `all` can be the base -/
def noBase (ns : Namespace) (n : Name) (kind : TypeKind) (referrer : TypeId)
    (all : List Candidate) : Issue :=
  if all.length = 1 ∧ all.any (·.id = referrer) then .baseIsSelf n kind
  else
    match all.find? (·.id ≠ referrer) with
    | some other => .baseOfOtherKind n other.kind kind
    | none => if (ns.basic? n).isSome then .baseIsPrimitive n kind else .undefinedBase n

/-- the binding of the base of the declaration `referrer`, and what there is to report about
it -/
def resolveBase (ns : Namespace) (n : Name) (kind : TypeKind) (referrer : TypeId) :
    Binding × Option Issue :=
  let all := ns.allCarriers n
  match all.filter fun c => c.kind = kind ∧ c.id ≠ referrer with
  | [] => (.unresolved, some (ns.noBase n kind referrer all))
  | [c] => (.type c.id, none)
  | c :: cs =>
    if c.isGlobal then (.type c.id, none) else (.type c.id, some (ambiguity n c (c :: cs)))

end Namespace

end TypeModel
