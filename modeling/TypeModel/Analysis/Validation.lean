import TypeModel.Analysis.Issue
import TypeModel.Analysis.Resolution
import TypeModel.Analysis.Visit
import TypeModel.Model.Chain

/-!
# Validation

`Model.validate` goes through the visits of a resolved model and reports what breaks a rule:

* names of types in one scope, primitive types in one group, fields (inherited ones included)
  and enumerators have to be different;
* base chains and expansions of arrays and aliases must not run in a circle; each member of a
  circle looks for it, and the circle is told by its members in ascending order, which are kept once
  it is reported;
* sizes, lengths and values have to be in range;
* arrays and aliases need a type, map keys an integer, boolean or text primitive;
* modifiers must not contradict each other;
* names should follow conventions.

`Model.analyze` resolves and validates, and fails when there is an error.
-/

namespace TypeModel

namespace Validation

/-- the elements whose key is among `seen` or stands further in front -/
def repeatsBy {α β : Type} [BEq β] (key : α → β) (seen : List β) : List α → List α
  | [] => []
  | x :: xs =>
    if seen.contains (key x) then x :: repeatsBy key seen xs
    else repeatsBy key (key x :: seen) xs

/-- the elements whose key is not among `seen` and stands nowhere in front -/
def firstsBy {α β : Type} [BEq β] (key : α → β) (seen : List β) : List α → List α
  | [] => []
  | x :: xs =>
    if seen.contains (key x) then firstsBy key seen xs
    else x :: firstsBy key (key x :: seen) xs

/-- a one-element list if a condition holds -/
def reportIf (condition : Bool) (issue : Issue) (location : Location) : Diagnostics :=
  if condition then [issue.toDiagnostic location] else []

def checkNameLength (what : Named) (name : Name) (location : Location) : Diagnostics :=
  reportIf (name.chars > Convention.maxNameLength) (.longName what name) location

def checkArraySize (size : Int64) (location : Location) : Diagnostics :=
  if size ≤ 0 then [(Issue.arraySizeNotPositive size).toDiagnostic location]
  else reportIf (size > maxArraySize) (.arraySizeLarge size) location

def checkPrimitive (group : PrimitiveGroup) (i : Nat) (b : BasicType) : Diagnostics :=
  let place : Location := { path := group.name.qualify b.name, line := b.line }
  let duplicate :=
    reportIf ((group.dataTypes.take i).any (·.name == b.name))
      (.duplicatePrimitive b.name group.name) { path := group.name, line := b.line }
  match b.bitLength with
  | none => duplicate
  | some length =>
    duplicate ++
      reportIf (length > maxPrimitiveLength) (.largePrimitive b.name length) place ++
      reportIf (b.category = .string) (.stringLength b.name length) place ++
      reportIf (b.encoding = .ieee754 && length != 32 && length != 64)
        (.unusualFloat b.name length) place

def checkPackage (p : Package) : Diagnostics :=
  let location : Location := { path := p.name, line := p.line }
  if p.name.isEmpty then [Issue.emptyPackageName.toDiagnostic location]
  else reportIf (!Convention.isPackageName p.name) (.packageNaming p.name) location

def checkScope (s : Scope) (types : List TypeDef) : Diagnostics :=
  (repeatsBy TypeDef.name [] types).map fun t =>
    (Issue.duplicateType t.name s.text).toDiagnostic
      { path := s.qualify t.name, line := t.line }

def checkTypeName (e : Entry) : Diagnostics :=
  reportIf (!Convention.isTypeName e.name) (.typeNaming e.name) e.location ++
    checkNameLength .type e.name e.location

/-! ## chains -/

/-- the members of the cycles that were reported, each in ascending order -/
abbrev Reported := List (List TypeId)

/-- report the cycle through an entry, unless one with the same members was reported -/
def checkCycle (m : Model) (e : Entry) (kind : CycleKind) (step : TypeId → Option TypeId) :
    StateM Reported Diagnostics := do
  match m.cycleFrom? step e.id with
  | none => return []
  | some members =>
    let reported ← get
    if reported.contains (TypeId.sorted members) then return []
    set (TypeId.sorted members :: reported)
    let path := (members ++ [e.id]).filterMap fun id => (m.type? id).map TypeDef.name
    return [(Issue.cycle kind path).toDiagnostic e.location]

/-! ## structs -/

/-- fields with the name of a field in `bases` (nearest first), with the nearest struct that has
such a field; a name among `reported` is left out and a name is listed once -/
def inheritedFields (s : StructType) (reported : List Name) :
    List StructType → List (Field × StructType)
  | [] => []
  | base :: bases =>
    let hits := firstsBy Field.name reported <|
      s.fields.filter fun f => base.fields.any (·.name == f.name)
    hits.map (·, base) ++ inheritedFields s (hits.map Field.name ++ reported) bases

def checkFieldNames (m : Model) (e : Entry) (s : StructType) : Diagnostics :=
  ((repeatsBy Field.name [] s.fields).map fun f =>
    (Issue.duplicateField f.name s.name).toDiagnostic (e.memberLocation f.name f.line)) ++
  (inheritedFields s [] (m.baseStructs e.id)).map fun (f, base) =>
    (Issue.inheritedField f.name s.name base.name).toDiagnostic (e.memberLocation f.name f.line)

/-- follow aliases from a map key: whether the type reached may be a key, `none` if no type is
reached -/
def mapKeyVerdict (m : Model) : (fuel : Nat) → (passed : List TypeId) → TypeRef → Option Bool
  | 0, _, _ => none
  | fuel + 1, passed, r =>
    match r.binding with
    | .basic id =>
      match m.basic? id with
      | some b => some !b.kind.isFloat
      | none => some false
    | .type id =>
      if id ∈ passed then none
      else
        match m.type? id with
        | some (.alias a) => a.actualType.bind (mapKeyVerdict m fuel (id :: passed))
        | some _ => some false
        | none => none
    | .pending | .unresolved => none

/-- no declaration is passed twice, so the number of declarations bounds the aliases followed -/
def mapKeyAllowed (m : Model) (key : TypeRef) : Bool :=
  (mapKeyVerdict m (m.allTypes.length + 2) [] key).getD true

def checkField (m : Model) (e : Entry) (f : Field) : Diagnostics :=
  let location := e.memberLocation f.name f.line
  reportIf (!Convention.isFieldName f.name) (.fieldNaming f.name) location ++
    checkNameLength .field f.name location ++
    (match f.arraySize with
      | some size => checkArraySize size location
      | none => []) ++
    (match f.key with
      | some key => reportIf (!mapKeyAllowed m key) (.invalidMapKey key.name) location
      | none => [])

/-- modifiers that a static method cannot have, as they are named in reports -/
def staticConflicts (m : Method) : List String :=
  ([(Modifier.virtual, "virtual"), (.const, "const"), (.override, "override"),
    (.pureVirtual, "pure virtual")].filter fun x => m.has x.1).map (·.2)

def checkMethod (e : Entry) (m : Method) : Diagnostics :=
  let location := e.memberLocation m.name m.line
  let conflicts := staticConflicts m
  reportIf (m.has .static && !conflicts.isEmpty) (.conflictingModifiers m.name conflicts)
    location ++
  reportIf (m.has .override && e.type.base?.isNone) (.overrideWithoutBase m.name e.name) location

/-! ## enumerations -/

/-- names and explicit values that an enumerator shares with an earlier one -/
def checkRepeated (e : Entry) : (earlier : List Enumerator) → List Enumerator → Diagnostics
  | _, [] => []
  | earlier, x :: xs =>
    let location := e.memberLocation x.name x.line
    let sameName :=
      reportIf (earlier.any (·.name == x.name)) (.duplicateEnumerator x.name e.name) location
    let sameValue :=
      match x.explicitInteger? with
      | some value =>
        match earlier.find? (·.explicitInteger? == some value) with
        | some first => [(Issue.duplicateValue x.name value first.name).toDiagnostic location]
        | none => []
      | none => []
    sameName ++ sameValue ++ checkRepeated e (earlier ++ [x]) xs

/-- the enumeration or one that it extends has an enumerator with value zero -/
def hasZeroEnumerator (m : Model) (id : TypeId) (x : EnumerationType) : Bool :=
  x.hasZero || (m.baseEnumerations id).any EnumerationType.hasZero

def checkEnumerator (e : Entry) (x : Enumerator) : Diagnostics :=
  let location := e.memberLocation x.name x.line
  reportIf (!Convention.isEnumeratorName x.name) (.enumeratorNaming x.name) location ++
    checkNameLength .enumerator x.name location ++
    match x.explicitInteger? with
    | some value =>
      reportIf (value < 0 || value > maxEnumeratorValue) (.valueOutOfRange x.name value) location
    | none => []

/-! ## all declarations -/

def checkEntry (m : Model) (e : Entry) : StateM Reported Diagnostics := do
  match e.type with
  | .struct s _ => do
    let cycle ← checkCycle m e .struct m.baseOf
    return checkTypeName e ++ checkFieldNames m e s ++ cycle
  | .enumeration x => do
    let cycle ← checkCycle m e .enumeration m.baseOf
    return checkTypeName e ++ checkRepeated e [] x.enumerators ++
      reportIf (!hasZeroEnumerator m e.id x) (.missingZero x.name) e.location ++ cycle
  | .array a =>
    return checkTypeName e ++
      reportIf a.elementType.isNone (.missingElementType a.name) e.location
  | .alias a =>
    return checkTypeName e ++ reportIf a.actualType.isNone (.missingActualType a.name) e.location

def checkReference (m : Model) (r : TypeRef) (location : Location) : Diagnostics :=
  match r.bitLength with
  | none => []
  | some bits =>
    if bits = 0 ∨ bits > maxBitLength then
      [(Issue.bitLengthInvalid bits r.name).toDiagnostic location]
    else
      match (r.type?.bind m.type?).map TypeDef.kind with
      | some .struct => [(Issue.bitLengthOnDeclared .struct r.name).toDiagnostic location]
      | some .enumeration =>
        [(Issue.bitLengthOnDeclared .enumeration r.name).toDiagnostic location]
      | _ => []

def checkExpansion (m : Model) (e : Entry) : StateM Reported Diagnostics := do
  let size :=
    match e.type with
    | .array { size := some size, .. } => checkArraySize size e.location
    | _ => []
  let cycle ← checkCycle m e .expansion m.expansionOf
  return size ++ cycle

end Validation

open Validation in
/-- report what there is to report about a visit -/
def Visit.check (m : Model) : Visit → StateM Reported Diagnostics
  | .primitive g i b => return checkPrimitive g i b
  | .package p => return checkPackage p
  | .scope s types => return checkScope s types
  | .entry e => checkEntry m e
  | .field e f => return checkField m e f
  | .method e x => return checkMethod e x
  | .enumerator e x => return checkEnumerator e x
  | .reference _ r location => return checkReference m r location
  | .expansion e => checkExpansion m e

namespace Model

def validate (m : Model) : Diagnostics := ((m.visits.mapM (Visit.check m)).run []).1.flatten

/-- the resolved model, with all diagnostics as a failure if one of them is an error -/
def analyze (m : Model) : Model × Except Diagnostics Diagnostics :=
  let r := m.resolve
  (r.model, Diagnostics.finish (r.diagnostics ++ r.model.validate))

end Model

end TypeModel
