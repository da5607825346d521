import Mathlib.Data.List.Basic
import TypeModel.Proofs.Analysis.Reported

/-!
# The codes that a check gives

Each check tells of a few kinds of findings, so what is reported under a code comes from the checks
that can give it.

* `Gives codes ds`          every diagnostic of `ds` is under one of `codes`;
* `Visit.codes v`           the codes under which a visit can be reported, and `gives_check` that it
                            is reported under no other;
* `Gives.filter_eq_nil`     nothing is found under other codes.
-/

namespace TypeModel

def Diagnostic.hasCode (codes : List Code) (d : Diagnostic) : Bool := d.code.any codes.contains

def Gives (codes : List Code) (ds : Diagnostics) : Prop := ∀ d ∈ ds, d.hasCode codes = true

section
variable {codes others : List Code} {ds es : Diagnostics} {i : Issue} {l : Location} {c : Bool}

theorem gives_nil : Gives codes [] := fun _ h => absurd h List.not_mem_nil

theorem Gives.append (hd : Gives codes ds) (he : Gives codes es) : Gives codes (ds ++ es) :=
  List.forall_mem_append.mpr ⟨hd, he⟩

theorem gives_singleton (h : codes.contains i.code = true) : Gives codes [i.toDiagnostic l] :=
  List.forall_mem_singleton.mpr h

theorem gives_map {α : Type} {xs : List α} {issue : α → Issue} {place : α → Location}
    (h : ∀ x, codes.contains (issue x).code = true) :
    Gives codes (xs.map fun x => (issue x).toDiagnostic (place x)) :=
  List.forall_mem_map.mpr fun x _ => h x

theorem Diagnostic.hasCode_iff {d : Diagnostic} :
    d.hasCode codes = true ↔ ∃ x ∈ codes, d.code = some x := by
  unfold Diagnostic.hasCode
  cases d.code <;> simp

theorem Gives.mono (h : Gives codes ds) (hsub : ∀ x ∈ codes, x ∈ others) : Gives others ds := by
  intro d hd
  obtain ⟨x, hx, hcode⟩ := Diagnostic.hasCode_iff.mp (h d hd)
  exact Diagnostic.hasCode_iff.mpr ⟨x, hsub x hx, hcode⟩

theorem Gives.filter_eq_nil (h : Gives codes ds) (hapart : ∀ x ∈ codes, x ∉ others) :
    ds.filter (Diagnostic.hasCode others) = [] := by
  rw [List.filter_eq_nil_iff]
  intro d hd hcode
  obtain ⟨x, hx, hcode'⟩ := Diagnostic.hasCode_iff.mp (h d hd)
  obtain ⟨y, hy, hcode⟩ := Diagnostic.hasCode_iff.mp hcode
  rw [hcode'] at hcode
  cases hcode
  exact hapart x hx hy

open Validation

theorem gives_reportIf (h : codes.contains i.code = true) : Gives codes (reportIf c i l) := by
  unfold reportIf
  split
  · exact gives_singleton h
  · exact gives_nil

end

/-! ## one check after another -/

namespace Validation
variable {m : Model} {e : Entry}

theorem gives_checkArraySize (size : Int64) (l : Location) :
    Gives [.invalidArraySize, .largeArraySize] (checkArraySize size l) := by
  unfold checkArraySize
  split
  · exact gives_singleton rfl
  · exact gives_reportIf rfl

theorem gives_checkPrimitive (g : PrimitiveGroup) (i : Nat) (b : BasicType) :
    Gives [.duplicatePrimitive, .largePrimitive, .stringLength, .unusualFloat]
      (checkPrimitive g i b) := by
  unfold checkPrimitive
  dsimp only
  split
  · exact gives_reportIf rfl
  · exact (((gives_reportIf rfl).append (gives_reportIf rfl)).append
      (gives_reportIf rfl)).append (gives_reportIf rfl)

theorem gives_checkPackage (p : Package) :
    Gives [.emptyPackageName, .packageNaming] (checkPackage p) := by
  unfold checkPackage
  dsimp only
  split
  · exact gives_singleton rfl
  · exact gives_reportIf rfl

theorem gives_checkScope (s : Scope) (types : List TypeDef) :
    Gives [.duplicateType] (checkScope s types) := gives_map fun _ => rfl

theorem gives_checkTypeName (e : Entry) : Gives [.typeNaming, .longName] (checkTypeName e) :=
  (gives_reportIf rfl).append (gives_reportIf rfl)

theorem gives_checkFieldNames (m : Model) (e : Entry) (s : StructType) :
    Gives [.duplicateField] (checkFieldNames m e s) := by
  refine (gives_map fun _ => rfl).append ?_
  intro d hd
  obtain ⟨⟨f, base⟩, _, rfl⟩ := List.mem_map.mp hd
  rfl

theorem gives_checkField (m : Model) (e : Entry) (f : Field) :
    Gives [.fieldNaming, .longName, .invalidArraySize, .largeArraySize, .invalidMapKey]
      (checkField m e f) := by
  refine (((gives_reportIf rfl).append (gives_reportIf rfl)).append ?_).append ?_
  · split
    · exact (gives_checkArraySize _ _).mono (by decide)
    · exact gives_nil
  · split
    · exact gives_reportIf rfl
    · exact gives_nil

theorem gives_checkMethod (e : Entry) (x : Method) :
    Gives [.conflictingModifiers, .overrideWithoutBase] (checkMethod e x) :=
  (gives_reportIf rfl).append (gives_reportIf rfl)

theorem gives_checkRepeated (e : Entry) (xs : List Enumerator) :
    ∀ earlier : List Enumerator,
      Gives [.duplicateEnumerator, .duplicateValue] (checkRepeated e earlier xs) := by
  induction xs with
  | nil => exact fun _ => gives_nil
  | cons x xs ih =>
    intro earlier
    refine ((gives_reportIf rfl).append ?_).append (ih (earlier ++ [x]))
    split
    · split
      · exact gives_singleton rfl
      · exact gives_nil
    · exact gives_nil

theorem gives_checkEnumerator (e : Entry) (x : Enumerator) :
    Gives [.enumeratorNaming, .longName, .valueOutOfRange] (checkEnumerator e x) := by
  refine ((gives_reportIf rfl).append (gives_reportIf rfl)).append ?_
  split
  · exact gives_reportIf rfl
  · exact gives_nil

theorem gives_checkReference (m : Model) (r : TypeRef) (l : Location) :
    Gives [.invalidBitLength, .bitLengthOnDeclared] (checkReference m r l) := by
  unfold checkReference
  split
  · exact gives_nil
  · split
    · exact gives_singleton rfl
    · split
      · exact gives_singleton rfl
      · exact gives_singleton rfl
      · exact gives_nil

theorem gives_reportCycle (m : Model) (e : Entry) (kind : CycleKind)
    (step : TypeId → Option TypeId) :
    Gives [.structCycle, .enumerationCycle, .expansionCycle] (reportCycle m e kind step) := by
  unfold reportCycle
  split
  · exact gives_nil
  · cases kind <;> exact gives_reportIf rfl

theorem gives_reportExpansion (m : Model) (e : Entry) :
    Gives [.invalidArraySize, .largeArraySize, .structCycle, .enumerationCycle, .expansionCycle]
      (reportExpansion m e) := by
  refine Gives.append ?_ ((gives_reportCycle m e _ _).mono (by decide))
  split
  · exact (gives_checkArraySize _ _).mono (by decide)
  · exact gives_nil

/-- the codes of the checks made of a declaration as a whole -/
def entryCodes : List Code :=
  [.typeNaming, .longName, .duplicateField, .structCycle, .enumerationCycle, .expansionCycle,
    .duplicateEnumerator, .duplicateValue, .missingZero, .missingElementType, .missingActualType]

theorem gives_reportEntry (m : Model) (e : Entry) : Gives entryCodes (reportEntry m e) := by
  have hcycle : ∀ kind, Gives entryCodes (reportCycle m e kind m.baseOf) :=
    fun kind => (gives_reportCycle m e kind m.baseOf).mono (by decide)
  refine ((gives_checkTypeName e).mono (by decide)).append ?_
  split
  · exact ((gives_checkFieldNames m e _).mono (by decide)).append (hcycle _)
  · exact (((gives_checkRepeated e _ []).mono (by decide)).append (gives_reportIf rfl)).append
      (hcycle _)
  · exact gives_reportIf rfl
  · exact gives_reportIf rfl

end Validation

/-! ## visits -/

def Visit.codes : Visit → List Code
  | .primitive _ _ _ => [.duplicatePrimitive, .largePrimitive, .stringLength, .unusualFloat]
  | .package _ => [.emptyPackageName, .packageNaming]
  | .scope _ _ => [.duplicateType]
  | .entry _ => Validation.entryCodes
  | .field _ _ => [.fieldNaming, .longName, .invalidArraySize, .largeArraySize, .invalidMapKey]
  | .method _ _ => [.conflictingModifiers, .overrideWithoutBase]
  | .enumerator _ _ => [.enumeratorNaming, .longName, .valueOutOfRange]
  | .reference _ _ _ => [.invalidBitLength, .bitLengthOnDeclared]
  | .expansion _ =>
    [.invalidArraySize, .largeArraySize, .structCycle, .enumerationCycle, .expansionCycle]

open Validation in
theorem gives_check (m : Model) (v : Visit) : Gives v.codes (v.report m) := by
  cases v with
  | primitive g i b => exact gives_checkPrimitive g i b
  | package p => exact gives_checkPackage p
  | scope s types => exact gives_checkScope s types
  | entry e => exact gives_reportEntry m e
  | field e f => exact gives_checkField m e f
  | method e x => exact gives_checkMethod e x
  | enumerator e x => exact gives_checkEnumerator e x
  | reference e r l => exact gives_checkReference m r l
  | expansion e => exact gives_reportExpansion m e

end TypeModel
