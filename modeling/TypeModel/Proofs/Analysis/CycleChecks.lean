import TypeModel.Proofs.Analysis.Codes
import TypeModel.Proofs.Analysis.Visits
import TypeModel.Proofs.Model.Sites

/-!
# The checks that tell of cycles and missing zeros

Of all that is checked on the way through a model, only the checks that follow a chain can tell of
a cycle, and each declaration has one of them.  The check for a zero is made for enumerations only.

* `watchedCodes`               the codes of these checks, which no other check gives;
* `filter_check_entry`         what the checks of one declaration and its members tell of cycles
                               and zeros;
* `filter_validate_watched`    the same among all diagnostics;
* `filter_check_visits`, `filter_validate`   the reports of cycles only.
-/

namespace TypeModel

/-! ## diagnostics about cycles and zeros -/

def baseCycleCodes : List Code := [.structCycle, .enumerationCycle]

def cycleCodes : List Code := .expansionCycle :: baseCycleCodes

/-- the codes whose reports are singled out here -/
def watchedCodes : List Code := .missingZero :: cycleCodes

/-! ## reports among all diagnostics -/

section
open Validation
variable {m : Model} {codes : List Code}

theorem filter_of_gives (hcodes : ∀ c ∈ codes, c ∈ watchedCodes) {given : List Code}
    {ds : Diagnostics} (h : Gives given ds) (hapart : ∀ c ∈ given, c ∉ watchedCodes) :
    ds.filter (Diagnostic.hasCode codes) = [] :=
  h.filter_eq_nil fun c hc hmem => hapart c hc (hcodes c hmem)

theorem filter_of_isMember (hcodes : ∀ c ∈ codes, c ∈ watchedCodes) {v : Visit}
    (h : v.isMember = true) : (v.report m).filter (Diagnostic.hasCode codes) = [] := by
  cases v with
  | field e f => exact filter_of_gives hcodes (gives_checkField m e f) (by decide)
  | method e x => exact filter_of_gives hcodes (gives_checkMethod e x) (by decide)
  | enumerator e x => exact filter_of_gives hcodes (gives_checkEnumerator e x) (by decide)
  | reference e r l => exact filter_of_gives hcodes (gives_checkReference m r l) (by decide)
  | primitive g i b => cases h
  | package p => cases h
  | scope s types => cases h
  | entry e => cases h
  | expansion e => cases h

theorem filter_reportExpansion (hcodes : ∀ c ∈ codes, c ∈ watchedCodes) (e : Entry) :
    (reportExpansion m e).filter (Diagnostic.hasCode codes) =
      (reportCycle m e .expansion m.expansionOf).filter (Diagnostic.hasCode codes) := by
  unfold reportExpansion
  rw [List.filter_append]
  split
  · rw [filter_of_gives hcodes (gives_checkArraySize _ _) (by decide), List.nil_append]
  · rfl

/-- what is reported about an enumeration without a zero -/
def Entry.zeroReport (m : Model) (e : Entry) : Diagnostics :=
  match e.type with
  | .enumeration x => reportIf (!hasZeroEnumerator m e.id x) (.missingZero x.name) e.location
  | .struct _ _ | .array _ | .alias _ => []

/-- of the checks of a declaration and its members, one looks for a zero and one follows its
chain -/
theorem filter_check_entry (hcodes : ∀ c ∈ codes, c ∈ watchedCodes) (e : Entry) :
    (e.visits.flatMap (Visit.report m)).filter (Diagnostic.hasCode codes) =
      (e.zeroReport m).filter (Diagnostic.hasCode codes) ++
        (e.cycleReport m).filter (Diagnostic.hasCode codes) := by
  obtain ⟨vs, hvs, hvisits⟩ := e.visits_eq
  have hmembers : (vs.flatMap (Visit.report m)).filter (Diagnostic.hasCode codes) = [] := by
    rw [List.filter_flatMap, List.flatMap_eq_nil_iff]
    exact fun v hv => filter_of_isMember hcodes (hvs v hv)
  have hname := filter_of_gives hcodes (gives_checkTypeName e) (by decide)
  rw [hvisits, List.flatMap_cons, List.flatMap_append, List.filter_append, List.filter_append,
    hmembers, List.nil_append]
  show (reportEntry m e).filter _ ++ _ = _
  unfold reportEntry Entry.lastVisits Entry.zeroReport Entry.cycleReport
  rw [List.filter_append, hname, List.nil_append]
  cases ht : e.type with
  | struct s inner =>
    dsimp only
    rw [List.filter_append, filter_of_gives hcodes (gives_checkFieldNames m e s) (by decide)]
    exact List.append_nil _
  | enumeration x =>
    dsimp only
    rw [List.filter_append, List.filter_append,
      filter_of_gives hcodes (gives_checkRepeated e x.enumerators []) (by decide), List.nil_append]
    exact List.append_nil _
  | array a =>
    dsimp only
    rw [filter_of_gives hcodes (gives_reportIf rfl : Gives [.missingElementType] _) (by decide),
      List.flatMap_singleton]
    exact filter_reportExpansion hcodes e
  | «alias» a =>
    dsimp only
    rw [filter_of_gives hcodes (gives_reportIf rfl : Gives [.missingActualType] _) (by decide),
      List.flatMap_singleton]
    exact filter_reportExpansion hcodes e

theorem filter_validate_watched (hcodes : ∀ c ∈ codes, c ∈ watchedCodes) :
    m.validate.filter (Diagnostic.hasCode codes) =
      m.walk.flatMap fun e => (e.zeroReport m).filter (Diagnostic.hasCode codes) ++
        (e.cycleReport m).filter (Diagnostic.hasCode codes) := by
  rw [m.validate_eq, List.filter_flatMap, m.flatMap_visits]
  · simp only [← List.filter_flatMap, filter_check_entry hcodes]
  · intro g i b
    exact filter_of_gives hcodes (gives_checkPrimitive g i b) (by decide)
  · intro p
    exact filter_of_gives hcodes (gives_checkPackage p) (by decide)
  · intro s types
    exact filter_of_gives hcodes (gives_checkScope s types) (by decide)

/-! ## reports of cycles -/

theorem filter_zeroReport (h : .missingZero ∉ codes) (e : Entry) :
    (e.zeroReport m).filter (Diagnostic.hasCode codes) = [] := by
  have hcode : ¬ codes.contains Code.missingZero = true := mt List.contains_iff_mem.mp h
  unfold Entry.zeroReport reportIf
  split
  · split
    · exact List.filter_eq_nil_iff.mpr (List.forall_mem_singleton.mpr hcode)
    · rfl
  all_goals rfl

theorem watched_of_cycleCodes (hcodes : ∀ c ∈ codes, c ∈ cycleCodes) :
    (∀ c ∈ codes, c ∈ watchedCodes) ∧ Code.missingZero ∉ codes :=
  ⟨fun c hc => List.mem_cons_of_mem _ (hcodes c hc), fun h => absurd (hcodes _ h) (by decide)⟩

theorem filter_check_visits (hcodes : ∀ c ∈ codes, c ∈ cycleCodes) (e : Entry) :
    (e.visits.flatMap (Visit.report m)).filter (Diagnostic.hasCode codes) =
      (e.cycleReport m).filter (Diagnostic.hasCode codes) := by
  obtain ⟨hwatched, hzero⟩ := watched_of_cycleCodes hcodes
  rw [filter_check_entry hwatched, filter_zeroReport hzero, List.nil_append]

theorem filter_validate (hcodes : ∀ c ∈ codes, c ∈ cycleCodes) :
    m.validate.filter (Diagnostic.hasCode codes) =
      m.walk.flatMap fun e => (e.cycleReport m).filter (Diagnostic.hasCode codes) := by
  obtain ⟨hwatched, hzero⟩ := watched_of_cycleCodes hcodes
  rw [filter_validate_watched hwatched]
  simp only [filter_zeroReport hzero, List.nil_append]

end

end TypeModel
