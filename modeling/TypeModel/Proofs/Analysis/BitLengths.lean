import Mathlib.Data.List.Perm.Subperm
import TypeModel.Proofs.Analysis.CycleChecks

/-!
# Errors about bit lengths

Validation checks the lengths of the references that its walk comes across.  The walk passes over
two kinds of references that a declaration has: bases and parameters of constructors.

* `Role.isVisited`            the references that the walk comes across; by `references_visits` it
                              comes across them in the order of the sites, each at its place;
* `Site.lengthReport e s`     the error about a reference whose length is out of range;
* `filter_validate_lengths`   the errors about lengths, in the order of the walk;
* `Model.LengthsReported`     every reference with a length out of range has an error of its own;
* `bitLengths_reported_iff`   which is so if and only if none that is passed over has such a length;
* `not_reported_oversized`    a base and a parameter of a constructor that are passed over.
-/

namespace TypeModel

/-! ## references on the walk -/

def Role.isVisited : Role → Bool
  | .base | .constructorParameter _ _ => false
  | .field _ | .fieldKey _ | .returns _ | .methodParameter _ _ | .element | .actual => true

/-- the reference that a visit is about, with its place -/
def Visit.reference? : Visit → Option (TypeRef × Location)
  | .reference _ r l => some (r, l)
  | _ => none

/-- the references of a list of sites that the walk comes across, with their places -/
def visitedRefs (e : Entry) (sites : List Site) : List (TypeRef × Location) :=
  (sites.filter (·.role.isVisited)).map fun s => (s.ref, s.location e)

section
variable {e : Entry}

theorem visitedRefs_append (xs ys : List Site) :
    visitedRefs e (xs ++ ys) = visitedRefs e xs ++ visitedRefs e ys := by
  unfold visitedRefs
  rw [List.filter_append, List.map_append]

/-- sites that are listed member by member -/
theorem visitedRefs_mapIdx {α : Type} {g : α → List (TypeRef × Location)} {l : List α} :
    ∀ {f : Nat → α → List Site}, (∀ i x, visitedRefs e (f i x) = g x) →
      visitedRefs e (l.mapIdx f).flatten = l.flatMap g := by
  induction l with
  | nil => exact fun _ => rfl
  | cons x l ih =>
    intro f hf
    rw [List.mapIdx_cons, List.flatten_cons, visitedRefs_append, hf, ih fun i y => hf (i + 1) y,
      List.flatMap_cons]

theorem references_field (i : Nat) (f : Field) :
    visitedRefs e (f.sites i) = (f.visits e).filterMap Visit.reference? := by
  unfold Field.sites Field.visits
  cases f.key <;> rfl

theorem references_parameters {f : Nat → Parameter → Site} {place : Location}
    {ps : List Parameter}
    (hf : ∀ i p, (f i p).role.isVisited = true ∧ (f i p).ref = p.typeRef ∧
      (f i p).location e = place) :
    visitedRefs e (ps.mapIdx f) = ps.map fun p => (p.typeRef, place) := by
  induction ps generalizing f with
  | nil => rfl
  | cons p ps ih =>
    obtain ⟨hvisited, href, hplace⟩ := hf 0 p
    have hone : visitedRefs e [f 0 p] = [(p.typeRef, place)] := by
      simp [visitedRefs, hvisited, href, hplace]
    rw [List.mapIdx_cons, ← List.singleton_append, visitedRefs_append, hone,
      ih fun i p => hf (i + 1) p]
    rfl

theorem references_method (i : Nat) (x : Method) :
    visitedRefs e (x.sites i) = (x.visits e).filterMap Visit.reference? := by
  have hsites : visitedRefs e (x.parameters.mapIdx fun j p =>
      { role := .methodParameter i j, ref := p.typeRef, member := some (x.name, x.line) }) =
      x.parameters.map fun p => (p.typeRef, e.memberLocation x.name x.line) :=
    references_parameters fun _ _ => ⟨rfl, rfl, rfl⟩
  have hvisits : x.parameters.filterMap (Visit.reference? ∘ fun p =>
      .reference e p.typeRef (e.memberLocation x.name x.line)) =
      x.parameters.map fun p => (p.typeRef, e.memberLocation x.name x.line) :=
    congrFun List.filterMap_eq_map _
  unfold Method.sites Method.visits
  dsimp only
  rw [visitedRefs_append, hsites, List.cons_append, List.filterMap_cons_none rfl,
    List.filterMap_append, List.filterMap_map, hvisits]
  cases x.returns <;> rfl

theorem references_constructor (owner : Name) (i : Nat) (c : Constructor) :
    visitedRefs e (c.sites owner i) = [] := by
  unfold visitedRefs
  rw [List.map_eq_nil_iff, List.filter_eq_nil_iff]
  intro s hs
  obtain ⟨_, _, _, rfl⟩ := Constructor.mem_sites.mp hs
  exact Bool.false_ne_true

theorem visitedRefs_base (base : Option TypeRef) :
    visitedRefs e (base.map fun r => { role := .base, ref := r : Site }).toList = [] := by
  cases base <;> rfl

/-- the walk comes across the references of a declaration in the order of its sites, but for bases
and parameters of constructors -/
theorem references_visits (e : Entry) :
    e.visits.filterMap Visit.reference? = visitedRefs e e.sites := by
  unfold Entry.visits Entry.sites
  rw [List.filterMap_cons_none rfl]
  cases ht : e.type with
  | struct s inner =>
    dsimp only [TypeDef.sites]
    unfold StructType.sites
    rw [visitedRefs_append, visitedRefs_append, visitedRefs_append, visitedRefs_base,
      visitedRefs_mapIdx references_field, visitedRefs_mapIdx references_method,
      visitedRefs_mapIdx (references_constructor s.name), List.filterMap_append,
      List.filterMap_flatMap, List.filterMap_flatMap]
    simp
  | enumeration x =>
    dsimp only [TypeDef.sites]
    rw [visitedRefs_base, List.filterMap_map]
    exact List.filterMap_eq_nil_iff.mpr fun _ _ => rfl
  | array a =>
    dsimp only [TypeDef.sites, TypeDef.expands?]
    cases a.elementType <;> rfl
  | «alias» a =>
    dsimp only [TypeDef.sites, TypeDef.expands?]
    cases a.actualType <;> rfl

end

/-! ## reports about lengths -/

/-- the error about a reference at a place, where its length is out of range -/
def TypeRef.lengthReport (r : TypeRef) (l : Location) : Diagnostics :=
  match r.bitLength with
  | some bits =>
    if bits = 0 ∨ bits > maxBitLength then [(Issue.bitLengthInvalid bits r.name).toDiagnostic l]
    else []
  | none => []

def Site.lengthReport (e : Entry) (s : Site) : Diagnostics := s.ref.lengthReport (s.location e)

theorem TypeRef.lengthReport_of_bitLength {r : TypeRef} {bits : Nat} (l : Location)
    (h : r.bitLength = some bits) (hout : bits = 0 ∨ bits > maxBitLength) :
    r.lengthReport l = [(Issue.bitLengthInvalid bits r.name).toDiagnostic l] := by
  unfold TypeRef.lengthReport
  rw [h]
  exact if_pos hout

theorem TypeRef.lengthReport_eq_nil_iff {r : TypeRef} {l : Location} :
    r.lengthReport l = [] ↔ r.LengthInRange := by
  unfold TypeRef.lengthReport TypeRef.LengthInRange
  cases r.bitLength with
  | none => exact iff_of_true rfl nofun
  | some bits =>
    simp only [Option.some.injEq, forall_eq', ite_eq_right_iff, List.cons_ne_nil, imp_false]
    omega

theorem gives_lengthReport (r : TypeRef) (l : Location) :
    Gives [.invalidBitLength] (r.lengthReport l) := by
  unfold TypeRef.lengthReport
  split
  · split
    · exact gives_singleton rfl
    · exact gives_nil
  · exact gives_nil

section
open Validation
variable {m : Model}

theorem filter_checkReference (r : TypeRef) (l : Location) :
    (checkReference m r l).filter (Diagnostic.hasCode [.invalidBitLength]) =
      r.lengthReport l := by
  unfold checkReference TypeRef.lengthReport
  cases r.bitLength with
  | none => rfl
  | some bits =>
    dsimp only
    by_cases hout : bits = 0 ∨ bits > maxBitLength
    · rw [if_pos hout, if_pos hout]
      rfl
    · rw [if_neg hout, if_neg hout]
      split <;> rfl

/-- only the check of a reference tells of its length -/
theorem filter_check_length (v : Visit) :
    (v.report m).filter (Diagnostic.hasCode [.invalidBitLength]) =
      v.reference?.toList.flatMap fun x => x.1.lengthReport x.2 := by
  have hother (hapart : ∀ c ∈ v.codes, c ∉ [Code.invalidBitLength]) :
      (v.report m).filter (Diagnostic.hasCode [.invalidBitLength]) = [] :=
    (gives_check m v).filter_eq_nil hapart
  cases v with
  | reference e r l =>
    rw [Visit.reference?, Option.toList_some, List.flatMap_singleton]
    exact filter_checkReference r l
  | _ =>
    refine hother ?_
    dsimp only [Visit.codes, entryCodes]
    decide

theorem filter_check_visits_lengths (e : Entry) :
    (e.visits.flatMap fun v => (v.report m).filter (Diagnostic.hasCode [.invalidBitLength])) =
      (e.sites.filter (·.role.isVisited)).flatMap (Site.lengthReport e) := by
  simp only [filter_check_length]
  rw [← List.flatMap_assoc, ← List.filterMap_eq_flatMap_toList, references_visits]
  exact List.flatMap_map ..

/-- the errors about lengths come in the order of the walk and of the sites in a declaration -/
theorem filter_validate_lengths (m : Model) :
    m.validate.filter (Diagnostic.hasCode [.invalidBitLength]) =
      m.walk.flatMap fun e =>
        (e.sites.filter (·.role.isVisited)).flatMap (Site.lengthReport e) := by
  rw [m.validate_eq, List.filter_flatMap, m.flatMap_visits (fun g i b => filter_check_length (.primitive g i b))
    (fun p => filter_check_length (.package p)) fun s types => filter_check_length (.scope s types)]
  simp only [filter_check_visits_lengths]

end

/-! ## lengths out of range -/

namespace Model

/-- the errors that tell of all lengths out of range, one for each reference -/
def lengthReports (m : Model) : Diagnostics :=
  m.walk.flatMap fun e => e.sites.flatMap (Site.lengthReport e)

/-- every reference with a length out of range has an error of its own among the diagnostics -/
def LengthsReported (m : Model) : Prop := m.lengthReports.Subperm m.validate

/-- the errors that are missing where references are passed over -/
def missedLengths (m : Model) : Diagnostics :=
  m.walk.flatMap fun e => (e.sites.filter (!·.role.isVisited)).flatMap (Site.lengthReport e)

theorem missedLengths_eq_nil_iff {m : Model} :
    m.missedLengths = [] ↔
      ∀ e ∈ m.allTypes, ∀ s ∈ e.sites, s.role.isVisited = false → s.ref.LengthInRange := by
  unfold missedLengths Site.lengthReport
  simp only [List.flatMap_eq_nil_iff, List.mem_filter, mem_walk_iff,
    TypeRef.lengthReport_eq_nil_iff, Bool.not_eq_true', and_imp]

/-- an error is either among the diagnostics or missing -/
theorem lengthReports_perm (m : Model) :
    (m.validate.filter (Diagnostic.hasCode [.invalidBitLength]) ++ m.missedLengths).Perm
      m.lengthReports := by
  rw [filter_validate_lengths]
  refine (List.flatMap_append_perm _ _ _).trans (List.Perm.flatMap_left _ fun e _ => ?_)
  rw [← List.flatMap_append]
  exact (List.filter_append_perm _ _).flatMap_right _

theorem gives_lengthReports (m : Model) : Gives [.invalidBitLength] m.lengthReports := by
  intro d hd
  obtain ⟨e, _, hd⟩ := List.mem_flatMap.mp hd
  obtain ⟨s, _, hd⟩ := List.mem_flatMap.mp hd
  exact gives_lengthReport _ _ d hd

theorem lengthsReported_iff (m : Model) : m.LengthsReported ↔ m.missedLengths = [] := by
  have hperm := m.lengthReports_perm
  constructor
  · intro h
    have hsub := h.filter (Diagnostic.hasCode [.invalidBitLength])
    rw [List.filter_eq_self.mpr m.gives_lengthReports] at hsub
    -- both sides are errors about lengths only, so that counting them is enough
    have hle := hsub.length_le
    rw [← hperm.length_eq, List.length_append] at hle
    exact List.eq_nil_of_length_eq_zero (by omega)
  · intro h
    rw [h, List.append_nil] at hperm
    exact hperm.symm.subperm.trans List.filter_sublist.subperm

end Model

/-- a reference on the walk with a length out of range has its error at its place, and all that have
such a length have one each if and only if none is a base or a parameter of a constructor -/
theorem bitLengths_reported_iff (m : Model) :
    (∀ e ∈ m.allTypes, ∀ s ∈ e.sites, s.role.isVisited = true →
      ∀ bits, s.ref.bitLength = some bits → bits = 0 ∨ bits > maxBitLength →
        (Issue.bitLengthInvalid bits s.ref.name).toDiagnostic (s.location e) ∈ m.validate) ∧
    m.validate.filter (Diagnostic.hasCode [.invalidBitLength]) =
      (m.walk.flatMap fun e =>
        (e.sites.filter (·.role.isVisited)).flatMap (Site.lengthReport e)) ∧
    (m.LengthsReported ↔
      ∀ e ∈ m.allTypes, ∀ s ∈ e.sites, s.role.isVisited = false → s.ref.LengthInRange) := by
  refine ⟨?_, filter_validate_lengths m, m.lengthsReported_iff.trans
    Model.missedLengths_eq_nil_iff⟩
  intro e he s hs hvisited bits hbits hout
  have hreport : s.lengthReport e =
      [(Issue.bitLengthInvalid bits s.ref.name).toDiagnostic (s.location e)] :=
    TypeRef.lengthReport_of_bitLength _ hbits hout
  refine List.mem_of_mem_filter (p := Diagnostic.hasCode [.invalidBitLength]) ?_
  rw [filter_validate_lengths]
  refine List.mem_flatMap.mpr ⟨e, Model.mem_walk_iff.mpr he, List.mem_flatMap.mpr
    ⟨s, List.mem_filter.mpr ⟨hs, hvisited⟩, ?_⟩⟩
  rw [hreport]
  exact List.mem_singleton_self _

/-- `Packet` gives lengths out of range to its base and to a parameter of its constructor -/
def oversized : Model :=
  { primitives :=
      [{ name := "Integers",
         dataTypes := [{ name := "int64", bitLength := some 64, encoding := .signed }] }]
    types :=
      [.struct { name := "Header" } [],
        .struct
          { name := "Packet", base := some { name := "Header", bitLength := some 0 },
            constructors :=
              [{ parameters :=
                  [{ name := "size", typeRef := { name := "int64", bitLength := some 65 } }] }] }
          []] }

/-- neither length is reported, and analysis succeeds -/
theorem not_reported_oversized :
    oversized.analyze.2 = .ok [] ∧ oversized.validate = [] ∧
      (∃ e ∈ oversized.allTypes, e.sites.map (fun s => (s.role, s.ref.bitLength)) =
        [(.base, some 0), (.constructorParameter 0 0, some 65)]) ∧
      ¬ oversized.LengthsReported := by
  have hnone : oversized.validate = [] := by decide +kernel
  refine ⟨by decide +kernel, hnone, ⟨_, List.mem_of_getElem? (i := 1) rfl, rfl⟩, ?_⟩
  intro h
  have hle := h.length_le
  rw [hnone] at hle
  exact absurd hle (by decide +kernel)

end TypeModel
