import TypeModel.Proofs.Analysis.CycleReports
import TypeModel.Proofs.Proto.Enumerators

/-!
# Warnings of a missing zero

Analysis warns of an enumeration without a zero, since a zero is added to its enum then.  It numbers
every enumeration of a chain on its own, while an enum numbers the whole chain in one run.

* `numberFrom_flatMap`         both agree where every enumeration starts with an explicit value;
* `AddsZero m id x`            a zero is added to the enum of `x`;
* `lacksZero_iff`              when analysis finds no zero;
* `missingZero_reported_iff`   the warnings, one for each enumeration to whose enum a zero is added
                               and whose chain starts no enumeration with an implicit value;
* `not_reported_shifted`       the first enumerator of an enumeration follows those of its base.
-/

namespace TypeModel

namespace Proto
variable {m : Model}

/-! ## numbering a chain -/

theorem numberFrom_flatMap {xs : List EnumerationType}
    (h : ∀ x ∈ xs, StartsExplicit x.enumerators) :
    ∀ k, numberFrom k (xs.flatMap (·.enumerators)) =
      xs.flatMap fun x => numberFrom 0 x.enumerators := by
  induction xs with
  | nil => exact fun _ => rfl
  | cons x xs ih =>
    intro k
    rw [List.flatMap_cons, List.flatMap_cons]
    rw [numberFrom_append, (h x List.mem_cons_self).numberFrom_eq k,
      ih fun y hy => h y (List.mem_cons_of_mem x hy)]

/-- an enumeration and those that it extends, nearest first -/
def lineage (m : Model) (id : TypeId) (x : EnumerationType) : List EnumerationType :=
  x :: m.baseEnumerations id

theorem foldedEnumerators_eq (m : Model) (id : TypeId) (x : EnumerationType) :
    m.foldedEnumerators id x =
      numberFrom 0 ((lineage m id x).reverse.flatMap (·.enumerators)) := by
  unfold Model.foldedEnumerators lineage
  rw [List.reverse_cons, List.flatMap_append, List.flatMap_singleton]

theorem hasZeroEnumerator_eq_false {id : TypeId} {x : EnumerationType} :
    Validation.hasZeroEnumerator m id x = false ↔
      ∀ y ∈ lineage m id x, ∀ v ∈ numberFrom 0 y.enumerators, v.2 ≠ 0 := by
  show (lineage m id x).any EnumerationType.hasZero = false ↔ _
  rw [List.any_eq_false]
  refine forall₂_congr fun y _ => ?_
  unfold EnumerationType.hasZero EnumerationType.effectiveValues
  rw [List.contains_iff_mem, List.mem_map, not_exists]
  simp only [not_and]

/-- analysis finds no zero if and only if there is none in the whole numbering and no enumeration of
the chain starts with an implicit value -/
theorem lacksZero_iff {id : TypeId} {x : EnumerationType} :
    Validation.hasZeroEnumerator m id x = false ↔
      (∀ v ∈ m.foldedEnumerators id x, v.2 ≠ 0) ∧
        ∀ y ∈ lineage m id x, StartsExplicit y.enumerators := by
  have hfold : (∀ y ∈ lineage m id x, StartsExplicit y.enumerators) →
      m.foldedEnumerators id x =
        (lineage m id x).reverse.flatMap fun y => numberFrom 0 y.enumerators := by
    intro h
    rw [foldedEnumerators_eq, numberFrom_flatMap fun y hy => h y (List.mem_reverse.mp hy)]
  rw [hasZeroEnumerator_eq_false]
  constructor
  · intro h
    have hstarts : ∀ y ∈ lineage m id x, StartsExplicit y.enumerators :=
      fun y hy => startsExplicit_of_ne_zero (h y hy)
    refine ⟨?_, hstarts⟩
    rw [hfold hstarts, List.forall_mem_flatMap]
    exact fun y hy => h y (List.mem_reverse.mp hy)
  · rintro ⟨hne, hstarts⟩ y hy
    rw [hfold hstarts, List.forall_mem_flatMap] at hne
    exact hne y (List.mem_reverse.mpr hy)

/-! ## the zero that is added -/

/-- the enum of an enumeration has all its enumerators, and a zero in front of them -/
def AddsZero (m : Model) (id : TypeId) (x : EnumerationType) : Prop :=
  enumValues m id x = (unspecifiedName x.name, 0) :: written x (m.foldedEnumerators id x)

theorem addsZero_iff {id : TypeId} {x : EnumerationType} :
    AddsZero m id x ↔ ∀ v ∈ m.foldedEnumerators id x, v.2 ≠ 0 := by
  show zeroFirst _ (written x (m.foldedEnumerators id x)) = _ ↔ _
  rw [← written_ne_zero (x := x)]
  constructor
  · intro h v hv hzero
    have hlen := (zeroFirst_perm (unspecifiedName x.name) ⟨v, hv, hzero⟩).length_eq
    rw [h, List.length_cons] at hlen
    omega
  · exact zeroFirst_of_ne_zero

theorem exists_enum {c : ProtoConfig} {schema : Schema} (h : Schema.ofModel m c = .ok schema)
    {e : Entry} (he : e ∈ m.allTypes) {x : EnumerationType} (ht : e.type = .enumeration x) :
    ∃ d, declarationAt? schema.roots (placeOf m e.id) = some d ∧ d.name = x.name ∧
      d.values? = some (enumValues m e.id x) := by
  obtain ⟨d, hd, hstands⟩ := standsAt_placeOf h he (by rw [ht]; rfl)
  rw [ht] at hd
  refine ⟨d, hstands.declaration, name_of_declare hd, ?_⟩
  rw [declare] at hd
  cases hd
  rfl

/-! ## the warnings -/

/-- the warning of an enumeration without a zero -/
def zeroWarning (e : Entry) : Diagnostic := (Issue.missingZero e.name).toDiagnostic e.location

def isWarned (m : Model) (e : Entry) : Bool :=
  match e.type with
  | .enumeration x => !Validation.hasZeroEnumerator m e.id x
  | .struct _ _ | .array _ | .alias _ => false

theorem isWarned_iff {e : Entry} :
    isWarned m e = true ↔
      ∃ x, e.type = .enumeration x ∧ Validation.hasZeroEnumerator m e.id x = false := by
  unfold isWarned
  cases e.type with
  | enumeration x => simp
  | struct s inner => simp
  | array a => simp
  | «alias» a => simp

theorem zeroReport_eq (m : Model) (e : Entry) :
    e.zeroReport m = if isWarned m e then [zeroWarning e] else [] := by
  unfold Entry.zeroReport isWarned zeroWarning Entry.name
  cases ht : e.type with
  | enumeration x => rfl
  | struct s inner => rfl
  | array a => rfl
  | «alias» a => rfl

theorem filter_cycleReport_zero (e : Entry) :
    (e.cycleReport m).filter (Diagnostic.hasCode [.missingZero]) = [] := by
  unfold Entry.cycleReport
  cases e.type with
  | struct s inner => exact Model.filter_reportCycle _ e .struct
  | enumeration x => exact Model.filter_reportCycle _ e .enumeration
  | array a => exact Model.filter_reportCycle _ e .expansion
  | «alias» a => exact Model.filter_reportCycle _ e .expansion

theorem filter_validate_missingZero (m : Model) :
    m.validate.filter (Diagnostic.hasCode [.missingZero]) =
      (m.walk.filter (isWarned m)).map zeroWarning := by
  have hkept : ∀ e : Entry, (e.zeroReport m).filter (Diagnostic.hasCode [.missingZero]) =
      if isWarned m e then [zeroWarning e] else [] := by
    intro e
    rw [zeroReport_eq]
    split <;> rfl
  rw [filter_validate_watched (by decide), map_filter_eq_flatMap]
  simp only [filter_cycleReport_zero, hkept, List.append_nil]

/-- the warnings of missing zeros come from enumerations in the order of the walk, and there is one of
an enumeration if and only if a zero is added to its enum and neither it nor one that it extends
starts with an implicit value -/
theorem missingZero_reported_iff (m : Model) :
    ∃ es : List Entry, es.Sublist m.walk ∧
      m.validate.filter (Diagnostic.hasCode [.missingZero]) = es.map zeroWarning ∧
      (∀ e ∈ es, ∃ x, e.type = .enumeration x) ∧
      ∀ e ∈ m.allTypes, ∀ x, e.type = .enumeration x →
        (e ∈ es ↔ AddsZero m e.id x ∧ ∀ y ∈ lineage m e.id x, StartsExplicit y.enumerators) ∧
        ∀ c schema, Schema.ofModel m c = .ok schema →
          ∃ d, declarationAt? schema.roots (placeOf m e.id) = some d ∧ d.name = x.name ∧
            d.values? = some (enumValues m e.id x) := by
  refine ⟨m.walk.filter (isWarned m), List.filter_sublist, filter_validate_missingZero m, ?_, ?_⟩
  · intro e he
    obtain ⟨x, ht, _⟩ := isWarned_iff.mp (List.mem_filter.mp he).2
    exact ⟨x, ht⟩
  · intro e he x ht
    refine ⟨?_, fun c schema hschema => exists_enum hschema he ht⟩
    rw [List.mem_filter, and_iff_right (Model.mem_walk_iff.mpr he), isWarned_iff, ht, addsZero_iff,
      ← lacksZero_iff]
    simp

/-- `Base` starts with a value other than zero, and `Derived` goes on from there -/
def shifted : Model :=
  { types :=
      [.enumeration
          { name := "Base",
            enumerators := [{ name := "FIRST", value := some (.literal (.integer 5)) }] },
        .enumeration
          { name := "Derived", base := some { name := "Base" },
            enumerators := [{ name := "SECOND" }] }] }

def shiftedSchema : Schema :=
  { package := none
    declarations :=
      [.enumeration "Base" [] [("BASE_UNSPECIFIED", 0), ("BASE_FIRST", 5)],
        .enumeration "Derived" []
          [("DERIVED_UNSPECIFIED", 0), ("DERIVED_FIRST", 5), ("DERIVED_SECOND", 6)]]
    wrappers := [] }

theorem ofModel_shifted : Schema.ofModel shifted.analyze.1 {} = .ok shiftedSchema := rfl

theorem missingZero_reported_iff_shifted :
    ∃ es : List Entry,
      shifted.analyze.1.validate.filter (Diagnostic.hasCode [.missingZero]) = es.map zeroWarning ∧
      ∃ e ∈ shifted.analyze.1.allTypes, ∃ x, e.type = .enumeration x ∧ x.name = "Derived" ∧
        AddsZero shifted.analyze.1 e.id x ∧ e ∉ es := by
  obtain ⟨es, _, hreports, _, hiff⟩ := missingZero_reported_iff shifted.analyze.1
  obtain ⟨e, he, x, ht, hname, hadds, hstart⟩ : ∃ e ∈ shifted.analyze.1.allTypes, ∃ x,
      e.type = .enumeration x ∧ x.name = "Derived" ∧ AddsZero shifted.analyze.1 e.id x ∧
        x.enumerators = [{ name := "SECOND" }] :=
    ⟨_, List.mem_of_getElem? (i := 1) rfl, _, rfl, rfl, rfl, rfl⟩
  refine ⟨es, hreports, e, he, x, ht, hname, hadds, fun hmem => ?_⟩
  have hexplicit := ((hiff e he x ht).1.mp hmem).2 x List.mem_cons_self
  rw [hstart] at hexplicit
  exact hexplicit _ rfl rfl

/-- a zero is added to both enums, and the only warning is that of `Base` -/
theorem not_reported_shifted :
    (∃ e ∈ shifted.analyze.1.allTypes, e.name = "Base" ∧
      shifted.analyze.2 = .ok [zeroWarning e]) ∧
    Schema.ofModel shifted.analyze.1 {} = .ok shiftedSchema ∧
    (declarationAt? shiftedSchema.roots [1]).bind Declaration.values? =
      some [("DERIVED_UNSPECIFIED", 0), ("DERIVED_FIRST", 5), ("DERIVED_SECOND", 6)] :=
  ⟨⟨_, List.mem_of_getElem? (i := 0) rfl, rfl, by decide +kernel⟩, ofModel_shifted, rfl⟩

end Proto

end TypeModel
