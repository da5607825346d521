import TypeModel.Proofs.Analysis.Chains

/-!
# When validation finds no error

Validation checks what a walk through the model comes across.  Here the visits are sorted by what
they are about, and the checks of all visits are put together:

* `clean_entry_visits`   the visits of one entry: its own rules, the chains that start at it;
* `forall_visits`        the visits of a model: primitive types, scopes, packages, entries;
* `clean_validate`       the two together;
* `Model.flatMap_visits` what comes from whole declarations comes in the order of the walk;
* `clean_cycleReports`   the reports of cycles, which only make sense for all entries at once.
-/

namespace TypeModel

/-! ## visits -/

section
open Validation
variable {m : Model} {e : Entry}

/-- the report of a cycle through an entry -/
def Entry.cycleReport (m : Model) (e : Entry) : Diagnostics :=
  match e.type with
  | .struct _ _ => reportCycle m e .struct m.baseOf
  | .enumeration _ => reportCycle m e .enumeration m.baseOf
  | .array _ | .alias _ => reportCycle m e .expansion m.expansionOf

/-- what the checks of a struct say about other declarations -/
structure Entry.StructClean (m : Model) (e : Entry) (s : StructType) : Prop where
  inherited : ∀ b ∈ m.baseStructs e.id, ∀ f ∈ s.fields, ∀ g ∈ b.fields, f.name ≠ g.name
  keys : ∀ f ∈ s.fields, ∀ key, f.key = some key → mapKeyAllowed m key

theorem forall_mem_toList_map {α β : Type} {o : Option α} {f : α → β} {P : β → Prop} :
    (∀ y ∈ (o.map f).toList, P y) ↔ ∀ x, o = some x → P (f x) := by
  cases o <;> simp

theorem clean_field_visits (f : Field) :
    (∀ v ∈ f.visits e, Clean (v.report m)) ↔
      f.Sound ∧ ∀ key, f.key = some key → mapKeyAllowed m key := by
  unfold Field.visits
  rw [List.forall_mem_cons, List.forall_mem_cons, forall_mem_toList_map]
  show Clean (checkField m e f) ∧ Clean (checkReference m f.typeRef _) ∧
    (∀ key, f.key = some key → Clean (checkReference m key _)) ↔ _
  simp only [clean_checkField, clean_checkReference]
  exact ⟨fun h => ⟨⟨h.1.1, h.2.1, h.2.2⟩, h.1.2⟩,
    fun h => ⟨⟨h.1.size, h.2⟩, h.1.value, h.1.key⟩⟩

theorem clean_method_visits (x : Method) :
    (∀ v ∈ x.visits e, Clean (v.report m)) ↔ x.Sound e.type.base? := by
  unfold Method.visits
  rw [List.cons_append, List.forall_mem_cons, List.forall_mem_append, forall_mem_toList_map,
    List.forall_mem_map]
  show Clean (checkMethod e x) ∧ (∀ r, x.returns = some r → Clean (checkReference m r _)) ∧
    (∀ p ∈ x.parameters, Clean (checkReference m p.typeRef _)) ↔ _
  simp only [clean_checkMethod, clean_checkReference]
  exact ⟨fun h => ⟨h.1.1, h.1.2, h.2.1, h.2.2⟩,
    fun h => ⟨⟨h.static, h.override⟩, h.returns, h.parameters⟩⟩

theorem clean_struct_visits {s : StructType} {inner : List TypeDef}
    (ht : e.type = .struct s inner) :
    (∀ v ∈ e.visits, Clean (v.report m)) ↔
      s.Sound ∧ e.StructClean m s ∧ Clean (reportCycle m e .struct m.baseOf) := by
  have hentry : Clean (reportEntry m e) ↔
      ((s.fields.map Field.name).Nodup ∧
        ∀ b ∈ m.baseStructs e.id, ∀ f ∈ s.fields, ∀ g ∈ b.fields, f.name ≠ g.name) ∧
      Clean (reportCycle m e .struct m.baseOf) := by
    unfold reportEntry
    rw [ht, clean_append, and_iff_right (clean_checkTypeName e)]
    dsimp only
    rw [clean_append, clean_checkFieldNames]
  have hbase : e.type.base? = s.base := by rw [ht]; rfl
  unfold Entry.visits
  rw [ht, List.forall_mem_cons]
  dsimp only
  rw [List.forall_mem_append, List.forall_mem_flatMap, List.forall_mem_flatMap]
  show Clean (reportEntry m e) ∧ _ ↔ _
  simp only [hentry, clean_field_visits, clean_method_visits, hbase]
  constructor
  · rintro ⟨⟨⟨hn, hi⟩, hc⟩, hf, hm⟩
    exact ⟨⟨hn, fun f h => (hf f h).1, hm⟩, ⟨hi, fun f h => (hf f h).2⟩, hc⟩
  · rintro ⟨hs, hk, hc⟩
    exact ⟨⟨⟨hs.names, hk.inherited⟩, hc⟩, fun f h => ⟨hs.fields f h, hk.keys f h⟩, hs.methods⟩

theorem clean_enumeration_visits {x : EnumerationType} (ht : e.type = .enumeration x) :
    (∀ v ∈ e.visits, Clean (v.report m)) ↔
      (x.enumerators.map Enumerator.name).Nodup ∧
        Clean (reportCycle m e .enumeration m.baseOf) := by
  have hentry : Clean (reportEntry m e) ↔ (x.enumerators.map Enumerator.name).Nodup ∧
      Clean (reportCycle m e .enumeration m.baseOf) := by
    have hzero : Clean (reportIf (!hasZeroEnumerator m e.id x) (.missingZero x.name)
        e.location) := clean_reportIf_of_ne nofun
    unfold reportEntry
    rw [ht, clean_append, and_iff_right (clean_checkTypeName e)]
    dsimp only
    rw [clean_append, clean_append, and_iff_left hzero, clean_checkRepeated,
      and_iff_right fun _ _ _ h => absurd h List.not_mem_nil]
  unfold Entry.visits
  rw [ht, List.forall_mem_cons]
  dsimp only
  rw [List.forall_mem_map]
  show Clean (reportEntry m e) ∧ (∀ y ∈ x.enumerators, Clean (checkEnumerator e y)) ↔ _
  rw [hentry, and_iff_left fun y _ => clean_checkEnumerator e y]

theorem clean_array_visits {a : ArrayType} (ht : e.type = .array a) :
    (∀ v ∈ e.visits, Clean (v.report m)) ↔
      ((∃ r, a.elementType = some r ∧ r.LengthInRange) ∧ ∀ n, a.size = some n → 0 < n) ∧
        Clean (reportCycle m e .expansion m.expansionOf) := by
  have hentry : Clean (reportEntry m e) ↔ a.elementType ≠ none := by
    unfold reportEntry
    rw [ht, clean_append, and_iff_right (clean_checkTypeName e)]
    dsimp only
    rw [clean_reportIf_error rfl]
    cases a.elementType <;> simp
  have hexp : Clean (reportExpansion m e) ↔ (∀ n, a.size = some n → 0 < n) ∧
      Clean (reportCycle m e .expansion m.expansionOf) := by
    unfold reportExpansion
    rw [clean_append, ht]
    refine and_congr_left' ?_
    obtain ⟨name, element, size, comment, line⟩ := a
    cases size with
    | none => exact iff_of_true clean_nil nofun
    | some n => exact clean_checkArraySize.trans (by simp)
  unfold Entry.visits
  rw [ht, List.forall_mem_cons]
  dsimp only
  rw [List.forall_mem_append, forall_mem_toList_map, List.forall_mem_singleton]
  show Clean (reportEntry m e) ∧ (∀ r, a.elementType = some r → Clean (checkReference m r _)) ∧
    Clean (reportExpansion m e) ↔ _
  simp only [hentry, hexp, clean_checkReference]
  cases a.elementType <;> simp [and_assoc]

theorem clean_alias_visits {a : AliasType} (ht : e.type = .alias a) :
    (∀ v ∈ e.visits, Clean (v.report m)) ↔
      (∃ r, a.actualType = some r ∧ r.LengthInRange) ∧
        Clean (reportCycle m e .expansion m.expansionOf) := by
  have hentry : Clean (reportEntry m e) ↔ a.actualType ≠ none := by
    unfold reportEntry
    rw [ht, clean_append, and_iff_right (clean_checkTypeName e)]
    dsimp only
    rw [clean_reportIf_error rfl]
    cases a.actualType <;> simp
  have hexp : Clean (reportExpansion m e) ↔ Clean (reportCycle m e .expansion m.expansionOf) := by
    unfold reportExpansion
    rw [clean_append, ht]
    exact and_iff_right clean_nil
  unfold Entry.visits
  rw [ht, List.forall_mem_cons]
  dsimp only
  rw [List.forall_mem_append, forall_mem_toList_map, List.forall_mem_singleton]
  show Clean (reportEntry m e) ∧ (∀ r, a.actualType = some r → Clean (checkReference m r _)) ∧
    Clean (reportExpansion m e) ↔ _
  simp only [hentry, hexp, clean_checkReference]
  cases a.actualType <;> simp

/-- the checks of an entry and its members -/
theorem clean_entry_visits (m : Model) (e : Entry) :
    (∀ v ∈ e.visits, Clean (v.report m)) ↔
      e.type.Sound ∧ (∀ s, e.type.struct? = some s → e.StructClean m s) ∧
        Clean (e.cycleReport m) := by
  unfold Entry.cycleReport
  cases ht : e.type with
  | struct s inner =>
    rw [clean_struct_visits ht]
    simp [TypeDef.Sound, TypeDef.struct?]
  | enumeration x =>
    rw [clean_enumeration_visits ht]
    simp [TypeDef.Sound, TypeDef.struct?]
  | array a =>
    rw [clean_array_visits ht]
    simp [TypeDef.Sound, TypeDef.struct?]
  | «alias» a =>
    rw [clean_alias_visits ht]
    simp [TypeDef.Sound, TypeDef.struct?]

theorem clean_primitive_visits :
    (∀ v ∈ m.primitives.flatMap fun g => g.dataTypes.mapIdx (Visit.primitive g),
        Clean (v.report m)) ↔
      ∀ g ∈ m.primitives, (g.dataTypes.map BasicType.name).Nodup := by
  rw [List.forall_mem_flatMap]
  refine forall₂_congr fun g _ => ?_
  rw [← nodup_map_iff_take BasicType.name]
  constructor
  · intro h i b hb
    exact clean_checkPrimitive.mp (h _ (mem_mapIdx_iff.mpr ⟨i, b, hb, rfl⟩))
  · intro h v hv
    obtain ⟨i, b, hb, rfl⟩ := mem_mapIdx_iff.mp hv
    exact clean_checkPrimitive.mpr (h i b hb)

theorem clean_scope_visits :
    (∀ e ∈ m.declaredTypes, ∀ s inner, e.type = .struct s inner →
        Clean ((Visit.scope (.struct e) inner).report m)) ↔
      ∀ e ∈ m.declaredTypes, (e.type.innerTypes.map TypeDef.name).Nodup := by
  refine forall₂_congr fun e _ => ?_
  cases e.type with
  | struct s inner =>
    constructor
    · exact fun h => clean_checkScope.mp (h s inner rfl)
    · rintro h _ _ ⟨⟩
      exact clean_checkScope.mpr h
  | enumeration x => exact iff_of_true (fun _ _ h => TypeDef.noConfusion h) List.nodup_nil
  | array a => exact iff_of_true (fun _ _ h => TypeDef.noConfusion h) List.nodup_nil
  | «alias» a => exact iff_of_true (fun _ _ h => TypeDef.noConfusion h) List.nodup_nil

theorem clean_validate (m : Model) :
    Clean m.validate ↔
      (∀ g ∈ m.primitives, (g.dataTypes.map BasicType.name).Nodup) ∧
      (m.types.map TypeDef.name).Nodup ∧
      (∀ p ∈ m.packages, p.name ≠ "" ∧ (p.types.map TypeDef.name).Nodup) ∧
      (∀ e ∈ m.declaredTypes, (e.type.innerTypes.map TypeDef.name).Nodup) ∧
      ∀ e ∈ m.allTypes, e.type.Sound ∧
        (∀ s, e.type.struct? = some s → e.StructClean m s) ∧ Clean (e.cycleReport m) := by
  have hpack : (∀ p ∈ m.packages, Clean ((Visit.package p).report m) ∧
      Clean ((Visit.scope (.package p) p.types).report m)) ↔
      ∀ p ∈ m.packages, p.name ≠ "" ∧ (p.types.map TypeDef.name).Nodup :=
    forall₂_congr fun p _ => and_congr clean_checkPackage clean_checkScope
  rw [m.validate_eq, clean_flatMap, forall_visits, clean_primitive_visits, hpack, forall_declared_visits,
    clean_scope_visits]
  simp only [clean_entry_visits]
  exact and_congr_right fun _ => and_congr_left' clean_checkScope

end

/-! ## chains -/

namespace Model
variable {m : Model}

/-- what a cycle of bases is called at an entry -/
def baseCycleKind (e : Entry) : CycleKind :=
  match e.type with
  | .struct _ _ => .struct
  | _ => .enumeration

theorem clean_cycleReports (m : Model) :
    (∀ e ∈ m.allTypes, Clean (e.cycleReport m)) ↔
      (∀ a, ¬ Reaches m.baseOf a a) ∧ ∀ a, ¬ Reaches m.expansionOf a a := by
  constructor
  · intro h
    -- an entry that a step starts from is of a kind whose check follows that step
    refine ⟨(Validation.clean_reportCycles startsAtTypes_baseOf baseCycleKind).mp ?_,
      (Validation.clean_reportCycles startsAtTypes_expansionOf fun _ => .expansion).mp ?_⟩
    · rintro e he ⟨b, hb⟩
      have hc := h e he
      rw [baseOf_of_mem he] at hb
      unfold Entry.cycleReport at hc
      unfold baseCycleKind
      cases ht : e.type with
      | struct s inner => rwa [ht] at hc
      | enumeration x => rwa [ht] at hc
      | array a => rw [ht] at hb; cases hb
      | «alias» a => rw [ht] at hb; cases hb
    · rintro e he ⟨b, hb⟩
      have hc := h e he
      rw [expansionOf_of_mem he] at hb
      unfold Entry.cycleReport at hc
      cases ht : e.type with
      | struct s inner => rw [ht] at hb; cases hb
      | enumeration x => rw [ht] at hb; cases hb
      | array a => rwa [ht] at hc
      | «alias» a => rwa [ht] at hc
  · rintro ⟨hb, hx⟩ e _
    unfold Entry.cycleReport
    split
    · exact Validation.clean_reportCycle_of_not_reaches startsAtTypes_baseOf _ (hb e.id)
    · exact Validation.clean_reportCycle_of_not_reaches startsAtTypes_baseOf _ (hb e.id)
    · exact Validation.clean_reportCycle_of_not_reaches startsAtTypes_expansionOf _ (hx e.id)
    · exact Validation.clean_reportCycle_of_not_reaches startsAtTypes_expansionOf _ (hx e.id)

end Model

end TypeModel
