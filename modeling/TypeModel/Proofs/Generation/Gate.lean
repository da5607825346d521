import TypeModel.Compiler
import TypeModel.Proofs.Analysis.Analyze
import TypeModel.Proofs.Generation.Cpp
import TypeModel.Proofs.Generation.Proto

/-!
# What analysis promises to the generators

A model that passes analysis has a target for every reference of its listed types
(`linked_of_analyze`), but that is not all the generators need:

* both give up on chains of `maxExpansion` aliases or arrays, which analysis allows;
* the schema has structs at every depth, and analysis binds references one level deep only.

`generate_ok_iff` says that nothing else can go wrong, and `not_generated_longChain` that this can.
-/

namespace TypeModel

theorem Model.Settled.succeeds_target {m : Model} {e : Entry} {s : Site} (h : m.Settled e s)
    (hu : s.ref.binding ≠ .unresolved) : Succeeds (m.target s.ref) := by
  cases hb : s.ref.binding with
  | pending => exact absurd hb h.decided
  | unresolved => exact absurd hb hu
  | basic id =>
    obtain ⟨_, b, hid, _⟩ := h.basic id hb
    exact ⟨_, target_eq_basic.mpr ⟨id, hb, hid⟩⟩
  | type id =>
    obtain ⟨d, hid, _⟩ := h.type id hb
    exact ⟨_, target_eq_declared.mpr ⟨id, hb, hid⟩⟩

theorem TypeDef.Sound.expands {t : TypeDef} (h : t.Sound)
    (hk : t.kind = .array ∨ t.kind = .alias) : t.expands? ≠ none := by
  cases t with
  | struct s inner => rcases hk with hk | hk <;> cases hk
  | enumeration x => rcases hk with hk | hk <;> cases hk
  | array a =>
    obtain ⟨⟨r, hr, _⟩, _⟩ := h
    exact Option.ne_none_iff_exists'.mpr ⟨r, hr⟩
  | «alias» a =>
    obtain ⟨r, hr, _⟩ := h
    exact Option.ne_none_iff_exists'.mpr ⟨r, hr⟩

theorem Model.linked_of_analyze {m : Model} {ds : Diagnostics} (h : m.analyze.2 = .ok ds) :
    m.analyze.1.Linked := by
  rw [m.analyze_eq]
  have hmeaning := m.clean_resolutionDiagnostics.mp (clean_of_analyze h).1
  have hsound := (WellFormed.of_analyze h).sound
  intro e' he'
  obtain ⟨e, he, rfl⟩ := mem_allTypes_bind.mp he'
  constructor
  · intro x' hx'
    replace hx' : x' ∈ ((Namespace.ofModel m).bindEntry e).sites := hx'
    rw [Namespace.sites_bindEntry] at hx'
    obtain ⟨x, hx, rfl⟩ := List.mem_map.mp hx'
    rw [Namespace.bindSite_ofModel]
    exact (m.settled_siteMeaning e x).succeeds_target (hmeaning e he x hx)
  · exact ((Namespace.sound_bindEntry _ e).mpr (hsound e he)).expands

namespace Config
variable {c : Config} {m : Model}

theorem analyze_of_not_skip (h : c.generation.skipValidation = false) :
    c.analyze m =
      { model := m.analyze.1
        notices := m.deeplyNested.map Notice.deeplyNested
        result := m.analyze.2.mapError .analysis } := by
  unfold analyze
  rw [h]
  rfl

theorem succeeds_generate :
    Succeeds (c.generate m).2 ↔
      (c.generation.generateCpp = true → Succeeds (Cpp.generate m c.cpp).2) ∧
      (c.generation.generateProtobuf = true → Succeeds (Proto.generate m c.proto)) := by
  have hcpp : Succeeds (c.generateCpp m).2 ↔
      (c.generation.generateCpp = true → Succeeds (Cpp.generate m c.cpp).2) := by
    unfold generateCpp
    cases c.generation.generateCpp with
    | true => exact succeeds_map.trans (by simp)
    | false => exact iff_of_true (succeeds_ok _) nofun
  have hproto : Succeeds (c.generateProto m).2 ↔
      (c.generation.generateProtobuf = true → Succeeds (Proto.generate m c.proto)) := by
    unfold generateProto
    cases c.generation.generateProtobuf with
    | true => exact succeeds_map.trans (by simp)
    | false => exact iff_of_true (succeeds_ok _) nofun
  rw [← hcpp, ← hproto]
  unfold generate
  dsimp only
  rw [succeeds_bind_iff fun _ => succeeds_bind_iff fun _ => iff_true_intro (succeeds_pure _),
    and_true]

/-- after analysis the generators succeed if and only if no chain of aliases or arrays that they
follow is too long, and the references inside deeply nested structs lead somewhere -/
theorem generate_ok_iff (c : Config) (m : Model) (hskip : c.generation.skipValidation = false)
    (hok : ∃ ds, (c.analyze m).result = .ok ds) :
    (∃ out, (c.generate (c.analyze m).model).2 = .ok out) ↔
      (c.generation.generateCpp = true → ∀ e ∈ (c.analyze m).model.declaredTypes,
        ∀ s, e.type.struct? = some s → Cpp.Classified (c.analyze m).model s) ∧
      (c.generation.generateProtobuf = true → ∀ e ∈ (c.analyze m).model.declaredTypes,
        ∀ s ∈ e.type.structs, ∀ f ∈ s.instanceFields, f.Expandable (c.analyze m).model) := by
  rw [analyze_of_not_skip hskip] at hok ⊢
  obtain ⟨ds, hds⟩ := hok
  have hanalyze : m.analyze.2 = .ok ds := by
    cases h : m.analyze.2 with
    | error e => rw [h] at hds; cases hds
    | ok x => rw [h] at hds; cases hds; rfl
  have hlinked := Model.linked_of_analyze hanalyze
  show Succeeds (c.generate m.analyze.1).2 ↔ _
  rw [succeeds_generate, Cpp.succeeds_generate hlinked, Proto.succeeds_generate]

/-- the alias `n` of `target` -/
def aliasOf (n target : Name) : TypeDef :=
  .alias { name := n, actualType := some { name := target } }

/-- a struct whose field leads back to it through sixteen aliases -/
def longChain : Model :=
  { types :=
      [.struct { name := "Node", fields := [{ name := "next", typeRef := { name := "A0" } }] } []] ++
        ((List.range 15).map fun i => aliasOf ("A" ++ Nat.repr i) ("A" ++ Nat.repr (i + 1))) ++
        [aliasOf "A15" "Node"] }

def schemaOnly : Config := { generation := { generateCpp := false, generateProtobuf := true } }

theorem generate_ok_iff_longChain :
    schemaOnly.generation.skipValidation = false ∧
    (∃ ds, (schemaOnly.analyze longChain).result = .ok ds) ∧
    ¬ ∀ e ∈ (schemaOnly.analyze longChain).model.declaredTypes, ∀ s ∈ e.type.structs,
      ∀ f ∈ s.instanceFields, f.Expandable (schemaOnly.analyze longChain).model := by
  have hok : Succeeds (schemaOnly.analyze longChain).result :=
    succeeds_iff_isOk.mpr (by decide +kernel)
  have hfail : ¬ Succeeds (schemaOnly.generate (schemaOnly.analyze longChain).model).2 :=
    mt succeeds_iff_isOk.mp (by decide +kernel)
  refine ⟨rfl, hok, fun hf => hfail ?_⟩
  exact (generate_ok_iff schemaOnly longChain rfl hok).mpr ⟨nofun, fun _ => hf⟩

/-- sixteen aliases pass the analysis and then stop the schema -/
theorem not_generated_longChain :
    (schemaOnly.analyze longChain).result.isOk = true ∧
      (schemaOnly.generate (schemaOnly.analyze longChain).model).2 =
        .error (.unresolved "A0") := by
  constructor
  · decide +kernel
  · decide +kernel

end Config

end TypeModel
