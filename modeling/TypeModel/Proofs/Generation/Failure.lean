import TypeModel.Proofs.Generation.Expansion

/-!
# Why a schema cannot be generated

After analysis every reference has a target and every array and alias a type.  So the bound on the
references that are followed is all that can stop the expansion of a field, and the error names the
reference that the field was written with.

* `expand_eq_error`        a reference with a target fails under its own name;
* `exists_of_declare_error`   a declaration fails with a field that it writes;
* `structs_of_flat`        where inner structs hold no types, the listed structs are all there are;
* `schema_generated_iff`   the result: when a schema is generated, and the cause if it is not.
-/

namespace TypeModel

/-! ## where a computation fails -/

section
variable {ε α β : Type} {x : Except ε α} {f : α → Except ε β} {err : ε}

theorem bind_eq_error :
    (x >>= f) = .error err ↔ x = .error err ∨ ∃ a, x = .ok a ∧ f a = .error err := by
  cases x with
  | error e =>
    constructor
    · rintro ⟨⟩
      exact Or.inl rfl
    · rintro (⟨⟨⟩⟩ | ⟨_, h, _⟩)
      · rfl
      · cases h
  | ok a =>
    rw [ok_bind]
    constructor
    · exact fun h => Or.inr ⟨a, rfl, h⟩
    · rintro (h | ⟨_, ⟨⟩, h⟩)
      · cases h
      · exact h

/-- a computation whose result is only put into another form fails by itself -/
theorem bind_pure_eq_error {g : α → β} : (x >>= fun a => pure (g a)) = .error err ↔
    x = .error err := by
  rw [bind_eq_error]
  exact or_iff_left (by rintro ⟨a, _, h⟩; cases h)

theorem exists_of_mapM_error {l : List α} (h : l.mapM f = .error err) :
    ∃ a ∈ l, f a = .error err := by
  induction l with
  | nil => cases h
  | cons a l ih =>
    rw [List.mapM_cons] at h
    rcases bind_eq_error.mp h with h | ⟨b, _, h⟩
    · exact ⟨a, List.mem_cons_self, h⟩
    · obtain ⟨x, hx, hfx⟩ := ih (bind_pure_eq_error.mp h)
      exact ⟨x, List.mem_cons_of_mem a hx, hfx⟩

end

/-! ## references -/

namespace Model
variable {m : Model}

theorem expand_eq_error (hm : m.Linked) {r : TypeRef} (hr : Succeeds (m.target r))
    {err : GenerationError} (h : m.expand r = .error err) :
    err = .unresolved r.name ∧ ¬ m.Within [.alias, .array] r := by
  have hunbroken : m.Unbroken [.alias, .array] r := hm.unbroken (by decide) hr
  refine ⟨(findsWithin_expand hunbroken).eq_of_error h, fun hwithin => ?_⟩
  obtain ⟨t, ht⟩ := (m.succeeds_expand r).mpr hwithin
  rw [h] at ht
  cases ht

end Model

/-- `r` is the value or the key type of a field -/
def Field.Refers (f : Field) (r : TypeRef) : Prop := r = f.typeRef ∨ f.key = some r

theorem Field.Linked.of_refers {m : Model} {f : Field} {r : TypeRef} (h : f.Linked m)
    (hr : f.Refers r) : Succeeds (m.target r) := by
  rcases hr with rfl | hr
  · exact h.value
  · exact h.key r hr

namespace Proto
variable {m : Model} {err : GenerationError}

/-! ## fields and declarations -/

theorem fieldType_eq_error {r : TypeRef} (h : fieldType m r = .error err) :
    m.expand r = .error err := by
  unfold fieldType at h
  rcases bind_eq_error.mp h with h | ⟨⟨t, repeated⟩, _, h⟩
  · exact h
  · cases t <;> cases h

theorem exists_of_fieldShape_error {f : Field} (h : fieldShape m f = .error err) :
    ∃ r, f.Refers r ∧ m.expand r = .error err := by
  unfold fieldShape at h
  rcases bind_eq_error.mp h with h | ⟨⟨value, repeated⟩, _, h⟩
  · exact ⟨f.typeRef, Or.inl rfl, fieldType_eq_error h⟩
  · cases hk : f.key with
    | none => rw [hk] at h; cases h
    | some key =>
      rw [hk] at h
      exact ⟨key, Or.inr hk, fieldType_eq_error (bind_pure_eq_error.mp h)⟩

theorem exists_of_messageFields_error (fs : List Field) :
    ∀ number : Nat, messageFieldsFrom m number fs = .error err →
      ∃ f ∈ fs, fieldShape m f = .error err := by
  induction fs with
  | nil => exact fun _ h => nomatch h
  | cons f fs ih =>
    intro number h
    rw [messageFieldsFrom] at h
    rcases bind_eq_error.mp h with h | ⟨_, _, h⟩
    · exact ⟨f, List.mem_cons_self, bind_pure_eq_error.mp h⟩
    · obtain ⟨g, hg, herr⟩ := ih (number + 1) (bind_pure_eq_error.mp h)
      exact ⟨g, List.mem_cons_of_mem f hg, herr⟩

mutual

theorem exists_of_declare_error (m : Model) (id : TypeId) :
    ∀ t : TypeDef, declare m id t = .error err →
      ∃ f ∈ writtenFields m id t, fieldShape m f = .error err
  | .struct s inner, h => by
    rw [declare] at h
    rw [writtenFields]
    rcases bind_eq_error.mp h with h | ⟨_, _, h⟩
    · obtain ⟨f, hf, herr⟩ := exists_of_declareAll_error m id 0 inner h
      exact ⟨f, List.mem_append_left _ hf, herr⟩
    · obtain ⟨f, hf, herr⟩ := exists_of_messageFields_error _ 1 (bind_pure_eq_error.mp h)
      exact ⟨f, List.mem_append_right _ hf, herr⟩
  | .enumeration e, h => by rw [declare] at h; cases h
  | .array a, h => by rw [declare] at h; cases h
  | .alias a, h => by rw [declare] at h; cases h

theorem exists_of_declareAll_error (m : Model) (id : TypeId) :
    ∀ (i : Nat) (ts : List TypeDef), declareAll m id i ts = .error err →
      ∃ f ∈ writtenFieldsOfAll m id i ts, fieldShape m f = .error err
  | i, [], h => by rw [declareAll] at h; cases h
  | i, t :: ts, h => by
    rw [declareAll] at h
    rw [writtenFieldsOfAll]
    rcases bind_eq_error.mp h with h | ⟨_, _, h⟩
    · obtain ⟨f, hf, herr⟩ := exists_of_declare_error m (id.withInner i) t h
      exact ⟨f, List.mem_append_left _ hf, herr⟩
    · obtain ⟨f, hf, herr⟩ :=
        exists_of_declareAll_error m id (i + 1) ts (bind_pure_eq_error.mp h)
      exact ⟨f, List.mem_append_right _ hf, herr⟩

end

theorem exists_of_declareEntries_error {es : List Entry}
    (h : declareEntries m es = .error err) :
    ∃ e ∈ es, ∃ f ∈ writtenFields m e.id e.type, fieldShape m f = .error err := by
  obtain ⟨e, he, h⟩ := exists_of_mapM_error (bind_pure_eq_error.mp h)
  exact ⟨e, he, exists_of_declare_error m e.id e.type h⟩

theorem exists_of_wrapper_error {p : Nat} {package : Package} (hp : m.packages[p]? = some package)
    (h : wrapper m p package = .error err) :
    ∃ e ∈ m.packagedTypes, ∃ f ∈ writtenFields m e.id e.type, fieldShape m f = .error err := by
  obtain ⟨e, he, h⟩ := exists_of_declareEntries_error (bind_pure_eq_error.mp h)
  exact ⟨e, mem_mapIdx_flatten_iff.mpr ⟨p, package, hp, he⟩, h⟩

theorem exists_of_generate_error {c : ProtoConfig} (h : generate m c = .error err) :
    ∃ e ∈ m.declaredTypes, ∃ f ∈ writtenFields m e.id e.type, fieldShape m f = .error err := by
  have h : Schema.ofModel m c = .error err := bind_pure_eq_error.mp h
  unfold Schema.ofModel at h
  dsimp only at h
  rcases bind_eq_error.mp h with h | ⟨_, _, h⟩
  · obtain ⟨e, he, h⟩ := exists_of_declareEntries_error h
    refine ⟨e, ?_, h⟩
    split at he
    · exact List.mem_append_left _ he
    · exact he
  · split at h
    · obtain ⟨⟨package, p⟩, hp, h⟩ := exists_of_mapM_error (bind_pure_eq_error.mp h)
      obtain ⟨e, he, h⟩ := exists_of_wrapper_error (List.mem_zipIdx_iff_getElem?.mp hp) h
      exact ⟨e, List.mem_append_right _ he, h⟩
    · cases h

/-! ## the schema of a flat model -/

/-- where inner structs hold no types, the structs of the declarations are those that are listed -/
theorem structs_of_flat (hflat : ∀ e ∈ m.innerTypes, e.type.innerTypes = []) {s : StructType} :
    (∃ e ∈ m.declaredTypes, s ∈ e.type.structs) ↔
      ∃ e ∈ m.allTypes, e.type.struct? = some s := by
  constructor
  · rintro ⟨e, he, hs⟩
    rcases TypeDef.mem_structs.mp hs with hs | ⟨t, ht, hs⟩
    · exact ⟨e, List.mem_append_left _ he, hs⟩
    · obtain ⟨x, hx, rfl⟩ := Entry.exists_inner ht
      have hin : x ∈ m.innerTypes := List.mem_flatMap.mpr ⟨e, he, hx⟩
      rcases TypeDef.mem_structs.mp hs with hs | ⟨u, hu, _⟩
      · exact ⟨x, List.mem_append_right _ hin, hs⟩
      · rw [hflat x hin] at hu
        cases hu
  · rintro ⟨e, he, hs⟩
    exact mem_structs_of_mem_allTypes he hs

/-- after analysis and without types inside inner structs, a schema is generated if and only if the
value and key types of all fields lead somewhere before the bound; else the error is that a reference
of a field is not resolved, one that leads too far -/
theorem schema_generated_iff (m : Model) {r : Model} {ds : Diagnostics}
    (h : m.analyze = (r, .ok ds)) (hflat : ∀ e ∈ r.innerTypes, e.type.innerTypes = [])
    (c : ProtoConfig) :
    ((∃ files, generate r c = .ok files) ↔
      ∀ e ∈ r.allTypes, ∀ s, e.type.struct? = some s → ∀ f ∈ s.instanceFields, f.Expandable r) ∧
    ∀ err, generate r c = .error err →
      ∃ e ∈ r.allTypes, ∃ s, e.type.struct? = some s ∧ ∃ f ∈ s.instanceFields, ∃ ref,
        f.Refers ref ∧ ¬ r.Within [.alias, .array] ref ∧ err = .unresolved ref.name := by
  have hr : m.analyze.1 = r := congrArg Prod.fst h
  have hok : m.analyze.2 = .ok ds := congrArg Prod.snd h
  have hlinked : r.Linked := hr ▸ Model.linked_of_analyze hok
  constructor
  · refine (succeeds_generate c).trans ⟨fun hall e he s hs => ?_, fun hall e he s hs => ?_⟩
    · obtain ⟨d, hd, hsd⟩ := (structs_of_flat hflat).mpr ⟨e, he, hs⟩
      exact hall d hd s hsd
    · obtain ⟨d, hd, hsd⟩ := (structs_of_flat hflat).mp ⟨e, he, hs⟩
      exact hall d hd s hsd
  · intro err herr
    obtain ⟨e, he, f, hf, hshape⟩ := exists_of_generate_error herr
    obtain ⟨ref, href, hexpand⟩ := exists_of_fieldShape_error hshape
    obtain ⟨s, hfs, hs⟩ := of_mem_writtenFields r e.id e.type hf
    have hdeclared : ∃ e ∈ r.declaredTypes, s ∈ e.type.structs := hs.elim (⟨e, he, ·⟩) id
    obtain ⟨d, hd, hds⟩ := (structs_of_flat hflat).mp hdeclared
    have hfield : f.Linked r := by
      have hl := hlinked d hd
      obtain ⟨inner, hdt⟩ := TypeDef.struct?_eq_some.mp hds
      rw [hdt] at hl
      exact hl.field (List.mem_filter.mp hfs).1
    obtain ⟨rfl, hfar⟩ := Model.expand_eq_error hlinked (hfield.of_refers href) hexpand
    exact ⟨d, hd, s, hds, f, hfs, ref, href, hfar, rfl⟩

open Config in
/-- a struct whose field leads back to it through fourteen aliases and an array -/
def fullChain : Model :=
  { types :=
      [.struct { name := "Node", fields := [{ name := "next", typeRef := { name := "A0" } }] } []] ++
        ((List.range 14).map fun i => aliasOf ("A" ++ Nat.repr i) ("A" ++ Nat.repr (i + 1))) ++
        [.array { name := "A14", elementType := some { name := "Node" } }] }

theorem schema_generated_iff_fullChain :
    fullChain.analyze = (fullChain.analyze.1, .ok []) ∧
    (∀ e ∈ fullChain.analyze.1.innerTypes, e.type.innerTypes = []) ∧
    ∀ e ∈ fullChain.analyze.1.allTypes, ∀ s, e.type.struct? = some s → ∀ f ∈ s.instanceFields,
      f.Expandable fullChain.analyze.1 := by
  have hok : fullChain.analyze.2 = .ok [] := by decide +kernel
  have hflat : ∀ e ∈ fullChain.analyze.1.innerTypes, e.type.innerTypes = [] := by
    have hnone : fullChain.analyze.1.innerTypes.length = 0 := by decide +kernel
    rw [List.length_eq_zero_iff.mp hnone]
    exact fun _ h => absurd h List.not_mem_nil
  have hanalyze : fullChain.analyze = (fullChain.analyze.1, .ok []) := by rw [← hok]
  refine ⟨hanalyze, hflat, (schema_generated_iff fullChain hanalyze hflat {}).1.mp ?_⟩
  exact succeeds_iff_isOk.mpr (by decide +kernel)

end Proto

end TypeModel
