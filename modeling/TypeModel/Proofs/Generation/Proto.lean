import TypeModel.Proto.Schema
import TypeModel.Proofs.Generation.Depth
import TypeModel.Proofs.Model.Trail

/-!
# When a schema can be generated

A schema has the instance fields of every struct at every depth, with those of its bases.  Its text
can be written if and only if each of these fields can be expanded.

* `Field.Expandable m f`   value and key type of `f` lead, before the bound, to a primitive type, a
                           struct or an enumeration;
* `TypeDef.structs t`      the structs in a declaration, at every depth;
* `succeeds_declare`       one declaration, in terms of the fields it writes;
* `succeeds_generate`      the whole schema, in terms of the structs of the model.
-/

namespace TypeModel

structure Field.Expandable (m : Model) (f : Field) : Prop where
  value : m.Within [.alias, .array] f.typeRef
  key : ∀ key, f.key = some key → m.Within [.alias, .array] key

namespace TypeDef

mutual

/-- the structs in a declaration, at every depth -/
def structs : TypeDef → List StructType
  | .struct s inner => s :: structsOfAll inner
  | .enumeration _ | .array _ | .alias _ => []

def structsOfAll : List TypeDef → List StructType
  | [] => []
  | t :: ts => t.structs ++ structsOfAll ts

end

theorem mem_structsOfAll {ts : List TypeDef} {s : StructType} :
    s ∈ structsOfAll ts ↔ ∃ t ∈ ts, s ∈ t.structs := by
  induction ts with
  | nil => exact iff_of_false List.not_mem_nil (by rintro ⟨_, h, _⟩; cases h)
  | cons t ts ih =>
    rw [structsOfAll, List.mem_append, ih]
    simp

theorem mem_structs {t : TypeDef} {s : StructType} :
    s ∈ t.structs ↔ t.struct? = some s ∨ ∃ u ∈ t.innerTypes, s ∈ u.structs := by
  cases t with
  | struct s' inner =>
    rw [structs, List.mem_cons, mem_structsOfAll]
    exact or_congr_left ⟨fun h => h ▸ rfl, fun h => (Option.some.inj h).symm⟩
  | enumeration x => simp [structs, struct?, innerTypes]
  | array a => simp [structs, struct?, innerTypes]
  | «alias» a => simp [structs, struct?, innerTypes]

end TypeDef

namespace Proto
variable {m : Model}

/-! ## fields -/

theorem succeeds_fieldType {r : TypeRef} :
    Succeeds (fieldType m r) ↔ m.Within [.alias, .array] r := by
  unfold fieldType
  rw [succeeds_bind, m.succeeds_expand]
  refine and_iff_left fun t _ => ?_
  obtain ⟨t, repeated⟩ := t
  cases t <;> exact succeeds_pure _

theorem succeeds_fieldShape {f : Field} : Succeeds (fieldShape m f) ↔ f.Expandable m := by
  have hkey : Succeeds (fieldShape m f) ↔ Succeeds (fieldType m f.typeRef) ∧
      ∀ key, f.key = some key → Succeeds (fieldType m key) := by
    unfold fieldShape
    rw [succeeds_bind_iff fun x => ?_]
    obtain ⟨value, repeated⟩ := x
    cases f.key with
    | none => exact iff_of_true (succeeds_pure _) nofun
    | some key =>
      refine (succeeds_bind_iff fun _ => iff_true_intro (succeeds_pure _)).trans ?_
      simp
  simp only [succeeds_fieldType] at hkey
  exact hkey.trans ⟨fun h => ⟨h.1, h.2⟩, fun h => ⟨h.value, h.key⟩⟩

theorem succeeds_messageFieldsFrom (fs : List Field) :
    ∀ number : Nat, Succeeds (messageFieldsFrom m number fs) ↔ ∀ f ∈ fs, f.Expandable m := by
  induction fs with
  | nil => exact fun _ => iff_of_true (succeeds_pure _) fun _ h => absurd h List.not_mem_nil
  | cons f fs ih =>
    intro number
    rw [messageFieldsFrom, List.forall_mem_cons, succeeds_bind_iff fun _ => ?_]
    · refine and_congr_left' ?_
      unfold messageField
      rw [succeeds_bind_iff fun _ => iff_true_intro (succeeds_pure _), and_true]
      exact succeeds_fieldShape
    · rw [succeeds_bind_iff fun _ => iff_true_intro (succeeds_pure _), and_true]
      exact ih (number + 1)

/-! ## declarations -/

mutual

theorem succeeds_declare (m : Model) (id : TypeId) :
    ∀ t : TypeDef, Succeeds (declare m id t) ↔ ∀ f ∈ writtenFields m id t, f.Expandable m
  | .struct s inner => by
    rw [declare, writtenFields, List.forall_mem_append, succeeds_bind_iff fun _ => ?_]
    · exact and_congr_left' (succeeds_declareAll m id 0 inner)
    · rw [succeeds_bind_iff fun _ => iff_true_intro (succeeds_pure _), and_true]
      exact succeeds_messageFieldsFrom _ 1
  | .enumeration e => by
    rw [declare, writtenFields]
    exact iff_of_true (succeeds_pure _) fun _ h => absurd h List.not_mem_nil
  | .array a => by
    rw [declare, writtenFields]
    exact iff_of_true (succeeds_pure _) fun _ h => absurd h List.not_mem_nil
  | .alias a => by
    rw [declare, writtenFields]
    exact iff_of_true (succeeds_pure _) fun _ h => absurd h List.not_mem_nil

theorem succeeds_declareAll (m : Model) (id : TypeId) :
    ∀ (i : Nat) (ts : List TypeDef), Succeeds (declareAll m id i ts) ↔
      ∀ f ∈ writtenFieldsOfAll m id i ts, f.Expandable m
  | _, [] => by
    rw [declareAll, writtenFieldsOfAll]
    exact iff_of_true (succeeds_pure _) fun _ h => absurd h List.not_mem_nil
  | i, t :: ts => by
    rw [declareAll, writtenFieldsOfAll, List.forall_mem_append, succeeds_bind_iff fun _ => ?_]
    · exact and_congr_left' (succeeds_declare m (id.withInner i) t)
    · rw [succeeds_bind_iff fun _ => iff_true_intro (succeeds_pure _), and_true]
      exact succeeds_declareAll m id (i + 1) ts

end

theorem succeeds_declareEntries (es : List Entry) :
    Succeeds (declareEntries m es) ↔
      ∀ e ∈ es, ∀ f ∈ writtenFields m e.id e.type, f.Expandable m := by
  unfold declareEntries
  rw [succeeds_bind_iff fun _ => iff_true_intro (succeeds_pure _), and_true, succeeds_mapM]
  exact forall₂_congr fun e _ => succeeds_declare m e.id e.type

/-- the declarations of packages are in the wrappers or among the others -/
theorem succeeds_ofModel (c : ProtoConfig) :
    Succeeds (Schema.ofModel m c) ↔
      ∀ e ∈ m.declaredTypes, ∀ f ∈ writtenFields m e.id e.type, f.Expandable m := by
  have hwrappers : Succeeds (m.packages.zipIdx.mapM fun x => wrapper m x.2 x.1) ↔
      ∀ e ∈ m.packagedTypes, ∀ f ∈ writtenFields m e.id e.type, f.Expandable m := by
    rw [succeeds_mapM]
    constructor
    · intro h e he
      obtain ⟨p, package, hp, he⟩ := mem_mapIdx_flatten_iff.mp he
      have hw := h (package, p) (List.mem_zipIdx_iff_getElem?.mpr hp)
      unfold wrapper at hw
      rw [succeeds_bind_iff fun _ => iff_true_intro (succeeds_pure _), and_true,
        succeeds_declareEntries] at hw
      exact hw e he
    · rintro h ⟨package, p⟩ hp
      have hp := List.mem_zipIdx_iff_getElem?.mp hp
      show Succeeds (wrapper m p package)
      unfold wrapper
      rw [succeeds_bind_iff fun _ => iff_true_intro (succeeds_pure _), and_true,
        succeeds_declareEntries]
      exact fun e he => h e (mem_mapIdx_flatten_iff.mpr ⟨p, package, hp, he⟩)
  unfold Schema.ofModel
  dsimp only
  cases wrapsPackages m with
  | true =>
    simp only [if_true]
    rw [succeeds_bind_iff fun _ => succeeds_bind_iff fun _ => iff_true_intro (succeeds_pure _),
      and_true, succeeds_declareEntries, hwrappers]
    exact List.forall_mem_append.symm
  | false =>
    simp only [Bool.false_eq_true, if_false]
    refine (succeeds_bind_iff fun _ => iff_true_intro (succeeds_ok _)).trans ?_
    rw [and_true]
    exact succeeds_declareEntries m.declaredTypes

/-! ## written fields -/

mutual

/-- the instance fields of a struct in a declaration are written -/
theorem mem_writtenFields (m : Model) (id : TypeId) {s : StructType} {f : Field}
    (hf : f ∈ s.instanceFields) : ∀ t : TypeDef, s ∈ t.structs → f ∈ writtenFields m id t
  | .struct s' inner, h => by
    rw [writtenFields, List.mem_append]
    rcases List.mem_cons.mp h with rfl | h
    · exact Or.inr (List.mem_append_right _ hf)
    · exact Or.inl (mem_writtenFieldsOfAll m id hf 0 inner h)

theorem mem_writtenFieldsOfAll (m : Model) (id : TypeId) {s : StructType} {f : Field}
    (hf : f ∈ s.instanceFields) : ∀ (i : Nat) (ts : List TypeDef), s ∈ TypeDef.structsOfAll ts →
      f ∈ writtenFieldsOfAll m id i ts
  | i, t :: ts, h => by
    rw [writtenFieldsOfAll, List.mem_append]
    rcases List.mem_append.mp h with h | h
    · exact Or.inl (mem_writtenFields m (id.withInner i) hf t h)
    · exact Or.inr (mem_writtenFieldsOfAll m id hf (i + 1) ts h)

end

/-- a listed struct is in a declared type -/
theorem mem_structs_of_mem_allTypes {d : Entry} (hd : d ∈ m.allTypes) {b : StructType}
    (hs : d.type.struct? = some b) : ∃ e ∈ m.declaredTypes, b ∈ e.type.structs := by
  have hown : b ∈ d.type.structs := TypeDef.mem_structs.mpr (Or.inl hs)
  rcases List.mem_append.mp hd with hd | hd
  · exact ⟨d, hd, hown⟩
  · obtain ⟨e, he, hin⟩ := List.mem_flatMap.mp hd
    obtain ⟨s, inner, i, t, hes, hi, rfl⟩ := Entry.mem_inners.mp hin
    refine ⟨e, he, TypeDef.mem_structs.mpr (Or.inr ⟨t, ?_, hown⟩)⟩
    rw [hes]
    exact List.mem_of_getElem? hi

/-- a struct that a handle leads to by bases is in a declared type -/
theorem mem_structs_of_mem_baseStructs {id : TypeId} {b : StructType} (hb : b ∈ m.baseStructs id) :
    ∃ e ∈ m.declaredTypes, b ∈ e.type.structs := by
  obtain ⟨c, _, hc⟩ := List.mem_filterMap.mp hb
  obtain ⟨t, ht, hs⟩ := Option.bind_eq_some_iff.mp hc
  obtain ⟨d, hd, _, _, rfl⟩ := Model.exists_entry_of_type? ht
  exact mem_structs_of_mem_allTypes hd hs

mutual

/-- a written field is an instance field of a struct in the declaration or of a base -/
theorem of_mem_writtenFields (m : Model) {f : Field} : ∀ (id : TypeId) (t : TypeDef),
    f ∈ writtenFields m id t → ∃ s, f ∈ s.instanceFields ∧
      (s ∈ t.structs ∨ ∃ e ∈ m.declaredTypes, s ∈ e.type.structs)
  | id, .struct s inner, h => by
    rw [writtenFields] at h
    rcases List.mem_append.mp h with h | h
    · obtain ⟨s', hf, hs⟩ := of_mem_writtenFieldsOfAll m id 0 inner h
      exact ⟨s', hf, hs.imp_left (List.mem_cons_of_mem s)⟩
    · rcases List.mem_append.mp h with h | h
      · obtain ⟨b, hb, hf⟩ := List.mem_flatMap.mp h
        exact ⟨b, hf, Or.inr (mem_structs_of_mem_baseStructs (List.mem_reverse.mp hb))⟩
      · exact ⟨s, h, Or.inl List.mem_cons_self⟩

theorem of_mem_writtenFieldsOfAll (m : Model) {f : Field} :
    ∀ (id : TypeId) (i : Nat) (ts : List TypeDef), f ∈ writtenFieldsOfAll m id i ts →
      ∃ s, f ∈ s.instanceFields ∧
        (s ∈ TypeDef.structsOfAll ts ∨ ∃ e ∈ m.declaredTypes, s ∈ e.type.structs)
  | id, i, t :: ts, h => by
    rw [writtenFieldsOfAll] at h
    rcases List.mem_append.mp h with h | h
    · obtain ⟨s, hf, hs⟩ := of_mem_writtenFields m (id.withInner i) t h
      exact ⟨s, hf, hs.imp_left (List.mem_append_left _)⟩
    · obtain ⟨s, hf, hs⟩ := of_mem_writtenFieldsOfAll m id (i + 1) ts h
      exact ⟨s, hf, hs.imp_left (List.mem_append_right _)⟩

end

theorem forall_writtenFields {P : Field → Prop} :
    (∀ e ∈ m.declaredTypes, ∀ f ∈ writtenFields m e.id e.type, P f) ↔
      ∀ e ∈ m.declaredTypes, ∀ s ∈ e.type.structs, ∀ f ∈ s.instanceFields, P f := by
  constructor
  · intro h e he s hs f hf
    exact h e he f (mem_writtenFields m e.id hf e.type hs)
  · intro h e he f hf
    obtain ⟨s, hfs, hs | ⟨d, hd, hs⟩⟩ := of_mem_writtenFields m e.id e.type hf
    · exact h e he s hs f hfs
    · exact h d hd s hs f hfs

theorem succeeds_generate (c : ProtoConfig) :
    Succeeds (generate m c) ↔
      ∀ e ∈ m.declaredTypes, ∀ s ∈ e.type.structs, ∀ f ∈ s.instanceFields, f.Expandable m := by
  unfold generate
  rw [succeeds_bind_iff fun _ => iff_true_intro (succeeds_pure _), and_true, succeeds_ofModel]
  exact forall_writtenFields

end Proto

end TypeModel
