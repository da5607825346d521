import Mathlib.Logic.Relation
import TypeModel.Analysis.Issue
import TypeModel.Model.Chain
import TypeModel.Proofs.Model.Trail
import TypeModel.Proofs.Resolution.Meaning

/-!
# Well-formed models

What a model has to be like for its analysis to succeed, said of the model as it is written:
names stand for what they mean (`Model.meaning`, `Model.baseMeaning`), and no binding is looked
at.

* `TypeDef.Sound`         the rules about one declaration by itself;
* `Model.Extends`         a struct or enumeration and its base;
* `Model.StandsFor`       an array or alias and the type it is another form of;
* `Model.AllowedKey`      a name that stands, through aliases, for a primitive type that is not a
                          floating-point one;
* `Model.WellFormed`      all rules.

The relations are the steps that validation follows in the bound model (`baseOf_bind`,
`expansionOf_bind`), and binding keeps a declaration sound (`sound_bindType`).
-/

namespace TypeModel

/-! ## one declaration -/

/-- a bit length, where one is given, is in range -/
def TypeRef.LengthInRange (r : TypeRef) : Prop :=
  ∀ bits, r.bitLength = some bits → 1 ≤ bits ∧ bits ≤ maxBitLength

/-- the size and the references of a field -/
structure Field.Sound (f : Field) : Prop where
  size : ∀ n, f.arraySize = some n → 0 < n
  value : f.typeRef.LengthInRange
  key : ∀ key, f.key = some key → key.LengthInRange

/-- the modifiers and the references of a method of a struct with the given base -/
structure Method.Sound (base : Option TypeRef) (x : Method) : Prop where
  static : x.has .static → ¬ x.has .virtual ∧ ¬ x.has .const ∧ ¬ x.has .override ∧
    ¬ x.has .pureVirtual
  override : x.has .override → base ≠ none
  returns : ∀ r, x.returns = some r → r.LengthInRange
  parameters : ∀ p ∈ x.parameters, p.typeRef.LengthInRange

structure StructType.Sound (s : StructType) : Prop where
  names : (s.fields.map Field.name).Nodup
  fields : ∀ f ∈ s.fields, f.Sound
  methods : ∀ x ∈ s.methods, x.Sound s.base

/-- the rules about a declaration that concern no other one -/
def TypeDef.Sound : TypeDef → Prop
  | .struct s _ => s.Sound
  | .enumeration e => (e.enumerators.map Enumerator.name).Nodup
  | .array a => (∃ r, a.elementType = some r ∧ r.LengthInRange) ∧ ∀ n, a.size = some n → 0 < n
  | .alias a => ∃ r, a.actualType = some r ∧ r.LengthInRange

/-! ## declarations together -/

namespace Model

/-- `b` is the base of the declaration `a` -/
def Extends (m : Model) (a b : TypeId) : Prop :=
  ∃ e ∈ m.allTypes, e.id = a ∧
    ∃ r, e.type.base? = some r ∧ m.baseMeaning r.name e.type.kind e.id = .type b

/-- the array or alias `a` is made of `b` or another name for it -/
def StandsFor (m : Model) (a b : TypeId) : Prop :=
  ∃ e ∈ m.allTypes, e.id = a ∧ ∃ r, e.type.expands? = some r ∧ m.meaning r.name = .type b

/-- a declaration has the name -/
def Declares (m : Model) (n : Name) : Prop :=
  (∃ x ∈ m.basicTypes, x.2.name = n) ∨ ∃ e ∈ m.allTypes, e.Carries n

inductive AllowedKey (m : Model) : Name → Prop
  | primitive {n : Name} {id : BasicId} {b : BasicType} :
      m.meaning n = .basic id → m.basic? id = some b → b.kind.isFloat = false → AllowedKey m n
  | alias {n : Name} {id : TypeId} {a : AliasType} {r : TypeRef} :
      m.meaning n = .type id → m.type? id = some (.alias a) → a.actualType = some r →
        AllowedKey m r.name → AllowedKey m n

structure WellFormed (m : Model) : Prop where
  /-- references that are no bases -/
  references : ∀ e ∈ m.allTypes, ∀ s ∈ e.sites, s.role ≠ .base → m.Declares s.ref.name
  bases : ∀ e ∈ m.allTypes, ∀ r, e.type.base? = some r →
    ∃ d ∈ m.allTypes, d.Carries r.name ∧ d.type.kind = e.type.kind ∧ d.id ≠ e.id
  /-- names in one group or scope -/
  primitiveNames : ∀ g ∈ m.primitives, (g.dataTypes.map BasicType.name).Nodup
  topLevelNames : (m.types.map TypeDef.name).Nodup
  packageNames : ∀ p ∈ m.packages, p.name ≠ "" ∧ (p.types.map TypeDef.name).Nodup
  innerNames : ∀ e ∈ m.declaredTypes, (e.type.innerTypes.map TypeDef.name).Nodup
  /-- declarations by themselves -/
  sound : ∀ e ∈ m.allTypes, e.type.Sound
  /-- no chain comes back to where it started -/
  basesEnd : ∀ a, ¬ Relation.TransGen m.Extends a a
  expansionsEnd : ∀ a, ¬ Relation.TransGen m.StandsFor a a
  /-- fields of a struct and of one that it extends -/
  inheritedNames : ∀ e ∈ m.allTypes, ∀ s, e.type.struct? = some s →
    ∀ d ∈ m.allTypes, ∀ b, d.type.struct? = some b → Relation.TransGen m.Extends e.id d.id →
      ∀ f ∈ s.fields, ∀ g ∈ b.fields, f.name ≠ g.name
  mapKeys : ∀ e ∈ m.allTypes, ∀ s, e.type.struct? = some s →
    ∀ f ∈ s.fields, ∀ key, f.key = some key → m.AllowedKey key.name

theorem declares_iff (m : Model) (n : Name) : m.Declares n ↔ m.meaning n ≠ .unresolved := by
  unfold Declares
  rcases m.meaning_cases n with ⟨x, hx, hn, hm⟩ | ⟨e, he, hc, hm⟩ | ⟨hb, ht, hm⟩
  · rw [hm]
    exact iff_of_true (Or.inl ⟨x, hx, hn⟩) nofun
  · rw [hm]
    exact iff_of_true (Or.inr ⟨e, he, hc⟩) nofun
  · rw [hm]
    refine iff_of_false ?_ (fun h => h rfl)
    rintro (⟨x, hx, hn⟩ | ⟨e, he, hc⟩)
    · exact hb x hx hn
    · exact ht e he hc

end Model

/-! ## the bound model -/

namespace Namespace

theorem base?_bindEntry (ns : Namespace) (e : Entry) :
    (ns.bindEntry e).type.base? = e.type.base?.map (ns.bindBase e.id e.type.kind) := by
  rw [ns.type_bindEntry e TypeDef.base? fun _ _ _ => rfl]
  cases e.type <;> rfl

theorem expands?_bindEntry (ns : Namespace) (e : Entry) :
    (ns.bindEntry e).type.expands? = e.type.expands?.map ns.bindRef := by
  rw [ns.type_bindEntry e TypeDef.expands? fun _ _ _ => rfl]
  cases e.type <;> rfl

theorem struct?_bindEntry (ns : Namespace) (e : Entry) :
    (ns.bindEntry e).type.struct? = e.type.struct?.map (ns.bindStruct e.id) := by
  rw [ns.type_bindEntry e TypeDef.struct? fun _ _ _ => rfl]
  cases e.type <;> rfl

theorem lengthInRange_bindRef (ns : Namespace) (r : TypeRef) :
    (ns.bindRef r).LengthInRange ↔ r.LengthInRange := Iff.rfl

theorem sound_mapRefs_field (ns : Namespace) (f : Field) :
    (f.mapRefs ns.bindRef).Sound ↔ f.Sound := by
  have hk : (∀ key, f.key.map ns.bindRef = some key → key.LengthInRange) ↔
      ∀ key, f.key = some key → key.LengthInRange := by
    cases f.key <;> simp [lengthInRange_bindRef]
  exact ⟨fun h => ⟨h.size, h.value, hk.mp h.key⟩, fun h => ⟨h.size, h.value, hk.mpr h.key⟩⟩

theorem sound_mapRefs_method (ns : Namespace) (base : Option TypeRef) (fb : TypeRef → TypeRef)
    (x : Method) : (x.mapRefs ns.bindRef).Sound (base.map fb) ↔ x.Sound base := by
  have hb : base.map fb ≠ none ↔ base ≠ none := not_congr Option.map_eq_none_iff
  have hr : (∀ r, x.returns.map ns.bindRef = some r → r.LengthInRange) ↔
      ∀ r, x.returns = some r → r.LengthInRange := by
    cases x.returns <;> simp [lengthInRange_bindRef]
  have hp : (∀ p ∈ x.parameters.map (Parameter.mapRef ns.bindRef), p.typeRef.LengthInRange) ↔
      ∀ p ∈ x.parameters, p.typeRef.LengthInRange := List.forall_mem_map
  constructor
  · rintro ⟨h1, h2, h3, h4⟩
    exact ⟨h1, fun h => hb.mp (h2 h), hr.mp h3, hp.mp h4⟩
  · rintro ⟨h1, h2, h3, h4⟩
    exact ⟨h1, fun h => hb.mpr (h2 h), hr.mpr h3, hp.mpr h4⟩

theorem sound_bindStruct (ns : Namespace) (id : TypeId) (s : StructType) :
    (ns.bindStruct id s).Sound ↔ s.Sound := by
  have hn : (s.fields.map (Field.mapRefs ns.bindRef)).map Field.name = s.fields.map Field.name :=
    List.map_map
  have hf : (∀ f ∈ s.fields.map (Field.mapRefs ns.bindRef), f.Sound) ↔ ∀ f ∈ s.fields, f.Sound :=
    List.forall_mem_map.trans (forall₂_congr fun f _ => ns.sound_mapRefs_field f)
  have hm : (∀ x ∈ s.methods.map (Method.mapRefs ns.bindRef),
        x.Sound (s.base.map (ns.bindBase id .struct))) ↔ ∀ x ∈ s.methods, x.Sound s.base :=
    List.forall_mem_map.trans (forall₂_congr fun x _ => ns.sound_mapRefs_method s.base _ x)
  constructor
  · rintro ⟨h1, h2, h3⟩
    exact ⟨hn ▸ h1, hf.mp h2, hm.mp h3⟩
  · rintro ⟨h1, h2, h3⟩
    exact ⟨hn.symm ▸ h1, hf.mpr h2, hm.mpr h3⟩

theorem sound_bindType (ns : Namespace) (id : TypeId) (t : TypeDef) :
    (ns.bindType id t).Sound ↔ t.Sound := by
  have hr : ∀ o : Option TypeRef, (∃ r, o.map ns.bindRef = some r ∧ r.LengthInRange) ↔
      ∃ r, o = some r ∧ r.LengthInRange := by
    intro o
    cases o <;> simp [lengthInRange_bindRef]
  cases t with
  | struct s inner => exact ns.sound_bindStruct id s
  | enumeration e => exact Iff.rfl
  | array a => exact and_congr_left' (hr a.elementType)
  | «alias» a => exact hr a.actualType

theorem sound_bindEntry (ns : Namespace) (e : Entry) :
    (ns.bindEntry e).type.Sound ↔ e.type.Sound := by
  rw [ns.type_bindEntry e TypeDef.Sound fun _ _ _ => rfl]
  exact ns.sound_bindType e.id e.type

end Namespace

namespace Model

theorem binding_bindRef (m : Model) (r : TypeRef) :
    ((Namespace.ofModel m).bindRef r).binding = m.meaning r.name := Namespace.resolve_fst m r.name

theorem type?_bind (m : Model) (id : TypeId) :
    m.bind.type? id = (m.entry? id).map fun e => ((Namespace.ofModel m).bindEntry e).type := by
  rw [type?_eq_entry_type, entry?_bind, Option.map_map]
  rfl

theorem typeRef_type?_eq_some {r : TypeRef} {id : TypeId} :
    r.type? = some id ↔ r.binding = .type id := by
  unfold TypeRef.type?
  cases r.binding <;> simp [Binding.type?]

theorem baseOf_bind {m : Model} {a b : TypeId} : m.bind.baseOf a = some b ↔ m.Extends a b := by
  unfold baseOf Extends
  rw [type?_bind, Option.bind_eq_some_iff]
  constructor
  · rintro ⟨r, hr, hb⟩
    obtain ⟨t, ht, htr⟩ := Option.bind_eq_some_iff.mp hr
    obtain ⟨e, he, rfl⟩ := Option.map_eq_some_iff.mp ht
    rw [Namespace.base?_bindEntry] at htr
    obtain ⟨r, hbase, rfl⟩ := Option.map_eq_some_iff.mp htr
    obtain ⟨he, hid⟩ := entry?_eq_some_iff_mem.mp he
    refine ⟨e, he, hid, r, hbase, ?_⟩
    rw [← Namespace.resolveBase_fst]
    exact typeRef_type?_eq_some.mp hb
  · rintro ⟨e, he, hid, r, hbase, hm⟩
    refine ⟨(Namespace.ofModel m).bindBase e.id e.type.kind r, ?_, ?_⟩
    · rw [entry?_eq_some_iff_mem.mpr ⟨he, hid⟩, Option.map_some, Option.bind_some,
        Namespace.base?_bindEntry, hbase]
      rfl
    · rw [← Namespace.resolveBase_fst] at hm
      exact typeRef_type?_eq_some.mpr hm

theorem expansionOf_bind {m : Model} {a b : TypeId} :
    m.bind.expansionOf a = some b ↔ m.StandsFor a b := by
  unfold expansionOf StandsFor
  rw [type?_bind, Option.bind_eq_some_iff]
  constructor
  · rintro ⟨r, hr, hb⟩
    obtain ⟨t, ht, htr⟩ := Option.bind_eq_some_iff.mp hr
    obtain ⟨e, he, rfl⟩ := Option.map_eq_some_iff.mp ht
    rw [Namespace.expands?_bindEntry] at htr
    obtain ⟨r, hexp, rfl⟩ := Option.map_eq_some_iff.mp htr
    obtain ⟨he, hid⟩ := entry?_eq_some_iff_mem.mp he
    refine ⟨e, he, hid, r, hexp, ?_⟩
    rw [← binding_bindRef]
    exact typeRef_type?_eq_some.mp hb
  · rintro ⟨e, he, hid, r, hexp, hm⟩
    refine ⟨(Namespace.ofModel m).bindRef r, ?_, ?_⟩
    · rw [entry?_eq_some_iff_mem.mpr ⟨he, hid⟩, Option.map_some, Option.bind_some,
        Namespace.expands?_bindEntry, hexp]
      rfl
    · rw [← binding_bindRef] at hm
      exact typeRef_type?_eq_some.mpr hm

theorem reaches_baseOf_bind (m : Model) :
    Reaches m.bind.baseOf = Relation.TransGen m.Extends := by
  unfold Reaches
  congr 1
  funext a b
  exact propext baseOf_bind

theorem reaches_expansionOf_bind (m : Model) :
    Reaches m.bind.expansionOf = Relation.TransGen m.StandsFor := by
  unfold Reaches
  congr 1
  funext a b
  exact propext expansionOf_bind

end Model

end TypeModel
