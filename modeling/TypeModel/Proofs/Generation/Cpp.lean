import TypeModel.Cpp.Project
import TypeModel.Proofs.Cpp.Headings
import TypeModel.Proofs.Generation.Depth

/-!
# When C++ can be generated

In a model whose references all have targets, writing out a type never fails.  What may fail is the
question whether a parameter or accessor passes a value or a reference, since it follows aliases
up to a bound only.

* `Model.Linked m`          every reference of a listed type has a target, and every array and alias
                            has a type;
* `Classified m s`          the references of the struct `s` that are asked about lead somewhere
                            before the bound;
* `succeeds_header`, `succeeds_source`, `succeeds_testText`   the three files of a struct;
* `succeeds_generate`       the whole project.
-/

namespace TypeModel

/-- references have targets, and an array or alias has a type -/
structure TypeDef.Linked (m : Model) (t : TypeDef) : Prop where
  targets : ∀ x ∈ t.sites, Succeeds (m.target x.ref)
  expands : t.kind = .array ∨ t.kind = .alias → t.expands? ≠ none

def Model.Linked (m : Model) : Prop := ∀ e ∈ m.allTypes, e.type.Linked m

theorem TypeDef.Linked.of_mentions {m : Model} {t : TypeDef} {r : TypeRef} (h : t.Linked m)
    (hr : t.Mentions r) : Succeeds (m.target r) := by
  obtain ⟨x, hx, _, rfl⟩ := hr
  exact h.targets x hx

theorem TypeDef.Linked.base {m : Model} {t : TypeDef} {r : TypeRef} (h : t.Linked m)
    (hr : t.base? = some r) : Succeeds (m.target r) :=
  h.targets _ (TypeDef.mem_sites_of_base? hr)

/-- value and key type of a field have targets -/
structure Field.Linked (m : Model) (f : Field) : Prop where
  value : Succeeds (m.target f.typeRef)
  key : ∀ key, f.key = some key → Succeeds (m.target key)

theorem TypeDef.Linked.field {m : Model} {s : StructType} {inner : List TypeDef} {f : Field}
    (h : (TypeDef.struct s inner).Linked m) (hf : f ∈ s.fields) : f.Linked m :=
  ⟨h.of_mentions (mentions_field hf), fun _ hk => h.of_mentions (mentions_key hf hk)⟩

namespace Cpp
variable {m : Model} {ns : Option String}

/-! ## types -/

theorem succeeds_typeOf {r : TypeRef} : Succeeds (typeOf m ns r) ↔ Succeeds (m.target r) := by
  unfold typeOf
  rw [succeeds_bind]
  refine and_iff_left fun t _ => ?_
  cases t <;> exact succeeds_pure _

theorem typeOf_eq_declared {r : TypeRef} {id : TypeId} {spelling : String} :
    typeOf m ns r = .ok (.declared id spelling) ↔
      r.binding = .type id ∧ ∃ d, m.entry? id = some d ∧ spelling = qualifiedName d ns := by
  unfold typeOf
  constructor
  · intro h
    obtain ⟨t, ht, h⟩ := bind_eq_ok.mp h
    cases t with
    | basic b => cases h
    | declared d =>
      cases h
      obtain ⟨id, hid, hd⟩ := Model.target_eq_declared.mp ht
      obtain rfl := (Model.entry?_eq_some_iff_mem.mp hd).2
      exact ⟨hid, d, hd, rfl⟩
  · rintro ⟨hr, d, hd, rfl⟩
    obtain rfl := (Model.entry?_eq_some_iff_mem.mp hd).2
    rw [Model.target_eq_declared.mpr ⟨d.id, hr, hd⟩]
    rfl

theorem succeeds_parameterType {r : TypeRef} :
    Succeeds (parameterType m ns r) ↔ m.Within [.alias] r := by
  unfold parameterType
  rw [succeeds_bind_iff fun _ => succeeds_bind_iff fun _ => iff_true_intro (succeeds_pure _),
    succeeds_typeOf, m.succeeds_isScalar]
  exact ⟨fun h => h.2.1, fun h => ⟨h.succeeds_target, h, trivial⟩⟩

theorem succeeds_memberType {f : Field} (h : f.Linked m) : Succeeds (memberType m ns f) := by
  unfold memberType
  refine (succeeds_typeOf.mpr h.value).bind fun value _ => ?_
  cases hk : f.key with
  | none => exact succeeds_pure _
  | some key => exact (succeeds_typeOf.mpr (h.key key hk)).bind fun _ _ => succeeds_pure _

theorem succeeds_memberParameterType {f : Field} (h : f.Linked m) :
    Succeeds (memberParameterType m ns f) ↔ (f.isSingleValued → m.Within [.alias] f.typeRef) := by
  unfold memberParameterType
  cases f.isSingleValued with
  | true => exact succeeds_parameterType.trans (by simp)
  | false =>
    refine iff_of_true ?_ nofun
    exact (succeeds_memberType h).bind fun _ _ => succeeds_pure _

theorem succeeds_memberIsScalar {f : Field} :
    Succeeds (memberIsScalar m f) ↔ (f.isSingleValued → m.Within [.alias] f.typeRef) := by
  unfold memberIsScalar
  cases f.isSingleValued with
  | true => exact (m.succeeds_isScalar f.typeRef).trans (by simp)
  | false => exact iff_of_true (succeeds_pure _) nofun

theorem succeeds_bitFieldWidth {f : Field} (h : f.Linked m) : Succeeds (bitFieldWidth m f) := by
  unfold bitFieldWidth
  cases f.typeRef.bitLength with
  | none => exact succeeds_pure _
  | some bits =>
    dsimp only
    split
    · exact succeeds_pure _
    · refine h.value.bind fun t _ => ?_
      cases t with
      | basic b =>
        dsimp only
        cases b.kind <;> exact succeeds_pure _
      | declared e => exact succeeds_pure _

theorem succeeds_isEnumeration {r : TypeRef} (h : Succeeds (m.target r)) :
    Succeeds (isEnumeration m r) := by
  refine h.bind fun t _ => ?_
  cases t <;> exact succeeds_pure _

theorem succeeds_defaultText {f : Field} (h : f.Linked m) : Succeeds (defaultText m ns f) := by
  unfold defaultText
  cases f.defaultValue with
  | none => exact succeeds_pure _
  | some value =>
    dsimp only
    split
    · exact succeeds_pure _
    · refine (succeeds_isEnumeration h.value).bind fun b _ => ?_
      cases b with
      | false => exact succeeds_pure _
      | true =>
        refine (succeeds_typeOf.mpr h.value).bind fun t _ => ?_
        split <;> exact succeeds_pure _

/-! ## members -/

theorem succeeds_memberOf {f : Field} (h : f.Linked m) : Succeeds (memberOf m ns f) := by
  unfold memberOf
  refine (succeeds_memberType h).bind fun _ _ => ?_
  dsimp only
  split
  · exact succeeds_ok _
  · refine (succeeds_bitFieldWidth h).bind fun width _ => ?_
    cases width with
    | some bits => exact succeeds_ok _
    | none => exact (succeeds_defaultText h).bind fun _ _ => succeeds_ok _

theorem succeeds_memberBlocks {s : StructType} (h : ∀ f ∈ s.fields, f.Linked m)
    (withMutex : Bool) : Succeeds (memberBlocks m ns s withMutex) := by
  refine Succeeds.bind (succeeds_mapM.mpr fun v _ => ?_) fun _ _ => succeeds_pure _
  refine Succeeds.bind (succeeds_mapM.mpr fun f hf => ?_) fun _ _ => succeeds_pure _
  exact succeeds_memberOf (h f (List.mem_filter.mp hf).1)

theorem succeeds_usingArray {a : ArrayType} (h : (TypeDef.array a).Linked m) :
    Succeeds (usingArray m ns a) := by
  unfold usingArray
  cases ha : a.elementType with
  | none => exact absurd ha (h.expands (Or.inl rfl))
  | some r =>
    refine Succeeds.bind (succeeds_typeOf.mpr ?_) fun _ _ => succeeds_pure _
    exact h.of_mentions (TypeDef.mentions_expands? ha)

theorem succeeds_usingAlias {a : AliasType} (h : (TypeDef.alias a).Linked m) :
    Succeeds (usingAlias m ns a) := by
  unfold usingAlias
  cases ha : a.actualType with
  | none => exact absurd ha (h.expands (Or.inr rfl))
  | some r =>
    refine Succeeds.bind (succeeds_typeOf.mpr ?_) fun _ _ => succeeds_pure _
    exact h.of_mentions (TypeDef.mentions_expands? ha)

theorem succeeds_nestedOf {e : Entry} (h : e.type.Linked m) : Succeeds (nestedOf m ns e) := by
  unfold nestedOf
  dsimp only
  cases ht : e.type with
  | struct s inner =>
    rw [ht] at h
    exact (succeeds_memberBlocks (fun f hf => h.field hf) false).bind fun _ _ => succeeds_ok _
  | enumeration x => exact succeeds_ok _
  | array a =>
    rw [ht] at h
    exact (succeeds_usingArray h).bind fun _ _ => succeeds_ok _
  | «alias» a =>
    rw [ht] at h
    exact (succeeds_usingAlias h).bind fun _ _ => succeeds_ok _

/-! ## member functions -/

/-- the references of a struct that are passed by value or by reference lead somewhere before the
bound -/
structure Classified (m : Model) (s : StructType) : Prop where
  methods : ∀ x ∈ s.methods, ∀ p ∈ x.parameters, m.Within [.alias] p.typeRef
  constructors : ∀ c ∈ s.constructors, ∀ p ∈ c.parameters, m.Within [.alias] p.typeRef
  fields : hasFieldsConstructor s → ∀ f ∈ s.instanceFields, f.isSingleValued →
    m.Within [.alias] f.typeRef
  accessors : ∀ f ∈ accessorFields s, m.Within [.alias] f.typeRef

theorem mem_accessorFields {s : StructType} {f : Field} (h : f ∈ accessorFields s) :
    f ∈ s.fields ∧ f.isSingleValued := by
  obtain ⟨hi, ha⟩ := List.mem_filter.mp h
  obtain ⟨⟨hs, _⟩, _⟩ : (f.isSingleValued ∧ _) ∧ _ := by simpa using ha
  exact ⟨(List.mem_filter.mp hi).1, hs⟩

theorem succeeds_argumentsOf {ps : List Parameter} :
    Succeeds (argumentsOf m ns ps) ↔ ∀ p ∈ ps, m.Within [.alias] p.typeRef := by
  unfold argumentsOf
  rw [succeeds_mapM]
  refine forall₂_congr fun p _ => ?_
  rw [succeeds_bind_iff fun _ => iff_true_intro (succeeds_pure _), and_true]
  exact succeeds_parameterType

theorem succeeds_ofFields {s : StructType} (h : ∀ f ∈ s.fields, f.Linked m) :
    Succeeds (Heading.ofFields m ns s) ↔
      ∀ f ∈ s.instanceFields, f.isSingleValued → m.Within [.alias] f.typeRef := by
  unfold Heading.ofFields
  rw [succeeds_bind_iff fun _ => iff_true_intro (succeeds_pure _), and_true, succeeds_mapM]
  refine forall₂_congr fun f hf => ?_
  rw [succeeds_bind_iff fun _ => iff_true_intro (succeeds_pure _), and_true]
  exact succeeds_memberParameterType (h f (List.mem_filter.mp hf).1)

theorem succeeds_ofConstructor {s : StructType} {c : Constructor} :
    Succeeds (Heading.ofConstructor m ns s c) ↔
      ∀ p ∈ c.parameters, m.Within [.alias] p.typeRef := by
  unfold Heading.ofConstructor
  rw [succeeds_bind_iff fun _ => iff_true_intro (succeeds_pure _), and_true]
  exact succeeds_argumentsOf

theorem succeeds_ofMethod {x : Method} (h : ∀ r, x.returns = some r → Succeeds (m.target r)) :
    Succeeds (Heading.ofMethod m ns x) ↔ ∀ p ∈ x.parameters, m.Within [.alias] p.typeRef := by
  have hresult : Succeeds (resultOf m ns x) := by
    unfold resultOf
    cases hr : x.returns with
    | none => exact succeeds_pure _
    | some r => exact succeeds_typeOf.mpr (h r hr)
  unfold Heading.ofMethod
  rw [succeeds_bind_iff fun _ => succeeds_bind_iff fun _ => iff_true_intro (succeeds_pure _),
    and_true, succeeds_argumentsOf]
  exact and_iff_right hresult

theorem succeeds_getter {s : StructType} {f : Field} (h : f.Linked m) :
    Succeeds (Heading.getter m ns s f) ↔ (f.isSingleValued → m.Within [.alias] f.typeRef) := by
  unfold Heading.getter
  rw [succeeds_bind_iff fun _ => succeeds_bind_iff fun _ => iff_true_intro (succeeds_pure _),
    and_true, succeeds_memberIsScalar]
  exact and_iff_right (succeeds_memberType h)

theorem succeeds_setter {f : Field} (h : f.Linked m) :
    Succeeds (Heading.setter m ns f) ↔ (f.isSingleValued → m.Within [.alias] f.typeRef) := by
  unfold Heading.setter
  rw [succeeds_bind_iff fun _ => iff_true_intro (succeeds_pure _), and_true]
  exact succeeds_memberParameterType h

section
variable {e : Entry} {s : StructType} {inner : List TypeDef}

/-- what a declaration fails for is what its heading fails for -/
theorem succeeds_declaration {x : Except GenerationError Declaration}
    {y : Except GenerationError Heading} (h : x.map Declaration.heading = y) :
    Succeeds x ↔ Succeeds y := by
  rw [← h, succeeds_map]

theorem succeeds_authoredConstructors (v : Visibility) :
    Succeeds (authoredConstructors m ns s v) ↔
      ∀ c ∈ s.constructors, c.visibility = v → ∀ p ∈ c.parameters, m.Within [.alias] p.typeRef := by
  unfold authoredConstructors
  rw [succeeds_mapM]
  simp only [List.mem_filter, decide_eq_true_eq, and_imp]
  refine forall₃_congr fun c _ _ => ?_
  rw [succeeds_bind_iff fun _ => iff_true_intro (succeeds_pure _), and_true,
    succeeds_declaration (heading_ofConstructor m ns s c)]
  exact succeeds_ofConstructor

theorem succeeds_methodSection (h : (TypeDef.struct s inner).Linked m) (v : Visibility) :
    Succeeds (methodSection m ns s v) ↔
      ∀ x ∈ s.methods, x.visibility = v → ∀ p ∈ x.parameters, m.Within [.alias] p.typeRef := by
  unfold methodSection
  rw [succeeds_bind_iff fun _ => iff_true_intro (succeeds_pure _), and_true, succeeds_mapM]
  simp only [List.mem_filter, decide_eq_true_eq, and_imp]
  refine forall₃_congr fun x hx _ => ?_
  unfold methodItems
  rw [succeeds_bind_iff fun _ => iff_true_intro (succeeds_pure _), and_true,
    succeeds_declaration (heading_ofMethod m ns x)]
  exact succeeds_ofMethod fun r hr => h.of_mentions (TypeDef.mentions_returns hx hr)

theorem succeeds_generatedConstructors (h : (TypeDef.struct s inner).Linked m) :
    Succeeds (generatedConstructors m ns s) ↔ (hasFieldsConstructor s →
      ∀ f ∈ s.instanceFields, f.isSingleValued → m.Within [.alias] f.typeRef) := by
  unfold generatedConstructors
  dsimp only
  cases hasFieldsConstructor s with
  | true =>
    rw [if_pos rfl, succeeds_bind_iff fun _ => iff_true_intro (succeeds_pure _), and_true,
      succeeds_declaration (heading_ofFields m ns s), succeeds_ofFields fun f hf => h.field hf]
    simp
  | false => exact iff_of_true (succeeds_pure _) nofun

theorem succeeds_accessorItems (h : (TypeDef.struct s inner).Linked m) {f : Field}
    (hf : f ∈ accessorFields s) :
    Succeeds (accessorItems m ns s f) ↔ m.Within [.alias] f.typeRef := by
  obtain ⟨hmem, hsingle⟩ := mem_accessorFields hf
  unfold accessorItems
  rw [succeeds_bind_iff fun _ => succeeds_bind_iff fun _ => iff_true_intro (succeeds_pure _),
    and_true, succeeds_declaration (heading_getter m ns s f),
    succeeds_declaration (heading_setter m ns f), succeeds_getter (h.field hmem),
    succeeds_setter (h.field hmem)]
  simp [hsingle]

theorem succeeds_publicBlock (h : (TypeDef.struct s inner).Linked m) :
    Succeeds (publicBlock m ns e s) ↔
      (hasFieldsConstructor s →
        ∀ f ∈ s.instanceFields, f.isSingleValued → m.Within [.alias] f.typeRef) ∧
      (∀ c ∈ s.constructors, c.visibility = .publicAccess →
        ∀ p ∈ c.parameters, m.Within [.alias] p.typeRef) ∧
      (∀ x ∈ s.methods, x.visibility = .publicAccess →
        ∀ p ∈ x.parameters, m.Within [.alias] p.typeRef) ∧
      ∀ f ∈ accessorFields s, m.Within [.alias] f.typeRef := by
  unfold publicBlock
  rw [succeeds_bind_iff fun _ => succeeds_bind_iff fun _ => succeeds_bind_iff fun _ =>
      succeeds_bind_iff fun _ => iff_true_intro (succeeds_pure _),
    and_true, succeeds_generatedConstructors h, succeeds_authoredConstructors,
    succeeds_methodSection h, succeeds_mapM]
  refine and_congr_right fun _ => and_congr_right fun _ => and_congr_right fun _ => ?_
  exact forall₂_congr fun f hf => succeeds_accessorItems h hf

theorem succeeds_restrictedBlock (h : (TypeDef.struct s inner).Linked m) (v : Visibility) :
    Succeeds (restrictedBlock m ns s v) ↔
      (∀ c ∈ s.constructors, c.visibility = v → ∀ p ∈ c.parameters, m.Within [.alias] p.typeRef) ∧
      ∀ x ∈ s.methods, x.visibility = v → ∀ p ∈ x.parameters, m.Within [.alias] p.typeRef := by
  unfold restrictedBlock
  rw [succeeds_bind_iff fun _ => succeeds_bind_iff fun _ => iff_true_intro (succeeds_pure _),
    and_true, succeeds_authoredConstructors, succeeds_methodSection h]

/-- every constructor and method is in the block of its visibility -/
theorem succeeds_functionBlocks (h : (TypeDef.struct s inner).Linked m) :
    Succeeds (functionBlocks m ns e s) ↔ Classified m s := by
  unfold functionBlocks
  rw [succeeds_bind_iff fun _ => succeeds_bind_iff fun _ => succeeds_bind_iff fun _ =>
      iff_true_intro (succeeds_pure _),
    and_true, succeeds_publicBlock h, succeeds_restrictedBlock h, succeeds_restrictedBlock h]
  constructor
  · rintro ⟨⟨hf, hc, hm, ha⟩, ⟨hc', hm'⟩, hc'', hm''⟩
    refine ⟨fun x hx => ?_, fun c hx => ?_, hf, ha⟩
    · cases hv : x.visibility with
      | publicAccess => exact hm x hx hv
      | protectedAccess => exact hm' x hx hv
      | privateAccess => exact hm'' x hx hv
    · cases hv : c.visibility with
      | publicAccess => exact hc c hx hv
      | protectedAccess => exact hc' c hx hv
      | privateAccess => exact hc'' c hx hv
  · rintro ⟨hm, hc, hf, ha⟩
    exact ⟨⟨hf, fun c hx _ => hc c hx, fun x hx _ => hm x hx, ha⟩,
      ⟨fun c hx _ => hc c hx, fun x hx _ => hm x hx⟩, fun c hx _ => hc c hx, fun x hx _ => hm x hx⟩

/-! ## files -/

theorem succeeds_stemsMentioned (own : String) {refs : List TypeRef}
    (h : ∀ r ∈ refs, Succeeds (m.target r)) : Succeeds (stemsMentioned m own refs) :=
  (succeeds_mapM.mpr h).bind fun _ _ => succeeds_pure _

theorem succeeds_classOf (h : (TypeDef.struct s inner).Linked m)
    (hi : ∀ x ∈ e.inners, x.type.Linked m) :
    Succeeds (classOf m ns e s) ↔ Classified m s := by
  have hinner : Succeeds (e.inners.mapM (nestedOf m ns)) :=
    succeeds_mapM.mpr fun x hx => succeeds_nestedOf (hi x hx)
  have hmembers : Succeeds (memberBlocks m ns s s.options.threading) :=
    succeeds_memberBlocks (fun f hf => h.field hf) _
  have hrest : ∀ g : List Nested → List MemberBlock → List FunctionBlock → ClassDeclaration,
      Succeeds (do
        let nested ← e.inners.mapM (nestedOf m ns)
        let members ← memberBlocks m ns s s.options.threading
        let functions ← functionBlocks m ns e s
        return g nested members functions) ↔ Classified m s := by
    intro g
    rw [succeeds_bind_iff fun _ => succeeds_bind_iff fun _ => succeeds_bind_iff fun _ =>
        iff_true_intro (succeeds_pure _),
      and_true, succeeds_functionBlocks h]
    exact ⟨fun hc => hc.2.2, fun hc => ⟨hinner, hmembers, hc⟩⟩
  unfold classOf
  dsimp only
  cases hb : s.base with
  | none => exact hrest _
  | some r =>
    have hbase : Succeeds (typeOf m ns r) := succeeds_typeOf.mpr (h.base hb)
    exact (succeeds_bind_iff fun t => hrest _).trans (and_iff_right hbase)

theorem mem_structReferences (h : (TypeDef.struct s inner).Linked m)
    (hi : ∀ t ∈ inner, t.Linked m) : ∀ r ∈ structReferences s inner, Succeeds (m.target r) := by
  have hfield : ∀ (s : StructType) (inner : List TypeDef), (TypeDef.struct s inner).Linked m →
      ∀ r ∈ s.fields.flatMap fun f => f.typeRef :: f.key.toList, Succeeds (m.target r) := by
    intro s inner h r hr
    obtain ⟨f, hf, hr⟩ := List.mem_flatMap.mp hr
    rcases List.mem_cons.mp hr with rfl | hr
    · exact (h.field hf).value
    · exact (h.field hf).key r (Option.mem_toList.mp hr)
  intro r hr
  unfold structReferences at hr
  rcases List.mem_append.mp hr with hr | hr
  · rcases List.mem_append.mp hr with hr | hr
    · rcases List.mem_append.mp hr with hr | hr
      · rcases List.mem_append.mp hr with hr | hr
        · exact h.base (Option.mem_toList.mp hr)
        · exact hfield s inner h r hr
      · obtain ⟨x, hx, hr⟩ := List.mem_flatMap.mp hr
        rcases List.mem_append.mp hr with hr | hr
        · exact h.of_mentions (TypeDef.mentions_returns hx (Option.mem_toList.mp hr))
        · obtain ⟨p, hp, rfl⟩ := List.mem_map.mp hr
          exact h.of_mentions (TypeDef.mentions_methodParameter hx hp)
    · obtain ⟨c, hc, hr⟩ := List.mem_flatMap.mp hr
      obtain ⟨p, hp, rfl⟩ := List.mem_map.mp hr
      exact h.of_mentions (TypeDef.mentions_constructorParameter hc hp)
  · obtain ⟨t, ht, hr⟩ := List.mem_flatMap.mp hr
    cases t with
    | struct s' inner' => exact hfield s' inner' (hi _ ht) r hr
    | enumeration x => exact absurd hr List.not_mem_nil
    | array a =>
      exact (hi _ ht).of_mentions (TypeDef.mentions_expands? (Option.mem_toList.mp hr))
    | «alias» a =>
      exact (hi _ ht).of_mentions (TypeDef.mentions_expands? (Option.mem_toList.mp hr))

theorem mem_allTypes_of_mem_declaredTypes (he : e ∈ m.declaredTypes) : e ∈ m.allTypes :=
  List.mem_append_left _ he

theorem mem_allTypes_of_mem_inners {x : Entry} (he : e ∈ m.declaredTypes) (hx : x ∈ e.inners) :
    x ∈ m.allTypes :=
  List.mem_append_right _ (List.mem_flatMap.mpr ⟨e, he, hx⟩)

theorem linked_inner (hm : m.Linked) (he : e ∈ m.declaredTypes)
    (ht : e.type = .struct s inner) : ∀ t ∈ inner, t.Linked m := by
  intro t htm
  have hin : t ∈ e.type.innerTypes := by
    rw [ht]
    exact htm
  obtain ⟨x, hx, rfl⟩ := Entry.exists_inner hin
  exact hm x (mem_allTypes_of_mem_inners he hx)

theorem succeeds_header (hm : m.Linked) (he : e ∈ m.declaredTypes) :
    Succeeds (Header.ofEntry m e) ↔ ∀ s, e.type.struct? = some s → Classified m s := by
  have hl := hm e (mem_allTypes_of_mem_declaredTypes he)
  unfold Header.ofEntry
  dsimp only
  cases ht : e.type with
  | struct s inner =>
    rw [ht] at hl
    have hstems := succeeds_stemsMentioned s.name
      (mem_structReferences hl (linked_inner hm he ht))
    rw [succeeds_bind_iff fun _ => succeeds_bind_iff fun _ => iff_true_intro (succeeds_pure _),
      and_true, succeeds_classOf hl fun x hx => hm x (mem_allTypes_of_mem_inners he hx)]
    simp [hstems, TypeDef.struct?]
  | enumeration x => exact iff_of_true (succeeds_pure _) (by rintro s ⟨⟩)
  | array a =>
    rw [ht] at hl
    refine iff_of_true ((succeeds_stemsMentioned a.name fun r hr => ?_).bind fun _ _ =>
      (succeeds_usingArray hl).bind fun _ _ => succeeds_pure _) (by rintro s ⟨⟩)
    exact hl.of_mentions (TypeDef.mentions_expands? (Option.mem_toList.mp hr))
  | «alias» a =>
    rw [ht] at hl
    refine iff_of_true ((succeeds_stemsMentioned a.name fun r hr => ?_).bind fun _ _ =>
      (succeeds_usingAlias hl).bind fun _ _ => succeeds_pure _) (by rintro s ⟨⟩)
    exact hl.of_mentions (TypeDef.mentions_expands? (Option.mem_toList.mp hr))

/-! ## implementation and test -/

theorem succeeds_fieldEncoding {f : Field} (h : f.Linked m) : Succeeds (fieldEncoding m f) := by
  unfold fieldEncoding
  split
  · exact succeeds_pure _
  · refine h.value.bind fun t _ => ?_
    cases t <;> exact succeeds_pure _

theorem succeeds_serialization (h : (TypeDef.struct s inner).Linked m) :
    Succeeds (serializationDefinitions m ns s) := by
  unfold serializationDefinitions
  split
  · refine Succeeds.bind (Succeeds.bind (succeeds_mapM.mpr fun f hf => ?_) fun _ _ =>
      succeeds_pure _) fun _ _ => succeeds_pure _
    have hf := h.field (List.mem_filter.mp hf).1
    refine (succeeds_fieldEncoding hf).bind fun encoding _ => ?_
    cases encoding with
    | none => exact succeeds_pure _
    | some encoding => exact (succeeds_memberType hf).bind fun _ _ => succeeds_pure _
  · exact succeeds_pure _

theorem succeeds_specialDefinitions (h : (TypeDef.struct s inner).Linked m) :
    Succeeds (specialDefinitions m ns s) := by
  unfold specialDefinitions
  dsimp only
  cases hb : s.base with
  | none => exact succeeds_ok _
  | some r => exact (succeeds_typeOf.mpr (h.base hb)).bind fun _ _ => succeeds_ok _

theorem succeeds_source (h : (TypeDef.struct s inner).Linked m) (hc : Classified m s) :
    Succeeds (Source.ofStruct m e s) := by
  unfold Source.ofStruct
  refine Succeeds.bind (succeeds_mapM.mpr fun f hf => ?_) fun _ _ =>
    Succeeds.bind ?_ fun _ _ => Succeeds.bind (succeeds_mapM.mpr fun c hx => ?_) fun _ _ =>
    (succeeds_specialDefinitions h).bind fun _ _ =>
    Succeeds.bind (succeeds_mapM.mpr fun x hx => ?_) fun _ _ =>
    Succeeds.bind (succeeds_mapM.mpr fun f hf => ?_) fun _ _ =>
    (succeeds_serialization h).bind fun _ _ => succeeds_pure _
  · have hf := h.field (List.mem_filter.mp hf).1
    exact (succeeds_memberType hf).bind fun _ _ =>
      (succeeds_defaultText hf).bind fun _ _ => succeeds_pure _
  · unfold fieldsConstructors
    split
    case isTrue hfc =>
      exact ((succeeds_ofFields fun f hf => h.field hf).mpr (hc.fields hfc)).bind
        fun _ _ => succeeds_pure _
    case isFalse => exact succeeds_pure _
  · exact (succeeds_ofConstructor.mpr (hc.constructors c hx)).bind fun _ _ => succeeds_pure _
  · have hx := (List.mem_filter.mp hx).1
    exact ((succeeds_ofMethod fun r hr => h.of_mentions (TypeDef.mentions_returns hx hr)).mpr
      (hc.methods x hx)).bind fun _ _ => succeeds_pure _
  · have hfield := h.field (mem_accessorFields hf).1
    exact ((succeeds_getter hfield).mpr fun _ => hc.accessors f hf).bind fun _ _ =>
      ((succeeds_setter hfield).mpr fun _ => hc.accessors f hf).bind fun _ _ => succeeds_pure _

theorem succeeds_testText (h : (TypeDef.struct s inner).Linked m) (hc : Classified m s) :
    Succeeds (testText m e s) := by
  unfold testText testScript
  refine Succeeds.bind (Succeeds.bind ?_ fun _ _ => succeeds_pure _) fun _ _ => succeeds_pure _
  unfold testBody
  split
  · refine Succeeds.bind (succeeds_mapM.mpr fun f hf => ?_) fun _ _ => succeeds_pure _
    have hfield := h.field (mem_accessorFields hf).1
    have hscalar := (m.succeeds_isScalar f.typeRef).mpr (hc.accessors f hf)
    refine (succeeds_memberType hfield).bind fun _ _ => Succeeds.bind ?_ fun b _ => ?_
    · refine hfield.value.bind fun t _ => ?_
      cases t with
      | basic b => exact succeeds_pure _
      | declared e => exact hscalar
    · cases b <;> exact succeeds_pure _
  · exact succeeds_pure _

end

/-! ## the project -/

theorem succeeds_collect {ε : Type} (files : List (String × Except ε String)) :
    ∀ fs : FileSet, Succeeds (fs.collect files).2 ↔ ∀ p ∈ files, Succeeds p.2 := by
  induction files with
  | nil => exact fun fs => iff_of_true ⟨fs, rfl⟩ fun _ h => absurd h List.not_mem_nil
  | cons file files ih =>
    intro fs
    obtain ⟨path, text⟩ := file
    rw [List.forall_mem_cons]
    cases text with
    | error e => exact iff_of_false nofun fun h => not_succeeds_error e h.1
    | ok text => exact (ih _).trans (and_iff_right (succeeds_ok text)).symm

theorem succeeds_typePlan (hm : m.Linked) (c : CppConfig) {e : Entry} (he : e ∈ m.declaredTypes) :
    (∀ p ∈ typePlan m c e, Succeeds p.2) ↔ ∀ s, e.type.struct? = some s → Classified m s := by
  have hl := hm e (mem_allTypes_of_mem_declaredTypes he)
  unfold typePlan
  rw [List.forall_mem_cons, succeeds_map, succeeds_header hm he]
  refine and_iff_left_of_imp fun hc => ?_
  cases ht : e.type with
  | struct s inner =>
    rw [ht] at hl hc
    intro p hp
    rcases List.mem_cons.mp hp with rfl | hp
    · exact succeeds_map.mpr (succeeds_source hl (hc s rfl))
    · split at hp
      · obtain rfl := List.mem_singleton.mp hp
        exact succeeds_testText hl (hc s rfl)
      · exact absurd hp List.not_mem_nil
  | enumeration x => exact fun _ h => absurd h List.not_mem_nil
  | array a => exact fun _ h => absurd h List.not_mem_nil
  | «alias» a => exact fun _ h => absurd h List.not_mem_nil

theorem succeeds_generate (hm : m.Linked) (c : CppConfig) :
    Succeeds (generate m c).2 ↔
      ∀ e ∈ m.declaredTypes, ∀ s, e.type.struct? = some s → Classified m s := by
  unfold generate plan
  rw [succeeds_collect, List.forall_mem_append, List.forall_mem_flatMap]
  refine (and_iff_left ?_).trans (forall₂_congr fun e he => succeeds_typePlan hm c he)
  rw [List.forall_mem_cons, List.forall_mem_singleton]
  exact ⟨succeeds_ok _, succeeds_ok _⟩

end Cpp

end TypeModel
