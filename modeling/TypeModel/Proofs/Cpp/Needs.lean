import TypeModel.Proofs.Cpp.HeaderLines

/-!
# What the types in a header need

The includes of a header are collected from the declaration of a struct, and the types in its lines
are put together from the same declaration in another place.  Both need the same.

* `HeaderLine.types l`      the types that are spelled out in a line;
* `TypeExpr.needs t`        the declarations, as they are spelled, and the templates in a type;
* `structNeeds m ns s inner`   those of all references and arrays of a struct;
* `mem_needs_header_iff`    the lines of a header need what its struct needs;
* `mem_templateHeaders`     which templates these are;
* `hasMutex_iff`            which blocks have a lock.
-/

namespace TypeModel.Cpp

/-- what has to be declared before a type is used -/
inductive Need where
  | type (id : TypeId) (spelling : String)
  | template (name : String)
  deriving DecidableEq

/-- the class templates that stand in a header of their name -/
def templateHeaders : List String := ["array", "map", "vector"]

namespace TypeExpr

def needs : TypeExpr → List Need
  | .primitive _ | .named _ => []
  | .declared id spelling => [.type id spelling]
  | .array t _ => .template "array" :: t.needs
  | .vector t => .template "vector" :: t.needs
  | .map key value => .template "map" :: (key.needs ++ value.needs)
  | .constRef t | .ref t | .rvalueRef t => t.needs

theorem mem_handles_iff {t : TypeExpr} {id : TypeId} :
    id ∈ t.handles ↔ ∃ spelling, .type id spelling ∈ t.needs := by
  induction t with
  | primitive kind => simp [needs, handles]
  | declared id' spelling => simp [needs, handles]
  | named text => simp [needs, handles]
  | array t size ih => simp [needs, handles, ih]
  | vector t ih => simp [needs, handles, ih]
  | map key value ihk ihv => simp [needs, handles, ihk, ihv, exists_or]
  | constRef t ih => exact ih
  | ref t ih => exact ih
  | rvalueRef t ih => exact ih

end TypeExpr

namespace HeaderLine

/-- the types that are spelled out: of the base, of members, behind other names for types and in
the declarations of functions -/
def types : HeaderLine → List TypeExpr
  | .opening _ base => base.toList
  | .member x => [x.type]
  | .synonym u => [u.type]
  | .function d => d.returns.toList ++ d.arguments.map (·.type)
  | .system _ | .project _ | .lock | .other _ => []

def needs (l : HeaderLine) : List Need := l.types.flatMap TypeExpr.needs

end HeaderLine

def Header.types (h : Header) : List TypeExpr := h.lines.flatMap HeaderLine.types

theorem mem_needs_types {h : Header} {z : Need} :
    z ∈ h.lines.flatMap HeaderLine.needs ↔ ∃ t ∈ h.types, z ∈ t.needs := by
  unfold Header.types HeaderLine.needs
  rw [← List.flatMap_assoc, List.mem_flatMap]

/-! ## what a struct needs -/

section
variable (m : Model) (ns : Option String)

/-- the declaration behind a reference, as it is spelled in the namespace `ns` -/
def refNeeds (r : TypeRef) : List Need :=
  ((r.type?.bind m.entry?).map fun d => .type d.id (qualifiedName d ns)).toList

def fieldNeeds (f : Field) : List Need :=
  (fieldIncludes f).map .template ++ (f.key.toList ++ [f.typeRef]).flatMap (refNeeds m ns)

def methodNeeds (x : Method) : List Need :=
  (x.returns.toList ++ x.parameters.map (·.typeRef)).flatMap (refNeeds m ns)

def constructorNeeds (c : Constructor) : List Need :=
  (c.parameters.map (·.typeRef)).flatMap (refNeeds m ns)

/-- the needs of a type inside a struct -/
def nestedNeeds : TypeDef → List Need
  | .struct s _ => s.fields.flatMap (fieldNeeds m ns)
  | .enumeration _ => []
  | .array a => .template (arrayInclude a) :: a.elementType.toList.flatMap (refNeeds m ns)
  | .alias a => a.actualType.toList.flatMap (refNeeds m ns)

def structNeeds (s : StructType) (inner : List TypeDef) : List Need :=
  s.base.toList.flatMap (refNeeds m ns) ++ inner.flatMap (nestedNeeds m ns) ++
    s.fields.flatMap (fieldNeeds m ns) ++ s.methods.flatMap (methodNeeds m ns) ++
    s.constructors.flatMap (constructorNeeds m ns)

end

section
variable {m : Model} {ns : Option String} {s : StructType} {inner : List TypeDef}

theorem type_mem_refNeeds {r : TypeRef} {id : TypeId} {spelling : String} :
    .type id spelling ∈ refNeeds m ns r ↔
      r.type? = some id ∧ ∃ d, m.entry? id = some d ∧ qualifiedName d ns = spelling := by
  unfold refNeeds
  rw [Option.mem_toList, Option.map_eq_some_iff]
  constructor
  · rintro ⟨d, hd, hneed⟩
    obtain ⟨id', hid, hd⟩ := Option.bind_eq_some_iff.mp hd
    obtain rfl := (Model.entry?_eq_some_iff_mem.mp hd).2
    cases hneed
    exact ⟨hid, d, hd, rfl⟩
  · rintro ⟨hid, d, hd, rfl⟩
    obtain rfl := (Model.entry?_eq_some_iff_mem.mp hd).2
    exact ⟨d, Option.bind_eq_some_iff.mpr ⟨d.id, hid, hd⟩, rfl⟩

theorem template_notMem_refNeeds {r : TypeRef} {name : String} :
    .template name ∉ refNeeds m ns r := by
  unfold refNeeds
  cases r.type?.bind m.entry? <;> simp

theorem type_mem_fieldNeeds {f : Field} {id : TypeId} {spelling : String} :
    .type id spelling ∈ fieldNeeds m ns f ↔
      ∃ r ∈ f.typeRef :: f.key.toList, .type id spelling ∈ refNeeds m ns r := by
  unfold fieldNeeds
  cases f.key <;> simp [or_comm]

theorem template_mem_fieldNeeds {f : Field} {name : String} :
    .template name ∈ fieldNeeds m ns f ↔ name ∈ fieldIncludes f := by
  unfold fieldNeeds
  simp [template_notMem_refNeeds]

/-- the references of a type inside a struct that the header of the struct spells out -/
def nestedReferences : TypeDef → List TypeRef
  | .struct i _ => i.fields.flatMap fun f => f.typeRef :: f.key.toList
  | t => t.expands?.toList

theorem type_mem_nestedNeeds {t : TypeDef} {id : TypeId} {spelling : String} :
    .type id spelling ∈ nestedNeeds m ns t ↔
      ∃ r ∈ nestedReferences t, .type id spelling ∈ refNeeds m ns r := by
  cases t with
  | struct i deeper =>
    unfold nestedNeeds nestedReferences
    simp only [List.mem_flatMap, type_mem_fieldNeeds]
    constructor
    · rintro ⟨f, hf, r, hr, hid⟩
      exact ⟨r, ⟨f, hf, hr⟩, hid⟩
    · rintro ⟨r, ⟨f, hf, hr⟩, hid⟩
      exact ⟨f, hf, r, hr, hid⟩
  | enumeration x => simp [nestedNeeds, nestedReferences, TypeDef.expands?]
  | array a => simp [nestedNeeds, nestedReferences, TypeDef.expands?]
  | «alias» a => simp [nestedNeeds, nestedReferences, TypeDef.expands?]

theorem type_mem_structNeeds {id : TypeId} {spelling : String} :
    .type id spelling ∈ structNeeds m ns s inner ↔
      ∃ r ∈ structReferences s inner, .type id spelling ∈ refNeeds m ns r := by
  have hrefs : structReferences s inner = s.base.toList ++
      (s.fields.flatMap fun f => f.typeRef :: f.key.toList) ++
      (s.methods.flatMap fun x => x.returns.toList ++ x.parameters.map (·.typeRef)) ++
      (s.constructors.flatMap fun c => c.parameters.map (·.typeRef)) ++
      inner.flatMap nestedReferences := by
    unfold structReferences nestedReferences
    rfl
  rw [hrefs]
  unfold structNeeds methodNeeds constructorNeeds
  simp only [List.mem_append, List.mem_flatMap, type_mem_fieldNeeds, type_mem_nestedNeeds]
  grind

/-- the templates of a type inside a struct -/
def nestedIncludes : TypeDef → List String
  | .struct i _ => i.fields.flatMap fieldIncludes
  | .array a => [arrayInclude a]
  | _ => []

theorem template_mem_nestedNeeds {t : TypeDef} {name : String} :
    .template name ∈ nestedNeeds m ns t ↔ name ∈ nestedIncludes t := by
  cases t with
  | struct i deeper => simp [nestedNeeds, nestedIncludes, template_mem_fieldNeeds]
  | enumeration x => simp [nestedNeeds, nestedIncludes]
  | array a => simp [nestedNeeds, nestedIncludes, template_notMem_refNeeds]
  | «alias» a => simp [nestedNeeds, nestedIncludes, template_notMem_refNeeds]

theorem template_mem_structNeeds {name : String} :
    .template name ∈ structNeeds m ns s inner ↔
      name ∈ s.fields.flatMap fieldIncludes ++ inner.flatMap nestedIncludes := by
  unfold structNeeds methodNeeds constructorNeeds
  simp [template_mem_fieldNeeds, template_mem_nestedNeeds, template_notMem_refNeeds, or_comm]

theorem mem_standardHeaders {name : String} :
    name ∈ standardHeaders s inner ↔ name = "cstdint" ∨ name = "string" ∨
      .template name ∈ structNeeds m ns s inner ∨
        (s.options.threading = true ∧ name = "mutex") := by
  have hall : standardHeaders s inner = Text.orderedOf (["cstdint", "string"] ++
      s.fields.flatMap fieldIncludes ++ inner.flatMap nestedIncludes ++
        if s.options.threading then ["mutex"] else []) := by
    unfold standardHeaders nestedIncludes
    rfl
  rw [hall, Text.mem_orderedOf, template_mem_structNeeds]
  cases s.options.threading <;> simp [or_assoc]

theorem mem_templateHeaders {name : String} (h : .template name ∈ structNeeds m ns s inner) :
    name ∈ templateHeaders := by
  have hfield : ∀ f : Field, fieldIncludes f ⊆ templateHeaders := by
    intro f
    unfold fieldIncludes
    cases f.arraySize <;> cases f.key <;> simp [templateHeaders]
  have hnested : ∀ t : TypeDef, nestedIncludes t ⊆ templateHeaders := by
    intro t
    cases t with
    | struct i deeper =>
      intro x hx
      obtain ⟨f, _, hx⟩ := List.mem_flatMap.mp hx
      exact hfield f hx
    | enumeration x => exact List.nil_subset _
    | array a => cases ha : a.size <;> simp [nestedIncludes, arrayInclude, ha, templateHeaders]
    | «alias» a => exact List.nil_subset _
  rcases List.mem_append.mp (template_mem_structNeeds.mp h) with hmem | hmem
  · obtain ⟨f, _, hmem⟩ := List.mem_flatMap.mp hmem
    exact hfield f hmem
  · obtain ⟨t, _, hmem⟩ := List.mem_flatMap.mp hmem
    exact hnested t hmem

end

/-! ## what the lines need -/

section
variable {m : Model} {ns : Option String} {e : Entry} {s : StructType}

theorem needs_of_typeOf {r : TypeRef} {t : TypeExpr} (h : typeOf m ns r = .ok t) :
    t.needs = refNeeds m ns r := by
  obtain ⟨target, htarget, h⟩ := bind_eq_ok.mp h
  unfold refNeeds TypeRef.type?
  cases target with
  | basic b =>
    obtain ⟨id, hid, _⟩ := Model.target_eq_basic.mp htarget
    cases h
    rw [hid]
    rfl
  | declared d =>
    obtain ⟨id, hid, hd⟩ := Model.target_eq_declared.mp htarget
    cases h
    rw [hid]
    show _ = ((m.entry? id).map fun d => Need.type d.id (qualifiedName d ns)).toList
    rw [hd]
    rfl

theorem needs_of_parameterType {r : TypeRef} {t : TypeExpr} (h : parameterType m ns r = .ok t) :
    t.needs = refNeeds m ns r := by
  obtain ⟨type, htype, h⟩ := bind_eq_ok.mp h
  obtain ⟨isScalar, _, h⟩ := bind_eq_ok.mp h
  cases h
  rw [← needs_of_typeOf htype]
  cases isScalar <;> rfl

theorem needs_of_memberType {f : Field} {t : TypeExpr} (h : memberType m ns f = .ok t) :
    t.needs = fieldNeeds m ns f := by
  obtain ⟨value, hvalue, h⟩ := bind_eq_ok.mp h
  unfold fieldNeeds fieldIncludes
  cases hkey : f.key with
  | none =>
    rw [hkey] at h
    cases h
    cases hsize : f.arraySize <;> simp [TypeExpr.needs, needs_of_typeOf hvalue]
  | some key =>
    rw [hkey] at h
    obtain ⟨keyType, hkeyType, h⟩ := bind_eq_ok.mp h
    cases h
    cases hsize : f.arraySize <;>
      simp [TypeExpr.needs, needs_of_typeOf hvalue, needs_of_typeOf hkeyType]

theorem needs_of_memberParameterType {f : Field} {t : TypeExpr}
    (h : memberParameterType m ns f = .ok t) : t.needs = fieldNeeds m ns f := by
  unfold memberParameterType at h
  split at h
  case isTrue hsingle =>
    have hparts : f.arraySize = none ∧ f.key = none := by
      simpa [Field.isSingleValued] using hsingle
    rw [needs_of_parameterType h]
    simp [fieldNeeds, fieldIncludes, hparts]
  case isFalse hsingle =>
    obtain ⟨type, htype, h⟩ := bind_eq_ok.mp h
    cases h
    rw [TypeExpr.needs, needs_of_memberType htype]

/-! ### declarations of functions -/

/-- the needs of a declaration: those of its result and of its arguments -/
theorem needs_function (d : Declaration) : (HeaderLine.function d).needs =
    d.returns.toList.flatMap TypeExpr.needs ++ d.arguments.flatMap (·.type.needs) := by
  unfold HeaderLine.needs HeaderLine.types
  rw [List.flatMap_append, List.flatMap_map]

theorem needs_of_argumentsOf {ps : List Parameter} {args : List Argument}
    (h : argumentsOf m ns ps = .ok args) :
    args.flatMap (·.type.needs) = (ps.map (·.typeRef)).flatMap (refNeeds m ns) := by
  rw [List.flatMap_map]
  refine flatMap_of_mapM (fun p a ha => ?_) h
  obtain ⟨type, htype, ha⟩ := bind_eq_ok.mp ha
  cases ha
  exact needs_of_parameterType htype

theorem needs_of_resultOf {x : Method} {t : TypeExpr} (h : resultOf m ns x = .ok t) :
    t.needs = x.returns.toList.flatMap (refNeeds m ns) := by
  unfold resultOf at h
  cases hr : x.returns with
  | none =>
    rw [hr] at h
    cases h
    rfl
  | some r =>
    rw [hr] at h
    rw [needs_of_typeOf h, Option.toList_some, List.flatMap_singleton]

theorem needs_of_ofFields {d : Declaration} (h : Declaration.ofFields m ns s = .ok d) :
    (HeaderLine.function d).needs = s.instanceFields.flatMap (fieldNeeds m ns) := by
  obtain ⟨args, hargs, h⟩ := bind_eq_ok.mp h
  cases h
  rw [needs_function]
  refine flatMap_of_mapM (fun f a ha => ?_) hargs
  obtain ⟨type, htype, ha⟩ := bind_eq_ok.mp ha
  cases ha
  exact needs_of_memberParameterType htype

theorem needs_of_constructorItem {c : Constructor} {i : SectionItem}
    (h : constructorItem m ns s c = .ok i) : i.line.needs = constructorNeeds m ns c := by
  obtain ⟨d, hd, h⟩ := bind_eq_ok.mp h
  obtain ⟨args, hargs, hd⟩ := bind_eq_ok.mp hd
  cases hd
  cases h
  exact (needs_function _).trans (needs_of_argumentsOf hargs)

theorem needs_of_methodItems {x : Method} {items : List SectionItem}
    (h : methodItems m ns x = .ok items) :
    items.flatMap (fun i => i.line.needs) = methodNeeds m ns x := by
  obtain ⟨d, hd, h⟩ := bind_eq_ok.mp h
  obtain ⟨result, hresult, hd⟩ := bind_eq_ok.mp hd
  obtain ⟨args, hargs, hd⟩ := bind_eq_ok.mp hd
  cases hd
  cases h
  have hnote : ((x.description.map fun text => SectionItem.note ("// " ++ text)).toList).flatMap
      (fun i => i.line.needs) = [] := by
    cases x.description <;> rfl
  rw [List.flatMap_append, hnote, List.nil_append, List.flatMap_singleton]
  refine (needs_function _).trans ?_
  unfold methodNeeds
  rw [List.flatMap_append, ← needs_of_argumentsOf hargs, ← needs_of_resultOf hresult,
    Option.toList_some, List.flatMap_singleton]

theorem needs_of_accessorItems {f : Field} {items : List SectionItem}
    (h : accessorItems m ns s f = .ok items) :
    items.flatMap (fun i => i.line.needs) = fieldNeeds m ns f ++ fieldNeeds m ns f := by
  obtain ⟨getter, hgetter, h⟩ := bind_eq_ok.mp h
  obtain ⟨setter, hsetter, h⟩ := bind_eq_ok.mp h
  cases h
  have hget : (HeaderLine.function getter).needs = fieldNeeds m ns f := by
    obtain ⟨type, htype, hgetter⟩ := bind_eq_ok.mp hgetter
    obtain ⟨isScalar, _, hgetter⟩ := bind_eq_ok.mp hgetter
    cases hgetter
    rw [needs_function, ← needs_of_memberType htype]
    cases isScalar <;> cases s.options.threading <;> simp [TypeExpr.needs]
  have hset : (HeaderLine.function setter).needs = fieldNeeds m ns f := by
    obtain ⟨type, htype, hsetter⟩ := bind_eq_ok.mp hsetter
    cases hsetter
    rw [needs_function, ← needs_of_memberParameterType htype]
    simp [TypeExpr.needs]
  show (HeaderLine.function getter).needs ++ ((HeaderLine.function setter).needs ++ []) = _
  rw [hget, hset, List.append_nil]

/-- members that are generated for every struct name no type but their own -/
theorem needs_of_specialMembers (m : Model) (e : Entry) (s : StructType) :
    (specialMembers m e s).flatMap (fun i => i.line.needs) = [] := by
  unfold specialMembers
  rw [List.flatMap_map, List.flatMap_append, List.flatMap_append]
  cases s.options.copySemantics <;> cases s.options.moveSemantics <;> rfl

theorem needs_of_operatorItems (s : StructType) :
    (operatorItems s).flatMap (fun i => i.line.needs) = [] := by
  unfold operatorItems
  split <;> rfl

theorem needs_of_serializationItems (s : StructType) :
    (serializationItems s).flatMap (fun i => i.line.needs) = [] := by
  unfold serializationItems
  split <;> rfl

theorem needs_of_generatedConstructors {items : List SectionItem}
    (h : generatedConstructors m ns s = .ok items) :
    items.flatMap (fun i => i.line.needs) =
      if hasFieldsConstructor s then s.instanceFields.flatMap (fieldNeeds m ns) else [] := by
  have hsimple : (if hasDefaultConstructor s then []
      else [SectionItem.declaration { name := s.name }]).flatMap (fun i => i.line.needs) = [] := by
    split <;> rfl
  unfold generatedConstructors at h
  dsimp only at h
  split at h
  case isTrue hfields =>
    obtain ⟨d, hd, h⟩ := bind_eq_ok.mp h
    cases h
    rw [if_pos hfields, List.flatMap_append, hsimple, List.nil_append, List.flatMap_singleton]
    exact needs_of_ofFields hd
  case isFalse hfields =>
    cases h
    rw [if_neg hfields, hsimple]

/-- functions spell out the types of methods and constructors, and besides these only types of
fields -/
theorem mem_needs_functions {blocks : List FunctionBlock}
    (h : functionBlocks m ns e s = .ok blocks) {z : Need} :
    z ∈ s.fields.flatMap (fieldNeeds m ns) ∨
        z ∈ (itemsOf blocks).flatMap (fun i => i.line.needs) ↔
      z ∈ s.fields.flatMap (fieldNeeds m ns) ++ s.methods.flatMap (methodNeeds m ns) ++
        s.constructors.flatMap (constructorNeeds m ns) := by
  obtain ⟨generated, authored, methods, accessors, hgenerated, hauthored, hmethods, haccessors,
    hperm⟩ := items_perm h
  have hconstructors := flatMap_of_mapM (fun _ _ => needs_of_constructorItem) hauthored
  have hdeclared : methods.flatten.flatMap (fun i => i.line.needs) =
      s.methods.flatMap (methodNeeds m ns) := by
    rw [List.flatten_eq_flatMap, List.flatMap_assoc]
    exact flatMap_of_mapM (fun _ _ => needs_of_methodItems) hmethods
  have haccessed : accessors.flatten.flatMap (fun i => i.line.needs) =
      (accessorFields s).flatMap fun f => fieldNeeds m ns f ++ fieldNeeds m ns f := by
    rw [List.flatten_eq_flatMap, List.flatMap_assoc]
    exact flatMap_of_mapM (fun _ _ => needs_of_accessorItems) haccessors
  rw [(hperm.flatMap_right fun i => i.line.needs).mem_iff]
  simp only [List.flatMap_append]
  rw [needs_of_generatedConstructors hgenerated, hconstructors, needs_of_specialMembers, hdeclared,
    haccessed, needs_of_operatorItems, needs_of_serializationItems]
  -- the constructor from fields and the accessors may leave fields out, but add none
  have hfields : z ∈ (if hasFieldsConstructor s then s.instanceFields.flatMap (fieldNeeds m ns)
      else []) → z ∈ s.fields.flatMap (fieldNeeds m ns) := by
    split
    · intro hz
      obtain ⟨f, hf, hz⟩ := List.mem_flatMap.mp hz
      exact List.mem_flatMap.mpr ⟨f, List.mem_of_mem_filter hf, hz⟩
    · exact fun hz => absurd hz List.not_mem_nil
  have hgetters : z ∈ ((accessorFields s).flatMap fun f =>
      fieldNeeds m ns f ++ fieldNeeds m ns f) → z ∈ s.fields.flatMap (fieldNeeds m ns) := by
    intro hz
    obtain ⟨f, hf, hz⟩ := List.mem_flatMap.mp hz
    refine List.mem_flatMap.mpr ⟨f, List.mem_of_mem_filter (List.mem_of_mem_filter hf), ?_⟩
    exact (List.mem_append.mp hz).elim id id
  simp only [List.mem_append, List.not_mem_nil, or_false]
  grind

/-! ### members and types inside -/

theorem needs_of_memberBlocks {withMutex : Bool} {blocks : List MemberBlock}
    (h : memberBlocks m ns s withMutex = .ok blocks) :
    (blocks.flatMap fun b => b.lines.flatMap HeaderLine.needs).Perm
      (s.fields.flatMap (fieldNeeds m ns)) := by
  have hlines : (blocks.flatMap fun b => b.lines.flatMap HeaderLine.needs) =
      (membersOf blocks).flatMap fun x => x.type.needs := by
    unfold membersOf
    rw [List.flatMap_assoc]
    refine List.flatMap_congr fun b _ => ?_
    have hlock : (if b.hasMutex then HeaderLine.lock.needs else []) = [] := by
      split <;> rfl
    have hmember : ∀ x : Member, (HeaderLine.member x).needs = x.type.needs :=
      fun x => List.flatMap_singleton _ _
    rw [flatMap_memberBlock_lines (fun _ => rfl), hlock, List.append_nil]
    exact List.flatMap_congr fun x _ => hmember x
  rw [hlines]
  exact flatMap_members_perm (fun f y hy => needs_of_memberType (memberOf_eq_ok hy).2.1) h

theorem needs_of_usingArray {a : ArrayType} {u : UsingDeclaration}
    (h : usingArray m ns a = .ok u) : u.type.needs = nestedNeeds m ns (.array a) := by
  unfold usingArray at h
  unfold nestedNeeds arrayInclude
  cases hr : a.elementType with
  | none =>
    rw [hr] at h
    cases h
  | some r =>
    rw [hr] at h
    obtain ⟨element, helement, h⟩ := bind_eq_ok.mp h
    cases h
    cases hsize : a.size <;> simp [TypeExpr.needs, needs_of_typeOf helement, hr, hsize]

theorem needs_of_usingAlias {a : AliasType} {u : UsingDeclaration}
    (h : usingAlias m ns a = .ok u) : u.type.needs = nestedNeeds m ns (.alias a) := by
  unfold usingAlias at h
  unfold nestedNeeds
  cases hr : a.actualType with
  | none =>
    rw [hr] at h
    cases h
  | some r =>
    rw [hr] at h
    obtain ⟨type, htype, h⟩ := bind_eq_ok.mp h
    cases h
    simp [needs_of_typeOf htype, hr]

theorem needs_of_nestedOf {x : Entry} {n : Nested} (h : nestedOf m ns x = .ok n) :
    (n.lines.flatMap HeaderLine.needs).Perm (nestedNeeds m ns x.type) := by
  rw [flatMap_nested_lines (fun _ => rfl)]
  unfold nestedOf at h
  cases ht : x.type with
  | struct i deeper =>
    rw [ht] at h
    obtain ⟨blocks, hblocks, h⟩ := bind_eq_ok.mp h
    cases h
    exact needs_of_memberBlocks hblocks
  | enumeration y =>
    rw [ht] at h
    cases h
    exact List.Perm.nil
  | array a =>
    rw [ht] at h
    obtain ⟨u, hu, h⟩ := bind_eq_ok.mp h
    cases h
    rw [← needs_of_usingArray hu]
    exact List.Perm.of_eq (List.flatMap_singleton ..)
  | «alias» a =>
    rw [ht] at h
    obtain ⟨u, hu, h⟩ := bind_eq_ok.mp h
    cases h
    rw [← needs_of_usingAlias hu]
    exact List.Perm.of_eq (List.flatMap_singleton ..)

theorem needs_of_base {c : ClassDeclaration} (hc : ClassParts m ns e s c) :
    (HeaderLine.opening c.name c.base).needs = s.base.toList.flatMap (refNeeds m ns) := by
  show c.base.toList.flatMap TypeExpr.needs = _
  rcases hc.base with ⟨hs, hb⟩ | ⟨r, t, hs, ht, hb⟩
  · rw [hs, hb]
    rfl
  · rw [hs, hb, Option.toList_some, Option.toList_some, List.flatMap_singleton,
      List.flatMap_singleton, needs_of_typeOf ht]

/-- the lines of a header need what its struct needs -/
theorem mem_needs_header_iff {inner : List TypeDef} (ht : e.type = .struct s inner) {h : Header}
    {c : ClassDeclaration} (hbody : h.body = .classOf c) (hc : ClassParts m ns e s c) {z : Need} :
    z ∈ h.lines.flatMap HeaderLine.needs ↔ z ∈ structNeeds m ns s inner := by
  have hinner : e.inners.flatMap (fun x => nestedNeeds m ns x.type) =
      inner.flatMap (nestedNeeds m ns) := by
    rw [← List.flatMap_map, map_type_inners ht]
  have hnested : z ∈ (c.nested.flatMap fun n => n.lines.flatMap HeaderLine.needs) ↔
      z ∈ inner.flatMap (nestedNeeds m ns) := by
    rw [(flatMap_perm_of_mapM (fun _ _ => needs_of_nestedOf) hc.nested).mem_iff, hinner]
  have hincludes : (h.standardIncludes.flatMap fun i => (HeaderLine.system i).needs) = [] ∧
      (h.projectIncludes.flatMap fun i => (HeaderLine.project i).needs) = [] :=
    ⟨List.flatMap_eq_nil_iff.mpr fun _ _ => rfl, List.flatMap_eq_nil_iff.mpr fun _ _ => rfl⟩
  have hfunctions := mem_needs_functions hc.functions (z := z)
  rw [flatMap_header (fun _ => rfl) hbody, hincludes.1, hincludes.2]
  unfold structNeeds
  simp only [List.mem_append, List.not_mem_nil, false_or] at hfunctions ⊢
  rw [needs_of_base hc, hnested, (needs_of_memberBlocks hc.members).mem_iff]
  grind

/-! ### locks -/

theorem hasMutex_iff {withMutex : Bool} {blocks : List MemberBlock}
    (h : memberBlocks m ns s withMutex = .ok blocks) :
    (∃ b ∈ blocks, b.hasMutex = true) ↔ withMutex = true := by
  obtain ⟨all, hall, h⟩ := bind_eq_ok.mp h
  cases h
  have hflags : all.map (·.hasMutex) =
      [Visibility.privateAccess, .protectedAccess, .publicAccess].map fun v =>
        withMutex && v = .privateAccess := by
    refine map_of_mapM (fun v b hb => ?_) hall
    obtain ⟨members, _, hb⟩ := bind_eq_ok.mp hb
    cases hb
    rfl
  have hkept : (∃ b ∈ all.filter fun b => !b.members.isEmpty || b.hasMutex, b.hasMutex = true) ↔
      true ∈ all.map (·.hasMutex) := by
    rw [List.mem_map]
    constructor
    · rintro ⟨b, hb, hmutex⟩
      exact ⟨b, List.mem_of_mem_filter hb, hmutex⟩
    · rintro ⟨b, hb, hmutex⟩
      exact ⟨b, List.mem_filter.mpr ⟨hb, Bool.or_eq_true_iff.mpr (Or.inr hmutex)⟩, hmutex⟩
  rw [hkept, hflags]
  cases withMutex <;> decide

end

end TypeModel.Cpp
