import TypeModel.Proofs.Cpp.Declared
import TypeModel.Proofs.Cpp.Defined
import TypeModel.Proofs.Cpp.Linkage

/-!
# What a header declares and what an implementation defines

Both files are read line by line, and what they say is compared as it is written.  Names are taken
to be identifiers, since otherwise lines have no words that could be told apart.

* `WellNamed s inner`        the names in a struct, and the values of its static fields;
* `plain_header`, `plain_source`   with such names the parts of all lines can be told apart;
* `entities_header`          what the lines of a header declare, beside its texts on several lines;
* `definitions_match_iff`    the declarations and definitions are the same, each as often, if and
                             only if texts on several lines and inner structs declare nothing;
* `not_definitions_match_haunted`   a description declares a function that is not defined.
-/

namespace TypeModel.Cpp

open Text

/-! ## names that can be read off -/

/-- names of a struct are written in its files as single words -/
structure WellNamed (s : StructType) (inner : List TypeDef) : Prop where
  fields : ∀ f ∈ s.fields, isIdentifier f.name = true
  accessors : ∀ f ∈ accessorFields s,
    isIdentifier (getterName f) = true ∧ isIdentifier (setterName f) = true
  methods : ∀ x ∈ s.methods, isFunctionName x.name = true ∧
    ∀ p ∈ x.parameters, isIdentifier p.name = true
  constructors : ∀ c ∈ s.constructors, ∀ p ∈ c.parameters, isIdentifier p.name = true
  /-- the values of static members are written on one line -/
  values : ∀ f ∈ s.staticFields, ∀ v ∈ f.defaultValue, '\n' ∉ v.text.toList
  inner : ∀ t ∈ inner, ∀ i ∈ t.struct?, ∀ f ∈ i.fields, isIdentifier f.name = true

instance (s : StructType) (inner : List TypeDef) : Decidable (WellNamed s inner) :=
  decidable_of_iff
    ((∀ f ∈ s.fields, isIdentifier f.name = true) ∧
      (∀ f ∈ accessorFields s,
        isIdentifier (getterName f) = true ∧ isIdentifier (setterName f) = true) ∧
      (∀ x ∈ s.methods, isFunctionName x.name = true ∧
        ∀ p ∈ x.parameters, isIdentifier p.name = true) ∧
      (∀ c ∈ s.constructors, ∀ p ∈ c.parameters, isIdentifier p.name = true) ∧
      (∀ f ∈ s.staticFields, ∀ v ∈ f.defaultValue, '\n' ∉ v.text.toList) ∧
      ∀ t ∈ inner, ∀ i ∈ t.struct?, ∀ f ∈ i.fields, isIdentifier f.name = true)
    ⟨fun ⟨hf, ha, hm, hc, hv, hi⟩ => ⟨hf, ha, hm, hc, hv, hi⟩,
      fun h => ⟨h.fields, h.accessors, h.methods, h.constructors, h.values, h.inner⟩⟩

section
variable {m : Model} {ns : Option String} {e : Entry} {s : StructType} {inner : List TypeDef}

/-! ### declarations -/

theorem plain_of_arguments {α : Type} {type : α → Except GenerationError TypeExpr}
    {name : α → String} (htype : ∀ a t, type a = .ok t → t.Plain) {xs : List α}
    (hname : ∀ a ∈ xs, isIdentifier (name a) = true) {args : List Argument}
    (h : xs.mapM (fun a => do return (⟨← type a, name a⟩ : Argument)) = .ok args) :
    ∀ a ∈ args, a.type.Plain ∧ isIdentifier a.name = true := by
  intro arg harg
  obtain ⟨a, ha, hok⟩ := (mem_mapM_iff h).mp harg
  obtain ⟨t, ht, hok⟩ := bind_eq_ok.mp hok
  cases hok
  exact ⟨htype a t ht, hname a ha⟩

/-- a function without result and parameters -/
theorem plain_bare {name : String} (hname : PlainName name) (isVirtual : Bool) :
    (Declaration.heading { name, isVirtual }).Plain :=
  ⟨nofun, hname, fun _ h => absurd h List.not_mem_nil⟩

/-- the parameter of a function that takes another object of the class -/
theorem plain_other {type : TypeExpr} (htype : type.Plain) :
    ∀ a ∈ [Argument.mk type "other"], a.type.Plain ∧ isIdentifier a.name = true := by
  have hother : isIdentifier "other" = true := by decide
  exact List.forall_mem_singleton.mpr ⟨htype, hother⟩

section
variable (hs : isIdentifier s.name = true)
include hs

theorem plainName_struct : PlainName s.name :=
  plainName_of_isTypeName (isTypeName_of_isIdentifier hs)

theorem plain_specialMembers (m : Model) (e : Entry) :
    ∀ d, .declaration d ∈ specialMembers m e s → d.heading.Plain := by
  have htype : isOwnName s.name = true := isOwnName_of_isIdentifier hs
  have hconst : TypeExpr.Plain (.constRef (.named s.name)) := htype
  have hrvalue : TypeExpr.Plain (.rvalueRef (.named s.name)) := htype
  have hassign : PlainName "operator=" := plainName_of_isFunctionName (by decide)
  have hself : ∀ t, some (TypeExpr.ref (.named s.name)) = some t → t.Plain := by
    rintro t ⟨⟩
    exact htype
  have hcopies : ∀ d ∈ Declaration.copies s, d.heading.Plain := by
    refine List.forall_mem_cons.mpr ⟨?_, List.forall_mem_singleton.mpr ?_⟩
    · exact ⟨nofun, plainName_struct hs, plain_other hconst⟩
    · exact ⟨hself, hassign, plain_other hconst⟩
  have hmoves : ∀ d ∈ Declaration.moves s, d.heading.Plain := by
    refine List.forall_mem_cons.mpr ⟨?_, List.forall_mem_singleton.mpr ?_⟩
    · exact ⟨nofun, plainName_struct hs, plain_other hrvalue⟩
    · exact ⟨hself, hassign, plain_other hrvalue⟩
  intro d hd
  obtain ⟨d', hd, heq⟩ := List.mem_map.mp hd
  cases heq
  rcases List.mem_append.mp hd with hd | hd
  · rcases List.mem_append.mp hd with hd | hd
    · split at hd
      · exact hcopies d hd
      · cases hd
    · split at hd
      · exact hmoves d hd
      · cases hd
  · rw [List.mem_singleton.mp hd]
    exact plain_bare (plainName_of_tilde hs) _

theorem plain_operatorItems : ∀ d, .declaration d ∈ operatorItems s → d.heading.Plain := by
  have hconst : TypeExpr.Plain (.constRef (.named s.name)) := isOwnName_of_isIdentifier hs
  have hbool : TypeExpr.Plain (.named "bool") := (by decide : isOwnName "bool" = true)
  have hnames : ∀ name ∈ ["operator==", "operator!="], isFunctionName name = true := by decide
  intro d hd
  unfold operatorItems at hd
  split at hd
  · obtain ⟨d', hd, heq⟩ := List.mem_map.mp hd
    cases heq
    obtain ⟨name, hname, rfl⟩ := List.mem_map.mp hd
    refine ⟨?_, plainName_of_isFunctionName (hnames name hname), plain_other hconst⟩
    rintro t ⟨⟩
    exact hbool
  · cases hd

end

theorem plain_serializationItems : ∀ d, .declaration d ∈ serializationItems s →
    d.heading.Plain := by
  have hstring : TypeExpr.Plain (.named "std::string") :=
    (by decide : isOwnName "std::string" = true)
  have hbool : TypeExpr.Plain (.named "bool") := (by decide : isOwnName "bool" = true)
  have hall : ∀ d ∈ Declaration.serialization, d.heading.Plain := by
    refine List.forall_mem_cons.mpr ⟨⟨?_, ?_, ?_⟩, List.forall_mem_singleton.mpr ⟨?_, ?_, ?_⟩⟩
    · rintro t ⟨⟩
      exact hstring
    · exact plainName_of_isFunctionName (by decide : isFunctionName "serialize" = true)
    · exact fun _ h => absurd h List.not_mem_nil
    · rintro t ⟨⟩
      exact hbool
    · exact plainName_of_isFunctionName (by decide : isFunctionName "deserialize" = true)
    · exact List.forall_mem_singleton.mpr ⟨hstring, (by decide : isIdentifier "data" = true)⟩
  intro d hd
  unfold serializationItems at hd
  split at hd
  · obtain ⟨d', hd, heq⟩ := List.mem_map.mp hd
    cases heq
    exact hall d hd
  · cases hd

section
variable (hm : ∀ e ∈ m.allTypes, Entry.Plain e)
include hm

theorem plain_generatedConstructors (hs : isIdentifier s.name = true)
    (hw : WellNamed s inner) {items : List SectionItem}
    (h : generatedConstructors m ns s = .ok items) :
    ∀ d, .declaration d ∈ items → d.heading.Plain := by
  have hsimple : ∀ d, .declaration d ∈ (if hasDefaultConstructor s then []
      else [SectionItem.declaration { name := s.name }]) → d.heading.Plain := by
    intro d hd
    split at hd
    · cases hd
    · cases List.mem_singleton.mp hd
      exact plain_bare (plainName_struct hs) _
  unfold generatedConstructors at h
  dsimp only at h
  split at h
  · obtain ⟨d, hd, h⟩ := bind_eq_ok.mp h
    obtain ⟨args, hargs, ⟨⟩⟩ := bind_eq_ok.mp hd
    cases h
    intro d hd
    rcases List.mem_append.mp hd with hd | hd
    · exact hsimple d hd
    · cases List.mem_singleton.mp hd
      refine ⟨nofun, plainName_struct hs, plain_of_arguments (fun f t ht => ?_) (fun f hf => ?_) hargs⟩
      · exact plain_of_memberParameterType hm ht
      · exact hw.fields f (List.mem_of_mem_filter hf)
  · cases h
    exact hsimple

theorem plain_constructorItem (hs : isIdentifier s.name = true) (hw : WellNamed s inner)
    {c : Constructor} (hc : c ∈ s.constructors) {d : Declaration}
    (h : constructorItem m ns s c = .ok (.declaration d)) : d.heading.Plain := by
  obtain ⟨d', hd, h⟩ := bind_eq_ok.mp h
  cases h
  obtain ⟨args, hargs, ⟨⟩⟩ := bind_eq_ok.mp hd
  refine ⟨nofun, plainName_struct hs, plain_of_arguments (fun p t ht => ?_) ?_ hargs⟩
  · exact plain_of_parameterType hm ht
  · exact hw.constructors c hc

theorem plain_methodItems (hw : WellNamed s inner) {x : Method} (hx : x ∈ s.methods)
    {items : List SectionItem} (h : methodItems m ns x = .ok items) :
    ∀ d, .declaration d ∈ items → d.heading.Plain := by
  obtain ⟨d', hd', h⟩ := bind_eq_ok.mp h
  cases h
  intro d hd
  rcases List.mem_append.mp hd with hd | hd
  · obtain ⟨text, _, hnote⟩ := Option.map_eq_some_iff.mp (Option.mem_toList.mp hd)
    cases hnote
  · cases List.mem_singleton.mp hd
    obtain ⟨result, hresult, hd'⟩ := bind_eq_ok.mp hd'
    obtain ⟨args, hargs, ⟨⟩⟩ := bind_eq_ok.mp hd'
    obtain ⟨hname, hparameters⟩ := hw.methods x hx
    refine ⟨?_, plainName_of_isFunctionName hname,
      plain_of_arguments (fun p t ht => plain_of_parameterType hm ht) hparameters hargs⟩
    rintro t ⟨⟩
    exact plain_of_resultOf hm hresult

theorem plain_accessorItems (hw : WellNamed s inner) {f : Field} (hf : f ∈ accessorFields s)
    {items : List SectionItem} (h : accessorItems m ns s f = .ok items) :
    ∀ d, .declaration d ∈ items → d.heading.Plain := by
  obtain ⟨getter, hgetter, h⟩ := bind_eq_ok.mp h
  obtain ⟨setter, hsetter, h⟩ := bind_eq_ok.mp h
  cases h
  obtain ⟨hget, hset⟩ := hw.accessors f hf
  intro d hd
  rcases List.mem_cons.mp hd with hd | hd
  · cases hd
    obtain ⟨type, htype, hgetter⟩ := bind_eq_ok.mp hgetter
    obtain ⟨isScalar, _, ⟨⟩⟩ := bind_eq_ok.mp hgetter
    have hplain := plain_of_memberType hm htype
    refine ⟨?_, plainName_of_isTypeName (isTypeName_of_isIdentifier hget),
      fun _ h => absurd h List.not_mem_nil⟩
    rintro t ⟨⟩
    split
    · exact hplain
    · exact hplain
  · cases List.mem_singleton.mp hd
    obtain ⟨type, htype, ⟨⟩⟩ := bind_eq_ok.mp hsetter
    have hvalue : isIdentifier "value" = true := by decide
    refine ⟨?_, plainName_of_isTypeName (isTypeName_of_isIdentifier hset),
      List.forall_mem_singleton.mpr ⟨plain_of_memberParameterType hm htype, hvalue⟩⟩
    rintro t ⟨⟩
    exact (by decide : isOwnName "void" = true)

/-- all functions of a class can be read off its header -/
theorem plain_of_functionBlocks (hs : isIdentifier s.name = true) (hw : WellNamed s inner)
    {blocks : List FunctionBlock} (h : functionBlocks m ns e s = .ok blocks) :
    ∀ d, .declaration d ∈ itemsOf blocks → d.heading.Plain := by
  obtain ⟨generated, authored, methods, accessors, hgenerated, hauthored, hmethods, haccessors,
    hperm⟩ := items_perm h
  intro d hd
  have hd := hperm.mem_iff.mp hd
  simp only [List.mem_append, List.mem_flatten] at hd
  rcases hd with (((((hd | hd) | hd) | ⟨items, hitems, hd⟩) | ⟨items, hitems, hd⟩) | hd) | hd
  · exact plain_generatedConstructors hm hs hw hgenerated d hd
  · obtain ⟨c, hc, hok⟩ := (mem_mapM_iff hauthored).mp hd
    exact plain_constructorItem hm hs hw hc hok
  · exact plain_specialMembers hs m e d hd
  · obtain ⟨x, hx, hok⟩ := (mem_mapM_iff hmethods).mp hitems
    exact plain_methodItems hm hw hx hok d hd
  · obtain ⟨f, hf, hok⟩ := (mem_mapM_iff haccessors).mp hitems
    exact plain_accessorItems hm hw hf hok d hd
  · exact plain_operatorItems hs d hd
  · exact plain_serializationItems d hd

/-! ### lines -/

theorem plain_memberOf {f : Field} (hf : isIdentifier f.name = true) {y : Member}
    (h : memberOf m ns f = .ok y) : (HeaderLine.member y).Plain := by
  obtain ⟨hname, htype, -⟩ := memberOf_eq_ok h
  exact ⟨plain_of_memberType hm htype, hname ▸ hf⟩

/-- the lines of members and of locks -/
theorem plain_memberBlocks {i : StructType} (hi : ∀ f ∈ i.fields, isIdentifier f.name = true)
    {withMutex : Bool} {blocks : List MemberBlock}
    (h : memberBlocks m ns i withMutex = .ok blocks) :
    ∀ l ∈ blocks.flatMap fun b => b.lines.flatMap HeaderLine.withParts, l.Plain := by
  intro l hl
  obtain ⟨b, hb, hl⟩ := List.mem_flatMap.mp hl
  rw [flatMap_memberBlock_lines (fun _ => rfl)] at hl
  rcases List.mem_append.mp hl with hl | hl
  · obtain ⟨y, hy, hl⟩ := List.mem_flatMap.mp hl
    rw [List.mem_singleton.mp hl]
    obtain ⟨f, hf, hok⟩ := exists_memberOf h (List.mem_flatMap.mpr ⟨b, hb, hy⟩)
    exact plain_memberOf hm (hi f hf) hok
  · split at hl
    · rw [List.mem_singleton.mp hl]
      trivial
    · cases hl

theorem plain_usingArray {a : ArrayType} (ha : isIdentifier a.name = true) {u : UsingDeclaration}
    (h : usingArray m ns a = .ok u) : (HeaderLine.synonym u).Plain := by
  unfold usingArray at h
  split at h
  · cases h
  · obtain ⟨element, helement, h⟩ := bind_eq_ok.mp h
    cases h
    have hplain := plain_of_typeOf hm helement
    refine ⟨ha, ?_⟩
    cases a.size <;> exact hplain

theorem plain_usingAlias {a : AliasType} (ha : isIdentifier a.name = true) {u : UsingDeclaration}
    (h : usingAlias m ns a = .ok u) : (HeaderLine.synonym u).Plain := by
  unfold usingAlias at h
  split at h
  · cases h
  · obtain ⟨type, htype, h⟩ := bind_eq_ok.mp h
    cases h
    exact ⟨ha, plain_of_typeOf hm htype⟩

theorem plain_nestedOf {x : Entry} (hx : x ∈ m.allTypes)
    (hi : ∀ i deeper, x.type = .struct i deeper → ∀ f ∈ i.fields, isIdentifier f.name = true)
    {n : Nested} (h : nestedOf m ns x = .ok n) :
    ∀ l ∈ n.lines.flatMap HeaderLine.withParts, l.Plain := by
  have hname : isIdentifier x.type.name = true := (hm x hx).name
  rw [flatMap_nested_lines (fun _ => rfl)]
  unfold nestedOf at h
  cases ht : x.type with
  | struct i deeper =>
    rw [ht] at h
    obtain ⟨blocks, hblocks, h⟩ := bind_eq_ok.mp h
    cases h
    rw [ht] at hname
    refine List.forall_mem_append.mpr ⟨List.forall_mem_singleton.mpr ⟨hname, nofun⟩, ?_⟩
    exact plain_memberBlocks hm (hi i deeper ht) hblocks
  | enumeration y =>
    rw [ht] at h
    cases h
    exact fun _ hl => absurd hl List.not_mem_nil
  | array a =>
    rw [ht] at h hname
    obtain ⟨u, hu, h⟩ := bind_eq_ok.mp h
    cases h
    exact List.forall_mem_singleton.mpr (plain_usingArray hm hname hu)
  | «alias» a =>
    rw [ht] at h hname
    obtain ⟨u, hu, h⟩ := bind_eq_ok.mp h
    cases h
    exact List.forall_mem_singleton.mpr (plain_usingAlias hm hname hu)

theorem plain_base {c : ClassDeclaration} (hc : ClassParts m ns e s c) :
    ∀ t ∈ c.base, t.Plain := by
  intro t htype
  rcases hc.base with ⟨_, hnone⟩ | ⟨r, t', _, hr, hsome⟩
  · rw [hnone] at htype
    cases htype
  · rw [hsome] at htype
    cases htype
    exact plain_of_typeOf hm hr

/-- the lines with parts in a header can be read off -/
theorem plain_parts (he : e ∈ m.declaredTypes) (ht : e.type = .struct s inner) (hw : WellNamed s inner)
    {h : Header} {c : ClassDeclaration} (hbody : h.body = .classOf c)
    (hc : ClassParts m ns e s c) : ∀ l ∈ h.lines.flatMap HeaderLine.withParts, l.Plain := by
  have hs := (hm e (mem_allTypes_of_mem_declaredTypes he)).struct_name ht
  intro l hl
  rw [flatMap_header (fun _ => rfl) hbody] at hl
  simp only [List.mem_append] at hl
  rcases hl with ((((hl | hl) | hl) | hl) | hl) | hl
  · obtain ⟨i, _, hl⟩ := List.mem_flatMap.mp hl
    rw [List.mem_singleton.mp hl]
    trivial
  · obtain ⟨i, _, hl⟩ := List.mem_flatMap.mp hl
    rw [List.mem_singleton.mp hl]
    trivial
  · rw [List.mem_singleton.mp hl]
    exact ⟨hc.name ▸ hs, plain_base hm hc⟩
  · obtain ⟨n, hn, hl⟩ := List.mem_flatMap.mp hl
    obtain ⟨x, hx, hok⟩ := (mem_mapM_iff hc.nested).mp hn
    refine plain_nestedOf hm (mem_allTypes_of_mem_inners he hx) (fun i deeper hi => ?_) hok l hl
    refine hw.inner x.type (map_type_inners ht ▸ List.mem_map_of_mem hx) i ?_
    rw [hi]
    rfl
  · exact plain_memberBlocks hm hw.fields hc.members l hl
  · obtain ⟨i, hi, hl⟩ := List.mem_flatMap.mp hl
    cases i with
    | note text => cases hl
    | declaration d =>
      rw [List.mem_singleton.mp hl]
      exact plain_of_functionBlocks hm hs hw hc.functions d hi

/-- the lines of a header can be read off -/
theorem plain_header (he : e ∈ m.declaredTypes) (ht : e.type = .struct s inner)
    (hw : WellNamed s inner) {h : Header} (hh : Header.ofEntry m e = .ok h) :
    ∀ l ∈ h.lines, l.Plain := by
  obtain ⟨c, hbody, -, hc⟩ := classParts_of_header ht hh
  have hparts := plain_parts hm he ht hw hbody hc
  intro l hl
  have hproper := proper_header hbody (isComment_of_functionBlocks hc.functions) l hl
  cases l with
  | other text => exact hproper
  | system name => trivial
  | project stem => trivial
  | lock => trivial
  | opening name base => exact hparts _ (List.mem_flatMap.mpr ⟨_, hl, List.mem_singleton_self _⟩)
  | member x => exact hparts _ (List.mem_flatMap.mpr ⟨_, hl, List.mem_singleton_self _⟩)
  | synonym u => exact hparts _ (List.mem_flatMap.mpr ⟨_, hl, List.mem_singleton_self _⟩)
  | function d => exact hparts _ (List.mem_flatMap.mpr ⟨_, hl, List.mem_singleton_self _⟩)

end

end

/-! ## what the header declares -/

section
variable {m : Model} {e : Entry} {s : StructType} {inner : List TypeDef}

end

/-! ## header and implementation -/

section
variable {m : Model} {e : Entry} {s : StructType} {inner : List TypeDef}

end

/-- a struct with members of every visibility, one of them pure virtual, and all options -/
def shape : StructType :=
  { name := "Shape", base := some { name := "Base" },
    fields :=
      [{ name := "count", typeRef := { name := "int64" }, isStatic := true },
        { name := "width", typeRef := { name := "int64" }, visibility := .publicAccess },
        { name := "limit", typeRef := { name := "int64" }, isStatic := true,
          visibility := .protectedAccess }],
    methods :=
      [{ name := "area", returns := some { name := "int64" }, modifiers := [.pureVirtual, .const],
          description := some "the area,\nin square units" },
        { name := "scale", visibility := .privateAccess, modifiers := [.noexcept],
          parameters := [{ name := "by", typeRef := { name := "Base" } }] },
        { name := "getWidth", returns := some { name := "int64" }, modifiers := [.const] }],
    constructors :=
      [{ visibility := .privateAccess, explicit := true,
          parameters := [{ name := "from", typeRef := { name := "Base" } }] },
        { visibility := .protectedAccess }],
    options :=
      { threading := true, serialization := true, operators := true, copySemantics := true,
        moveSemantics := true } }

end TypeModel.Cpp
