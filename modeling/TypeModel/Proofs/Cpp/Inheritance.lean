import TypeModel.Cpp.Project
import TypeModel.Proofs.Cpp.Classes
import TypeModel.Proofs.Generation.Cpp
import TypeModel.Proofs.Proto.Nesting

/-!
# Inherited members in both languages

A message lists the fields of all extended structs.  A class leaves them to its base class, so it
has them only if every class on the way names its base.  A class inside a class does not.

* `Emitted m e base blocks`   the class written for a struct: its base clause and its members;
* `HasMember m e n`           the class of `e` has an instance member `n`, its own or inherited;
* `hasMember_iff`             one step along the chain of bases;
* `NothingCut m id`           the classes inside classes on the way have nothing to inherit;
* `Compared m e s`            members and fields compared, by induction along the chain of bases;
* `members_agree_iff`         class and message agree if and only if nothing is cut off;
* `not_members_agree_cutOff`  an inner struct that extends a struct with a field.

A base clause is read by the handle that its type keeps.  The lock of a class is no member here.
-/

namespace TypeModel

namespace Cpp
variable {m : Model} {ns : Option String} {e : Entry} {s : StructType} {inner : List TypeDef}

/-! ## the class of a struct -/

/-- the members that every object has -/
def instanceMembers (blocks : List MemberBlock) : List Member :=
  (membersOf blocks).filter (·.form ≠ .static)

theorem instanceMembers_perm {withMutex : Bool} {blocks : List MemberBlock}
    (h : memberBlocks m ns s withMutex = .ok blocks) :
    ((instanceMembers blocks).map (·.name)).Perm (s.instanceFields.map Field.name) := by
  unfold instanceMembers StructType.instanceFields
  rw [map_filter_eq_flatMap, map_filter_eq_flatMap]
  refine flatMap_members_perm (fun f y hy => ?_) h
  obtain ⟨hname, _, hform⟩ := memberOf_eq_ok hy
  simp [hname, hform]

/-- the base clause and the members of the class that is written for an entry; a class inside a
class is written without a base clause -/
inductive Emitted (m : Model) : Entry → Option TypeExpr → List MemberBlock → Prop
  | declared {e : Entry} {h : Header} {c : ClassDeclaration} :
      e ∈ m.declaredTypes → Header.ofEntry m e = .ok h → h.body = .classOf c →
        Emitted m e c.base c.members
  | nested {o e : Entry} {h : Header} {c : ClassDeclaration} {i : Nat} {comment : List String}
      {name : String} {blocks : List MemberBlock} :
      o ∈ m.declaredTypes → Header.ofEntry m o = .ok h → h.body = .classOf c →
        o.inners[i]? = some e → c.nested[i]? = some ⟨comment, .record name blocks⟩ →
        Emitted m e none blocks

/-- every header of the model is written -/
def HasHeaders (m : Model) : Prop := ∀ e ∈ m.declaredTypes, Succeeds (Header.ofEntry m e)

theorem hasHeaders_of_generate {c : CppConfig} {files : FileSet}
    (h : (generate m c).2 = .ok files) : HasHeaders m := by
  intro e he
  have hplan := (succeeds_collect (plan m c) {}).mp ⟨files, h⟩
  have hmem : (headerPath e, (Header.ofEntry m e).map Header.text) ∈ plan m c :=
    List.mem_append_left _ (List.mem_flatMap.mpr ⟨e, he, List.mem_cons_self⟩)
  exact succeeds_map.mp (hplan _ hmem)

/-- an inner struct, seen from the class around it -/
theorem memberBlocks_of_nested {n : Nested} (ht : e.type = .struct s inner)
    (h : nestedOf m ns e = .ok n) :
    ∃ blocks, memberBlocks m ns s false = .ok blocks ∧
      n = ⟨e.type.comment, .record s.name blocks⟩ := by
  unfold nestedOf at h
  rw [ht] at h
  obtain ⟨blocks, hblocks, h⟩ := bind_eq_ok.mp h
  cases h
  exact ⟨blocks, hblocks, by rw [ht]⟩

/-- the inner types of a struct stand in its class in their order -/
theorem nested_of_header {o : Entry} {h : Header} {c : ClassDeclaration} {i : Nat}
    (hh : Header.ofEntry m o = .ok h) (hbody : h.body = .classOf c) (hi : o.inners[i]? = some e) :
    ∃ n, nestedOf m (namespaceOf o) e = .ok n ∧ c.nested[i]? = some n := by
  obtain ⟨so, inner, _, _, ht, _, _⟩ := Entry.mem_inners.mp (List.mem_of_getElem? hi)
  exact getElem?_of_forall₂ (forall₂_of_mapM (classParts_of_body ht hh hbody).nested) hi

theorem Emitted.members {base : Option TypeExpr} {blocks : List MemberBlock}
    (h : Emitted m e base blocks) (ht : e.type = .struct s inner) :
    ((instanceMembers blocks).map (·.name)).Perm (s.instanceFields.map Field.name) := by
  cases h with
  | declared he hh hbody => exact instanceMembers_perm (classParts_of_body ht hh hbody).members
  | nested ho hh hbody hi hn =>
    obtain ⟨n, hnested, hn'⟩ := nested_of_header hh hbody hi
    rw [hn] at hn'
    cases hn'
    obtain ⟨blocks, hblocks, heq⟩ := memberBlocks_of_nested ht hnested
    cases heq
    exact instanceMembers_perm hblocks

theorem Emitted.base {t : TypeExpr} {blocks : List MemberBlock}
    (h : Emitted m e (some t) blocks) (ht : e.type = .struct s inner) :
    e.id.isInner = false ∧ ∃ ns r, s.base = some r ∧ typeOf m ns r = .ok t := by
  generalize hbase : some t = base at h
  cases h with
  | declared he hh hbody =>
    have hinner := (Model.mem_declaredTypes_iff.mp he).2
    refine ⟨by rw [TypeId.isInner, hinner]; rfl, ?_⟩
    rcases (classParts_of_body ht hh hbody).base with ⟨_, hnone⟩ | ⟨r, t', hr, ht', hsome⟩
    · rw [hnone] at hbase
      cases hbase
    · rw [hsome] at hbase
      cases hbase
      exact ⟨_, r, hr, ht'⟩
  | nested => cases hbase

theorem exists_emitted (hm : HasHeaders m) (he : e ∈ m.allTypes) (ht : e.type = .struct s inner) :
    ∃ base blocks, Emitted m e base blocks ∧
      (e.id.isInner = false → ∀ r, s.base = some r → ∃ ns t, typeOf m ns r = .ok t ∧
        base = some t) := by
  rcases List.mem_append.mp he with he | he
  · obtain ⟨h, hh⟩ := hm e he
    obtain ⟨c, hbody, _, hparts⟩ := classParts_of_header ht hh
    refine ⟨c.base, c.members, .declared he hh hbody, fun _ r hr => ?_⟩
    rcases hparts.base with ⟨hnone, _⟩ | ⟨r', t, hr', ht', hsome⟩
    · rw [hr] at hnone
      cases hnone
    · rw [hr] at hr'
      cases hr'
      exact ⟨_, t, ht', hsome⟩
  · have hinner := (Model.mem_innerTypes_iff.mp he).2
    obtain ⟨o, ho, heo⟩ := List.mem_flatMap.mp he
    obtain ⟨so, innero, _, _, hot, _, _⟩ := Entry.mem_inners.mp heo
    obtain ⟨i, hi⟩ := List.mem_iff_getElem?.mp heo
    obtain ⟨h, hh⟩ := hm o ho
    obtain ⟨c, hbody, _, _⟩ := classParts_of_header hot hh
    obtain ⟨n, hnested, hn⟩ := nested_of_header hh hbody hi
    obtain ⟨blocks, _, rfl⟩ := memberBlocks_of_nested ht hnested
    refine ⟨none, blocks, .nested ho hh hbody hi hn, fun hfalse => ?_⟩
    rw [hinner] at hfalse
    cases hfalse

/-! ## members of a class and of its bases -/

/-- an instance member of the class itself or of a class that its base clauses lead to -/
inductive HasMember (m : Model) : Entry → String → Prop
  | own {e : Entry} {base : Option TypeExpr} {blocks : List MemberBlock} {y : Member} :
      Emitted m e base blocks → y ∈ instanceMembers blocks → HasMember m e y.name
  | inherited {e d : Entry} {id : TypeId} {spelling n : String} {blocks : List MemberBlock} :
      Emitted m e (some (.declared id spelling)) blocks → m.entry? id = some d →
        HasMember m d n → HasMember m e n

theorem hasMember_iff (hm : HasHeaders m) (he : e ∈ m.allTypes) (ht : e.type = .struct s inner)
    {n : String} :
    HasMember m e n ↔ n ∈ s.instanceFields.map Field.name ∨
      (e.id.isInner = false ∧ ∃ d ∈ m.allTypes, m.baseOf e.id = some d.id ∧ HasMember m d n) := by
  have hbase : m.baseOf e.id = s.base.bind TypeRef.type? := by
    rw [Model.baseOf_of_mem he, ht]
    rfl
  constructor
  · intro h
    cases h with
    | own hemitted hy =>
      left
      exact (hemitted.members ht).mem_iff.mp (List.mem_map_of_mem hy)
    | inherited hemitted hd hn =>
      right
      obtain ⟨hdeclared, ns, r, hr, htype⟩ := hemitted.base ht
      obtain ⟨hbinding, _⟩ := typeOf_eq_declared.mp htype
      obtain ⟨hmem, rfl⟩ := Model.entry?_eq_some_iff_mem.mp hd
      refine ⟨hdeclared, _, hmem, ?_, hn⟩
      rw [hbase, hr]
      exact Model.typeRef_type?_eq_some.mpr hbinding
  · obtain ⟨base, blocks, hemitted, hclause⟩ := exists_emitted hm he ht
    rintro (hn | ⟨hdeclared, d, hd, hbd, hn⟩)
    · obtain ⟨y, hy, rfl⟩ := List.mem_map.mp ((hemitted.members ht).mem_iff.mpr hn)
      exact .own hemitted hy
    · obtain ⟨r, hr, hid⟩ := Option.bind_eq_some_iff.mp (hbase.symm.trans hbd)
      have hentry := Model.mem_allTypes_iff.mp hd
      obtain ⟨ns, t, htype, rfl⟩ := hclause hdeclared r hr
      have hspelling : typeOf m ns r = .ok (.declared d.id (qualifiedName d ns)) :=
        typeOf_eq_declared.mpr ⟨Model.typeRef_type?_eq_some.mp hid, d, hentry, rfl⟩
      rw [htype] at hspelling
      cases hspelling
      exact .inherited hemitted hentry hn

/-! ## members of a class and fields of a message -/

/-- the structs inside structs, from `id` on along the chain of bases, extend nothing that has a
field -/
def NothingCut (m : Model) (id : TypeId) : Prop :=
  ∀ i, i.isInner = true → (i = id ∨ Reaches m.baseOf id i) →
    ∀ b ∈ m.baseStructs i, b.instanceFields = []

theorem nothingCut_of_none {id : TypeId} (h : m.baseOf id = none) : NothingCut m id := by
  rintro i _ (rfl | hi)
  · rw [Model.baseStructs_of_none h]
    exact fun _ hb => absurd hb List.not_mem_nil
  · obtain ⟨n, hn, _⟩ := hi.next
    rw [h] at hn
    cases hn

theorem nothingCut_inner (hm : m.BasesEnd) {id : TypeId} (h : id.isInner = true) :
    NothingCut m id ↔ ∀ b ∈ m.baseStructs id, b.instanceFields = [] := by
  constructor
  · exact fun hcut => hcut id h (Or.inl rfl)
  · rintro hnone i _ (rfl | hi) b hb
    · exact hnone b hb
    · exact hnone b (hm.mem_baseStructs hi hb)

theorem nothingCut_declared {id b : TypeId} (h : id.isInner = false) (hb : m.baseOf id = some b) :
    NothingCut m id ↔ NothingCut m b := by
  constructor
  · rintro hcut i hi (rfl | hr)
    · exact hcut i hi (Or.inr (Reaches.single hb))
    · exact hcut i hi (Or.inr (Reaches.cons hb hr))
  · rintro hcut i hi (rfl | hr)
    · rw [h] at hi
      cases hi
    · obtain ⟨n, hn, hni⟩ := hr.next
      rw [hb] at hn
      obtain rfl := Option.some.inj hn
      exact hcut i hi (hni.imp_left Eq.symm)

/-- the members of a class compared with the fields of a message -/
structure Compared (m : Model) (e : Entry) (s : StructType) : Prop where
  within : ∀ n, HasMember m e n → n ∈ (m.flattenedFields e.id s).map Field.name
  complete_iff : (∀ n ∈ (m.flattenedFields e.id s).map Field.name, HasMember m e n) ↔
    NothingCut m e.id

theorem compared_of_none (hh : HasHeaders m) (he : e ∈ m.allTypes) (ht : e.type = .struct s inner)
    (hb : m.baseOf e.id = none) : Compared m e s := by
  have hfields : m.flattenedFields e.id s = s.instanceFields := by
    unfold Model.flattenedFields
    rw [Model.baseStructs_of_none hb]
    rfl
  have hown : ∀ n, HasMember m e n ↔ n ∈ (m.flattenedFields e.id s).map Field.name := by
    intro n
    rw [hasMember_iff hh he ht, hb, hfields]
    simp
  exact ⟨fun n => (hown n).mp, iff_of_true (fun n => (hown n).mpr) (nothingCut_of_none hb)⟩

section
variable {d : Entry} {sb : StructType} {innerb : List TypeDef}

/-- no name of a base is also a name of the struct -/
theorem names_apart (hm : m.SoundBases) (he : e ∈ m.allTypes) (ht : e.type = .struct s inner)
    (hd : d ∈ m.allTypes) (hdt : d.type = .struct sb innerb) (hb : m.baseOf e.id = some d.id) :
    ∀ n ∈ (m.flattenedFields d.id sb).map Field.name, n ∉ s.instanceFields.map Field.name := by
  have hnodup := hm.nodup_flattenedFields he ht
  rw [hm.flattenedFields_eq hd hb hdt, List.map_append, List.nodup_append] at hnodup
  exact fun n hn hn' => hnodup.2.2 n hn n hn' rfl

/-- an inner struct has its own members only, so it must not inherit any -/
theorem compared_inner (hm : m.SoundBases) (hh : HasHeaders m) (he : e ∈ m.allTypes)
    (ht : e.type = .struct s inner) (hd : d ∈ m.allTypes) (hdt : d.type = .struct sb innerb)
    (hb : m.baseOf e.id = some d.id) (hinner : e.id.isInner = true) : Compared m e s := by
  have hfields := hm.flattenedFields_eq hd hb hdt s
  have hown : ∀ n, HasMember m e n ↔ n ∈ s.instanceFields.map Field.name := by
    intro n
    rw [hasMember_iff hh he ht, hinner]
    simp
  have hinherited : m.flattenedFields d.id sb =
      (m.baseStructs e.id).reverse.flatMap StructType.instanceFields :=
    (List.append_cancel_right hfields).symm
  constructor
  · intro n hn
    rw [hfields, List.map_append]
    exact List.mem_append_right _ ((hown n).mp hn)
  · rw [nothingCut_inner hm.ends hinner, ← Proto.flatMap_reverse_eq_nil_iff, ← hinherited, hfields,
      List.map_append, List.forall_mem_append]
    constructor
    · rintro ⟨hall, _⟩
      refine List.eq_nil_iff_forall_not_mem.mpr fun f hf => ?_
      have hname := List.mem_map_of_mem (f := Field.name) hf
      exact names_apart hm he ht hd hdt hb _ hname ((hown _).mp (hall _ hname))
    · intro hnil
      refine ⟨?_, fun n hn => (hown n).mpr hn⟩
      rw [hnil]
      exact fun _ hn => absurd hn List.not_mem_nil

/-- any other struct has the members of its base as well -/
theorem compared_declared (hm : m.SoundBases) (hh : HasHeaders m) (he : e ∈ m.allTypes)
    (ht : e.type = .struct s inner) (hd : d ∈ m.allTypes) (hdt : d.type = .struct sb innerb)
    (hb : m.baseOf e.id = some d.id) (hinner : e.id.isInner = false) (ih : Compared m d sb) :
    Compared m e s := by
  have hfields := hm.flattenedFields_eq hd hb hdt s
  have hmember : ∀ n, HasMember m e n ↔
      n ∈ s.instanceFields.map Field.name ∨ HasMember m d n := by
    intro n
    rw [hasMember_iff hh he ht]
    refine or_congr_right ⟨?_, fun hn => ⟨hinner, d, hd, hb, hn⟩⟩
    rintro ⟨_, d', hd', hb', hn⟩
    rw [hb] at hb'
    obtain rfl := Model.eq_of_id_eq hd hd' (Option.some.inj hb')
    exact hn
  constructor
  · intro n hn
    rw [hfields, List.map_append]
    rcases (hmember n).mp hn with hn | hn
    · exact List.mem_append_right _ hn
    · exact List.mem_append_left _ (ih.within n hn)
  · rw [nothingCut_declared hinner hb, ← ih.complete_iff, hfields, List.map_append,
      List.forall_mem_append]
    constructor
    · rintro ⟨hall, _⟩ n hn
      exact ((hmember n).mp (hall n hn)).resolve_left (names_apart hm he ht hd hdt hb n hn)
    · intro hall
      exact ⟨fun n hn => (hmember n).mpr (Or.inr (hall n hn)),
        fun n hn => (hmember n).mpr (Or.inl hn)⟩

end

theorem compared_of_struct (hm : m.SoundBases) (hh : HasHeaders m) (he : e ∈ m.allTypes)
    (ht : e.type = .struct s inner) : Compared m e s := by
  refine hm.struct_induction ?_ ?_ e he s inner ht
  · intro e he s inner ht hb
    exact compared_of_none hh he ht hb
  · intro e he s inner ht d hd sb innerb hdt hb ih
    cases hinner : e.id.isInner with
    | true => exact compared_inner hm hh he ht hd hdt hb hinner
    | false => exact compared_declared hm hh he ht hd hdt hb hinner ih

/-- after analysis a class has no other members than its message has fields, and it has all of them
if and only if the structs inside structs on its chain of bases, itself included, extend nothing
that has a field -/
theorem members_agree_iff (m : Model) {r : Model} {ds : Diagnostics} (h : m.analyze = (r, .ok ds))
    {cc : CppConfig} {files : FileSet} (hcpp : (generate r cc).2 = .ok files) {pc : ProtoConfig}
    {schema : Proto.Schema} (hproto : Proto.Schema.ofModel r pc = .ok schema) {e : Entry}
    (he : e ∈ r.allTypes) {s : StructType} {inner : List TypeDef}
    (ht : e.type = .struct s inner) :
    ∃ d, Proto.declarationAt? schema.roots (Proto.placeOf r e.id) = some d ∧ d.name = s.name ∧
      (∀ n, HasMember r e n → n ∈ d.fields.map (·.name)) ∧
      ((∀ n, HasMember r e n ↔ n ∈ d.fields.map (·.name)) ↔ NothingCut r e.id) := by
  have hr : m.analyze.1 = r := congrArg Prod.fst h
  have hok : m.analyze.2 = .ok ds := congrArg Prod.snd h
  have hm : r.SoundBases := hr ▸ Model.soundBases_of_analyze hok
  obtain ⟨d, hd, hname, hfields⟩ := Proto.exists_message hproto he ht
  have hnames := (Proto.numbered_of_messageFieldsFrom _ 1 hfields).names
  have hcompared := compared_of_struct hm (hasHeaders_of_generate hcpp) he ht
  refine ⟨d, hd, hname, ?_⟩
  rw [hnames, ← hcompared.complete_iff]
  refine ⟨hcompared.within, ?_⟩
  exact ⟨fun hall n => (hall n).mpr, fun hall n => ⟨hcompared.within n, hall n⟩⟩

/-- in `Outer`, `Inner` extends `Base` -/
def cutOff : Model :=
  { primitives := [{ name := "Builtins", dataTypes := [{ name := "int64", bitLength := some 64 }] }]
    types :=
      [.struct { name := "Base", fields := [{ name := "id", typeRef := { name := "int64" } }] } [],
        .struct { name := "Outer" }
          [.struct { name := "Inner", base := some { name := "Base" } } []]] }

def cutOffSchema : Proto.Schema :=
  { package := none
    declarations :=
      [.message "Base" [] [] [⟨[], .single (.scalar "int64"), "id", 1⟩],
        .message "Outer" []
          [.message "Inner" [] [] [⟨[], .single (.scalar "int64"), "id", 1⟩]] []]
    wrappers := [] }

theorem ofModel_cutOff : Proto.Schema.ofModel cutOff.analyze.1 {} = .ok cutOffSchema := rfl

theorem succeeds_generate_cutOff : Succeeds (generate cutOff.analyze.1 {}).2 :=
  succeeds_iff_isOk.mpr (by decide +kernel)

theorem members_agree_iff_cutOff :
    cutOff.analyze = (cutOff.analyze.1, .ok []) ∧ Succeeds (generate cutOff.analyze.1 {}).2 ∧
      Proto.Schema.ofModel cutOff.analyze.1 {} = .ok cutOffSchema ∧
      ∃ e ∈ cutOff.analyze.1.allTypes, ∃ s d, e.type = .struct s [] ∧ s.name = "Inner" ∧
        Proto.declarationAt? cutOffSchema.roots [1, 0] = some d ∧ d.name = "Inner" ∧
        ¬ ∀ n, HasMember cutOff.analyze.1 e n ↔ n ∈ d.fields.map (·.name) := by
  have hanalyze : cutOff.analyze = (cutOff.analyze.1, .ok []) := Prod.ext rfl (by decide +kernel)
  obtain ⟨e, he, s, ht, hinner, hname, hplace, hlost⟩ : ∃ e ∈ cutOff.analyze.1.allTypes, ∃ s,
      e.type = .struct s [] ∧ e.id.isInner = true ∧ s.name = "Inner" ∧
        Proto.placeOf cutOff.analyze.1 e.id = [1, 0] ∧
        (cutOff.analyze.1.baseStructs e.id).any (fun b => !b.instanceFields.isEmpty) = true :=
    ⟨_, List.mem_of_getElem? (i := 2) rfl, _, rfl, rfl, rfl, by decide +kernel, by decide +kernel⟩
  obtain ⟨files, hfiles⟩ := succeeds_generate_cutOff
  obtain ⟨d, hd, hdname, _, hagree⟩ :=
    members_agree_iff cutOff hanalyze hfiles ofModel_cutOff he ht
  refine ⟨hanalyze, ⟨files, hfiles⟩, ofModel_cutOff, e, he, s, d, ht, hname, hplace ▸ hd,
    hdname.trans hname, fun hall => ?_⟩
  obtain ⟨b, hb, hfields⟩ := List.any_eq_true.mp hlost
  rw [hagree.mp hall e.id hinner (Or.inl rfl) b hb] at hfields
  cases hfields

/-- the class `Inner` lacks the field of `Base` that its message has -/
theorem not_members_agree_cutOff :
    cutOff.analyze.2.isOk = true ∧ Succeeds (generate cutOff.analyze.1 {}).2 ∧
      Proto.Schema.ofModel cutOff.analyze.1 {} = .ok cutOffSchema ∧
      ∃ e ∈ cutOff.analyze.1.allTypes, ∃ s, e.type = .struct s [] ∧ s.name = "Inner" ∧
        Proto.placeOf cutOff.analyze.1 e.id = [1, 0] ∧
        ((Proto.declarationAt? cutOffSchema.roots [1, 0]).map fun d => d.fields.map (·.name)) =
          some ["id"] ∧ ¬ HasMember cutOff.analyze.1 e "id" := by
  obtain ⟨e, he, s, ht, hinner, hname, hplace, hfields⟩ : ∃ e ∈ cutOff.analyze.1.allTypes, ∃ s,
      e.type = .struct s [] ∧ e.id.isInner = true ∧ s.name = "Inner" ∧
        Proto.placeOf cutOff.analyze.1 e.id = [1, 0] ∧ s.instanceFields.map Field.name = [] :=
    ⟨_, List.mem_of_getElem? (i := 2) rfl, _, rfl, rfl, rfl, by decide +kernel, rfl⟩
  obtain ⟨files, hfiles⟩ := succeeds_generate_cutOff
  refine ⟨by decide +kernel, ⟨files, hfiles⟩, ofModel_cutOff, e, he, s, ht, hname, hplace, rfl,
    fun hmember => ?_⟩
  rcases (hasMember_iff (hasHeaders_of_generate hfiles) he ht).mp hmember with hown | ⟨hfalse, _⟩
  · rw [hfields] at hown
    cases hown
  · rw [hinner] at hfalse
    cases hfalse

end Cpp

end TypeModel
