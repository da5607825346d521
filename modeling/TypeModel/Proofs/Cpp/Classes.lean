import Mathlib.Data.List.Perm.Basic
import TypeModel.Cpp.Header
import TypeModel.Proofs.Generation.Depth

/-!
# Classes taken apart

A class in a header has its members and its member functions in blocks of one visibility.  Whatever
is read off all blocks together is, up to the order, what is read off the struct.

* `perm_of_visibility`    three parts by visibility make up the whole;
* `ClassParts m ns e s c` what the parts of the class `c` of a struct come from;
* `classParts_of_header`  the header of a struct holds such a class;
* `flatMap_members_perm`  the members of all blocks, by what is read off each field;
* `items_perm`            the items of all blocks of functions, by where they come from.
-/

namespace TypeModel.Cpp

theorem perm_of_visibility {α : Type} (v : α → Visibility) (l : List α) :
    (l.filter (v · = .publicAccess) ++ l.filter (v · = .protectedAccess) ++
      l.filter (v · = .privateAccess)).Perm l := by
  induction l with
  | nil => exact List.Perm.nil
  | cons a l ih =>
    cases h : v a with
    | publicAccess => simpa [h] using ih
    | protectedAccess =>
      simp only [h, List.filter_cons, reduceCtorEq, decide_false, decide_true, if_true,
        Bool.false_eq_true, if_false, List.append_assoc, List.cons_append]
      exact List.perm_middle.trans ((List.append_assoc _ _ _ ▸ ih).cons a)
    | privateAccess =>
      simp only [h, List.filter_cons, reduceCtorEq, decide_false, decide_true, if_true,
        Bool.false_eq_true, if_false]
      exact List.perm_middle.trans (ih.cons a)

/-- a computation for each element gives the same results in another order -/
theorem mapM_perm {ε α β : Type} {f : α → Except ε β} {l l' : List α} (h : l.Perm l') :
    ∀ {bs : List β}, l.mapM f = .ok bs → ∃ bs', l'.mapM f = .ok bs' ∧ bs.Perm bs' := by
  induction h with
  | nil => exact fun hbs => ⟨_, hbs, List.Perm.refl _⟩
  | cons a _ ih =>
    intro bs hbs
    rw [List.mapM_cons] at hbs
    obtain ⟨b, hb, hbs⟩ := bind_eq_ok.mp hbs
    obtain ⟨rest, hrest, hbs⟩ := bind_eq_ok.mp hbs
    cases hbs
    obtain ⟨rest', hrest', hperm⟩ := ih hrest
    refine ⟨b :: rest', ?_, hperm.cons b⟩
    rw [List.mapM_cons, hb, hrest']
    rfl
  | swap a a' l =>
    intro bs hbs
    rw [List.mapM_cons, List.mapM_cons] at hbs
    obtain ⟨b', hb', hbs⟩ := bind_eq_ok.mp hbs
    obtain ⟨_, hbs', hbs⟩ := bind_eq_ok.mp hbs
    obtain ⟨b, hb, hbs'⟩ := bind_eq_ok.mp hbs'
    obtain ⟨rest, hrest, hbs'⟩ := bind_eq_ok.mp hbs'
    cases hbs'
    cases hbs
    refine ⟨b :: b' :: rest, ?_, List.Perm.swap b b' rest⟩
    rw [List.mapM_cons, List.mapM_cons, hb, hb', hrest]
    rfl
  | trans _ _ ih ih' =>
    intro bs hbs
    obtain ⟨middle, hmiddle, hperm⟩ := ih hbs
    obtain ⟨bs', hbs', hperm'⟩ := ih' hmiddle
    exact ⟨bs', hbs', hperm.trans hperm'⟩

/-- what `k` reads off the results is, up to the order, what `g` reads off the arguments -/
theorem flatMap_perm_of_mapM {ε α β γ : Type} {f : α → Except ε β} {g : α → List γ}
    {k : β → List γ} (hf : ∀ a b, f a = .ok b → (k b).Perm (g a)) {l : List α} :
    ∀ {bs : List β}, l.mapM f = .ok bs → (bs.flatMap k).Perm (l.flatMap g) := by
  induction l with
  | nil =>
    rintro _ ⟨⟩
    exact List.Perm.nil
  | cons a l ih =>
    intro bs h
    rw [List.mapM_cons] at h
    obtain ⟨b, hb, h⟩ := bind_eq_ok.mp h
    obtain ⟨bs', hbs, h⟩ := bind_eq_ok.mp h
    cases h
    rw [List.flatMap_cons, List.flatMap_cons]
    exact (hf a b hb).append (ih hbs)

theorem mem_mapM_iff {ε α β : Type} {f : α → Except ε β} {l : List α} {bs : List β}
    (h : l.mapM f = .ok bs) {b : β} : b ∈ bs ↔ ∃ a ∈ l, f a = .ok b := by
  have hall : bs.map .ok = l.map f := map_of_mapM (fun _ _ hab => hab.symm) h
  rw [← List.mem_map, ← hall, List.mem_map_of_injective]
  exact fun _ _ hok => Except.ok.inj hok

theorem mapM_append_eq_ok {ε α β : Type} {f : α → Except ε β} {l l' : List α} {bs bs' : List β}
    (h : l.mapM f = .ok bs) (h' : l'.mapM f = .ok bs') : (l ++ l').mapM f = .ok (bs ++ bs') := by
  rw [List.mapM_append, h, h']
  rfl

theorem mapM_of_visibility {ε α β : Type} {f : α → Except ε β} (v : α → Visibility) {l : List α}
    {publicOnes protectedOnes privateOnes : List β}
    (hpublic : (l.filter (v · = .publicAccess)).mapM f = .ok publicOnes)
    (hprotected : (l.filter (v · = .protectedAccess)).mapM f = .ok protectedOnes)
    (hprivate : (l.filter (v · = .privateAccess)).mapM f = .ok privateOnes) :
    ∃ bs, l.mapM f = .ok bs ∧ (publicOnes ++ protectedOnes ++ privateOnes).Perm bs :=
  mapM_perm (perm_of_visibility v l)
    (mapM_append_eq_ok (mapM_append_eq_ok hpublic hprotected) hprivate)

/-! ## the class of a struct -/

variable {m : Model} {ns : Option String} {e : Entry} {s : StructType}

/-- the types inside a struct are those of its inner entries -/
theorem map_type_inners {inner : List TypeDef} (ht : e.type = .struct s inner) :
    e.inners.map Entry.type = inner := by
  unfold Entry.inners
  rw [ht]
  exact List.ext_getElem (by simp) (by simp [Entry.innerEntry])

structure ClassParts (m : Model) (ns : Option String) (e : Entry) (s : StructType)
    (c : ClassDeclaration) : Prop where
  name : c.name = s.name
  base : (s.base = none ∧ c.base = none) ∨
    ∃ r t, s.base = some r ∧ typeOf m ns r = .ok t ∧ c.base = some t
  nested : e.inners.mapM (nestedOf m ns) = .ok c.nested
  members : memberBlocks m ns s s.options.threading = .ok c.members
  functions : functionBlocks m ns e s = .ok c.functions

theorem classParts_of_classOf {c : ClassDeclaration} (h : classOf m ns e s = .ok c) :
    ClassParts m ns e s c := by
  unfold classOf at h
  cases hb : s.base with
  | none =>
    rw [hb] at h
    obtain ⟨_, ⟨⟩, h⟩ := bind_eq_ok.mp h
    obtain ⟨nested, hnested, h⟩ := bind_eq_ok.mp h
    obtain ⟨members, hmembers, h⟩ := bind_eq_ok.mp h
    obtain ⟨functions, hfunctions, h⟩ := bind_eq_ok.mp h
    cases h
    exact ⟨rfl, Or.inl ⟨hb, rfl⟩, hnested, hmembers, hfunctions⟩
  | some r =>
    rw [hb] at h
    obtain ⟨t, ht, h⟩ := bind_eq_ok.mp h
    obtain ⟨_, ⟨⟩, h⟩ := bind_eq_ok.mp h
    obtain ⟨nested, hnested, h⟩ := bind_eq_ok.mp h
    obtain ⟨members, hmembers, h⟩ := bind_eq_ok.mp h
    obtain ⟨functions, hfunctions, h⟩ := bind_eq_ok.mp h
    cases h
    exact ⟨rfl, Or.inr ⟨r, t, hb, ht, rfl⟩, hnested, hmembers, hfunctions⟩

theorem classParts_of_header {inner : List TypeDef} (ht : e.type = .struct s inner) {h : Header}
    (hh : Header.ofEntry m e = .ok h) :
    ∃ c, h.body = .classOf c ∧ h.ns = namespaceOf e ∧ ClassParts m (namespaceOf e) e s c := by
  unfold Header.ofEntry at hh
  rw [ht] at hh
  obtain ⟨included, _, hh⟩ := bind_eq_ok.mp hh
  obtain ⟨c, hc, hh⟩ := bind_eq_ok.mp hh
  cases hh
  exact ⟨c, rfl, rfl, classParts_of_classOf hc⟩

theorem classParts_of_body {inner : List TypeDef} (ht : e.type = .struct s inner) {h : Header}
    (hh : Header.ofEntry m e = .ok h) {c : ClassDeclaration} (hbody : h.body = .classOf c) :
    ClassParts m (namespaceOf e) e s c := by
  obtain ⟨c', hc', _, hparts⟩ := classParts_of_header ht hh
  rw [hbody] at hc'
  cases hc'
  exact hparts

/-! ## members -/

/-- the members of all blocks -/
def membersOf (blocks : List MemberBlock) : List Member := blocks.flatMap (·.members)

theorem memberOf_eq_ok {f : Field} {y : Member} (h : memberOf m ns f = .ok y) :
    y.name = f.name ∧ memberType m ns f = .ok y.type ∧ (y.form = .static ↔ f.isStatic = true) := by
  unfold memberOf at h
  obtain ⟨type, htype, h⟩ := bind_eq_ok.mp h
  cases hs : f.isStatic with
  | true =>
    rw [hs] at h
    cases h
    exact ⟨rfl, htype, iff_of_true rfl rfl⟩
  | false =>
    rw [hs] at h
    dsimp only at h
    rw [if_neg Bool.false_ne_true] at h
    obtain ⟨width, _, h⟩ := bind_eq_ok.mp h
    cases width with
    | some bits =>
      cases h
      exact ⟨rfl, htype, iff_of_false nofun Bool.false_ne_true⟩
    | none =>
      obtain ⟨_, _, h⟩ := bind_eq_ok.mp h
      cases h
      exact ⟨rfl, htype, iff_of_false nofun Bool.false_ne_true⟩

theorem flatMap_memberBlock {γ : Type} {k : Member → List γ} {g : Field → List γ}
    (hk : ∀ f y, memberOf m ns f = .ok y → k y = g f) {withMutex : Bool} {v : Visibility}
    {b : MemberBlock} (h : memberBlock m ns s withMutex v = .ok b) :
    b.members.flatMap k = (s.fields.filter (·.visibility = v)).flatMap g := by
  unfold memberBlock at h
  obtain ⟨members, hmembers, h⟩ := bind_eq_ok.mp h
  cases h
  exact flatMap_of_mapM hk hmembers

theorem flatMap_members_perm {γ : Type} {k : Member → List γ} {g : Field → List γ}
    (hk : ∀ f y, memberOf m ns f = .ok y → k y = g f) {withMutex : Bool}
    {blocks : List MemberBlock} (h : memberBlocks m ns s withMutex = .ok blocks) :
    ((membersOf blocks).flatMap k).Perm (s.fields.flatMap g) := by
  unfold memberBlocks at h
  obtain ⟨all, hall, h⟩ := bind_eq_ok.mp h
  cases h
  -- blocks without members are left out
  have hkept : (membersOf (all.filter fun b => !b.members.isEmpty || b.hasMutex)).flatMap k =
      all.flatMap fun b => b.members.flatMap k := by
    unfold membersOf
    rw [List.flatMap_assoc]
    refine flatMap_filter_of_eq_nil fun b _ hb => ?_
    have hempty : b.members = [] := by simpa using (Bool.or_eq_false_iff.mp hb).1
    rw [hempty]
    rfl
  rw [hkept, flatMap_of_mapM (fun v b => flatMap_memberBlock hk) hall]
  simp only [List.flatMap_cons, List.flatMap_nil, List.append_nil]
  rw [← List.flatMap_append, ← List.flatMap_append]
  refine List.Perm.flatMap_right g ?_
  refine List.Perm.trans ?_ (perm_of_visibility Field.visibility s.fields)
  exact List.perm_append_comm.trans (List.perm_append_comm.append_right _)

theorem exists_memberOf {withMutex : Bool} {blocks : List MemberBlock}
    (h : memberBlocks m ns s withMutex = .ok blocks) {y : Member} (hy : y ∈ membersOf blocks) :
    ∃ f ∈ s.fields, memberOf m ns f = .ok y := by
  obtain ⟨all, hall, h⟩ := bind_eq_ok.mp h
  cases h
  obtain ⟨b, hb, hy⟩ := List.mem_flatMap.mp hy
  obtain ⟨v, _, hv⟩ := (mem_mapM_iff hall).mp (List.mem_of_mem_filter hb)
  obtain ⟨members, hmembers, hv⟩ := bind_eq_ok.mp hv
  cases hv
  obtain ⟨f, hf, hmember⟩ := (mem_mapM_iff hmembers).mp hy
  exact ⟨f, List.mem_of_mem_filter hf, hmember⟩

/-! ## member functions -/

/-- the items of all blocks -/
def itemsOf (blocks : List FunctionBlock) : List SectionItem :=
  blocks.flatMap fun b => b.sections.flatMap (·.items)

/-- a constructor that is written by hand -/
def constructorItem (m : Model) (ns : Option String) (s : StructType) (c : Constructor) :
    Except GenerationError SectionItem :=
  return .declaration (← Declaration.ofConstructor m ns s c)

def operatorItems (s : StructType) : List SectionItem :=
  if s.options.operators then (Declaration.comparisons s).map .declaration else []

def serializationItems (s : StructType) : List SectionItem :=
  if s.options.serialization then Declaration.serialization.map .declaration else []

/-- sections and blocks that are left out have no items -/
theorem itemsOf_filter (blocks : List FunctionBlock) :
    itemsOf ((blocks.map fun b =>
      { b with sections := b.sections.filter (!·.items.isEmpty) }).filter (!·.sections.isEmpty)) =
      itemsOf blocks := by
  unfold itemsOf
  rw [flatMap_filter_of_eq_nil, List.flatMap_map]
  · refine List.flatMap_congr fun b _ => flatMap_filter_of_eq_nil fun x _ hx => ?_
    simpa using hx
  · intro b _ hb
    have hempty : b.sections = [] := by simpa using hb
    rw [hempty]
    rfl

theorem items_of_publicBlock {b : FunctionBlock} (h : publicBlock m ns e s = .ok b) :
    ∃ generated authored methods accessors,
      generatedConstructors m ns s = .ok generated ∧
      (s.constructors.filter (·.visibility = .publicAccess)).mapM (constructorItem m ns s) =
        .ok authored ∧
      (s.methods.filter (·.visibility = .publicAccess)).mapM (methodItems m ns) = .ok methods ∧
      (accessorFields s).mapM (accessorItems m ns s) = .ok accessors ∧
      b.sections.flatMap (·.items) =
        generated ++ authored ++ specialMembers m e s ++ (methods.flatten ++
          (accessors.flatten ++ (operatorItems s ++ serializationItems s))) := by
  obtain ⟨generated, hgenerated, h⟩ := bind_eq_ok.mp h
  obtain ⟨authored, hauthored, h⟩ := bind_eq_ok.mp h
  obtain ⟨_, hsection, h⟩ := bind_eq_ok.mp h
  obtain ⟨accessors, haccessors, h⟩ := bind_eq_ok.mp h
  obtain ⟨methods, hmethods, ⟨⟩⟩ := bind_eq_ok.mp hsection
  cases h
  refine ⟨generated, authored, methods, accessors, hgenerated, hauthored, hmethods, haccessors, ?_⟩
  simp only [List.flatMap_cons, List.flatMap_nil, List.append_nil]
  rfl

theorem items_of_restrictedBlock {v : Visibility} {b : FunctionBlock}
    (h : restrictedBlock m ns s v = .ok b) :
    ∃ authored methods,
      (s.constructors.filter (·.visibility = v)).mapM (constructorItem m ns s) = .ok authored ∧
      (s.methods.filter (·.visibility = v)).mapM (methodItems m ns) = .ok methods ∧
      b.sections.flatMap (·.items) = authored ++ methods.flatten := by
  obtain ⟨authored, hauthored, h⟩ := bind_eq_ok.mp h
  obtain ⟨_, hsection, h⟩ := bind_eq_ok.mp h
  obtain ⟨methods, hmethods, ⟨⟩⟩ := bind_eq_ok.mp hsection
  cases h
  refine ⟨authored, methods, hauthored, hmethods, ?_⟩
  simp only [List.flatMap_cons, List.flatMap_nil, List.append_nil]

/-- the items of all blocks are those of constructors, special members, methods, accessors,
operators and serialization -/
theorem items_perm {blocks : List FunctionBlock} (h : functionBlocks m ns e s = .ok blocks) :
    ∃ generated authored methods accessors,
      generatedConstructors m ns s = .ok generated ∧
      s.constructors.mapM (constructorItem m ns s) = .ok authored ∧
      s.methods.mapM (methodItems m ns) = .ok methods ∧
      (accessorFields s).mapM (accessorItems m ns s) = .ok accessors ∧
      (itemsOf blocks).Perm (generated ++ authored ++ specialMembers m e s ++ methods.flatten ++
        accessors.flatten ++ operatorItems s ++ serializationItems s) := by
  obtain ⟨publicOnes, hpublic, h⟩ := bind_eq_ok.mp h
  obtain ⟨protectedOnes, hprotected, h⟩ := bind_eq_ok.mp h
  obtain ⟨privateOnes, hprivate, h⟩ := bind_eq_ok.mp h
  cases h
  obtain ⟨generated, authored₁, methods₁, accessors, hgenerated, hauthored₁, hmethods₁, haccessors,
    hitems₁⟩ := items_of_publicBlock hpublic
  obtain ⟨authored₂, methods₂, hauthored₂, hmethods₂, hitems₂⟩ :=
    items_of_restrictedBlock hprotected
  obtain ⟨authored₃, methods₃, hauthored₃, hmethods₃, hitems₃⟩ := items_of_restrictedBlock hprivate
  obtain ⟨authored, hauthored, hpermAuthored⟩ :=
    mapM_of_visibility Constructor.visibility hauthored₁ hauthored₂ hauthored₃
  obtain ⟨methods, hmethods, hpermMethods⟩ :=
    mapM_of_visibility Method.visibility hmethods₁ hmethods₂ hmethods₃
  refine ⟨generated, authored, methods, accessors, hgenerated, hauthored, hmethods, haccessors, ?_⟩
  rw [itemsOf_filter]
  unfold itemsOf
  simp only [List.flatMap_cons, List.flatMap_nil, List.append_nil]
  rw [hitems₁, hitems₂, hitems₃]
  -- the parts are the same, so each item is counted as often
  classical
  refine List.perm_iff_count.mpr fun x => ?_
  have ha := hpermAuthored.count_eq x
  have hm := hpermMethods.flatten.count_eq x
  simp only [List.flatten_append, List.count_append] at ha hm ⊢
  omega

end TypeModel.Cpp
