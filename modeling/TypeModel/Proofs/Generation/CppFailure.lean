import TypeModel.Proofs.Generation.Failure

/-!
# Why C++ cannot be generated

After analysis every reference has a target, so types can always be written out.  What remains is
the question whether a value is passed by copy or by reference, which follows aliases up to a bound.

* `FailsOnly P x`             every error of the computation `x` satisfies `P`;
* `Asked s r`                 the question is asked about the reference `r` of the struct `s`;
* `LeadsTooFar m s err`       `err` names a reference of `s` that is asked about and leads too far;
* `failsOnly_header`, `failsOnly_source`, `failsOnly_testText`   the three files of a struct fail
                              with such an error only;
* `project_generated_iff`     the result: when a project is generated, and the cause if it is not.
-/

namespace TypeModel

/-! ## the errors of a computation -/

section
variable {ε α β : Type} {P : ε → Prop} {x : Except ε α} {f : α → Except ε β}

def FailsOnly (P : ε → Prop) (x : Except ε α) : Prop := ∀ err, x = .error err → P err

theorem Succeeds.failsOnly (h : Succeeds x) : FailsOnly P x := by
  obtain ⟨a, rfl⟩ := h
  exact nofun

theorem failsOnly_pure (a : α) : FailsOnly P (pure a : Except ε α) := (succeeds_pure a).failsOnly

theorem FailsOnly.bind (hx : FailsOnly P x) (hf : ∀ a, FailsOnly P (f a)) :
    FailsOnly P (x >>= f) := by
  intro err h
  rcases bind_eq_error.mp h with h | ⟨a, _, h⟩
  · exact hx err h
  · exact hf a err h

/-- the result is only put into another form -/
theorem FailsOnly.bind_pure {g : α → β} (hx : FailsOnly P x) :
    FailsOnly P (x >>= fun a => pure (g a)) := hx.bind fun _ => failsOnly_pure _

theorem failsOnly_mapM {l : List α} (h : ∀ a ∈ l, FailsOnly P (f a)) :
    FailsOnly P (l.mapM f) := by
  intro err herr
  obtain ⟨a, ha, herr⟩ := exists_of_mapM_error herr
  exact h a ha err herr

theorem FailsOnly.map {g : α → β} (hx : FailsOnly P x) : FailsOnly P (x.map g) := by
  cases x with
  | error e =>
    rintro _ ⟨⟩
    exact hx e rfl
  | ok a => exact nofun

end

/-! ## references -/

namespace Model
variable {m : Model}

theorem isScalar_eq_error (hm : m.Linked) {r : TypeRef} (hr : Succeeds (m.target r))
    {err : GenerationError} (h : m.isScalar r = .error err) :
    err = .unresolved r.name ∧ ¬ m.Within [.alias] r := by
  have hunbroken : m.Unbroken [.alias] r := hm.unbroken (by decide) hr
  refine ⟨(findsWithin_isScalar hunbroken).eq_of_error h, fun hwithin => ?_⟩
  obtain ⟨b, hb⟩ := (m.succeeds_isScalar r).mpr hwithin
  rw [h] at hb
  cases hb

end Model

namespace Cpp

/-! ## what is asked about a struct -/

/-- whether values of the type are passed by copy or by reference has to be known -/
inductive Asked (s : StructType) : TypeRef → Prop
  | method {x : Method} {p : Parameter} : x ∈ s.methods → p ∈ x.parameters → Asked s p.typeRef
  | authored {c : Constructor} {p : Parameter} :
      c ∈ s.constructors → p ∈ c.parameters → Asked s p.typeRef
  /-- the generated constructor has an argument for every instance field -/
  | generated {f : Field} : hasFieldsConstructor s = true → f ∈ s.instanceFields →
      f.isSingleValued = true → Asked s f.typeRef
  | accessor {f : Field} : f ∈ accessorFields s → Asked s f.typeRef

theorem classified_iff {m : Model} {s : StructType} :
    Classified m s ↔ ∀ r, Asked s r → m.Within [.alias] r := by
  constructor
  · rintro h _ (⟨hx, hp⟩ | ⟨hc, hp⟩ | ⟨hfc, hf, hs⟩ | hf)
    · exact h.methods _ hx _ hp
    · exact h.constructors _ hc _ hp
    · exact h.fields hfc _ hf hs
    · exact h.accessors _ hf
  · intro h
    exact ⟨fun x hx p hp => h _ (.method hx hp), fun c hc p hp => h _ (.authored hc hp),
      fun hfc f hf hs => h _ (.generated hfc hf hs), fun f hf => h _ (.accessor hf)⟩

/-- the error names a reference that is asked about and does not end before the bound -/
def LeadsTooFar (m : Model) (s : StructType) (err : GenerationError) : Prop :=
  ∃ r, Asked s r ∧ ¬ m.Within [.alias] r ∧ err = .unresolved r.name

section
variable {m : Model} {ns : Option String} {e : Entry} {s : StructType} {inner : List TypeDef}

theorem Asked.succeeds_target {r : TypeRef} (h : Asked s r)
    (hl : (TypeDef.struct s inner).Linked m) : Succeeds (m.target r) := by
  rcases h with ⟨hx, hp⟩ | ⟨hc, hp⟩ | ⟨_, hf, _⟩ | hf
  · exact hl.of_mentions (TypeDef.mentions_methodParameter hx hp)
  · exact hl.of_mentions (TypeDef.mentions_constructorParameter hc hp)
  · exact (hl.field (List.mem_filter.mp hf).1).value
  · exact (hl.field (mem_accessorFields hf).1).value

/-- a declaration fails as its heading does -/
theorem failsOnly_declaration {P : GenerationError → Prop} {x : Except GenerationError Declaration}
    {y : Except GenerationError Heading} (h : x.map Declaration.heading = y)
    (hy : FailsOnly P y) : FailsOnly P x := by
  rintro err rfl
  exact hy err h.symm

variable (hm : m.Linked) (hl : (TypeDef.struct s inner).Linked m)
include hm hl

/-! ## headings -/

theorem failsOnly_isScalar {r : TypeRef} (h : Asked s r) :
    FailsOnly (LeadsTooFar m s) (m.isScalar r) := by
  intro err herr
  obtain ⟨rfl, hfar⟩ := Model.isScalar_eq_error hm (h.succeeds_target hl) herr
  exact ⟨r, h, hfar, rfl⟩

theorem failsOnly_parameterType {r : TypeRef} (h : Asked s r) :
    FailsOnly (LeadsTooFar m s) (parameterType m ns r) :=
  (succeeds_typeOf.mpr (h.succeeds_target hl)).failsOnly.bind fun _ =>
    (failsOnly_isScalar hm hl h).bind_pure

theorem failsOnly_memberParameterType {f : Field} (hf : f ∈ s.fields)
    (h : f.isSingleValued = true → Asked s f.typeRef) :
    FailsOnly (LeadsTooFar m s) (memberParameterType m ns f) := by
  unfold memberParameterType
  split
  case isTrue hs => exact failsOnly_parameterType hm hl (h hs)
  case isFalse => exact (succeeds_memberType (hl.field hf)).failsOnly.bind_pure

theorem failsOnly_argumentsOf {ps : List Parameter} (h : ∀ p ∈ ps, Asked s p.typeRef) :
    FailsOnly (LeadsTooFar m s) (argumentsOf m ns ps) :=
  failsOnly_mapM fun p hp => (failsOnly_parameterType hm hl (h p hp)).bind_pure

theorem failsOnly_ofFields (h : hasFieldsConstructor s = true) :
    FailsOnly (LeadsTooFar m s) (Heading.ofFields m ns s) := by
  refine FailsOnly.bind_pure (failsOnly_mapM fun f hf => FailsOnly.bind_pure ?_)
  exact failsOnly_memberParameterType hm hl (List.mem_filter.mp hf).1 (.generated h hf)

theorem failsOnly_ofConstructor {c : Constructor} (hc : c ∈ s.constructors) :
    FailsOnly (LeadsTooFar m s) (Heading.ofConstructor m ns s c) :=
  (failsOnly_argumentsOf hm hl fun _ hp => .authored hc hp).bind_pure

theorem failsOnly_ofMethod {x : Method} (hx : x ∈ s.methods) :
    FailsOnly (LeadsTooFar m s) (Heading.ofMethod m ns x) := by
  have harguments : FailsOnly (LeadsTooFar m s) (argumentsOf m ns x.parameters) :=
    failsOnly_argumentsOf hm hl fun _ hp => .method hx hp
  refine FailsOnly.bind ?_ fun _ => harguments.bind_pure
  unfold resultOf
  cases hr : x.returns with
  | none => exact failsOnly_pure _
  | some r =>
    exact (succeeds_typeOf.mpr (hl.of_mentions (TypeDef.mentions_returns hx hr))).failsOnly

theorem failsOnly_getter {f : Field} (hf : f ∈ accessorFields s) :
    FailsOnly (LeadsTooFar m s) (Heading.getter m ns s f) := by
  refine (succeeds_memberType (hl.field (mem_accessorFields hf).1)).failsOnly.bind fun _ =>
    FailsOnly.bind_pure ?_
  unfold memberIsScalar
  split
  · exact failsOnly_isScalar hm hl (.accessor hf)
  · exact failsOnly_pure _

theorem failsOnly_setter {f : Field} (hf : f ∈ accessorFields s) :
    FailsOnly (LeadsTooFar m s) (Heading.setter m ns f) :=
  (failsOnly_memberParameterType hm hl (mem_accessorFields hf).1 fun _ => .accessor hf).bind_pure

/-! ## the header -/

theorem failsOnly_authoredConstructors (v : Visibility) :
    FailsOnly (LeadsTooFar m s) (authoredConstructors m ns s v) :=
  failsOnly_mapM fun c hc => (failsOnly_declaration (heading_ofConstructor m ns s c)
    (failsOnly_ofConstructor hm hl (List.mem_filter.mp hc).1)).bind_pure

theorem failsOnly_methodSection (v : Visibility) :
    FailsOnly (LeadsTooFar m s) (methodSection m ns s v) :=
  (failsOnly_mapM fun x hx => (failsOnly_declaration (heading_ofMethod m ns x)
    (failsOnly_ofMethod hm hl (List.mem_filter.mp hx).1)).bind_pure).bind_pure

theorem failsOnly_generatedConstructors :
    FailsOnly (LeadsTooFar m s) (generatedConstructors m ns s) := by
  unfold generatedConstructors
  dsimp only
  split
  case isTrue h =>
    exact (failsOnly_declaration (heading_ofFields m ns s) (failsOnly_ofFields hm hl h)).bind_pure
  case isFalse => exact failsOnly_pure _

theorem failsOnly_accessorItems {f : Field} (hf : f ∈ accessorFields s) :
    FailsOnly (LeadsTooFar m s) (accessorItems m ns s f) :=
  (failsOnly_declaration (heading_getter m ns s f) (failsOnly_getter hm hl hf)).bind fun _ =>
    (failsOnly_declaration (heading_setter m ns f) (failsOnly_setter hm hl hf)).bind_pure

theorem failsOnly_publicBlock : FailsOnly (LeadsTooFar m s) (publicBlock m ns e s) :=
  (failsOnly_generatedConstructors hm hl).bind fun _ =>
    (failsOnly_authoredConstructors hm hl _).bind fun _ =>
    (failsOnly_methodSection hm hl _).bind fun _ =>
    (failsOnly_mapM fun _ hf => failsOnly_accessorItems hm hl hf).bind_pure

theorem failsOnly_restrictedBlock (v : Visibility) :
    FailsOnly (LeadsTooFar m s) (restrictedBlock m ns s v) :=
  (failsOnly_authoredConstructors hm hl v).bind fun _ => (failsOnly_methodSection hm hl v).bind_pure

theorem failsOnly_functionBlocks : FailsOnly (LeadsTooFar m s) (functionBlocks m ns e s) :=
  (failsOnly_publicBlock hm hl).bind fun _ =>
    (failsOnly_restrictedBlock hm hl _).bind fun _ => (failsOnly_restrictedBlock hm hl _).bind_pure

theorem failsOnly_classOf (hi : ∀ x ∈ e.inners, x.type.Linked m) :
    FailsOnly (LeadsTooFar m s) (classOf m ns e s) := by
  have hrest : ∀ base : Option TypeExpr, FailsOnly (LeadsTooFar m s) (do
      let nested ← e.inners.mapM (nestedOf m ns)
      let members ← memberBlocks m ns s s.options.threading
      let functions ← functionBlocks m ns e s
      return ({ name := s.name, comment := s.comment, base, nested, members, functions,
                friends := s.friends } : ClassDeclaration)) := fun base =>
    (succeeds_mapM.mpr fun x hx => succeeds_nestedOf (hi x hx)).failsOnly.bind fun _ =>
      (succeeds_memberBlocks (fun f hf => hl.field hf) _).failsOnly.bind fun _ =>
      (failsOnly_functionBlocks hm hl).bind_pure
  unfold classOf
  dsimp only
  cases hb : s.base with
  | none => exact hrest none
  | some r => exact (succeeds_typeOf.mpr (hl.base hb)).failsOnly.bind fun t => hrest (some t)

theorem failsOnly_header (he : e ∈ m.declaredTypes) (ht : e.type = .struct s inner) :
    FailsOnly (LeadsTooFar m s) (Header.ofEntry m e) := by
  unfold Header.ofEntry
  dsimp only
  rw [ht]
  have hstems := succeeds_stemsMentioned s.name (mem_structReferences hl (linked_inner hm he ht))
  refine hstems.failsOnly.bind fun _ => FailsOnly.bind_pure ?_
  exact failsOnly_classOf hm hl fun x hx => hm x (mem_allTypes_of_mem_inners he hx)

/-! ## the implementation and the test -/

theorem failsOnly_source : FailsOnly (LeadsTooFar m s) (Source.ofStruct m e s) := by
  unfold Source.ofStruct
  refine FailsOnly.bind (failsOnly_mapM fun f hf => ?_) fun _ => FailsOnly.bind ?_ fun _ =>
    FailsOnly.bind (failsOnly_mapM fun c hc => ?_) fun _ =>
    (succeeds_specialDefinitions hl).failsOnly.bind fun _ =>
    FailsOnly.bind (failsOnly_mapM fun x hx => ?_) fun _ =>
    FailsOnly.bind (failsOnly_mapM fun f hf => ?_) fun _ =>
    (succeeds_serialization hl).failsOnly.bind_pure
  · have hf := hl.field (List.mem_filter.mp hf).1
    exact (succeeds_memberType hf).failsOnly.bind fun _ =>
      (succeeds_defaultText hf).failsOnly.bind_pure
  · unfold fieldsConstructors
    split
    case isTrue h => exact (failsOnly_ofFields hm hl h).bind_pure
    case isFalse => exact failsOnly_pure _
  · exact (failsOnly_ofConstructor hm hl hc).bind_pure
  · exact (failsOnly_ofMethod hm hl (List.mem_filter.mp hx).1).bind_pure
  · exact (failsOnly_getter hm hl hf).bind fun _ => (failsOnly_setter hm hl hf).bind_pure

theorem failsOnly_accessorCalls {f : Field} (hf : f ∈ accessorFields s) :
    FailsOnly (LeadsTooFar m s) (accessorCalls m f) := by
  have hfield := hl.field (mem_accessorFields hf).1
  refine (succeeds_memberType hfield).failsOnly.bind fun _ => FailsOnly.bind ?_ fun comparable => ?_
  · refine hfield.value.failsOnly.bind fun t => ?_
    cases t with
    | basic b => exact failsOnly_pure _
    | declared d => exact failsOnly_isScalar hm hl (.accessor hf)
  · cases comparable <;> exact failsOnly_pure _

theorem failsOnly_testText : FailsOnly (LeadsTooFar m s) (testText m e s) := by
  unfold testText testScript
  refine FailsOnly.bind_pure (FailsOnly.bind_pure ?_)
  unfold testBody
  split
  · exact (failsOnly_mapM fun f hf => failsOnly_accessorCalls hm hl hf).bind_pure
  · exact failsOnly_pure _

end

/-! ## the project -/

theorem exists_of_collect_error {ε : Type} {err : ε} (files : List (String × Except ε String)) :
    ∀ fs : FileSet, (fs.collect files).2 = .error err → ∃ p ∈ files, p.2 = .error err := by
  induction files with
  | nil => exact fun _ h => nomatch h
  | cons file files ih =>
    intro fs h
    obtain ⟨path, text⟩ := file
    cases text with
    | error e =>
      cases h
      exact ⟨_, List.mem_cons_self, rfl⟩
    | ok text =>
      obtain ⟨p, hp, herr⟩ := ih _ h
      exact ⟨p, List.mem_cons_of_mem _ hp, herr⟩

variable {m : Model}

/-- only the files of a struct can fail -/
theorem leadsTooFar_of_typePlan (hm : m.Linked) (c : CppConfig) {e : Entry}
    (he : e ∈ m.declaredTypes) {p : String × Except GenerationError String}
    (hp : p ∈ typePlan m c e) {err : GenerationError} (herr : p.2 = .error err) :
    ∃ s, e.type.struct? = some s ∧ LeadsTooFar m s err := by
  cases hs : e.type.struct? with
  | none =>
    have hok : Succeeds p.2 := (succeeds_typePlan hm c he).mpr (fun s h => by simp [hs] at h) p hp
    rw [herr] at hok
    exact absurd hok (not_succeeds_error err)
  | some s =>
    refine ⟨s, rfl, ?_⟩
    obtain ⟨inner, ht⟩ := TypeDef.struct?_eq_some.mp hs
    have hl := hm e (mem_allTypes_of_mem_declaredTypes he)
    unfold typePlan at hp
    rw [ht] at hl hp
    rcases List.mem_cons.mp hp with rfl | hp
    · exact (failsOnly_header hm hl he ht).map err herr
    · rcases List.mem_cons.mp hp with rfl | hp
      · exact (failsOnly_source hm hl).map err herr
      · split at hp
        · obtain rfl := List.mem_singleton.mp hp
          exact failsOnly_testText hm hl err herr
        · cases hp

theorem leadsTooFar_of_generate (hm : m.Linked) (c : CppConfig) {err : GenerationError}
    (h : (generate m c).2 = .error err) :
    ∃ e ∈ m.declaredTypes, ∃ s, e.type.struct? = some s ∧ LeadsTooFar m s err := by
  obtain ⟨p, hp, herr⟩ := exists_of_collect_error (plan m c) {} h
  rcases List.mem_append.mp hp with hp | hp
  · obtain ⟨e, he, hp⟩ := List.mem_flatMap.mp hp
    exact ⟨e, he, leadsTooFar_of_typePlan hm c he hp herr⟩
  · -- build file and entry point are texts
    rcases List.mem_cons.mp hp with rfl | hp
    · cases herr
    · obtain rfl := List.mem_singleton.mp hp
      cases herr

/-- after analysis a project is generated if and only if, in every declared struct, the references
that are asked about end before the bound, with at most fifteen aliases on the way; else the error
is that such a reference is not resolved, one that leads too far -/
theorem project_generated_iff (m : Model) {r : Model} {ds : Diagnostics}
    (h : m.analyze = (r, .ok ds)) (c : CppConfig) :
    ((∃ files, (generate r c).2 = .ok files) ↔
      ∀ e ∈ r.declaredTypes, ∀ s, e.type.struct? = some s → ∀ ref, Asked s ref →
        ∃ n ≤ 15, ∃ t, r.Leads [.alias] ref n t) ∧
    ∀ err, (generate r c).2 = .error err →
      ∃ e ∈ r.declaredTypes, ∃ s, e.type.struct? = some s ∧ ∃ ref, Asked s ref ∧
        (¬ ∃ n ≤ 15, ∃ t, r.Leads [.alias] ref n t) ∧ err = .unresolved ref.name := by
  have hr : m.analyze.1 = r := congrArg Prod.fst h
  have hok : m.analyze.2 = .ok ds := congrArg Prod.snd h
  have hlinked : r.Linked := hr ▸ Model.linked_of_analyze hok
  have hwithin : ∀ ref, r.Within [.alias] ref ↔ ∃ n ≤ 15, ∃ t, r.Leads [.alias] ref n t :=
    fun ref => exists_congr fun n => and_congr_left' Nat.lt_succ_iff
  simp only [← hwithin]
  constructor
  · refine (succeeds_generate hlinked c).trans ?_
    exact forall₄_congr fun e _ s _ => classified_iff
  · intro err herr
    exact leadsTooFar_of_generate hlinked c herr

open Config in
/-- a struct whose method takes it through `n + 1` aliases -/
def passedAlong (n : Nat) : Model :=
  { types :=
      [.struct
        { name := "Node"
          methods :=
            [{ name := "link", parameters := [{ name := "next", typeRef := { name := "A0" } }] }] }
        []] ++
        ((List.range n).map fun i => aliasOf ("A" ++ Nat.repr i) ("A" ++ Nat.repr (i + 1))) ++
        [aliasOf ("A" ++ Nat.repr n) "Node"] }

theorem project_generated_iff_passedAlong :
    (passedAlong 14).analyze = ((passedAlong 14).analyze.1, .ok []) ∧
    (∀ e ∈ (passedAlong 14).analyze.1.declaredTypes, ∀ s, e.type.struct? = some s →
      ∀ ref, Asked s ref → ∃ n ≤ 15, ∃ t, (passedAlong 14).analyze.1.Leads [.alias] ref n t) ∧
    (passedAlong 15).analyze = ((passedAlong 15).analyze.1, .ok []) ∧
    ∃ e ∈ (passedAlong 15).analyze.1.declaredTypes, ∃ s, e.type.struct? = some s ∧
      ∃ ref, Asked s ref ∧
        (¬ ∃ n ≤ 15, ∃ t, (passedAlong 15).analyze.1.Leads [.alias] ref n t) ∧
        GenerationError.unresolved "A0" = .unresolved ref.name := by
  have hshort : (passedAlong 14).analyze = ((passedAlong 14).analyze.1, .ok []) :=
    Prod.ext rfl (by decide +kernel)
  have hlong : (passedAlong 15).analyze = ((passedAlong 15).analyze.1, .ok []) :=
    Prod.ext rfl (by decide +kernel)
  refine ⟨hshort, (project_generated_iff _ hshort {}).1.mp ?_, hlong,
    (project_generated_iff _ hlong {}).2 _ ?_⟩
  · exact succeeds_iff_isOk.mpr (by decide +kernel)
  · decide +kernel

end Cpp

end TypeModel
