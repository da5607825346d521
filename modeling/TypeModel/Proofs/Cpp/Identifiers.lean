import TypeModel.Proofs.Generation.Cpp
import TypeModel.Proofs.Text.Split

/-!
# Names that are identifiers

Nothing keeps the names of a model from having blanks or brackets in them.  Where they have none,
the types in generated C++ consist of few characters and begin with no keyword.

* `isIdentifier s`       `s` is an identifier and introduces no declaration;
* `isTypeName s`         the same with the namespaces and types around it;
* `isOwnName s`          the name of a class, or `std::string`;
* `Entry.Plain e`        the names around a listed type are identifiers;
* `TypeExpr.Plain t`     all names in a type are;
* `plain_of_typeOf`, `plain_of_memberType`, …   the types of a model with such names;
* `Plain.chars`, `Plain.head`, `Plain.firstWord`   what their texts look like.
-/

namespace TypeModel.Cpp

/-! ## characters and keywords -/

def isNameChar (c : Char) : Bool := c.isAlphanum || c == '_' || (127 < c.toNat && !Text.isBlank c)

def isScopeChar (c : Char) : Bool := isNameChar c || c == ':'

/-- a character of a type -/
def isTypeChar (c : Char) : Bool := isScopeChar c || ['<', '>', ',', '&', ' ', '-'].contains c

/-- a keyword in front of a declaration -/
def isIntroducer (word : List Char) : Bool :=
  ["explicit", "static", "virtual", "mutable", "friend", "using"].any (·.toList == word)

def isIdentifier (s : String) : Bool :=
  !s.isEmpty && s.toList.all isNameChar && !isIntroducer s.toList

def isTypeName (s : String) : Bool :=
  !s.isEmpty && s.toList.all isScopeChar && !isIntroducer s.toList

/-- keywords are made of letters -/
theorem isLower_of_isIntroducer {word : List Char} (h : isIntroducer word = true) :
    ∀ c ∈ word, c.isLower = true := by
  obtain ⟨keyword, hmem, heq⟩ := List.any_eq_true.mp h
  have hlower : ∀ k ∈ ["explicit", "static", "virtual", "mutable", "friend", "using"],
      k.toList.all Char.isLower = true := by
    decide
  exact beq_iff_eq.mp heq ▸ List.all_eq_true.mp (hlower keyword hmem)

theorem not_isIntroducer_of_mem {word : List Char} {c : Char} (hc : c.isLower = false)
    (h : c ∈ word) : isIntroducer word = false := by
  rw [← Bool.not_eq_true]
  intro hword
  rw [isLower_of_isIntroducer hword c h] at hc
  cases hc

theorem isTypeName_of_isIdentifier {s : String} (h : isIdentifier s = true) :
    isTypeName s = true := by
  unfold isIdentifier at h
  unfold isTypeName
  simp only [Bool.and_eq_true, List.all_eq_true] at h ⊢
  obtain ⟨⟨hne, hall⟩, hkeyword⟩ := h
  exact ⟨⟨hne, fun c hc => Bool.or_eq_true_iff.mpr (Or.inl (hall c hc))⟩, hkeyword⟩

/-- the name of a class, or that of a type of the language that functions have -/
def isOwnName (s : String) : Bool := isIdentifier s || s == "std::string"

theorem isOwnName_of_isIdentifier {s : String} (h : isIdentifier s = true) : isOwnName s = true :=
  Bool.or_eq_true_iff.mpr (Or.inl h)

theorem isTypeName_of_isOwnName {s : String} (h : isOwnName s = true) : isTypeName s = true := by
  rcases Bool.or_eq_true_iff.mp h with h | h
  · exact isTypeName_of_isIdentifier h
  · rw [beq_iff_eq.mp h]
    decide

/-- a name behind a scope is no keyword -/
theorem isTypeName_of_scoped {scope s : String} (hscope : scope.toList.all isScopeChar = true)
    (hs : isTypeName s = true) : isTypeName (scope ++ "::" ++ s) = true := by
  unfold isTypeName at hs ⊢
  simp only [Bool.and_eq_true, List.all_eq_true] at hs ⊢
  obtain ⟨⟨hne, hall⟩, -⟩ := hs
  have hcolons : "::".toList.all isScopeChar = true := by decide
  have hmem : ':' ∈ (scope ++ "::" ++ s).toList := by simp
  refine ⟨⟨?_, ?_⟩, ?_⟩
  · simp
  · simp only [String.toList_append, List.forall_mem_append]
    exact ⟨⟨List.all_eq_true.mp hscope, List.all_eq_true.mp hcolons⟩, hall⟩
  · rw [not_isIntroducer_of_mem (by decide) hmem]
    rfl

/-! ## listed types -/

/-- the names around a listed type -/
structure Entry.Plain (e : Entry) : Prop where
  name : isIdentifier e.name = true
  outer : ∀ o ∈ e.outer, isIdentifier o.name = true
  scope : ∀ ns ∈ namespaceOf e, ns.toList.all isScopeChar = true

instance (e : Entry) : Decidable (Entry.Plain e) :=
  decidable_of_iff (isIdentifier e.name = true ∧ (∀ o ∈ e.outer, isIdentifier o.name = true) ∧
      ∀ ns ∈ namespaceOf e, ns.toList.all isScopeChar = true)
    ⟨fun ⟨h, h', h''⟩ => ⟨h, h', h''⟩, fun h => ⟨h.name, h.outer, h.scope⟩⟩

theorem Entry.Plain.struct_name {e : Entry} (h : Entry.Plain e) {s : StructType}
    {inner : List TypeDef} (ht : e.type = .struct s inner) : isIdentifier s.name = true := by
  have hname := h.name
  unfold Entry.name at hname
  rwa [ht] at hname

theorem isTypeName_qualifiedName {e : Entry} (h : Entry.Plain e) (ns : Option String) :
    isTypeName (qualifiedName e ns) = true := by
  have hlocal : isTypeName (localName e) = true := by
    unfold localName
    have hname := isTypeName_of_isIdentifier h.name
    cases ho : e.outer with
    | none => exact hname
    | some o =>
      refine isTypeName_of_scoped ?_ hname
      have houter := isTypeName_of_isIdentifier (h.outer o ho)
      unfold isTypeName at houter
      simp only [Bool.and_eq_true] at houter
      exact houter.1.2
  unfold qualifiedName
  cases hns : namespaceOf e with
  | none => exact hlocal
  | some scope =>
    dsimp only
    split
    · exact hlocal
    · exact isTypeName_of_scoped (h.scope scope hns) hlocal

/-! ## types -/

namespace TypeExpr

def Plain : TypeExpr → Prop
  | .primitive _ => True
  | .declared _ text => isTypeName text = true
  | .named text => isOwnName text = true
  | .array t _ | .vector t | .constRef t | .ref t | .rvalueRef t => t.Plain
  | .map key value => key.Plain ∧ value.Plain

theorem isTypeName_cppName (kind : PrimitiveKind) : isTypeName kind.cppName = true := by
  cases kind with
  | boolean => decide
  | text => decide
  | float bits =>
    dsimp only [PrimitiveKind.cppName]
    split <;> decide
  | integer bits signed =>
    dsimp only [PrimitiveKind.cppName]
    cases signed <;> split_ifs <;> decide

theorem isTypeChar_repr (n : Int) : ∀ c ∈ (Int.repr n).toList, isTypeChar c = true := by
  intro c hc
  rcases Text.sign_or_isDigit hc with rfl | hdigit
  · decide
  · simp [isTypeChar, isScopeChar, isNameChar, Char.isAlphanum, hdigit]

theorem all_of_isTypeName {s : String} (h : isTypeName s = true) :
    s.toList.all isTypeChar = true := by
  unfold isTypeName at h
  simp only [Bool.and_eq_true] at h
  exact List.all_eq_true.mpr fun c hc =>
    Bool.or_eq_true_iff.mpr (Or.inl (List.all_eq_true.mp h.1.2 c hc))

theorem chars_of_isTypeName {s : String} (h : isTypeName s = true) :
    ∀ c ∈ s.toList, isTypeChar c = true :=
  List.all_eq_true.mp (all_of_isTypeName h)

section
variable {t : TypeExpr}

theorem Plain.all_chars (h : t.Plain) : t.text.toList.all isTypeChar = true := by
  induction t with
  | primitive kind => exact all_of_isTypeName (isTypeName_cppName kind)
  | declared id text => exact all_of_isTypeName h
  | named text => exact all_of_isTypeName (isTypeName_of_isOwnName h)
  | array t size ih =>
    have hsize := List.all_eq_true.mpr (isTypeChar_repr size.toInt)
    simp only [text, String.toList_append, List.all_append, Bool.and_eq_true]
    exact ⟨⟨⟨⟨by decide, ih h⟩, by decide⟩, hsize⟩, by decide⟩
  | vector t ih =>
    simp only [text, String.toList_append, List.all_append, Bool.and_eq_true]
    exact ⟨⟨by decide, ih h⟩, by decide⟩
  | map key value ihk ihv =>
    simp only [text, String.toList_append, List.all_append, Bool.and_eq_true]
    exact ⟨⟨⟨⟨by decide, ihk h.1⟩, by decide⟩, ihv h.2⟩, by decide⟩
  | constRef t ih =>
    simp only [text, String.toList_append, List.all_append, Bool.and_eq_true]
    exact ⟨⟨by decide, ih h⟩, by decide⟩
  | ref t ih =>
    simp only [text, String.toList_append, List.all_append, Bool.and_eq_true]
    exact ⟨ih h, by decide⟩
  | rvalueRef t ih =>
    simp only [text, String.toList_append, List.all_append, Bool.and_eq_true]
    exact ⟨ih h, by decide⟩

theorem Plain.chars (h : t.Plain) : ∀ c ∈ t.text.toList, isTypeChar c = true :=
  List.all_eq_true.mp h.all_chars

theorem Plain.notMem (h : t.Plain) {c : Char} (hc : isTypeChar c = false) :
    c ∉ t.text.toList := fun hmem => by
  rw [h.chars c hmem] at hc
  cases hc

theorem head_of_isTypeName {s : String} (h : isTypeName s = true) :
    ∃ c rest, s.toList = c :: rest ∧ isScopeChar c = true := by
  unfold isTypeName at h
  simp only [Bool.and_eq_true, List.all_eq_true] at h
  obtain ⟨⟨hne, hall⟩, -⟩ := h
  cases hs : s.toList with
  | nil => simp [String.toList_eq_nil_iff.mp hs] at hne
  | cons c rest => exact ⟨c, rest, rfl, hall c (hs ▸ List.mem_cons_self)⟩

theorem Plain.head (h : t.Plain) :
    ∃ c rest, t.text.toList = c :: rest ∧ isScopeChar c = true := by
  -- what stands behind a type leaves its first character alone
  have happend : ∀ {a : String} (b : String),
      (∃ c rest, a.toList = c :: rest ∧ isScopeChar c = true) →
      ∃ c rest, (a ++ b).toList = c :: rest ∧ isScopeChar c = true := by
    rintro a b ⟨c, rest, ha, hc⟩
    exact ⟨c, rest ++ b.toList, by rw [String.toList_append, ha]; rfl, hc⟩
  induction t with
  | primitive kind => exact head_of_isTypeName (isTypeName_cppName kind)
  | declared id text => exact head_of_isTypeName h
  | named text => exact head_of_isTypeName (isTypeName_of_isOwnName h)
  | array t size ih => exact happend _ (happend _ (happend _ (happend _ ⟨'s', _, rfl, by decide⟩)))
  | vector t ih => exact happend _ (happend _ ⟨'s', _, rfl, by decide⟩)
  | map key value ihk ihv =>
    exact happend _ (happend _ (happend _ (happend _ ⟨'s', _, rfl, by decide⟩)))
  | constRef t ih => exact happend _ (happend _ ⟨'c', _, rfl, by decide⟩)
  | ref t ih => exact happend _ (ih h)
  | rvalueRef t ih => exact happend _ (ih h)

/-- the first word of a text -/
def firstWord (cs : List Char) : List Char := cs.takeWhile (· ≠ ' ')

theorem firstWord_of_notMem {cs : List Char} (h : ' ' ∉ cs) : firstWord cs = cs := by
  unfold firstWord
  rw [← List.append_nil cs, List.takeWhile_append_of_pos, List.takeWhile_nil]
  exact fun c hc => decide_eq_true fun hspace => h (hspace ▸ hc)

/-- a word that ends later has the first word in front -/
theorem subset_firstWord {a : List Char} (ha : ' ' ∉ a) (b : List Char) :
    a ⊆ firstWord (a ++ b) := by
  have ha : ∀ c ∈ a, decide (c ≠ ' ') = true := fun c hc =>
    decide_eq_true fun hspace => ha (hspace ▸ hc)
  unfold firstWord
  rw [List.takeWhile_append_of_pos ha]
  exact List.subset_append_left _ _

theorem firstWord_of_isTypeName {s : String} (h : isTypeName s = true) :
    isIntroducer (firstWord s.toList) = false := by
  have hspace : ' ' ∉ s.toList := by
    unfold isTypeName at h
    simp only [Bool.and_eq_true, List.all_eq_true] at h
    exact fun hmem => absurd (h.1.2 ' ' hmem) (by decide)
  rw [firstWord_of_notMem hspace]
  unfold isTypeName at h
  simp only [Bool.and_eq_true, Bool.not_eq_true'] at h
  exact h.2

/-- a first word with `c` in it, where `c` is no letter -/
theorem not_isIntroducer_firstWord {lead : String} {c : Char} (hc : c.isLower = false)
    (hmem : c ∈ lead.toList) (hspace : ' ' ∉ lead.toList) (rest : List Char) :
    isIntroducer (firstWord (lead.toList ++ rest)) = false :=
  not_isIntroducer_of_mem hc (subset_firstWord hspace rest hmem)

/-- the same for a reference, whose mark ends the first word or stands behind it -/
theorem not_isIntroducer_append {cs mark : List Char} (h : isIntroducer (firstWord cs) = false)
    (hmark : '&' ∈ firstWord mark) : isIntroducer (firstWord (cs ++ mark)) = false := by
  unfold firstWord at h hmark ⊢
  rw [List.takeWhile_append]
  split
  · exact not_isIntroducer_of_mem (by decide) (List.mem_append_right _ hmark)
  · exact h

theorem Plain.firstWord (h : t.Plain) : isIntroducer (firstWord t.text.toList) = false := by
  induction t with
  | primitive kind => exact firstWord_of_isTypeName (isTypeName_cppName kind)
  | declared id text => exact firstWord_of_isTypeName h
  | named text => exact firstWord_of_isTypeName (isTypeName_of_isOwnName h)
  | array t size ih =>
    simp only [text, String.toList_append, List.append_assoc]
    exact not_isIntroducer_firstWord (c := ':') (by decide) (by decide) (by decide) _
  | vector t ih =>
    simp only [text, String.toList_append, List.append_assoc]
    exact not_isIntroducer_firstWord (c := ':') (by decide) (by decide) (by decide) _
  | map key value ihk ihv =>
    simp only [text, String.toList_append, List.append_assoc]
    exact not_isIntroducer_firstWord (c := ':') (by decide) (by decide) (by decide) _
  | constRef t ih =>
    simp only [text, String.toList_append, List.append_assoc]
    rfl
  | ref t ih =>
    rw [text, String.toList_append]
    exact not_isIntroducer_append (ih h) (by decide)
  | rvalueRef t ih =>
    rw [text, String.toList_append]
    exact not_isIntroducer_append (ih h) (by decide)

end

end TypeExpr

/-! ## the types of a model -/

section
variable {m : Model} {ns : Option String} (hm : ∀ e ∈ m.allTypes, Entry.Plain e)
include hm

theorem plain_of_typeOf {r : TypeRef} {t : TypeExpr} (h : typeOf m ns r = .ok t) : t.Plain := by
  obtain ⟨target, htarget, h⟩ := bind_eq_ok.mp h
  cases target with
  | basic b =>
    cases h
    trivial
  | declared d =>
    obtain ⟨id, -, hd⟩ := Model.target_eq_declared.mp htarget
    cases h
    exact isTypeName_qualifiedName (hm d (Model.entry?_eq_some_iff_mem.mp hd).1) ns

theorem plain_of_parameterType {r : TypeRef} {t : TypeExpr} (h : parameterType m ns r = .ok t) :
    t.Plain := by
  obtain ⟨type, htype, h⟩ := bind_eq_ok.mp h
  obtain ⟨isScalar, _, h⟩ := bind_eq_ok.mp h
  cases h
  have hplain := plain_of_typeOf hm htype
  cases isScalar <;> exact hplain

theorem plain_of_memberType {f : Field} {t : TypeExpr} (h : memberType m ns f = .ok t) :
    t.Plain := by
  obtain ⟨value, hvalue, h⟩ := bind_eq_ok.mp h
  have hplain := plain_of_typeOf hm hvalue
  cases hkey : f.key with
  | none =>
    rw [hkey] at h
    cases h
    cases f.arraySize <;> exact hplain
  | some key =>
    rw [hkey] at h
    obtain ⟨keyType, hkeyType, h⟩ := bind_eq_ok.mp h
    cases h
    have hmap := And.intro (plain_of_typeOf hm hkeyType) hplain
    cases f.arraySize <;> exact hmap

theorem plain_of_memberParameterType {f : Field} {t : TypeExpr}
    (h : memberParameterType m ns f = .ok t) : t.Plain := by
  unfold memberParameterType at h
  split at h
  · exact plain_of_parameterType hm h
  · obtain ⟨type, htype, h⟩ := bind_eq_ok.mp h
    cases h
    have hplain := plain_of_memberType hm htype
    exact hplain

theorem plain_of_resultOf {x : Method} {t : TypeExpr} (h : resultOf m ns x = .ok t) :
    t.Plain := by
  unfold resultOf at h
  cases hr : x.returns with
  | none =>
    rw [hr] at h
    cases h
    exact (by decide : isOwnName "void" = true)
  | some r =>
    rw [hr] at h
    exact plain_of_typeOf hm h

end

end TypeModel.Cpp
