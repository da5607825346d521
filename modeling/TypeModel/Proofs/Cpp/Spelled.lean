import TypeModel.Proofs.Cpp.Definitions
import TypeModel.Proofs.Cpp.Needs

/-!
# Names that a text spells

Words of a text are read off with the scopes in front of them.  A type spells the declarations and
the templates that it needs, and so does a line of a header that has the type in it.

* `words cs`               the words of a line;
* `TypeExpr.words_array`, …   the words of types;
* `Plain.mem_words_of_need`, `Plain.templateName_mem_words`   what a type needs, it spells;
* `SpellsTypes ts cs`      a text spells what the types `ts` spell, and no other template;
* `HeaderLine.Idle l`      what is written without types spells no template and includes nothing;
* `spellsTypes_line`       the lines of a header that have parts.
-/

namespace TypeModel.Cpp

open Text

/-! ## names in a text -/

/-- the names in a line with the scopes in front of them -/
def words (cs : List Char) : List String := (cs.splitOnP (!isScopeChar ·)).map String.ofList

/-- a line that is neither a comment nor a directive -/
def isCode (line : String) : Bool := !line.toList.head?.any (['/', '*', '#'].contains ·)

def spelled (text : String) : List String :=
  ((statements text).filter isCode).flatMap fun line => words line.toList

theorem words_append {c : Char} (hc : isScopeChar c = false) (a b : List Char) :
    words (a ++ c :: b) = words a ++ words b := by
  unfold words
  rw [List.splitOnP_append_cons _ _ (by simp [hc]), List.map_append]

theorem words_of_scope {cs : List Char} (h : cs.all isScopeChar = true) :
    words cs = [String.ofList cs] := by
  unfold words
  rw [List.splitOnP_eq_singleton fun c hc => by rw [List.all_eq_true.mp h c hc]; rfl]
  rfl

theorem subset_of_mem_words {w : String} : ∀ {cs : List Char}, w ∈ words cs → w.toList ⊆ cs := by
  intro cs
  induction cs generalizing w with
  | nil =>
    intro h
    rw [List.mem_singleton.mp h]
    exact fun _ hc => hc
  | cons c cs ih =>
    intro h
    unfold words at h ih
    rw [List.splitOnP_cons_eq_if_modifyHead] at h
    split at h
    · rcases List.mem_cons.mp h with rfl | h
      · exact fun _ hc => absurd hc List.not_mem_nil
      · exact List.subset_cons_of_subset c (ih h)
    · cases hparts : cs.splitOnP (!isScopeChar ·) with
      | nil =>
        rw [hparts] at h
        cases h
      | cons first rest =>
        rw [hparts] at h ih
        rcases List.mem_cons.mp h with rfl | h
        · have hfirst := ih (w := String.ofList first) List.mem_cons_self
          rw [String.toList_ofList] at hfirst ⊢
          exact List.cons_subset_cons c hfirst
        · exact List.subset_cons_of_subset c (ih (List.mem_cons_of_mem _ h))

def templateName (name : String) : String := "std::" ++ name

theorem templateName_notMem_words {cs : List Char} (h : ':' ∉ cs) (name : String) :
    templateName name ∉ words cs := by
  intro hmem
  refine h (subset_of_mem_words hmem ?_)
  unfold templateName
  simp

theorem colon_notMem_repr (n : Int) : ':' ∉ (Int.repr n).toList := by
  intro hmem
  rcases sign_or_isDigit hmem with hsign | hdigit
  · exact absurd hsign (by decide)
  · exact absurd hdigit (by decide)

/-! ## names in types -/

namespace TypeExpr

section
variable (t : TypeExpr)

theorem words_array (size : Int64) : words (TypeExpr.array t size).text.toList =
    templateName "array" :: (words t.text.toList ++
      ("" :: (words (Int.repr size.toInt).toList ++ [""]))) := by
  have hlist : (TypeExpr.array t size).text.toList = "std::array".toList ++ '<' ::
      (t.text.toList ++ ',' :: ([] ++ ' ' :: ((Int.repr size.toInt).toList ++ '>' :: []))) := by
    simp [text]
  rw [hlist, words_append (by decide), words_append (by decide), words_append (by decide),
    words_append (by decide), words_of_scope (by decide)]
  rfl

theorem words_vector : words (TypeExpr.vector t).text.toList =
    templateName "vector" :: (words t.text.toList ++ [""]) := by
  have hlist : (TypeExpr.vector t).text.toList =
      "std::vector".toList ++ '<' :: (t.text.toList ++ '>' :: []) := by
    simp [text]
  rw [hlist, words_append (by decide), words_append (by decide), words_of_scope (by decide)]
  rfl

theorem words_map (value : TypeExpr) : words (TypeExpr.map t value).text.toList =
    templateName "map" :: (words t.text.toList ++ ("" :: (words value.text.toList ++ [""]))) := by
  have hlist : (TypeExpr.map t value).text.toList = "std::map".toList ++ '<' ::
      (t.text.toList ++ ',' :: ([] ++ ' ' :: (value.text.toList ++ '>' :: []))) := by
    simp [text]
  rw [hlist, words_append (by decide), words_append (by decide), words_append (by decide),
    words_append (by decide), words_of_scope (by decide)]
  rfl

theorem words_constRef : words (TypeExpr.constRef t).text.toList =
    "const" :: (words t.text.toList ++ [""]) := by
  have hlist : (TypeExpr.constRef t).text.toList =
      "const".toList ++ ' ' :: (t.text.toList ++ '&' :: []) := by
    simp [text]
  rw [hlist, words_append (by decide), words_append (by decide), words_of_scope (by decide)]
  rfl

theorem words_ref : words (TypeExpr.ref t).text.toList = words t.text.toList ++ [""] := by
  have hlist : (TypeExpr.ref t).text.toList = t.text.toList ++ '&' :: [] := by
    simp [text]
  rw [hlist, words_append (by decide)]
  rfl

theorem words_rvalueRef :
    words (TypeExpr.rvalueRef t).text.toList = words t.text.toList ++ ["", ""] := by
  have hlist : (TypeExpr.rvalueRef t).text.toList = t.text.toList ++ '&' :: ([] ++ '&' :: []) := by
    simp [text]
  rw [hlist, words_append (by decide), words_append (by decide)]
  rfl

end

theorem words_of_isTypeName {s : String} (h : isTypeName s = true) : words s.toList = [s] := by
  unfold isTypeName at h
  simp only [Bool.and_eq_true] at h
  rw [words_of_scope h.1.2, String.ofList_toList]

theorem templateName_ne_cppName (kind : PrimitiveKind) :
    ∀ name ∈ templateHeaders, templateName name ≠ kind.cppName := by
  cases kind with
  | boolean => decide
  | text => decide
  | float bits =>
    dsimp only [PrimitiveKind.cppName]
    split <;> decide
  | integer bits signed =>
    dsimp only [PrimitiveKind.cppName]
    cases signed <;> split_ifs <;> decide

theorem templateName_ne_ownName {name : String} (hname : name ∈ templateHeaders) {text : String}
    (h : isOwnName text = true) : templateName name ≠ text := by
  rintro rfl
  rcases Bool.or_eq_true_iff.mp h with h | h
  · unfold isIdentifier at h
    simp only [Bool.and_eq_true, List.all_eq_true] at h
    have hcolon : ':' ∈ (templateName name).toList := by
      unfold templateName
      simp
    exact absurd (h.1.2 ':' hcolon) (by decide)
  · have hstring : ∀ name ∈ templateHeaders, templateName name ≠ "std::string" := by decide
    exact hstring name hname (beq_iff_eq.mp h)

variable {t : TypeExpr}

/-- a declaration that a type needs is spelled in it -/
theorem Plain.mem_words_of_need (h : t.Plain) {id : TypeId} {spelling : String}
    (hneed : .type id spelling ∈ t.needs) : spelling ∈ words t.text.toList := by
  induction t with
  | primitive kind => cases hneed
  | declared id' text =>
    cases List.mem_singleton.mp hneed
    exact (words_of_isTypeName h) ▸ List.mem_singleton_self _
  | named text => cases hneed
  | array t size ih =>
    have hmem := ih h (by simpa [needs] using hneed)
    rw [words_array]
    exact List.mem_cons_of_mem _ (List.mem_append_left _ hmem)
  | vector t ih =>
    have hmem := ih h (by simpa [needs] using hneed)
    rw [words_vector]
    exact List.mem_cons_of_mem _ (List.mem_append_left _ hmem)
  | map key value ihk ihv =>
    have hneed : .type id spelling ∈ key.needs ∨ .type id spelling ∈ value.needs := by
      simpa [needs] using hneed
    rw [words_map]
    refine List.mem_cons_of_mem _ (List.mem_append.mpr ?_)
    exact hneed.imp (ihk h.1)
      fun hneed => List.mem_cons_of_mem _ (List.mem_append_left _ (ihv h.2 hneed))
  | constRef t ih =>
    rw [words_constRef]
    exact List.mem_cons_of_mem _ (List.mem_append_left _ (ih h hneed))
  | ref t ih =>
    rw [words_ref]
    exact List.mem_append_left _ (ih h hneed)
  | rvalueRef t ih =>
    rw [words_rvalueRef]
    exact List.mem_append_left _ (ih h hneed)

/-- a type spells a template if it has the template in it, or a declared type of that name -/
theorem Plain.templateName_mem_words (h : t.Plain) {name : String} (hname : name ∈ templateHeaders) :
    templateName name ∈ words t.text.toList ↔
      .template name ∈ t.needs ∨ ∃ id, .type id (templateName name) ∈ t.needs := by
  have hempty : templateName name ≠ "" := by
    intro heq
    have := congrArg String.toList heq
    simp [templateName] at this
  have hsame : ∀ other, templateName name = templateName other ↔ name = other := by
    intro other
    unfold templateName
    exact String.append_right_inj _
  induction t with
  | primitive kind =>
    have hwords : words (TypeExpr.primitive kind).text.toList = [kind.cppName] :=
      words_of_isTypeName (isTypeName_cppName kind)
    simp [hwords, needs, templateName_ne_cppName kind name hname]
  | declared id text =>
    have hwords : words (TypeExpr.declared id text).text.toList = [text] := words_of_isTypeName h
    simp [hwords, needs]
  | named text =>
    have hwords : words (TypeExpr.named text).text.toList = [text] :=
      words_of_isTypeName (isTypeName_of_isOwnName h)
    simp [hwords, needs, templateName_ne_ownName hname h]
  | array t size ih =>
    have hsize : templateName name ∉ words (Int.repr size.toInt).toList := by
      exact templateName_notMem_words (colon_notMem_repr _) name
    simp [words_array, needs, ih h, hempty, hsame, hsize, or_assoc]
  | vector t ih => simp [words_vector, needs, ih h, hempty, hsame, or_assoc]
  | map key value ihk ihv =>
    simp [words_map, needs, ihk h.1, ihv h.2, hempty, hsame]
    grind
  | constRef t ih =>
    have hconst : ∀ name ∈ templateHeaders, templateName name ≠ "const" := by decide
    have hconst := hconst name hname
    simp [words_constRef, needs, ih h, hempty, hconst]
  | ref t ih => simp [words_ref, needs, ih h, hempty]
  | rvalueRef t ih => simp [words_rvalueRef, needs, ih h, hempty]

end TypeExpr

/-! ## texts and the types in them -/

/-- a text spells all that the types spell, and of the templates nothing else -/
structure SpellsTypes (ts : List TypeExpr) (cs : List Char) : Prop where
  within : ∀ t ∈ ts, t.text.toList <:+: cs
  all : ∀ t ∈ ts, ∀ w ∈ words t.text.toList, w ∈ words cs
  only : ∀ name ∈ templateHeaders, templateName name ∈ words cs →
    ∃ t ∈ ts, templateName name ∈ words t.text.toList

theorem spellsTypes_type (t : TypeExpr) : SpellsTypes [t] t.text.toList where
  within := List.forall_mem_singleton.mpr (List.infix_refl _)
  all := List.forall_mem_singleton.mpr fun _ hw => hw
  only := fun _ _ hw => ⟨t, List.mem_singleton_self t, hw⟩

theorem spellsTypes_nil {cs : List Char}
    (h : ∀ name ∈ templateHeaders, templateName name ∉ words cs) : SpellsTypes [] cs where
  within := fun _ ht => absurd ht List.not_mem_nil
  all := fun _ ht => absurd ht List.not_mem_nil
  only := fun name hname hw => absurd hw (h name hname)

theorem spellsTypes_of_notMem {cs : List Char} (h : ':' ∉ cs) : SpellsTypes [] cs :=
  spellsTypes_nil fun name _ => templateName_notMem_words h name

theorem SpellsTypes.append {ts ts' : List TypeExpr} {a b : List Char} (h : SpellsTypes ts a)
    (h' : SpellsTypes ts' b) {c : Char} (hc : isScopeChar c = false) :
    SpellsTypes (ts ++ ts') (a ++ c :: b) where
  within := fun t ht => (List.mem_append.mp ht).elim
    (fun ht => (h.within t ht).trans (List.prefix_append a (c :: b)).isInfix)
    fun ht => (h'.within t ht).trans ((List.suffix_cons c b).trans (List.suffix_append a _)).isInfix
  all := fun t ht w hw => by
    rw [words_append hc]
    exact List.mem_append.mpr
      ((List.mem_append.mp ht).imp (fun ht => h.all t ht w hw) fun ht => h'.all t ht w hw)
  only := fun name hname hw => by
    rw [words_append hc] at hw
    rcases List.mem_append.mp hw with hw | hw
    · obtain ⟨t, ht, hw⟩ := h.only name hname hw
      exact ⟨t, List.mem_append_left _ ht, hw⟩
    · obtain ⟨t, ht, hw⟩ := h'.only name hname hw
      exact ⟨t, List.mem_append_right _ ht, hw⟩

/-- a word in front with a blank behind it, if there is one -/
theorem SpellsTypes.lead {ts : List TypeExpr} {cs : List Char} (h : SpellsTypes ts cs)
    (condition : Bool) {text : String} {word : List Char} (htext : text.toList = word ++ [' '])
    (hword : ':' ∉ word) : SpellsTypes ts ((wordIf condition text).toList ++ cs) := by
  cases condition with
  | false => exact h
  | true =>
    have hlist : (wordIf true text).toList ++ cs = word ++ ' ' :: cs := by
      rw [wordIf, if_pos rfl, htext, List.append_assoc, List.singleton_append]
    rw [hlist]
    exact (spellsTypes_of_notMem hword).append h (by decide)

theorem colon_notMem_of_isIdentifier {s : String} (h : isIdentifier s = true) :
    ':' ∉ s.toList := by
  unfold isIdentifier at h
  simp only [Bool.and_eq_true, List.all_eq_true] at h
  exact fun hmem => absurd (h.1.2 ':' hmem) (by decide)

theorem spellsTypes_argument {a : Argument} (h : isIdentifier a.name = true) :
    SpellsTypes [a.type] a.text.toList := by
  have hlist : a.text.toList = a.type.text.toList ++ ' ' :: a.name.toList := by
    unfold Argument.text
    simp
  rw [hlist]
  exact (spellsTypes_type a.type).append
    (spellsTypes_of_notMem (colon_notMem_of_isIdentifier h)) (by decide)

theorem spellsTypes_arguments {args : List Argument}
    (h : ∀ a ∈ args, isIdentifier a.name = true) :
    SpellsTypes (args.map (·.type)) (argumentsText args).toList := by
  induction args with
  | nil => exact spellsTypes_of_notMem (by decide)
  | cons a args ih =>
    obtain ⟨ha, hrest⟩ := List.forall_mem_cons.mp h
    cases args with
    | nil =>
      have hsingle : argumentsText [a] = a.text := by simp [argumentsText, joinWith]
      rw [hsingle]
      exact spellsTypes_argument ha
    | cons b args =>
      have hlist : (argumentsText (a :: b :: args)).toList =
          a.text.toList ++ ',' :: ([] ++ ' ' :: (argumentsText (b :: args)).toList) := by
        simp [argumentsText, joinWith]
      rw [hlist]
      exact (spellsTypes_argument ha).append
        ((spellsTypes_of_notMem List.not_mem_nil).append (ih hrest) (by decide)) (by decide)

/-! ## lines -/

/-- the value that a member starts with -/
def Member.initial? (x : Member) : Option String :=
  match x.form with
  | .value initial => initial
  | .static | .bitField _ => none

namespace HeaderLine

/-- what a line has beside types and identifiers spells no template; it includes nothing, declares
no lock and is no second line -/
def Idle : HeaderLine → Prop
  | .member x => ∀ v ∈ x.initial?, '\n' ∉ v.toList ∧
      ∀ name ∈ templateHeaders, templateName name ∉ words v.toList
  | .function d => ∀ name ∈ templateHeaders, templateName name ∉ words d.name.toList
  | .other text => (∀ line ∈ statements text,
        line ≠ lockMember ∧ ¬ "#include ".toList <+: line.toList) ∧
      ∀ name ∈ templateHeaders, templateName name ∉ spelled text
  | _ => True

instance (l : HeaderLine) : Decidable l.Idle :=
  match l with
  | .member x => inferInstanceAs (Decidable (∀ v ∈ x.initial?, '\n' ∉ v.toList ∧
      ∀ name ∈ templateHeaders, templateName name ∉ words v.toList))
  | .function d => inferInstanceAs
      (Decidable (∀ name ∈ templateHeaders, templateName name ∉ words d.name.toList))
  | .other text => inferInstanceAs (Decidable ((∀ line ∈ statements text,
        line ≠ lockMember ∧ ¬ "#include ".toList <+: line.toList) ∧
      ∀ name ∈ templateHeaders, templateName name ∉ spelled text))
  | .system _ | .project _ | .opening _ _ | .lock | .synonym _ => instDecidableTrue

/-- lines that include a file -/
def isInclude : HeaderLine → Bool
  | .system _ | .project _ => true
  | _ => false

theorem spellsTypes_opening {name : String} {base : Option TypeExpr}
    (hname : isIdentifier name = true) :
    SpellsTypes base.toList (HeaderLine.opening name base).text.toList := by
  have hname := spellsTypes_of_notMem (colon_notMem_of_isIdentifier hname)
  have hkeyword : SpellsTypes [] "class".toList := spellsTypes_of_notMem (by decide)
  have hbracket : SpellsTypes [] "\x7b".toList := spellsTypes_of_notMem (by decide)
  cases base with
  | none =>
    have hlist : (HeaderLine.opening name none).text.toList =
        "class".toList ++ ' ' :: (name.toList ++ ' ' :: "\x7b".toList) := by
      simp [HeaderLine.text, baseText]
    rw [hlist]
    exact hkeyword.append (hname.append hbracket (by decide)) (by decide)
  | some t =>
    have hlist : (HeaderLine.opening name (some t)).text.toList =
        "class".toList ++ ' ' :: (name.toList ++ ' ' :: (":".toList ++ ' ' ::
          ("public".toList ++ ' ' :: (t.text.toList ++ ' ' :: "\x7b".toList)))) := by
      simp [HeaderLine.text, baseText]
    have hcolon : SpellsTypes [] ":".toList := spellsTypes_nil (by decide)
    have hpublic : SpellsTypes [] "public".toList := spellsTypes_of_notMem (by decide)
    rw [hlist]
    exact hkeyword.append (hname.append (hcolon.append (hpublic.append
      ((spellsTypes_type t).append hbracket (by decide)) (by decide)) (by decide))
        (by decide)) (by decide)

theorem spellsTypes_member {x : Member} (hname : isIdentifier x.name = true)
    (hidle : (HeaderLine.member x).Idle) : SpellsTypes [x.type] x.text.toList := by
  have htype := spellsTypes_type x.type
  have hname := spellsTypes_of_notMem (colon_notMem_of_isIdentifier hname)
  have hnil : SpellsTypes [] [] := spellsTypes_of_notMem List.not_mem_nil
  have hinitial : ∀ v ∈ x.initial?, '\n' ∉ v.toList ∧
      ∀ name ∈ templateHeaders, templateName name ∉ words v.toList := hidle
  unfold Member.text
  cases hform : x.form with
  | static =>
    have hlist : ("static " ++ x.type.text ++ " " ++ x.name ++ ";").toList =
        "static".toList ++ ' ' :: (x.type.text.toList ++ ' ' :: (x.name.toList ++ ';' :: [])) := by
      simp
    have hkeyword : SpellsTypes [] "static".toList := spellsTypes_of_notMem (by decide)
    dsimp only
    rw [hlist]
    exact hkeyword.append (htype.append (hname.append hnil (by decide)) (by decide)) (by decide)
  | bitField bits =>
    have hlist : (x.type.text ++ " " ++ x.name ++ " : " ++ Nat.repr bits ++ ";").toList =
        x.type.text.toList ++ ' ' :: (x.name.toList ++ ' ' :: (":".toList ++ ' ' ::
          ((Nat.repr bits).toList ++ ';' :: []))) := by
      simp
    have hcolon : SpellsTypes [] ":".toList := spellsTypes_nil (by decide)
    have hbits : SpellsTypes [] (Nat.repr bits).toList :=
      spellsTypes_of_notMem (colon_notMem_repr (.ofNat bits))
    dsimp only
    rw [hlist]
    exact htype.append (hname.append (hcolon.append (hbits.append hnil (by decide))
      (by decide)) (by decide)) (by decide)
  | value initial =>
    cases initial with
    | none =>
      have hlist : (x.type.text ++ " " ++ x.name ++ ";").toList =
          x.type.text.toList ++ ' ' :: (x.name.toList ++ ';' :: []) := by
        simp
      dsimp only
      rw [hlist]
      exact htype.append (hname.append hnil (by decide)) (by decide)
    | some v =>
      have hlist : (x.type.text ++ " " ++ x.name ++ " = " ++ v ++ ";").toList =
          x.type.text.toList ++ ' ' :: (x.name.toList ++ ' ' :: ([] ++ '=' :: ([] ++ ' ' ::
            (v.toList ++ ';' :: [])))) := by
        simp
      have hv : x.initial? = some v := by
        unfold Member.initial?
        rw [hform]
      have hvalue : SpellsTypes [] v.toList := spellsTypes_nil (hinitial v hv).2
      dsimp only
      rw [hlist]
      exact htype.append (hname.append (hnil.append (hnil.append (hvalue.append hnil
        (by decide)) (by decide)) (by decide)) (by decide)) (by decide)

theorem spellsTypes_synonym {u : UsingDeclaration} (hname : isIdentifier u.name = true) :
    SpellsTypes [u.type] u.text.toList := by
  have hlist : u.text.toList = "using".toList ++ ' ' :: (u.name.toList ++ ' ' :: ([] ++ '=' ::
      ([] ++ ' ' :: (u.type.text.toList ++ ';' :: [])))) := by
    unfold UsingDeclaration.text
    simp
  have hname := spellsTypes_of_notMem (colon_notMem_of_isIdentifier hname)
  have hkeyword : SpellsTypes [] "using".toList := spellsTypes_of_notMem (by decide)
  have hnil : SpellsTypes [] [] := spellsTypes_of_notMem List.not_mem_nil
  rw [hlist]
  exact hkeyword.append (hname.append (hnil.append (hnil.append ((spellsTypes_type u.type).append
    hnil (by decide)) (by decide)) (by decide)) (by decide)) (by decide)

theorem spellsTypes_function {d : Declaration} (hd : d.heading.Plain)
    (hidle : (HeaderLine.function d).Idle) :
    SpellsTypes (HeaderLine.function d).types d.text.toList := by
  have hnil : SpellsTypes [] [] := spellsTypes_of_notMem List.not_mem_nil
  have hqualifiers : ∀ c n o p : Bool, ':' ∉ qualifiers c n o p := by decide
  have hbehind : SpellsTypes [] (qualifiers d.isConst d.isNoexcept d.isOverride d.isPure ++
      ';' :: []) :=
    (spellsTypes_of_notMem (hqualifiers _ _ _ _)).append hnil (by decide)
  have harguments := spellsTypes_arguments fun a ha => (hd.arguments a ha).2
  have hname : SpellsTypes [] d.name.toList := spellsTypes_nil hidle
  have hfront : SpellsTypes d.returns.toList (d.heading.front "") := by
    unfold Heading.front Declaration.heading
    cases d.returns with
    | none => simpa using hname
    | some t =>
      have hresult := (spellsTypes_type t).append hname (by decide : isScopeChar ' ' = false)
      simpa using hresult
  have hlead : SpellsTypes d.returns.toList d.front := by
    have hvirtual := hfront.lead d.isVirtual
      (by decide : "virtual ".toList = "virtual".toList ++ [' ']) (by decide)
    have hstatic := hvirtual.lead d.isStatic
      (by decide : "static ".toList = "static".toList ++ [' ']) (by decide)
    exact hstatic.lead d.isExplicit
      (by decide : "explicit ".toList = "explicit".toList ++ [' ']) (by decide)
  have hlist : d.text.toList = d.front ++ '(' :: ((argumentsText d.arguments).toList ++ ')' ::
      (qualifiers d.isConst d.isNoexcept d.isOverride d.isPure ++ ';' :: [])) := by
    rw [d.toList_text, Declaration.body]
    simp
  have hparameters := harguments.append hbehind (by decide : isScopeChar ')' = false)
  have hall := hlead.append hparameters (by decide : isScopeChar '(' = false)
  rw [List.append_nil] at hall
  rw [hlist]
  exact hall

/-- the lines of a header that have types in them, and those that could have -/
theorem spellsTypes_line {l : HeaderLine} (h : l.Plain) (hidle : l.Idle)
    (hcode : l.isInclude = false) (hparts : l.withParts = [l]) :
    SpellsTypes l.types l.text.toList := by
  cases l with
  | opening name base => exact spellsTypes_opening h.1
  | member x => exact spellsTypes_member h.2 hidle
  | synonym u => exact spellsTypes_synonym h.1
  | function d => exact spellsTypes_function h hidle
  | lock => exact spellsTypes_nil (by decide)
  | system name => cases hcode
  | project stem => cases hcode
  | other text => cases hparts

end HeaderLine

end TypeModel.Cpp
