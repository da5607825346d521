import TypeModel.Proofs.Cpp.Entities
import TypeModel.Proofs.Cpp.HeaderLines

/-!
# What the lines of a header declare

Of all the lines in a header, those of functions and of static members declare something that is
defined elsewhere.  They are read back from their texts.

* `declaration?_text`    the line of a declaration, with the function that it declares;
* `declaration?_static`  the line of a static member;
* `declared_remark`, `declared_member`, …   lines that declare nothing;
* `HeaderLine.entities`, `HeaderLine.declared_text`   the result for each kind of line.
-/

namespace TypeModel.Cpp

open Text

/-! ## declarations -/

theorem splitOn_wordIf (condition : Bool) {word : String} (hword : ' ' ∉ word.toList)
    (cs : List Char) :
    splitOn ' ' ((wordIf condition (word ++ " ")).toList ++ cs) =
      (if condition then [word.toList] else []) ++ splitOn ' ' cs := by
  cases condition with
  | false => rfl
  | true =>
    have hlist : (wordIf true (word ++ " ")).toList ++ cs = word.toList ++ ' ' :: cs := by
      simp [wordIf]
    rw [hlist, splitOn_append, splitOn_of_notMem hword]
    rfl

/-- the words in front of the parameters that a definition does not have -/
def modifiers (isExplicit isStatic isVirtual : Bool) : List (List Char) :=
  (if isExplicit then ["explicit".toList] else []) ++
    ((if isStatic then ["static".toList] else []) ++
      if isVirtual then ["virtual".toList] else [])

def qualifiers (isConst isNoexcept isOverride isPure : Bool) : List Char :=
  (wordIf isConst " const" ++ wordIf isNoexcept " noexcept" ++ wordIf isOverride " override" ++
    wordIf isPure " = 0").toList

theorem qualifiers_plain : ∀ c n o p : Bool,
    '(' ∉ qualifiers c n o p ∧ ')' ∉ qualifiers c n o p := by
  decide

theorem splitOn_qualifiers : ∀ c n o p : Bool,
    ((splitOn ' ' (qualifiers c n o p)).all fun word =>
      ["", "const", "noexcept", "override"].any (·.toList == word)) = !p ∧
    (splitOn ' ' (qualifiers c n o p)).contains "const".toList = c ∧
    (splitOn ' ' (qualifiers c n o p)).contains "noexcept".toList = n := by
  decide

namespace Declaration

/-- what stands in front of the parameters -/
def front (d : Declaration) : List Char :=
  (wordIf d.isExplicit "explicit ").toList ++ ((wordIf d.isStatic "static ").toList ++
    ((wordIf d.isVirtual "virtual ").toList ++ d.heading.front ""))

def body (d : Declaration) : List Char :=
  d.front ++ '(' :: ((argumentsText d.arguments).toList ++
    ')' :: qualifiers d.isConst d.isNoexcept d.isOverride d.isPure)

theorem toList_text (d : Declaration) : d.text.toList = d.body ++ [';'] := by
  unfold text body front Heading.front heading qualifiers
  cases d.returns <;> simp

theorem splitOn_front (d : Declaration) :
    splitOn ' ' d.front =
      modifiers d.isExplicit d.isStatic d.isVirtual ++ splitOn ' ' (d.heading.front "") := by
  unfold front modifiers
  rw [show "explicit " = "explicit" ++ " " from by decide,
    show "static " = "static" ++ " " from by decide,
    show "virtual " = "virtual" ++ " " from by decide, splitOn_wordIf _ (by decide),
    splitOn_wordIf _ (by decide), splitOn_wordIf _ (by decide), List.append_assoc,
    List.append_assoc]

end Declaration

theorem isIntroducer_of_isModifier {word : List Char} (h : isModifier word = true) :
    isIntroducer word = true := by
  obtain ⟨keyword, hmem, heq⟩ := List.any_eq_true.mp h
  have hsub : ∀ k ∈ ["explicit", "static", "virtual"],
      k ∈ ["explicit", "static", "virtual", "mutable", "friend", "using"] := by
    decide
  exact List.any_eq_true.mpr ⟨keyword, hsub keyword hmem, heq⟩

theorem dropWhile_modifiers (e s v : Bool) {words : List (List Char)}
    (h : ∀ w ∈ words.head?, isIntroducer w = false) :
    (modifiers e s v ++ words).dropWhile isModifier = words := by
  have hall : ∀ e s v : Bool, ∀ w ∈ modifiers e s v, isModifier w = true := by decide
  rw [List.dropWhile_append_of_pos (hall e s v)]
  cases words with
  | nil => rfl
  | cons w words =>
    refine List.dropWhile_cons_of_neg fun hw => ?_
    exact absurd ((h w rfl).symm.trans (isIntroducer_of_isModifier hw)) Bool.false_ne_true

/-- neither the first character nor the first word of such a text makes it an aside -/
theorem isAside_eq_false {c : Char} {rest : List Char}
    (hc : ['/', '*', '#', '\x7d'].contains c = false)
    (hfriend : TypeExpr.firstWord (c :: rest) ≠ "friend".toList) : isAside (c :: rest) = false :=
  Bool.or_eq_false_iff.mpr ⟨hc, beq_false_of_ne hfriend⟩

theorem firstWord_append (cs rest : List Char) :
    TypeExpr.firstWord (cs ++ ' ' :: rest) = TypeExpr.firstWord cs := by
  unfold TypeExpr.firstWord
  rw [List.takeWhile_append]
  split
  case isTrue hall =>
    rw [List.takeWhile_cons_of_neg (by decide), List.append_nil,
      (List.takeWhile_sublist _).eq_of_length hall]
  case isFalse => rfl

/-- a text that starts with a type starts with none of the keywords -/
theorem TypeExpr.Plain.firstWord_ne {t : TypeExpr} (ht : t.Plain) {word : List Char}
    (hword : isIntroducer word = true) (rest : List Char) :
    TypeExpr.firstWord (t.text.toList ++ ' ' :: rest) ≠ word := by
  rintro rfl
  rw [firstWord_append, ht.firstWord] at hword
  cases hword

/-- a text that starts with a type is no aside -/
theorem not_isAside_type {t : TypeExpr} (h : t.Plain) (rest : List Char) :
    isAside (t.text.toList ++ ' ' :: rest) = false := by
  have hfriend := h.firstWord_ne (by decide : isIntroducer "friend".toList = true) rest
  obtain ⟨c, cs, hcs, hc⟩ := h.head
  rw [hcs, List.cons_append] at hfriend ⊢
  exact isAside_eq_false (not_isAside_of_scope hc) hfriend

/-- a declaration begins with a keyword, with its result or with its name -/
theorem not_isAside_body {d : Declaration} (h : d.heading.Plain) : isAside d.body = false := by
  unfold Declaration.body Declaration.front
  cases d.isExplicit with
  | true => rfl
  | false =>
    cases d.isStatic with
    | true => rfl
    | false =>
      cases d.isVirtual with
      | true => rfl
      | false =>
        simp only [wordIf, Bool.false_eq_true, if_false, String.toList_empty, List.nil_append,
          Heading.front, Declaration.heading]
        cases hr : d.returns with
        | some t =>
          simp only [List.append_assoc, List.singleton_append]
          exact not_isAside_type (h.returns t hr) _
        | none =>
          obtain ⟨c, rest, hname, hc⟩ := h.name.head
          have hopen : ' ' ∉ d.name.toList ++ ['('] := by
            have hblank : ' ' ∉ d.name.toList := h.name.notMem (by decide)
            simpa using hblank
          have hfriend : ∀ behind, TypeExpr.firstWord (d.name.toList ++ '(' :: behind) ≠
              "friend".toList := by
            intro behind heq
            have hmem := TypeExpr.subset_firstWord hopen behind
              (List.mem_append_right _ (List.mem_singleton_self '('))
            rw [List.append_assoc, List.singleton_append, heq] at hmem
            revert hmem
            decide
          have hlist : d.name.toList = c :: rest := hname
          rw [String.empty_append, List.nil_append]
          have hword := hfriend ((argumentsText d.arguments).toList ++
            ')' :: qualifiers d.isConst d.isNoexcept d.isOverride d.isPure)
          rw [hlist, List.cons_append] at hword ⊢
          exact isAside_eq_false hc hword

/-- the words in front of the parameters: modifiers, result and name -/
theorem Declaration.words_front {d : Declaration} (h : d.heading.Plain) :
    ∃ words, splitOn ' ' d.front =
        modifiers d.isExplicit d.isStatic d.isVirtual ++ (words ++ [d.name.toList]) ∧
      phrase words = (d.returns.map TypeExpr.text).getD "" ∧
      ['='] ∉ splitOn ' ' d.front ∧
      ∀ w ∈ (words ++ [d.name.toList]).head?, isIntroducer w = false := by
  have hempty : ' ' ∉ "".toList := List.not_mem_nil
  obtain ⟨words, hwords, hresult, hsign, hfirst⟩ := Heading.splitOn_front h hempty
  have hname : ("" ++ d.heading.name).toList = d.name.toList := by
    rw [String.empty_append]
    rfl
  rw [hname] at hwords
  have hmodifiers : ∀ e s v : Bool, ['='] ∉ modifiers e s v := by decide
  refine ⟨words, by rw [d.splitOn_front, hwords], hresult, ?_, ?_⟩
  · rw [d.splitOn_front, hwords, List.mem_append, List.mem_append, not_or, not_or,
      List.mem_singleton]
    exact ⟨hmodifiers _ _ _, fun hmem => hsign _ hmem rfl, Ne.symm h.name.sign⟩
  · intro w hw
    cases words with
    | nil => exact Option.some.inj hw ▸ h.name.keyword
    | cons first words => exact hfirst w hw

/-- the line of a declaration declares its function, but for a pure virtual one -/
theorem declaration?_text {d : Declaration} (h : d.heading.Plain) :
    declaration? d.text = if d.isPure then none else some d.heading.entity := by
  obtain ⟨words, hfront, hresult, hsign, hhead⟩ := Declaration.words_front h
  have hopen : '(' ∉ (argumentsText d.arguments).toList := fun hmem =>
    absurd (h.argument_chars '(' hmem) (by decide)
  obtain ⟨hopen', hclose⟩ := qualifiers_plain d.isConst d.isNoexcept d.isOverride d.isPure
  obtain ⟨hall, hconst, hnoexcept⟩ :=
    splitOn_qualifiers d.isConst d.isNoexcept d.isOverride d.isPure
  have hnone : (splitOn ' ' d.front).contains ['='] = false := by
    rwa [← Bool.not_eq_true, List.contains_iff_mem]
  have hbrackets : d.body.contains '(' = true := by
    rw [List.contains_iff_mem]
    exact List.mem_append_right _ List.mem_cons_self
  unfold declaration?
  rw [d.toList_text, cutLast_semicolon]
  dsimp only
  rw [not_isAside_body h, if_neg Bool.false_ne_true, if_pos hbrackets]
  unfold Declaration.body
  rw [shape?_eq d.front hopen hopen' hclose]
  dsimp only
  rw [hnone, if_neg Bool.false_ne_true]
  unfold Shape.function?
  dsimp only
  rw [hall, hconst, hnoexcept, hfront, dropWhile_modifiers _ _ _ hhead]
  cases d.isPure with
  | true => rfl
  | false =>
    rw [List.getLast?_concat, List.dropLast_concat, hresult]
    simp [Heading.entity, Declaration.heading]

/-- a line that ends in a semicolon and begins without a blank -/
theorem statements_of_body {text : String} {body : List Char} (htext : text.toList = body ++ [';'])
    (hbody : body.head?.map isBlank = some false) (hn : '\n' ∉ text.toList) :
    statements text = [text] := by
  obtain ⟨c, hc, hsolid⟩ := Option.map_eq_some_iff.mp hbody
  refine statements_of_line ?_ ?_ hn
  · rw [htext, List.head?_append, hc]
    exact congrArg some hsolid
  · rw [htext, List.getLast?_concat]
    rfl

/-- a declaration begins without a blank -/
theorem Declaration.head?_body {d : Declaration} (h : d.heading.Plain) :
    d.body.head?.map isBlank = some false := by
  unfold Declaration.body Declaration.front
  cases d.isExplicit with
  | true => rfl
  | false =>
    cases d.isStatic with
    | true => rfl
    | false =>
      cases d.isVirtual with
      | true => rfl
      | false =>
        simp only [wordIf, Bool.false_eq_true, if_false, String.toList_empty, List.nil_append,
          Heading.front, Declaration.heading]
        cases hr : d.returns with
        | some t =>
          obtain ⟨c, rest, ht, hc⟩ := (h.returns t hr).head
          simp only [ht, List.cons_append, List.head?_cons, Option.map_some]
          rw [not_isBlank_of_isScopeChar hc]
        | none =>
          obtain ⟨c, rest, hname, _⟩ := h.name.head
          have hlist : d.name.toList = c :: rest := hname
          rw [String.empty_append, List.nil_append, hlist, List.cons_append, List.head?_cons,
            Option.map_some, h.name.solid c (hname ▸ List.mem_cons_self)]

theorem Declaration.lineFeed_notMem_text {d : Declaration} (h : d.heading.Plain) :
    '\n' ∉ d.text.toList := by
  have hname : '\n' ∉ d.name.toList := h.name.notMem (by decide)
  have harguments : '\n' ∉ (argumentsText d.arguments).toList := fun hmem =>
    absurd (h.argument_chars '\n' hmem) (by decide)
  have hlead : ∀ e s v : Bool, '\n' ∉ (wordIf e "explicit ").toList ∧
      '\n' ∉ (wordIf s "static ").toList ∧ '\n' ∉ (wordIf v "virtual ").toList := by
    decide
  have htail : ∀ c n o p : Bool, '\n' ∉ qualifiers c n o p := by decide
  have hfront : '\n' ∉ d.heading.front "" := by
    unfold Heading.front Declaration.heading
    cases hr : d.returns with
    | none => simpa using hname
    | some t =>
      have ht : '\n' ∉ t.text.toList := (h.returns t hr).notMem (by decide)
      simpa using And.intro ht hname
  obtain ⟨he, hs, hv⟩ := hlead d.isExplicit d.isStatic d.isVirtual
  rw [d.toList_text]
  unfold Declaration.body Declaration.front
  simp [he, hs, hv, hfront, harguments, htail]

theorem Declaration.statements_text {d : Declaration} (h : d.heading.Plain) :
    statements d.text = [d.text] :=
  statements_of_body d.toList_text (d.head?_body h) (d.lineFeed_notMem_text h)

/-! ## other lines -/

theorem declared_of_statements {text : String} (h : statements text = [text]) :
    declared text = (declaration? text).toList := by
  unfold declared
  rw [h]
  cases hd : declaration? text with
  | none => rw [List.filterMap_cons_none hd, List.filterMap_nil, Option.toList_none]
  | some x => rw [List.filterMap_cons_some hd, List.filterMap_nil, Option.toList_some]

theorem declared_eq_nil {text : String} (hn : '\n' ∉ text.toList)
    (h : declaration? (String.ofList (trim text.toList)) = none) : declared text = [] := by
  unfold declared statements
  rw [statementsOf_of_notMem hn]
  split
  · rfl
  · rw [List.filterMap_cons_none h, List.filterMap_nil]

theorem declaration?_of_getLast? {line : String} (h : line.toList.getLast? ≠ some ';') :
    declaration? line = none := by
  unfold declaration?
  split
  case h_1 body hcut =>
    rw [eq_of_cutLast hcut, List.getLast?_concat] at h
    exact absurd rfl h
  case h_2 => rfl

/-- a line that ends in something else than a semicolon -/
theorem declared_append {mark : String} {c : Char} (hlast : mark.toList.getLast? = some c)
    (hsolid : isBlank c = false) (hc : c ≠ ';') {front : String}
    (hn : '\n' ∉ (front ++ mark).toList) : declared (front ++ mark) = [] := by
  obtain ⟨lead, hlead⟩ := List.getLast?_eq_some_iff.mp hlast
  refine declared_eq_nil hn (declaration?_of_getLast? ?_)
  rw [String.toList_ofList, String.toList_append, hlead, ← List.append_assoc,
    getLast?_trim _ hsolid]
  exact fun h => hc (Option.some.inj h)

theorem declaration?_of_isAside {body : List Char} (h : isAside body = true) :
    declaration? (String.ofList (body ++ [';'])) = none := by
  unfold declaration?
  rw [String.toList_ofList, cutLast_semicolon]
  dsimp only
  rw [if_pos h]

/-- a text that does not end in the last character stands wholly in front of it -/
theorem exists_of_append_eq_concat {word behind body : List Char} {c : Char}
    (h : word ++ behind = body ++ [c]) (hword : word.getLast? ≠ some c) :
    ∃ front, body = word ++ front := by
  have hend := congrArg List.getLast? h
  rw [List.getLast?_concat, List.getLast?_append] at hend
  obtain ⟨front, rfl⟩ : ∃ front, behind = front ++ [c] := by
    refine List.getLast?_eq_some_iff.mp ?_
    cases hbehind : behind.getLast? with
    | some d => rwa [hbehind] at hend
    | none =>
      rw [hbehind, Option.none_or] at hend
      exact absurd hend hword
  rw [← List.append_assoc] at h
  exact ⟨front, (List.append_cancel_right h).symm⟩

/-- a remark declares nothing -/
theorem declared_remark {text : String} (hn : '\n' ∉ text.toList)
    (h : isRemarkText text = true) : declared text = [] := by
  refine declared_eq_nil hn ?_
  unfold isRemarkText at h
  generalize trim text.toList = cs at h
  -- only a line that ends in a semicolon can declare something
  by_cases hlast : cs.getLast? = some ';'
  case neg => exact declaration?_of_getLast? (by rwa [String.toList_ofList])
  obtain ⟨body, rfl⟩ := List.getLast?_eq_some_iff.mp hlast
  refine declaration?_of_isAside ?_
  have hend : ((body ++ [';']).getLast?.any ([':', ',', '\x7b'].contains ·)) = false := by
    rw [hlast]
    decide
  unfold isRemark at h
  rw [hend, Bool.or_false] at h
  unfold isAside
  rcases Bool.or_eq_true_iff.mp h with h | h
  · cases body with
    | nil => exact absurd h (by decide)
    | cons c rest =>
      have hsub : ['/', '*', '\x7d'].all (['/', '*', '#', '\x7d'].contains ·) = true := by decide
      exact Bool.or_eq_true_iff.mpr (Or.inl
        (List.all_eq_true.mp hsub c (List.contains_iff_mem.mp h)))
  · obtain ⟨word, hword, h⟩ := List.any_eq_true.mp h
    obtain ⟨behind, hbehind⟩ := List.isPrefixOf_iff_prefix.mp h
    have hall : ∀ word ∈ ["#ifndef", "#define", "#endif", "friend "],
        word.toList.getLast? ≠ some ';' := by
      decide
    obtain ⟨front, rfl⟩ := exists_of_append_eq_concat hbehind (hall word hword)
    simp only [List.mem_cons, List.mem_nil_iff, or_false] at hword
    rcases hword with rfl | rfl | rfl | rfl <;> rfl

/-! ### members and other names for types -/

/-- a line without brackets that does not begin with `static` -/
theorem declaration?_of_firstWord {body : List Char} (hopen : '(' ∉ body)
    (hfirst : TypeExpr.firstWord body ≠ "static".toList) :
    declaration? (String.ofList (body ++ [';'])) = none := by
  have hcontains : body.contains '(' = false := by simpa using hopen
  unfold declaration?
  rw [String.toList_ofList, cutLast_semicolon]
  dsimp only
  split
  · rfl
  · rw [hcontains, if_neg Bool.false_ne_true]
    obtain ⟨words, hwords⟩ := List.head?_eq_some_iff.mp (head?_splitOn ' ' body)
    rw [hwords]
    exact if_neg hfirst

/-- a line with a value behind `=` -/
theorem declaration?_of_sign {lead : List Char} (hopen : '(' ∉ lead) (value : List Char)
    (hfirst : TypeExpr.firstWord (lead ++ ' ' :: '=' :: ' ' :: value) ≠ "static".toList) :
    declaration? (String.ofList (lead ++ ' ' :: '=' :: ' ' :: value ++ [';'])) = none := by
  by_cases hvalue : '(' ∈ value
  case neg => exact declaration?_of_firstWord (by simp [hopen, hvalue]) hfirst
  have hsplit : lead ++ ' ' :: '=' :: ' ' :: value = lead ++ [' ', '=', ' '] ++ value := by simp
  have hlead : '(' ∉ lead ++ [' ', '=', ' '] := by simp [hopen]
  have hcontains : (lead ++ ' ' :: '=' :: ' ' :: value).contains '(' = true := by simp [hvalue]
  unfold declaration?
  rw [String.toList_ofList, cutLast_semicolon]
  dsimp only
  rw [if_pos hcontains]
  split
  · rfl
  · unfold shape?
    rw [hsplit, cutLast_append_of_notMem hlead]
    cases cutLast '(' value with
    | none => rfl
    | some parts =>
      obtain ⟨front, rest⟩ := parts
      dsimp only [Option.map_some]
      cases cutLast ')' rest with
      | none => rfl
      | some ends =>
        obtain ⟨parameters, behind⟩ := ends
        have hsign : (splitOn ' ' (lead ++ [' ', '=', ' '] ++ front)).contains ['='] = true := by
          have hwords : lead ++ [' ', '=', ' '] ++ front = lead ++ ' ' :: (['='] ++ ' ' :: front) := by
            simp
          rw [hwords, splitOn_append, splitOn_append, splitOn_of_notMem (by decide : ' ' ∉ ['='])]
          simp
        exact if_pos hsign

/-- the text of a member without its semicolon -/
def Member.body (x : Member) : List Char :=
  match x.form with
  | .static => "static ".toList ++ (x.type.text.toList ++ ' ' :: x.name.toList)
  | .bitField bits =>
    x.type.text.toList ++ ' ' :: (x.name.toList ++ " : ".toList ++ (Nat.repr bits).toList)
  | .value (some initial) =>
    x.type.text.toList ++ ' ' :: x.name.toList ++ ' ' :: '=' :: ' ' :: initial.toList
  | .value none => x.type.text.toList ++ ' ' :: x.name.toList

theorem Member.toList_text (x : Member) : x.text.toList = x.body ++ [';'] := by
  unfold Member.text Member.body
  split <;> simp_all

theorem Member.head?_body {x : Member} (ht : x.type.Plain) :
    x.body.head?.map isBlank = some false := by
  obtain ⟨c, rest, htext, hc⟩ := ht.head
  have hsolid := not_isBlank_of_isScopeChar hc
  unfold Member.body
  rw [htext]
  split
  · rfl
  all_goals exact congrArg some hsolid

theorem Member.statements_text {x : Member} (ht : x.type.Plain) (hn : '\n' ∉ x.text.toList) :
    statements x.text = [x.text] :=
  statements_of_body x.toList_text (x.head?_body ht) hn

theorem Member.declared_text {x : Member} (ht : x.type.Plain) (hn : '\n' ∉ x.text.toList) :
    declared x.text = (declaration? (String.ofList (x.body ++ [';']))).toList := by
  rw [declared_of_statements (x.statements_text ht hn), ← x.toList_text, String.ofList_toList]

/-- the text of another name for a type without its semicolon -/
def UsingDeclaration.body (u : UsingDeclaration) : List Char :=
  "using ".toList ++ (u.name.toList ++ " = ".toList ++ u.type.text.toList)

theorem UsingDeclaration.toList_text (u : UsingDeclaration) :
    u.text.toList = u.body ++ [';'] := by
  unfold UsingDeclaration.text UsingDeclaration.body
  simp

theorem UsingDeclaration.statements_text {u : UsingDeclaration} (hn : '\n' ∉ u.text.toList) :
    statements u.text = [u.text] :=
  statements_of_body u.toList_text rfl hn

/-- the line of a static member declares it -/
theorem declaration?_static {t : TypeExpr} (ht : t.Plain) {name : String}
    (hname : isIdentifier name = true) :
    declaration? (String.ofList ("static ".toList ++ (t.text.toList ++ ' ' :: name.toList) ++ [';'])) =
      some (.datum t.text name) := by
  have hplain := plainName_of_isTypeName (isTypeName_of_isIdentifier hname)
  have hopen : '(' ∉ name.toList := fun hmem =>
    absurd (TypeExpr.chars_of_isTypeName (isTypeName_of_isIdentifier hname) _ hmem) (by decide)
  have hopen' : '(' ∉ t.text.toList := ht.notMem (by decide)
  have hcontains : ("static ".toList ++ (t.text.toList ++ ' ' :: name.toList)).contains '(' =
      false := by
    simp [hopen, hopen']
  obtain ⟨hwords, -⟩ := splitOn_typed ht (hplain.notMem (c := ' ') (by decide)) hplain.sign
  have hsplit : splitOn ' ' ("static ".toList ++ (t.text.toList ++ ' ' :: name.toList)) =
      "static".toList :: (splitOn ' ' t.text.toList ++ [name.toList]) := by
    rw [show "static ".toList = "static".toList ++ [' '] from rfl, List.append_assoc,
      List.singleton_append, splitOn_append, hwords, splitOn_of_notMem (by decide)]
    rfl
  have haside : isAside ("static ".toList ++ (t.text.toList ++ ' ' :: name.toList)) = false := rfl
  unfold declaration?
  rw [String.toList_ofList, cutLast_semicolon]
  dsimp only
  rw [haside, if_neg Bool.false_ne_true, hcontains, if_neg Bool.false_ne_true, hsplit]
  dsimp only
  rw [if_pos rfl, List.dropLast_concat, List.getLast?_concat, phrase_splitOn, Option.getD_some,
    String.ofList_toList, String.ofList_toList]

/-! ## the lines of a header -/

namespace HeaderLine

/-- what a line declares -/
def entities : HeaderLine → List Entity
  | .member x => if x.form = .static then [.datum x.type.text x.name] else []
  | .function d => if d.isPure then [] else [d.heading.entity]
  | _ => []

/-- names and types can be read off a line that has parts; any other line is a remark -/
def Plain : HeaderLine → Prop
  | .opening name base => isIdentifier name = true ∧ ∀ t ∈ base, t.Plain
  | .member x => x.type.Plain ∧ isIdentifier x.name = true
  | .synonym u => isIdentifier u.name = true ∧ u.type.Plain
  | .function d => d.heading.Plain
  | .other text => isRemarkText text = true
  | _ => True

theorem declared_member {x : Member} (h : (HeaderLine.member x).Plain)
    (hn : '\n' ∉ x.text.toList) : declared x.text = (HeaderLine.member x).entities := by
  obtain ⟨ht, hname⟩ := h
  have hopen : '(' ∉ x.type.text.toList ++ ' ' :: x.name.toList := by
    have hopen : '(' ∉ x.name.toList := fun hmem =>
      absurd (TypeExpr.chars_of_isTypeName (isTypeName_of_isIdentifier hname) _ hmem) (by decide)
    have hopen' : '(' ∉ x.type.text.toList := ht.notMem (by decide)
    simp [hopen, hopen']
  rw [Member.declared_text ht hn]
  unfold Member.body entities
  dsimp only
  cases hform : x.form with
  | static =>
    dsimp only
    rw [if_pos rfl, declaration?_static ht hname, Option.toList_some]
  | bitField bits =>
    have hbits : '(' ∉ (Nat.repr bits).toList := fun hmem =>
      absurd (TypeExpr.isTypeChar_repr (.ofNat bits) '(' hmem) (by decide)
    have hbody : '(' ∉ x.type.text.toList ++
        ' ' :: (x.name.toList ++ " : ".toList ++ (Nat.repr bits).toList) := by
      simp only [List.mem_append, List.mem_cons, not_or] at hopen ⊢
      exact ⟨hopen.1, hopen.2.1, ⟨hopen.2.2, by decide⟩, hbits⟩
    dsimp only
    rw [if_neg nofun, declaration?_of_firstWord hbody (ht.firstWord_ne (by decide) _),
      Option.toList_none]
  | value initial =>
    cases initial with
    | none =>
      dsimp only
      rw [if_neg nofun, declaration?_of_firstWord hopen (ht.firstWord_ne (by decide) _),
        Option.toList_none]
    | some initial =>
      have hfirst := ht.firstWord_ne (by decide : isIntroducer "static".toList = true)
        (x.name.toList ++ ' ' :: '=' :: ' ' :: initial.toList)
      rw [← List.cons_append, ← List.append_assoc] at hfirst
      dsimp only
      rw [if_neg nofun, declaration?_of_sign hopen _ hfirst, Option.toList_none]

/-- another name for a type is not declared as a function or as a member -/
theorem declared_synonym {u : UsingDeclaration} (h : (HeaderLine.synonym u).Plain)
    (hn : '\n' ∉ u.text.toList) : declared u.text = [] := by
  obtain ⟨hname, ht⟩ := h
  have hopen : '(' ∉ u.body := by
    have hopen : '(' ∉ u.name.toList := fun hmem =>
      absurd (TypeExpr.chars_of_isTypeName (isTypeName_of_isIdentifier hname) _ hmem) (by decide)
    have hopen' : '(' ∉ u.type.text.toList := ht.notMem (by decide)
    unfold UsingDeclaration.body
    simp [hopen, hopen']
  rw [declared_of_statements (u.statements_text hn), ← String.ofList_toList (s := u.text),
    u.toList_text, declaration?_of_firstWord hopen nofun, Option.toList_none]

theorem declared_function {d : Declaration} (h : d.heading.Plain) :
    declared d.text = (HeaderLine.function d).entities := by
  rw [declared_of_statements (d.statements_text h), declaration?_text h]
  unfold entities
  dsimp only
  cases d.isPure <;> rfl

/-- what is declared in one line of a header -/
theorem declared_text {l : HeaderLine} (h : l.Plain) (hn : '\n' ∉ l.text.toList) :
    declared l.text = l.entities := by
  cases l with
  | system name => exact declared_append (rfl : ">".toList.getLast? = some '>') rfl (by decide) hn
  | project stem => exact declared_append (rfl : ".h\"".toList.getLast? = some '"') rfl (by decide) hn
  | opening name base => exact declared_append (rfl : " \x7b".toList.getLast? = some '\x7b') rfl (by decide) hn
  | member x => exact declared_member h hn
  | lock => decide
  | synonym u => exact declared_synonym h hn
  | function d => exact declared_function h
  | other text => exact declared_remark hn h

end HeaderLine

end TypeModel.Cpp
