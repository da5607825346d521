import TypeModel.Proofs.Cpp.Headings
import TypeModel.Proofs.Cpp.Identifiers
import TypeModel.Proofs.Text.Case
import TypeModel.Proofs.Text.Margin

/-!
# What is read off the lines of C++ files

The functions and static members of a class, as a reader finds them in the lines of a header and of
an implementation.

* `Entity`             a function by result, name, parameters and qualifiers, or a static member by
                       type and name, all as they are written;
* `declared text`      what the lines of a header declare and an implementation has to define: pure
                       virtual functions are left out;
* `defined owner text` what the lines of an implementation define, for the class `owner`; only lines
                       at the margin count, since bodies are indented;
* `Heading.entity g`   the function that a heading stands for;
* `Heading.splitOn_front`   the words in front of its parameters.
-/

namespace TypeModel.Cpp

open Text

/-- what a line declares or defines -/
inductive Entity where
  | function (returns name parameters : String) (isConst isNoexcept : Bool)
  | datum (type name : String)
  deriving DecidableEq

/-! ## reading a line -/

/-- a text cut at the last place where `c` stands -/
def cutLast (c : Char) : List Char → Option (List Char × List Char)
  | [] => none
  | x :: xs =>
    match cutLast c xs with
    | some (a, b) => some (x :: a, b)
    | none => if x = c then some ([], xs) else none

/-- words with blanks between them -/
def phrase (words : List (List Char)) : String := String.ofList (joinParts ' ' words)

/-- words, parameters in brackets, and words -/
structure Shape where
  front : List (List Char)
  parameters : List Char
  behind : List (List Char)

def shape? (line : List Char) : Option Shape :=
  match cutLast '(' line with
  | none => none
  | some (front, rest) =>
    match cutLast ')' rest with
    | none => none
    | some (parameters, behind) => some ⟨splitOn ' ' front, parameters, splitOn ' ' behind⟩

/-- the function of this shape, if nothing but the words in `allowed` stands behind its parameters;
`name?` reads its name off the word in front of them -/
def Shape.function? (x : Shape) (allowed : List String) (name? : List Char → Option (List Char)) :
    Option Entity :=
  if x.behind.all fun word => allowed.any (·.toList == word) then
    ((x.front.getLast?).bind name?).map fun name =>
      .function (phrase x.front.dropLast) (String.ofList name) (String.ofList x.parameters)
        (x.behind.contains "const".toList) (x.behind.contains "noexcept".toList)
  else none

/-- words that a declaration starts with, and a definition does not -/
def isModifier (word : List Char) : Bool :=
  ["explicit", "static", "virtual"].any (·.toList == word)

/-- comments, directives, closing brackets, and declarations of friends -/
def isAside (line : List Char) : Bool :=
  line.head?.any (['/', '*', '#', '\x7d'].contains ·) || TypeExpr.firstWord line == "friend".toList

/-- what a line of a header declares; a member with a value behind `=` is no function, and neither
is a pure virtual function one that has a definition -/
def declaration? (line : String) : Option Entity :=
  match cutLast ';' line.toList with
  | some (body, []) =>
    if isAside body then none
    else if body.contains '(' then
      match shape? body with
      | some x =>
        if x.front.contains ['='] then none
        else { x with front := x.front.dropWhile isModifier }.function?
          ["", "const", "noexcept", "override"] some
      | none => none
    else
      match splitOn ' ' body with
      | first :: words =>
        if first = "static".toList then
          some (.datum (phrase words.dropLast) (String.ofList (words.getLast?.getD [])))
        else none
      | [] => none
  | _ => none

def declared (text : String) : List Entity := (statements text).filterMap declaration?

theorem cutLast_of_notMem {c : Char} {cs : List Char} (h : c ∉ cs) : cutLast c cs = none := by
  induction cs with
  | nil => rfl
  | cons x xs ih =>
    obtain ⟨hx, hxs⟩ := not_or.mp (mt List.mem_cons.mpr h)
    rw [cutLast, ih hxs]
    exact if_neg (Ne.symm hx)

theorem cutLast_append {c : Char} {b : List Char} (a : List Char) (hb : c ∉ b) :
    cutLast c (a ++ c :: b) = some (a, b) := by
  induction a with
  | nil =>
    rw [List.nil_append, cutLast, cutLast_of_notMem hb]
    exact if_pos rfl
  | cons x a ih => rw [List.cons_append, cutLast, ih]

/-- a part without `c` in front stays in front -/
theorem cutLast_append_of_notMem {c : Char} {a : List Char} (ha : c ∉ a) (b : List Char) :
    cutLast c (a ++ b) = (cutLast c b).map fun (x, y) => (a ++ x, y) := by
  induction a with
  | nil =>
    rw [List.nil_append]
    cases cutLast c b <;> rfl
  | cons x a ih =>
    obtain ⟨hx, ha⟩ := not_or.mp (mt List.mem_cons.mpr ha)
    rw [List.cons_append, cutLast, ih ha]
    cases cutLast c b with
    | none => exact if_neg (Ne.symm hx)
    | some parts => rfl

theorem eq_of_cutLast {c : Char} {cs a b : List Char} (h : cutLast c cs = some (a, b)) :
    cs = a ++ c :: b := by
  induction cs generalizing a with
  | nil => cases h
  | cons x xs ih =>
    rw [cutLast] at h
    cases hxs : cutLast c xs with
    | some parts =>
      rw [hxs] at h
      cases h
      rw [ih hxs, List.cons_append]
    | none =>
      rw [hxs] at h
      dsimp only at h
      split at h
      case isTrue hx =>
        cases h
        rw [hx]
        rfl
      case isFalse => cases h

theorem shape?_eq {parameters behind : List Char} (front : List Char) (hopen : '(' ∉ parameters)
    (hopen' : '(' ∉ behind) (hclose : ')' ∉ behind) :
    shape? (front ++ '(' :: (parameters ++ ')' :: behind)) =
      some ⟨splitOn ' ' front, parameters, splitOn ' ' behind⟩ := by
  have hrest : '(' ∉ parameters ++ ')' :: behind := by simp [hopen, hopen']
  unfold shape?
  rw [cutLast_append front hrest]
  dsimp only
  rw [cutLast_append parameters hclose]

/-- what is written behind a text that ends in a semicolon is nothing -/
theorem cutLast_semicolon (body : List Char) : cutLast ';' (body ++ [';']) = some (body, []) :=
  cutLast_append body List.not_mem_nil

theorem phrase_splitOn (cs : List Char) : phrase (splitOn ' ' cs) = String.ofList cs := by
  rw [phrase, joinParts_splitOn]

/-! ## functions as they are written -/

/-- a name of a function: an identifier, or `operator` and what is overloaded -/
def isFunctionName (s : String) : Bool :=
  isIdentifier s || "operator".toList.isPrefixOf s.toList && s.toList.all (!isBlank ·)

/-- the name of a function is one word, and no keyword -/
structure PlainName (s : String) : Prop where
  solid : ∀ c ∈ s.toList, isBlank c = false
  head : ∃ c rest, s.toList = c :: rest ∧ ['/', '*', '#', '\x7d'].contains c = false
  keyword : isIntroducer s.toList = false
  sign : s.toList ≠ ['=']

theorem not_isBlank_of_isScopeChar {c : Char} (h : isScopeChar c = true) : isBlank c = false := by
  unfold isScopeChar isNameChar at h
  simp only [Bool.or_eq_true, Bool.and_eq_true, beq_iff_eq, Bool.not_eq_true',
    decide_eq_true_eq] at h
  rcases h with ((h | rfl) | h) | rfl
  · exact forall_ascii (P := fun c => c.isAlphanum = true → isBlank c = false) (by decide)
      (toNat_lt_of_isAlphanum h) h
  · decide
  · exact h.2
  · decide

theorem not_isAside_of_scope {c : Char} (h : isScopeChar c = true) :
    ['/', '*', '#', '\x7d'].contains c = false := by
  have hnone : ['/', '*', '#', '\x7d'].all (!isScopeChar ·) = true := by decide
  rw [← Bool.not_eq_true]
  intro haside
  have hc := List.all_eq_true.mp hnone c (List.contains_iff_mem.mp haside)
  rw [h] at hc
  cases hc

theorem plainName_of_isTypeName {s : String} (h : isTypeName s = true) : PlainName s := by
  obtain ⟨c, rest, hs, hc⟩ := TypeExpr.head_of_isTypeName h
  have hkeyword : isIntroducer s.toList = false := by
    unfold isTypeName at h
    simp only [Bool.and_eq_true, Bool.not_eq_true'] at h
    exact h.2
  have hall : ∀ c ∈ s.toList, isScopeChar c = true := by
    unfold isTypeName at h
    simp only [Bool.and_eq_true, List.all_eq_true] at h
    exact h.1.2
  refine ⟨fun c hc => not_isBlank_of_isScopeChar (hall c hc), ⟨c, rest, hs, ?_⟩, hkeyword, ?_⟩
  · exact not_isAside_of_scope hc
  · intro hsign
    exact absurd (hall '=' (hsign ▸ List.mem_singleton_self _)) (by decide)

theorem plainName_of_isFunctionName {s : String} (h : isFunctionName s = true) : PlainName s := by
  unfold isFunctionName at h
  rcases Bool.or_eq_true_iff.mp h with h | h
  · exact plainName_of_isTypeName (isTypeName_of_isIdentifier h)
  · simp only [Bool.and_eq_true, List.all_eq_true, Bool.not_eq_true'] at h
    obtain ⟨rest, hs⟩ := List.isPrefixOf_iff_prefix.mp h.1
    refine ⟨h.2, ⟨'o', _, hs.symm, by decide⟩, ?_, ?_⟩
    · rw [← hs, ← Bool.not_eq_true]
      intro hword
      obtain ⟨keyword, hmem, heq⟩ := List.any_eq_true.mp hword
      have hother : ∀ k ∈ ["explicit", "static", "virtual", "mutable", "friend", "using"],
          k.toList.head? ≠ some 'o' := by
        decide
      exact hother keyword hmem (beq_iff_eq.mp heq ▸ rfl)
    · rintro hsign
      rw [hsign] at hs
      cases hs

/-- the name of a destructor -/
theorem plainName_of_tilde {s : String} (h : isIdentifier s = true) : PlainName ("~" ++ s) := by
  have hs := plainName_of_isTypeName (isTypeName_of_isIdentifier h)
  have hlist : ("~" ++ s).toList = '~' :: s.toList := String.toList_append
  refine ⟨?_, ⟨'~', _, hlist, by decide⟩, ?_, ?_⟩
  · rw [hlist]
    exact List.forall_mem_cons.mpr ⟨by decide, hs.solid⟩
  · exact not_isIntroducer_of_mem (c := '~') (by decide) (hlist ▸ List.mem_cons_self)
  · rw [hlist]
    rintro ⟨⟩

theorem PlainName.notMem {s : String} (h : PlainName s) {c : Char} (hc : isBlank c = true) :
    c ∉ s.toList := fun hmem => by
  rw [h.solid c hmem] at hc
  cases hc

namespace Heading

/-- the function that a heading stands for -/
def entity (g : Heading) : Entity :=
  .function ((g.returns.map TypeExpr.text).getD "") g.name (argumentsText g.arguments) g.isConst
    g.isNoexcept

/-- names and types can be read off the text of a heading -/
structure Plain (g : Heading) : Prop where
  returns : ∀ t, g.returns = some t → t.Plain
  name : PlainName g.name
  arguments : ∀ a ∈ g.arguments, a.type.Plain ∧ isIdentifier a.name = true

theorem Plain.argument_chars {g : Heading} (h : g.Plain) :
    ∀ c ∈ (argumentsText g.arguments).toList, isTypeChar c = true := by
  intro c hc
  unfold argumentsText at hc
  rcases mem_joinWith hc with hc | ⟨w, hw, hc⟩
  · have hseparator : ", ".toList.all isTypeChar = true := by decide
    exact List.all_eq_true.mp hseparator c hc
  · obtain ⟨a, ha, rfl⟩ := List.mem_map.mp hw
    obtain ⟨htype, hname⟩ := h.arguments a ha
    unfold Argument.text at hc
    rw [String.toList_append, String.toList_append] at hc
    rcases List.mem_append.mp hc with hc | hc
    · rcases List.mem_append.mp hc with hc | hc
      · exact htype.chars c hc
      · rw [List.mem_singleton.mp hc]
        decide
    · exact TypeExpr.chars_of_isTypeName (isTypeName_of_isIdentifier hname) c hc

/-- result and name, with `scope` in front of the name -/
def front (g : Heading) (scope : String) : List Char :=
  (match g.returns with
    | some type => type.text.toList ++ [' ']
    | none => []) ++ (scope ++ g.name).toList

/-- the words of result and name -/
theorem splitOn_front {g : Heading} (h : g.Plain) {scope : String} (hscope : ' ' ∉ scope.toList) :
    ∃ words, splitOn ' ' (g.front scope) = words ++ [(scope ++ g.name).toList] ∧
      phrase words = (g.returns.map TypeExpr.text).getD "" ∧
      (∀ w ∈ words, w ≠ ['=']) ∧ ∀ w ∈ words.head?, isIntroducer w = false := by
  have hname : splitOn ' ' (scope ++ g.name).toList = [(scope ++ g.name).toList] := by
    refine splitOn_of_notMem ?_
    rw [String.toList_append, List.mem_append, not_or]
    exact ⟨hscope, h.name.notMem (by decide)⟩
  unfold front
  cases hr : g.returns with
  | none => exact ⟨[], hname, rfl, fun w hw => absurd hw List.not_mem_nil, fun w hw => by cases hw⟩
  | some t =>
    have ht := h.returns t hr
    refine ⟨splitOn ' ' t.text.toList, ?_, ?_, ?_, ?_⟩
    · rw [List.append_assoc, List.singleton_append, splitOn_append, hname]
    · rw [phrase_splitOn, String.ofList_toList]
      rfl
    · rintro w hw rfl
      exact ht.notMem (by decide) (subset_of_mem_splitOn hw (List.mem_singleton_self '='))
    · intro w hw
      rw [head?_splitOn, Option.mem_some_iff] at hw
      exact hw ▸ ht.firstWord

end Heading

/-- a name behind a type is the last word -/
theorem splitOn_typed {t : TypeExpr} (ht : t.Plain) {name : List Char} (hname : ' ' ∉ name)
    (hsign : name ≠ ['=']) :
    splitOn ' ' (t.text.toList ++ ' ' :: name) = splitOn ' ' t.text.toList ++ [name] ∧
      ∀ w ∈ splitOn ' ' t.text.toList ++ [name], w ≠ ['='] := by
  refine ⟨by rw [splitOn_append, splitOn_of_notMem hname], ?_⟩
  rintro w hw rfl
  rcases List.mem_append.mp hw with hw | hw
  · exact ht.notMem (by decide) (subset_of_mem_splitOn hw (List.mem_singleton_self '='))
  · exact hsign (List.mem_singleton.mp hw).symm

end TypeModel.Cpp
