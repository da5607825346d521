import TypeModel.Proofs.Analysis.Codes
import TypeModel.Proofs.Text.Case

/-!
# Names that are suggested

Validation warns of a name that breaks the convention for its kind and suggests another one, which is the
name in the case style of the convention.  A case style changes letters and separators.  It does not drop
a digit from the front, and an underscore in front has it take the next word for a later one.

* `Naming`                    the kinds of names that have a convention;
* `filter_check_naming`       the warnings about names, visit by visit;
* `filter_validate_naming`    so they come in the order of the names;
* `Naming.Suits k name`       the name has a letter where the convention wants one;
* `Naming.follows_suggest_iff`   for plain names, the suggestion follows the convention if and only if the
                              name suits it;
* `suggestion_follows_iff`    so it is with every warning of validation;
* `not_follows_underscored`   following a suggestion leads to the same warning.
-/

namespace TypeModel

open Convention

/-- a kind of names that has a convention -/
inductive Naming where
  | field
  | type
  | package
  | enumerator
  deriving DecidableEq, Repr

namespace Naming

/-- the name follows the convention -/
def follows : Naming → Name → Bool
  | .field => isFieldName
  | .type => isTypeName
  | .package => isPackageName
  | .enumerator => isEnumeratorName

def suggest : Naming → Name → Name
  | .field => suggestField
  | .type => suggestType
  | .package => suggestPackage
  | .enumerator => suggestEnumerator

def issue : Naming → Name → Issue
  | .field => .fieldNaming
  | .type => .typeNaming
  | .package => .packageNaming
  | .enumerator => .enumeratorNaming

def code : Naming → Code
  | .field => .fieldNaming
  | .type => .typeNaming
  | .package => .packageNaming
  | .enumerator => .enumeratorNaming

/-- the name of that kind that a visit is about, with its place; no convention applies to the empty name
of a package -/
def nameIn : Naming → Visit → Option (Name × Location)
  | .field, .field e f => some (f.name, e.memberLocation f.name f.line)
  | .type, .entry e => some (e.name, e.location)
  | .package, .package p =>
    if p.name.isEmpty then none else some (p.name, { path := p.name, line := p.line })
  | .enumerator, .enumerator e x => some (x.name, e.memberLocation x.name x.line)
  | _, _ => none

theorem help?_issue (k : Naming) (name : Name) :
    (k.issue name).help? = some (Issue.renameTo (k.suggest name)) := by
  cases k <;> rfl

end Naming

/-! ## warnings about names -/

section
open Validation
variable {m : Model} {k : Naming}

/-- the warning about a name at a place -/
def Naming.report (k : Naming) (x : Name × Location) : Diagnostics :=
  reportIf (!k.follows x.1) (k.issue x.1) x.2

theorem filter_reportIf (x : Code) (c : Bool) (i : Issue) (l : Location) :
    (reportIf c i l).filter (Diagnostic.hasCode [x]) =
      if i.code = x then reportIf c i l else [] := by
  have hcode : (i.toDiagnostic l).hasCode [x] = decide (i.code = x) := by
    simp [Diagnostic.hasCode, Issue.toDiagnostic]
  unfold reportIf
  by_cases hc : c = true
  · by_cases hx : i.code = x <;> simp [hc, hcode, hx]
  · simp [hc]

theorem filter_checkField (m : Model) (e : Entry) (f : Field) :
    (checkField m e f).filter (Diagnostic.hasCode [.fieldNaming]) =
      Naming.field.report (f.name, e.memberLocation f.name f.line) := by
  have hsize (size : Int64) (l : Location) :
      (checkArraySize size l).filter (Diagnostic.hasCode [.fieldNaming]) = [] :=
    (gives_checkArraySize size l).filter_eq_nil (by decide)
  unfold checkField checkNameLength
  cases f.arraySize <;> cases f.key <;> simp [filter_reportIf, Issue.code, hsize] <;> rfl

theorem filter_checkTypeName (e : Entry) :
    (checkTypeName e).filter (Diagnostic.hasCode [.typeNaming]) =
      Naming.type.report (e.name, e.location) := by
  unfold checkTypeName checkNameLength
  simp [filter_reportIf, Issue.code]
  rfl

theorem filter_reportEntry_naming (m : Model) (e : Entry) :
    (reportEntry m e).filter (Diagnostic.hasCode [.typeNaming]) =
      Naming.type.report (e.name, e.location) := by
  have hcycle (kind : CycleKind) (step : TypeId → Option TypeId) :
      (reportCycle m e kind step).filter (Diagnostic.hasCode [.typeNaming]) = [] :=
    (gives_reportCycle m e kind step).filter_eq_nil (by decide)
  unfold reportEntry
  rw [List.filter_append, filter_checkTypeName, List.append_right_eq_self]
  cases e.type with
  | struct s inner =>
    have hnames : (checkFieldNames m e s).filter (Diagnostic.hasCode [.typeNaming]) = [] :=
      (gives_checkFieldNames m e s).filter_eq_nil (by decide)
    simp [hnames, hcycle]
  | enumeration x =>
    have hrepeated :
        (checkRepeated e [] x.enumerators).filter (Diagnostic.hasCode [.typeNaming]) = [] :=
      (gives_checkRepeated e x.enumerators []).filter_eq_nil (by decide)
    simp [hrepeated, hcycle, filter_reportIf, Issue.code]
  | array a => simp [filter_reportIf, Issue.code]
  | «alias» a => simp [filter_reportIf, Issue.code]

theorem filter_checkPackage (p : Package) :
    (checkPackage p).filter (Diagnostic.hasCode [.packageNaming]) =
      if p.name.isEmpty then []
      else Naming.package.report (p.name, { path := p.name, line := p.line }) := by
  unfold checkPackage
  dsimp only
  split
  · rfl
  · rw [filter_reportIf]
    rfl

theorem filter_checkEnumerator (e : Entry) (x : Enumerator) :
    (checkEnumerator e x).filter (Diagnostic.hasCode [.enumeratorNaming]) =
      Naming.enumerator.report (x.name, e.memberLocation x.name x.line) := by
  unfold checkEnumerator checkNameLength
  cases x.explicitInteger? <;> simp [filter_reportIf, Issue.code] <;> rfl

theorem filter_check_naming (k : Naming) (v : Visit) :
    (v.report m).filter (Diagnostic.hasCode [k.code]) = (k.nameIn v).toList.flatMap k.report := by
  -- a visit of another kind reports other codes
  have hother (hapart : ∀ c ∈ v.codes, c ∉ [k.code]) :
      (v.report m).filter (Diagnostic.hasCode [k.code]) = [] :=
    (gives_check m v).filter_eq_nil hapart
  cases k with
  | field =>
    cases v with
    | field e f => exact (filter_checkField m e f).trans (List.flatMap_singleton _ _).symm
    | _ => exact hother (by dsimp only [Visit.codes, entryCodes]; decide)
  | type =>
    cases v with
    | entry e => exact (filter_reportEntry_naming m e).trans (List.flatMap_singleton _ _).symm
    | _ => exact hother (by dsimp only [Visit.codes, entryCodes]; decide)
  | package =>
    cases v with
    | package p =>
      refine (filter_checkPackage p).trans ?_
      dsimp only [Naming.nameIn]
      split
      · rfl
      · exact (List.flatMap_singleton _ _).symm
    | _ => exact hother (by dsimp only [Visit.codes, entryCodes]; decide)
  | enumerator =>
    cases v with
    | enumerator e x => exact (filter_checkEnumerator e x).trans (List.flatMap_singleton _ _).symm
    | _ => exact hother (by dsimp only [Visit.codes, entryCodes]; decide)

/-- the names of a kind on the walk, with their places -/
def Model.namesOf (m : Model) (k : Naming) : List (Name × Location) := m.visits.filterMap k.nameIn

/-- the warnings of a kind come in the order of the names -/
theorem filter_validate_naming (m : Model) (k : Naming) :
    m.validate.filter (Diagnostic.hasCode [k.code]) = (m.namesOf k).flatMap k.report := by
  unfold Model.namesOf
  rw [m.validate_eq, List.filter_flatMap]
  simp only [filter_check_naming]
  rw [← List.flatMap_assoc, ← List.filterMap_eq_flatMap_toList]

theorem exists_name_of_warning {d : Diagnostic} (hd : d ∈ m.validate) (hcode : d.code = some k.code) :
    ∃ name place, (name, place) ∈ m.namesOf k ∧ k.follows name = false ∧
      d = (k.issue name).toDiagnostic place := by
  have hmem : d ∈ m.validate.filter (Diagnostic.hasCode [k.code]) :=
    List.mem_filter.mpr ⟨hd, Diagnostic.hasCode_iff.mpr ⟨k.code, List.mem_singleton_self _, hcode⟩⟩
  rw [filter_validate_naming] at hmem
  obtain ⟨⟨name, place⟩, hname, hmem⟩ := List.mem_flatMap.mp hmem
  unfold Naming.report reportIf at hmem
  split at hmem
  · rename_i hbreaks
    exact ⟨name, place, hname, by simpa using hbreaks, List.mem_singleton.mp hmem⟩
  · cases hmem

end

/-! ## suggestions for plain names -/

section
open Text
variable {cs : List Char} {c : Char} {first rest : Char → Bool}

/-- where the characters are right, the first one decides -/
theorem hasShape_iff (h : ∀ c ∈ cs, rest c = true) :
    hasShape first rest cs = true ↔ ∃ c, cs.head? = some c ∧ first c = true := by
  cases cs with
  | nil => exact iff_of_false Bool.false_ne_true (by rintro ⟨_, h, _⟩; cases h)
  | cons c cs =>
    have hrest : cs.all rest = true :=
      List.all_eq_true.mpr fun d hd => h d (List.mem_cons_of_mem c hd)
    simp [hasShape, hrest]

/-- the characters that a style makes of letters and digits belong to every convention of the style -/
theorem class_of_isAlphanum (h : c.isAlphanum = true) :
    isWordChar c.toUpper = true ∧ isWordChar c.toLower = true ∧ isConstantChar c.toUpper = true ∧
      isSegmentChar c.toLower = true :=
  forall_ascii (P := fun c => c.isAlphanum = true → isWordChar c.toUpper = true ∧
    isWordChar c.toLower = true ∧ isConstantChar c.toUpper = true ∧ isSegmentChar c.toLower = true)
    (by decide) (toNat_lt_of_isAlphanum h) h

def StartsWithLetter (cs : List Char) : Prop := ∃ c, cs.head? = some c ∧ c.isAlpha = true

theorem exists_map_iff {o : Option Char} {f : Char → Char} {p q : Char → Bool}
    (h : ∀ c, p (f c) = q c) :
    (∃ x, o.map f = some x ∧ p x = true) ↔ ∃ c, o = some c ∧ q c = true := by
  cases o with
  | none => simp
  | some c => simp [h c]

theorem isWordChar_of_mem_camel {x : Char}
    (h : ∃ c : Char, c.isAlphanum = true ∧ (x = c.toUpper ∨ x = c.toLower)) :
    isWordChar x = true := by
  obtain ⟨c, hc, rfl | rfl⟩ := h
  · exact (class_of_isAlphanum hc).1
  · exact (class_of_isAlphanum hc).2.1

theorem isConstantChar_of_mem_constant (h : IsPlainName cs) {x : Char}
    (hx : x ∈ Style.constant.ofWords (words cs)) : isConstantChar x = true := by
  rcases mem_constant h hx with rfl | ⟨c, hc, rfl⟩
  · rfl
  · exact (class_of_isAlphanum hc).2.2.1

theorem isSegmentChar_of_mem_snake (h : IsPlainName cs) {x : Char}
    (hx : x ∈ Style.snake.ofWords (words cs)) : isSegmentChar x = true := by
  rcases mem_snake h hx with rfl | ⟨c, hc, rfl⟩
  · rfl
  · exact (class_of_isAlphanum hc).2.2.2

theorem isTypeName_suggestType {name : Name} (h : IsPlainName name.toList) :
    isTypeName (suggestType name) = true ↔
      ∃ c, name.toList.find? (· != '_') = some c ∧ c.isAlpha = true := by
  unfold isTypeName suggestType Style.apply
  rw [String.toList_ofList, hasShape_iff fun x hx => isWordChar_of_mem_camel (mem_upperCamel h hx),
    head?_upperCamel h]
  exact exists_map_iff Char.isUpper_toUpper_eq_isAlpha

theorem isFieldName_suggestField {name : Name} (h : IsPlainName name.toList) :
    isFieldName (suggestField name) = true ↔ StartsWithLetter name.toList := by
  unfold isFieldName suggestField Style.apply StartsWithLetter
  rw [String.toList_ofList, hasShape_iff fun x hx => isWordChar_of_mem_camel (mem_camel h hx),
    head?_camel h]
  by_cases hunderscore : name.toList.head? = some '_'
  -- the word in front of the underscore is empty, so the first letter belongs to a later word
  · rw [if_pos hunderscore, hunderscore]
    refine iff_of_false ?_ (by rintro ⟨c, ⟨⟩, h⟩; exact absurd h (by decide))
    rintro ⟨x, hx, hlower⟩
    obtain ⟨c, -, rfl⟩ := Option.map_eq_some_iff.mp hx
    rw [Char.isLower_toUpper_eq_false] at hlower
    cases hlower
  · rw [if_neg hunderscore]
    exact exists_map_iff Char.isLower_toLower_eq_isAlpha

theorem isEnumeratorName_suggestEnumerator {name : Name} (h : IsPlainName name.toList) :
    isEnumeratorName (suggestEnumerator name) = true ↔ StartsWithLetter name.toList := by
  unfold isEnumeratorName suggestEnumerator Style.apply
  rw [String.toList_ofList, hasShape_iff fun x hx => isConstantChar_of_mem_constant h hx,
    head?_constant h]
  exact exists_map_iff Char.isUpper_toUpper_eq_isAlpha

/-- one segment of the name of a package -/
theorem hasShape_snake (h : IsPlainName cs) :
    hasShape Char.isLower isSegmentChar (Style.snake.ofWords (words cs)) = true ↔
      StartsWithLetter cs := by
  rw [hasShape_iff fun x hx => isSegmentChar_of_mem_snake h hx, head?_snake h]
  exact exists_map_iff Char.isLower_toLower_eq_isAlpha

/-- the suggestion for a package has the segments of its name, each in the case style -/
theorem splitOn_suggestPackage {name : Name} (hne : name.segments ≠ [])
    (h : ∀ s ∈ name.segments, IsPlainName s.toList) :
    splitOn '.' (suggestPackage name).toList =
      name.segments.map fun s => Style.snake.ofWords (words s.toList) := by
  have hdot : ∀ s ∈ name.segments.map Style.snake.apply, '.' ∉ s.toList := by
    intro s hs hmem
    obtain ⟨part, hpart, rfl⟩ := List.mem_map.mp hs
    rw [Style.apply, String.toList_ofList] at hmem
    exact absurd (isSegmentChar_of_mem_snake (h part hpart) hmem) (by decide)
  have hsplit : split '.' (suggestPackage name) = name.segments.map Style.snake.apply :=
    split_joinWith_of_notMem rfl (List.map_eq_nil_iff.not.mpr hne) hdot
  have hlists := congrArg (List.map String.toList) hsplit
  simpa [split, Style.apply, Function.comp_def] using hlists

theorem isPackageName_suggestPackage {name : Name} (hne : name.segments ≠ [])
    (h : ∀ s ∈ name.segments, IsPlainName s.toList) :
    isPackageName (suggestPackage name) = true ↔
      ∀ s ∈ name.segments, StartsWithLetter s.toList := by
  unfold isPackageName
  rw [splitOn_suggestPackage hne h, List.all_map, List.all_eq_true]
  exact forall₂_congr fun s hs => hasShape_snake (h s hs)

namespace Naming

/-- ASCII letters, digits and underscores, and dots between the segments of a package, with a letter
among them -/
def IsPlain (k : Naming) (name : Name) : Prop :=
  (∀ c ∈ name.toList, c.isAlphanum = true ∨ c = '_' ∨ k = .package ∧ c = '.') ∧
    ∃ c ∈ name.toList, c.isAlpha = true

instance (k : Naming) (name : Name) : Decidable (k.IsPlain name) :=
  decidable_of_iff
    ((name.toList.all fun c => c.isAlphanum || c == '_' || k == .package && c == '.') = true ∧
      name.toList.any Char.isAlpha = true)
    (by simp [IsPlain, or_assoc])

/-- there is a letter where the convention wants one; only the style of types drops the underscores in
front -/
def Suits : Naming → Name → Prop
  | .field, name => StartsWithLetter name.toList
  | .type, name => ∃ c, name.toList.find? (· != '_') = some c ∧ c.isAlpha = true
  | .package, name => ∀ s ∈ name.segments, StartsWithLetter s.toList
  | .enumerator, name => StartsWithLetter name.toList

variable {k : Naming} {name : Name}

theorem IsPlain.isPlainName (h : k.IsPlain name) (hk : k ≠ .package) : IsPlainName name.toList :=
  fun c hc => (h.1 c hc).imp_right fun h => h.resolve_right fun h => hk h.1

theorem IsPlain.segments (h : Naming.package.IsPlain name) :
    ∀ s ∈ name.segments, IsPlainName s.toList := by
  intro s hs c hc
  have hs := (List.mem_filter.mp hs).1
  refine (h.1 c (subset_of_mem_split hs hc)).imp_right fun h => h.resolve_right ?_
  rintro ⟨-, rfl⟩
  exact notMem_of_mem_split hs hc

theorem IsPlain.segments_ne_nil (h : Naming.package.IsPlain name) : name.segments ≠ [] := by
  obtain ⟨c, hc, hletter⟩ := h.2
  have hdot : c ≠ '.' := by
    rintro rfl
    exact absurd hletter (by decide)
  obtain ⟨s, hs, hc⟩ := exists_mem_split hc hdot
  have hne : s.isEmpty = false := by
    refine Bool.eq_false_iff.mpr fun hempty => ?_
    rw [String.isEmpty_iff.mp hempty] at hc
    cases hc
  exact List.ne_nil_of_mem (List.mem_filter.mpr ⟨hs, by rw [hne]; rfl⟩)

theorem follows_suggest_iff (h : k.IsPlain name) :
    k.follows (k.suggest name) = true ↔ k.Suits name := by
  cases k with
  | field => exact isFieldName_suggestField (h.isPlainName (by decide))
  | type => exact isTypeName_suggestType (h.isPlainName (by decide))
  | package => exact isPackageName_suggestPackage h.segments_ne_nil h.segments
  | enumerator => exact isEnumeratorName_suggestEnumerator (h.isPlainName (by decide))

end Naming

end

/-- Every warning about a name is about a name of the model that breaks its convention, and suggests
another one.  For a plain name the suggestion follows the convention if and only if the name has a letter
where the convention wants one. -/
theorem suggestion_follows_iff (m : Model) (k : Naming) {d : Diagnostic} (hd : d ∈ m.validate)
    (hcode : d.code = some k.code) :
    ∃ name place, (name, place) ∈ m.namesOf k ∧ k.follows name = false ∧
      d = (k.issue name).toDiagnostic place ∧ d.help = some (Issue.renameTo (k.suggest name)) ∧
      (k.IsPlain name → (k.follows (k.suggest name) = true ↔ k.Suits name)) := by
  obtain ⟨name, place, hname, hbreaks, rfl⟩ := exists_name_of_warning hd hcode
  exact ⟨name, place, hname, hbreaks, rfl, k.help?_issue name, Naming.follows_suggest_iff⟩

/-- a struct with one field -/
def person (field : Name) : Model :=
  { primitives := [{ name := "Builtins", dataTypes := [{ name := "string", category := .string }] }]
    types :=
      [.struct { name := "Person", fields := [{ name := field, typeRef := { name := "string" } }] }
        []] }

theorem suggestion_follows_iff_person :
    ∃ d ∈ (person "FirstName").validate, d.code = some Naming.field.code ∧
      d.help = some "rename to `firstName`" ∧ Naming.field.IsPlain "FirstName" ∧
      Naming.field.follows "firstName" = true := by
  obtain ⟨d, hd, hcode⟩ : ∃ d ∈ (person "FirstName").validate, d.code = some Naming.field.code :=
    ⟨_, List.mem_of_getElem? (i := 0) rfl, rfl⟩
  obtain ⟨name, place, hname, -, -, hhelp, hiff⟩ :=
    suggestion_follows_iff (person "FirstName") .field hd hcode
  have hplain : Naming.field.IsPlain "FirstName" := by decide
  cases List.mem_singleton.mp hname
  exact ⟨d, hd, hcode, hhelp, hplain, (hiff hplain).mpr ⟨'F', rfl, rfl⟩⟩

/-- the suggestion for `_name` is `Name`, which is warned of in turn -/
theorem not_follows_underscored :
    (person "_name").analyze.1.validate.map (fun d => (d.code, d.help)) =
      [(some .fieldNaming, some "rename to `Name`")] ∧
    Naming.field.IsPlain "_name" ∧ Naming.field.follows "Name" = false ∧
    (person "Name").analyze.1.validate.map (fun d => (d.code, d.help)) =
      [(some .fieldNaming, some "rename to `name`")] := by
  decide +kernel

end TypeModel
