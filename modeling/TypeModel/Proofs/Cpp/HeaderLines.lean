import TypeModel.Proofs.Cpp.Classes
import TypeModel.Proofs.Text.Writer

/-!
# The lines of a header

A header is written line by line, and each line is put together from the parts of one declaration.
Here the lines stand beside the script, with the parts that they are made of.

* `HeaderLine`          a line with its parts, and `HeaderLine.text` as it is written;
* `Header.lines h`      the lines of a header in their order;
* `statements_header`   what is written is what these lines say;
* `isRemarkText text`   comments, directives, brackets and friends, which neither include nor
                        declare anything;
* `proper_header`       the lines of a class that have no parts are of these kinds.
-/

namespace TypeModel.Cpp

open Text

inductive HeaderLine where
  /-- a header of the standard library -/
  | system (name : String)
  /-- a header of the project -/
  | project (stem : String)
  | opening (name : String) (base : Option TypeExpr)
  | member (x : Member)
  | lock
  | synonym (u : UsingDeclaration)
  | function (d : Declaration)
  | other (text : String)

def systemLine (name : String) : String := "#include <" ++ name ++ ">"

def includeLine (stem : String) : String := "#include \"" ++ stem ++ ".h\""

def lockMember : String := "mutable std::mutex mutex_;"

/-- the base of a class as it stands behind the name -/
def baseText : Option TypeExpr → String
  | some t => " : public " ++ t.text
  | none => ""

def HeaderLine.text : HeaderLine → String
  | .system name => systemLine name
  | .project stem => includeLine stem
  | .opening name base => "class " ++ name ++ baseText base ++ " \x7b"
  | .member x => x.text
  | .lock => lockMember
  | .synonym u => u.text
  | .function d => d.text
  | .other text => text

/-! ## the lines of each part -/

def commentLines (comment : List String) : List HeaderLine :=
  comment.map fun c => .other (Writer.commentLine "//" c)

def docTexts : List String → List String
  | [] => []
  | first :: rest => (" * @brief " ++ first) :: rest.map fun l => " * " ++ l

def docLines (tag name : String) (comment : List String) : List HeaderLine :=
  .other "/**" :: .other (" * @" ++ tag ++ " " ++ name) ::
    ((docTexts comment).map .other ++ [.other " */"])

def EnumDeclaration.lines (e : EnumDeclaration) : List HeaderLine :=
  .other ((if e.isEnumClass then "enum class" else "enum") ++ " " ++ e.name ++ " : " ++
      e.underlying ++ " \x7b") ::
    (e.values.map fun v => .other (v.1 ++ " = " ++ Int.repr v.2.toInt ++ ",")) ++
    [.other "\x7d;"]

def MemberBlock.lines (b : MemberBlock) : List HeaderLine :=
  .other (b.visibility.text ++ ":") ::
    ((b.members.flatMap fun x => commentLines x.comment ++ [.member x]) ++
      if b.hasMutex then [.lock] else [])

def NestedDeclaration.lines : NestedDeclaration → List HeaderLine
  | .record name blocks =>
    .opening name none :: blocks.flatMap MemberBlock.lines ++ [.other "\x7d;"]
  | .enumeration e => e.lines
  | .synonym u => [.synonym u]

def Nested.lines (n : Nested) : List HeaderLine := commentLines n.comment ++ n.declaration.lines

def SectionItem.line : SectionItem → HeaderLine
  | .note text => .other text
  | .declaration d => .function d

def Section.lines (x : Section) : List HeaderLine :=
  .other ("// " ++ x.title) :: x.items.map SectionItem.line

def FunctionBlock.lines (b : FunctionBlock) : List HeaderLine :=
  .other (b.visibility.text ++ ":") :: b.sections.flatMap Section.lines

def ClassDeclaration.lines (c : ClassDeclaration) : List HeaderLine :=
  docLines "class" c.name c.comment ++ [.opening c.name c.base] ++
    (if c.nested.isEmpty then [] else .other "public:" :: c.nested.flatMap Nested.lines) ++
    c.members.flatMap MemberBlock.lines ++ c.functions.flatMap FunctionBlock.lines ++
    c.friends.map (fun f => .other (friendText f)) ++ [.other "\x7d;"]

def HeaderBody.lines (name : String) : HeaderBody → List HeaderLine
  | .classOf c => c.lines
  | .enumeration comment e => docLines "enum" name comment ++ e.lines
  | .synonym comment u => commentLines comment ++ [.synonym u]

def openingLines : Option String → List HeaderLine
  | some ns => [.other ("namespace " ++ ns ++ " \x7b")]
  | none => []

def closingLines : Option String → List HeaderLine
  | some ns => [.other ("\x7d  // namespace " ++ ns)]
  | none => []

def Header.lines (h : Header) : List HeaderLine :=
  let guard := includeGuard h.ns h.name
  [.other ("// " ++ banner), .other ("#ifndef " ++ guard), .other ("#define " ++ guard)] ++
    h.standardIncludes.map .system ++ h.projectIncludes.map .project ++ openingLines h.ns ++
    h.body.lines h.name ++ closingLines h.ns ++ [.other ("#endif  // " ++ guard)]

/-! ## the script writes these lines -/

/-- the steps write the lines and do not fail -/
def Writes (ss : Script) (lines : List HeaderLine) : Prop := Yields ss (lines.map HeaderLine.text)

section
variable {ss ss' : Script} {lines lines' : List HeaderLine}

theorem Writes.append (h : Writes ss lines) (h' : Writes ss' lines') :
    Writes (ss ++ ss') (lines ++ lines') := by
  unfold Writes
  rw [List.map_append]
  exact Yields.append h h'

theorem Writes.indented (h : Writes ss lines) : Writes [.indented ss] lines := Yields.indented h

theorem writes_nil : Writes [] [] := rfl

theorem writes_blank : Writes [.blank] [] := rfl

theorem writes_line (l : HeaderLine) : Writes [.line l.text] [l] := rfl

theorem writes_flatMap {α : Type} {f : α → Script} {g : α → List HeaderLine} {xs : List α}
    (h : ∀ x ∈ xs, Writes (f x) (g x)) : Writes (xs.flatMap f) (xs.flatMap g) := by
  unfold Writes
  rw [List.map_flatMap]
  exact yields_flatMap h

theorem writes_map {α : Type} (f : α → HeaderLine) (xs : List α) :
    Writes (xs.map fun x => .line (f x).text) (xs.map f) := by
  unfold Writes
  rw [List.map_map]
  exact yields_lines (HeaderLine.text ∘ f) xs

end

theorem writes_comment (comment : List String) :
    Writes [.comment "//" comment] (commentLines comment) := by
  unfold Writes Yields commentLines
  rw [List.map_map, Step.textsAll, Step.texts]
  exact congrArg (·, false) (List.append_nil _)

theorem writes_docBlock (tag name : String) (comment : List String) :
    Writes (docBlock tag name comment) (docLines tag name comment) := by
  have hdoc : Writes (match comment with
      | [] => []
      | first :: rest => .line (" * @brief " ++ first) :: rest.map fun l => .line (" * " ++ l))
      ((docTexts comment).map .other) := by
    cases comment with
    | nil => exact writes_nil
    | cons first rest =>
      have hrest := writes_map .other (rest.map fun l => " * " ++ l)
      rw [List.map_map] at hrest
      exact (writes_line (.other (" * @brief " ++ first))).append hrest
  have hlead : Writes [.line "/**", .line (" * @" ++ tag ++ " " ++ name)]
      [.other "/**", .other (" * @" ++ tag ++ " " ++ name)] := rfl
  exact hlead.append (hdoc.append (writes_line (.other " */")))

theorem writes_enumDeclaration (e : EnumDeclaration) : Writes e.script e.lines :=
  (writes_line (.other _)).append <|
    (writes_map (fun v : Name × Int64 => .other (v.1 ++ " = " ++ Int.repr v.2.toInt ++ ","))
      e.values).indented.append (writes_line (.other "\x7d;"))

theorem writes_memberBlock (b : MemberBlock) : Writes b.script b.lines := by
  have hmembers : Writes (b.members.flatMap fun x => [.comment "//" x.comment, .line x.text])
      (b.members.flatMap fun x => commentLines x.comment ++ [.member x]) :=
    writes_flatMap fun x _ => (writes_comment x.comment).append (writes_line (.member x))
  have hlock : Writes (if b.hasMutex then [.line "mutable std::mutex mutex_;"] else [])
      (if b.hasMutex then [.lock] else []) := by
    split
    · exact writes_line .lock
    · exact writes_nil
  have hbody := ((hmembers.append hlock).indented).append writes_blank
  rw [List.append_nil] at hbody
  exact (writes_line (.other (b.visibility.text ++ ":"))).append hbody

theorem writes_nested (n : Nested) : Writes n.script n.lines := by
  refine (writes_comment n.comment).append ?_
  cases n.declaration with
  | record name blocks =>
    have hopening : Writes [.line ("class " ++ name ++ " \x7b")] [.opening name none] := by
      have htext : ("class " ++ name ++ " \x7b") = (HeaderLine.opening name none).text := by
        simp [HeaderLine.text, baseText]
      rw [htext]
      exact writes_line _
    exact hopening.append
      ((writes_flatMap fun b _ => writes_memberBlock b).append (writes_line (.other "\x7d;")))
  | enumeration e => exact writes_enumDeclaration e
  | synonym u => exact writes_line (.synonym u)

theorem writes_section (x : Section) : Writes x.script x.lines := by
  have hitems : Writes (x.items.map fun i => .line i.text) (x.items.map SectionItem.line) := by
    have htext : ∀ i : SectionItem, i.text = i.line.text := by rintro (_ | _) <;> rfl
    simp only [htext]
    exact writes_map SectionItem.line x.items
  have hall := ((writes_line (.other ("// " ++ x.title))).append hitems).append writes_blank
  rwa [List.append_nil] at hall

theorem writes_functionBlock (b : FunctionBlock) : Writes b.script b.lines :=
  (writes_line (.other (b.visibility.text ++ ":"))).append
    (writes_flatMap fun x _ => writes_section x).indented

theorem writes_class (c : ClassDeclaration) : Writes c.script c.lines := by
  have hopening : Writes [.line ("class " ++ c.name ++ baseText c.base ++ " \x7b")]
      [.opening c.name c.base] := writes_line (.opening c.name c.base)
  have hnested : Writes (if c.nested.isEmpty then []
      else [.line "public:", .indented (c.nested.flatMap fun n => n.script ++ [.blank])])
      (if c.nested.isEmpty then [] else .other "public:" :: c.nested.flatMap Nested.lines) := by
    split
    · exact writes_nil
    · refine (writes_line (.other "public:")).append (Writes.indented (writes_flatMap fun n _ => ?_))
      have hn := (writes_nested n).append writes_blank
      rwa [List.append_nil] at hn
  have hfriends : Writes (if c.friends.isEmpty then []
      else [.indented (c.friends.map fun f => .line (friendText f))])
      (c.friends.map fun f => .other (friendText f)) := by
    split
    case isTrue hnone =>
      rw [List.isEmpty_iff.mp hnone]
      exact writes_nil
    case isFalse => exact (writes_map (fun f => .other (friendText f)) c.friends).indented
  exact (((((writes_docBlock _ _ _).append hopening).append hnested).append
    (writes_flatMap fun b _ => writes_memberBlock b)).append
    (writes_flatMap fun b _ => writes_functionBlock b)).append hfriends |>.append
    (writes_line (.other "\x7d;"))

theorem writes_body (name : String) (body : HeaderBody) :
    Writes (body.script name) (body.lines name) := by
  cases body with
  | classOf c => exact writes_class c
  | enumeration comment e => exact (writes_docBlock _ _ _).append (writes_enumDeclaration e)
  | synonym comment u => exact (writes_comment comment).append (writes_line (.synonym u))

theorem writes_header (h : Header) : Writes h.script h.lines := by
  have hlead : Writes [.line ("// " ++ banner), .blank,
      .line ("#ifndef " ++ includeGuard h.ns h.name),
      .line ("#define " ++ includeGuard h.ns h.name), .blank]
      [.other ("// " ++ banner), .other ("#ifndef " ++ includeGuard h.ns h.name),
        .other ("#define " ++ includeGuard h.ns h.name)] := rfl
  have hsystem : Writes (h.standardIncludes.map fun i => .line ("#include <" ++ i ++ ">"))
      (h.standardIncludes.map .system) := writes_map .system h.standardIncludes
  have hproject : Writes (if h.projectIncludes.isEmpty then []
      else .blank :: h.projectIncludes.map fun i => .line ("#include \"" ++ i ++ ".h\""))
      (h.projectIncludes.map .project) := by
    split
    case isTrue hnone =>
      rw [List.isEmpty_iff.mp hnone]
      exact writes_nil
    case isFalse => exact writes_blank.append (writes_map .project h.projectIncludes)
  have hopen : Writes ([.blank] ++ openNamespace h.ns) (openingLines h.ns) := by
    cases h.ns with
    | none => exact writes_blank
    | some ns => exact rfl
  have hclose : Writes ([.blank] ++ closeNamespace h.ns) (closingLines h.ns) := by
    cases h.ns with
    | none => exact writes_blank
    | some ns => exact rfl
  have hend : Writes [.line ("#endif  // " ++ includeGuard h.ns h.name)]
      [.other ("#endif  // " ++ includeGuard h.ns h.name)] := rfl
  have hall := (((((hlead.append hsystem).append hproject).append hopen).append
    (writes_body h.name h.body)).append hclose).append hend
  simpa only [Header.script, Header.lines, List.append_assoc] using hall

/-! ## what is written -/

theorem isBlankLine_indent : IsBlankLine indent := ⟨by decide, by decide⟩

/-- what is written in a header is what its lines say -/
theorem statements_header (h : Header) :
    statements h.text = h.lines.flatMap fun l => statements l.text := by
  unfold Header.text
  rw [(writes_header h).statements_render isBlankLine_indent, List.flatMap_map]

/-! ## lines without parts -/

/-- a comment, a directive that includes nothing, a closing bracket or a friend; or a text that ends
with neither a semicolon nor an angle bracket -/
def isRemark (cs : List Char) : Bool :=
  cs.head?.any (['/', '*', '\x7d'].contains ·) ||
    ["#ifndef", "#define", "#endif", "friend "].any (·.toList.isPrefixOf cs) ||
    cs.getLast?.any ([':', ',', '\x7b'].contains ·)

/-- whether a line says nothing about types, members and functions -/
def isRemarkText (text : String) : Bool := isRemark (trim text.toList)

theorem isRemarkText_of_head {c : Char} (hc : ['/', '*', '\x7d'].contains c = true) {text : String}
    {rest : List Char} (htext : text.toList = c :: rest) : isRemarkText text = true := by
  have hsolid : isBlank c = false := by
    have hall : ['/', '*', '\x7d'].all (!isBlank ·) = true := by decide
    have hnot := List.all_eq_true.mp hall c (List.contains_iff_mem.mp hc)
    rwa [Bool.not_eq_true'] at hnot
  have htrim : trim text.toList = c :: trimEnd rest := by
    rw [htext]
    exact trim_append (a := [c]) (congrArg some hsolid) (congrArg some hsolid) rest
  unfold isRemarkText isRemark
  rw [htrim, List.head?_cons, Option.any_some, hc]
  rfl

theorem isRemarkText_of_prefix {a : String}
    (ha : ["#ifndef", "#define", "#endif"].contains a = true) (rest : String) :
    isRemarkText (a ++ rest) = true := by
  have hends : ∀ a ∈ ["#ifndef", "#define", "#endif"],
      a.toList.head?.map isBlank = some false ∧ a.toList.getLast?.map isBlank = some false := by
    decide
  obtain ⟨hfirst, hlast⟩ := hends a (List.contains_iff_mem.mp ha)
  have htrim : trim (a ++ rest).toList = a.toList ++ trimEnd rest.toList := by
    rw [String.toList_append, trim_append hfirst hlast]
  have hword : ["#ifndef", "#define", "#endif", "friend "].any
      (·.toList.isPrefixOf (a.toList ++ trimEnd rest.toList)) = true := by
    refine List.any_eq_true.mpr ⟨a, ?_, List.isPrefixOf_iff_prefix.mpr (List.prefix_append _ _)⟩
    have hsub : ∀ a ∈ ["#ifndef", "#define", "#endif"],
        a ∈ ["#ifndef", "#define", "#endif", "friend "] := by
      decide
    exact hsub a (List.contains_iff_mem.mp ha)
  unfold isRemarkText isRemark
  rw [htrim, hword, Bool.or_true, Bool.true_or]

theorem isRemarkText_append {mark : String}
    (hmark : mark.toList.getLast?.any ([':', ',', '\x7b'].contains ·) = true) (front : String) :
    isRemarkText (front ++ mark) = true := by
  obtain ⟨c, hlast, hc⟩ := (Option.any_eq_true _ _).mp hmark
  obtain ⟨lead, hlead⟩ := List.getLast?_eq_some_iff.mp hlast
  have hsolid : isBlank c = false := by
    have hall : [':', ',', '\x7b'].all (!isBlank ·) = true := by decide
    have hnot := List.all_eq_true.mp hall c (List.contains_iff_mem.mp hc)
    rwa [Bool.not_eq_true'] at hnot
  have htext : (front ++ mark).toList = front.toList ++ lead ++ [c] := by
    rw [String.toList_append, hlead, List.append_assoc]
  unfold isRemarkText isRemark
  rw [htext, getLast?_trim _ hsolid, Option.any_some, hc, Bool.or_true]

theorem isRemarkText_friendText (f : Friend) : isRemarkText (friendText f) = true := by
  obtain ⟨rest, hrest⟩ : ∃ rest, (friendText f).toList = "friend ".toList ++ rest ++ [';'] := by
    cases f with
    | classNamed name => exact ⟨"class ".toList ++ name.toList, by simp [friendText]⟩
    | functionOf signature =>
      exact ⟨((trim signature.toList).reverse.dropWhile (· == ';')).reverse, by simp [friendText]⟩
  have htrim : trim (friendText f).toList = (friendText f).toList := by
    rw [hrest]
    refine trim_eq_self ?_ ?_
    · rfl
    · rw [List.getLast?_concat]
      rfl
  have hword : ["#ifndef", "#define", "#endif", "friend "].any
      (·.toList.isPrefixOf (friendText f).toList) = true := by
    refine List.any_eq_true.mpr ⟨"friend ", by decide, List.isPrefixOf_iff_prefix.mpr ?_⟩
    rw [hrest, List.append_assoc]
    exact List.prefix_append _ _
  unfold isRemarkText isRemark
  rw [htrim, hword, Bool.or_true, Bool.true_or]

/-! ### the lines of each part again -/

/-- whether a line is a remark or has parts -/
def HeaderLine.isProper : HeaderLine → Bool
  | .other text => isRemarkText text
  | _ => true

theorem isRemarkText_slashes (rest : String) : isRemarkText ("//" ++ rest) = true :=
  isRemarkText_of_head (by decide : ['/', '*', '\x7d'].contains '/' = true) String.toList_append

theorem proper_comment (comment : List String) : ∀ l ∈ commentLines comment, l.isProper = true := by
  unfold commentLines
  rw [List.forall_mem_map]
  intro text _
  show isRemarkText (Writer.commentLine "//" text) = true
  unfold Writer.commentLine
  dsimp only
  split
  · decide
  · rw [String.append_assoc]
    exact isRemarkText_slashes _

/-- the lines of a comment in front of a class, where a blank stands in front of the star -/
theorem isRemarkText_star (rest : String) : isRemarkText (" *" ++ rest) = true := by
  have htrim : trim (" *" ++ rest).toList = '*' :: trimEnd rest.toList := by
    have hlist : (" *" ++ rest).toList = [' '] ++ ('*' :: rest.toList) := by simp
    have hstar := trim_append (a := ['*']) rfl rfl rest.toList
    rw [hlist]
    unfold trim at hstar ⊢
    rw [trimStart_append (by decide)]
    exact hstar
  unfold isRemarkText isRemark
  rw [htrim]
  rfl

theorem proper_docLines (tag name : String) (comment : List String) :
    ∀ l ∈ docLines tag name comment, l.isProper = true := by
  have hdoc : ∀ text ∈ docTexts comment, isRemarkText text = true := by
    have hline : ∀ lead text : String, isRemarkText (" *" ++ lead ++ text) = true := by
      intro lead text
      rw [String.append_assoc]
      exact isRemarkText_star _
    cases comment with
    | nil => exact fun _ h => absurd h List.not_mem_nil
    | cons first rest =>
      refine List.forall_mem_cons.mpr ⟨hline " @brief " first, ?_⟩
      rw [List.forall_mem_map]
      exact fun text _ => hline " " text
  have hlead : isRemarkText (" * @" ++ tag ++ " " ++ name) = true := by
    have hsplit : " * @" ++ tag ++ " " ++ name = " *" ++ (" @" ++ tag ++ " " ++ name) := by
      refine String.toList_injective ?_
      simp
    rw [hsplit]
    exact isRemarkText_star _
  unfold docLines
  simp only [List.forall_mem_cons, List.forall_mem_append, List.forall_mem_map,
    List.mem_nil_iff, false_implies, implies_true, and_true]
  exact ⟨by decide, hlead, hdoc, by decide⟩

theorem proper_enumDeclaration (e : EnumDeclaration) : ∀ l ∈ e.lines, l.isProper = true := by
  unfold EnumDeclaration.lines
  simp only [List.cons_append, List.forall_mem_cons, List.forall_mem_append, List.forall_mem_map,
    List.mem_nil_iff, false_implies, implies_true, and_true]
  refine ⟨?_, fun v _ => ?_, by decide⟩
  · exact isRemarkText_append (by decide) _
  · exact isRemarkText_append (by decide) _

theorem isRemarkText_visibility (v : Visibility) : isRemarkText (v.text ++ ":") = true :=
  isRemarkText_append (by decide) _

theorem proper_memberBlock (b : MemberBlock) : ∀ l ∈ b.lines, l.isProper = true := by
  unfold MemberBlock.lines
  simp only [List.forall_mem_cons, List.forall_mem_append, List.forall_mem_flatMap,
    List.mem_nil_iff, false_implies, implies_true, and_true]
  refine ⟨isRemarkText_visibility _, fun x _ => ⟨proper_comment _, rfl⟩, fun l hl => ?_⟩
  split at hl
  · rw [List.mem_singleton.mp hl]
    rfl
  · cases hl

theorem proper_nested (n : Nested) : ∀ l ∈ n.lines, l.isProper = true := by
  unfold Nested.lines
  refine List.forall_mem_append.mpr ⟨proper_comment _, ?_⟩
  cases n.declaration with
  | record name blocks =>
    unfold NestedDeclaration.lines
    simp only [List.cons_append, List.forall_mem_cons, List.forall_mem_append,
      List.forall_mem_flatMap, List.mem_nil_iff, false_implies, implies_true, and_true]
    exact ⟨rfl, fun b _ => proper_memberBlock b, by decide⟩
  | enumeration e => exact proper_enumDeclaration e
  | synonym u => exact List.forall_mem_singleton.mpr rfl

/-- what is noted in a section is a comment -/
def SectionItem.IsComment : SectionItem → Prop
  | .note text => ∃ rest, text = "//" ++ rest
  | .declaration _ => True

theorem isComment_declarations (ds : List Declaration) :
    ∀ i ∈ ds.map SectionItem.declaration, i.IsComment :=
  List.forall_mem_map.mpr fun _ _ => trivial

theorem isComment_ite (condition : Bool) (ds : List Declaration) :
    ∀ i ∈ (if condition then ds.map SectionItem.declaration else []), i.IsComment := by
  split
  · exact isComment_declarations ds
  · exact fun _ hi => absurd hi List.not_mem_nil

section
variable {m : Model} {ns : Option String} {s : StructType}

theorem isComment_generatedConstructors {items : List SectionItem}
    (h : generatedConstructors m ns s = .ok items) : ∀ i ∈ items, i.IsComment := by
  have hdefault : ∀ i ∈ (if hasDefaultConstructor s then []
      else [SectionItem.declaration { name := s.name }]), i.IsComment := by
    split
    · exact fun _ hi => absurd hi List.not_mem_nil
    · exact isComment_declarations [{ name := s.name }]
  unfold generatedConstructors at h
  dsimp only at h
  split at h
  · obtain ⟨d, _, h⟩ := bind_eq_ok.mp h
    cases h
    exact List.forall_mem_append.mpr ⟨hdefault, isComment_declarations [d]⟩
  · cases h
    exact hdefault

theorem isComment_constructorItem {c : Constructor} {i : SectionItem}
    (h : constructorItem m ns s c = .ok i) : i.IsComment := by
  obtain ⟨d, _, h⟩ := bind_eq_ok.mp h
  cases h
  trivial

/-- the description of a method follows the marker of a comment -/
theorem isComment_methodItems {x : Method} {items : List SectionItem}
    (h : methodItems m ns x = .ok items) : ∀ i ∈ items, i.IsComment := by
  obtain ⟨d, _, h⟩ := bind_eq_ok.mp h
  cases h
  refine List.forall_mem_append.mpr ⟨fun i hi => ?_, isComment_declarations [d]⟩
  obtain ⟨text, _, rfl⟩ := Option.map_eq_some_iff.mp (Option.mem_toList.mp hi)
  refine ⟨" " ++ text, ?_⟩
  show "//" ++ " " ++ text = "//" ++ (" " ++ text)
  exact String.append_assoc

theorem isComment_accessorItems {f : Field} {items : List SectionItem}
    (h : accessorItems m ns s f = .ok items) : ∀ i ∈ items, i.IsComment := by
  obtain ⟨getter, _, h⟩ := bind_eq_ok.mp h
  obtain ⟨setter, _, h⟩ := bind_eq_ok.mp h
  cases h
  exact isComment_declarations [getter, setter]

theorem isComment_of_functionBlocks {e : Entry} {blocks : List FunctionBlock}
    (h : functionBlocks m ns e s = .ok blocks) : ∀ i ∈ itemsOf blocks, i.IsComment := by
  obtain ⟨generated, authored, methods, accessors, hgenerated, hauthored, hmethods, haccessors,
    hperm⟩ := items_perm h
  have hwritten : ∀ i ∈ authored, i.IsComment := by
    intro i hi
    obtain ⟨c, _, hc⟩ := (mem_mapM_iff hauthored).mp hi
    exact isComment_constructorItem hc
  have hdescribed : ∀ items ∈ methods, ∀ i ∈ items, i.IsComment := by
    intro items hitems
    obtain ⟨x, _, hx⟩ := (mem_mapM_iff hmethods).mp hitems
    exact isComment_methodItems hx
  have haccessed : ∀ items ∈ accessors, ∀ i ∈ items, i.IsComment := by
    intro items hitems
    obtain ⟨f, _, hf⟩ := (mem_mapM_iff haccessors).mp hitems
    exact isComment_accessorItems hf
  intro i hi
  revert i
  simp only [hperm.mem_iff, List.forall_mem_append, List.forall_mem_flatten]
  exact ⟨⟨⟨⟨⟨⟨isComment_generatedConstructors hgenerated, hwritten⟩, isComment_declarations _⟩,
    hdescribed⟩, haccessed⟩, isComment_ite _ _⟩, isComment_ite _ _⟩

end

theorem proper_functionBlock {b : FunctionBlock}
    (h : ∀ x ∈ b.sections, ∀ i ∈ x.items, i.IsComment) : ∀ l ∈ b.lines, l.isProper = true := by
  unfold FunctionBlock.lines Section.lines
  simp only [List.forall_mem_cons, List.forall_mem_flatMap, List.forall_mem_map]
  refine ⟨isRemarkText_visibility _, fun x hx => ⟨?_, fun i hi => ?_⟩⟩
  · show isRemarkText ("//" ++ " " ++ x.title) = true
    rw [String.append_assoc]
    exact isRemarkText_slashes _
  · cases i with
    | note text =>
      obtain ⟨rest, rfl⟩ := h x hx _ hi
      exact isRemarkText_slashes rest
    | declaration d => rfl

theorem proper_class {c : ClassDeclaration} (h : ∀ i ∈ itemsOf c.functions, i.IsComment) :
    ∀ l ∈ c.lines, l.isProper = true := by
  unfold itemsOf at h
  simp only [List.forall_mem_flatMap] at h
  unfold ClassDeclaration.lines
  simp only [List.forall_mem_append, List.forall_mem_cons, List.forall_mem_flatMap,
    List.forall_mem_map, List.mem_nil_iff, false_implies, implies_true, and_true]
  refine ⟨⟨⟨⟨⟨⟨proper_docLines _ _ _, rfl⟩, fun l hl => ?_⟩, fun b _ => proper_memberBlock b⟩,
    fun b hb => proper_functionBlock (h b hb)⟩, fun f _ => isRemarkText_friendText f⟩, by decide⟩
  split at hl
  · cases hl
  · rcases List.mem_cons.mp hl with rfl | hl
    · decide
    · obtain ⟨n, _, hl⟩ := List.mem_flatMap.mp hl
      exact proper_nested n l hl

/-- every line of the header of a class is a remark or has parts -/
theorem proper_header {h : Header} {c : ClassDeclaration} (hbody : h.body = .classOf c)
    (hc : ∀ i ∈ itemsOf c.functions, i.IsComment) : ∀ l ∈ h.lines, l.isProper = true := by
  have hopen : ∀ l ∈ openingLines h.ns, l.isProper = true := by
    cases h.ns with
    | none => exact fun _ hmem => absurd hmem List.not_mem_nil
    | some ns =>
      refine List.forall_mem_singleton.mpr ?_
      exact isRemarkText_append (by decide) _
  have hclose : ∀ l ∈ closingLines h.ns, l.isProper = true := by
    cases h.ns with
    | none => exact fun _ hmem => absurd hmem List.not_mem_nil
    | some ns =>
      refine List.forall_mem_singleton.mpr ?_
      exact isRemarkText_of_head (c := '\x7d') (by decide) String.toList_append
  unfold Header.lines
  rw [hbody]
  simp only [List.forall_mem_append, List.forall_mem_cons, List.forall_mem_map,
    List.mem_nil_iff, false_implies, implies_true, and_true]
  have hend : isRemarkText ("#endif  // " ++ includeGuard h.ns h.name) = true := by
    rw [show "#endif  // " = "#endif" ++ "  // " from by decide, String.append_assoc]
    exact isRemarkText_of_prefix (by decide) _
  have hguard : ∀ a ∈ ["#ifndef", "#define"],
      isRemarkText (a ++ " " ++ includeGuard h.ns h.name) = true := by
    intro a ha
    have hword : ∀ a ∈ ["#ifndef", "#define"],
        ["#ifndef", "#define", "#endif"].contains a = true := by
      decide
    rw [String.append_assoc]
    exact isRemarkText_of_prefix (hword a ha) _
  exact ⟨⟨⟨⟨⟨⟨⟨by decide, hguard "#ifndef" (by decide), hguard "#define" (by decide)⟩,
    fun _ _ => rfl⟩, fun _ _ => rfl⟩, hopen⟩, proper_class hc⟩, hclose⟩, hend⟩

/-! ## what is read off the lines of a class -/

/-- a line alone, if it has parts -/
def HeaderLine.withParts : HeaderLine → List HeaderLine
  | .other _ => []
  | l => [l]

section
variable {β : Type} {f : HeaderLine → List β} (hother : ∀ text, f (.other text) = [])
include hother

theorem flatMap_others {α : Type} (g : α → String) (xs : List α) :
    (xs.map fun x => HeaderLine.other (g x)).flatMap f = [] := by
  rw [List.flatMap_map]
  exact List.flatMap_eq_nil_iff.mpr fun x _ => hother (g x)

theorem flatMap_docLines (tag name : String) (comment : List String) :
    (docLines tag name comment).flatMap f = [] := by
  have hdoc : ((docTexts comment).map HeaderLine.other).flatMap f = [] :=
    flatMap_others hother id (docTexts comment)
  unfold docLines
  rw [List.flatMap_cons, List.flatMap_cons, List.flatMap_append, List.flatMap_singleton, hother,
    hother, hother, hdoc]
  rfl

theorem flatMap_memberBlock_lines (b : MemberBlock) :
    b.lines.flatMap f =
      (b.members.flatMap fun x => f (.member x)) ++ if b.hasMutex then f .lock else [] := by
  unfold MemberBlock.lines commentLines
  rw [List.flatMap_cons, List.flatMap_append, List.flatMap_assoc, hother, List.nil_append]
  congr 1
  · refine List.flatMap_congr fun x _ => ?_
    rw [List.flatMap_append, flatMap_others hother, List.flatMap_singleton, List.nil_append]
  · split
    · exact List.flatMap_singleton f .lock
    · rfl

theorem flatMap_nested_lines (n : Nested) :
    n.lines.flatMap f =
      match n.declaration with
      | .record name blocks =>
        f (.opening name none) ++ blocks.flatMap fun b => b.lines.flatMap f
      | .enumeration _ => []
      | .synonym u => f (.synonym u) := by
  unfold Nested.lines commentLines
  rw [List.flatMap_append, flatMap_others hother, List.nil_append]
  cases n.declaration with
  | record name blocks =>
    unfold NestedDeclaration.lines
    dsimp only
    rw [List.flatMap_append, List.flatMap_cons, List.flatMap_assoc, List.flatMap_singleton, hother,
      List.append_nil]
  | enumeration e =>
    unfold NestedDeclaration.lines EnumDeclaration.lines
    dsimp only
    rw [List.flatMap_append, List.flatMap_cons, flatMap_others hother, List.flatMap_singleton,
      hother, hother, List.append_nil, List.append_nil]
  | synonym u => exact List.flatMap_singleton f (.synonym u)

theorem flatMap_functionBlock_lines (blocks : List FunctionBlock) :
    (blocks.flatMap FunctionBlock.lines).flatMap f =
      (itemsOf blocks).flatMap fun i => f i.line := by
  unfold itemsOf FunctionBlock.lines Section.lines
  rw [List.flatMap_assoc, List.flatMap_assoc]
  refine List.flatMap_congr fun b _ => ?_
  rw [List.flatMap_cons, hother, List.nil_append, List.flatMap_assoc, List.flatMap_assoc]
  refine List.flatMap_congr fun x _ => ?_
  rw [List.flatMap_cons, hother, List.nil_append, List.flatMap_map]

/-- what is read off a header is read off the lines that have parts -/
theorem flatMap_header {h : Header} {c : ClassDeclaration} (hbody : h.body = .classOf c) :
    h.lines.flatMap f =
      (h.standardIncludes.flatMap fun i => f (.system i)) ++
        (h.projectIncludes.flatMap fun i => f (.project i)) ++ f (.opening c.name c.base) ++
        (c.nested.flatMap fun n => n.lines.flatMap f) ++
        (c.members.flatMap fun b => b.lines.flatMap f) ++
        (itemsOf c.functions).flatMap fun i => f i.line := by
  have hns : (openingLines h.ns).flatMap f = [] ∧ (closingLines h.ns).flatMap f = [] := by
    cases h.ns with
    | none => exact ⟨rfl, rfl⟩
    | some ns =>
      exact ⟨(List.flatMap_singleton f _).trans (hother _),
        (List.flatMap_singleton f _).trans (hother _)⟩
  have hnested : (if c.nested.isEmpty then []
      else .other "public:" :: c.nested.flatMap Nested.lines).flatMap f =
      c.nested.flatMap fun n => n.lines.flatMap f := by
    split
    case isTrue hnone =>
      rw [List.isEmpty_iff.mp hnone]
      rfl
    case isFalse => rw [List.flatMap_cons, hother, List.nil_append, List.flatMap_assoc]
  have hclass : c.lines.flatMap f = f (.opening c.name c.base) ++
      (c.nested.flatMap fun n => n.lines.flatMap f) ++
      (c.members.flatMap fun b => b.lines.flatMap f) ++
      (itemsOf c.functions).flatMap fun i => f i.line := by
    unfold ClassDeclaration.lines
    simp only [List.flatMap_append]
    rw [flatMap_docLines hother, hnested, flatMap_functionBlock_lines hother,
      flatMap_others hother, List.flatMap_singleton, List.flatMap_singleton, hother,
      List.flatMap_assoc, List.append_nil, List.append_nil, List.nil_append]
  unfold Header.lines
  rw [hbody]
  simp only [List.flatMap_append]
  rw [hns.1, hns.2, List.flatMap_cons, List.flatMap_cons, List.flatMap_singleton,
    List.flatMap_singleton, List.flatMap_map, List.flatMap_map, hother, hother, hother, hother]
  show _ ++ c.lines.flatMap f ++ _ ++ _ = _
  rw [hclass]
  simp only [List.nil_append, List.append_nil, List.append_assoc]

end

end TypeModel.Cpp
