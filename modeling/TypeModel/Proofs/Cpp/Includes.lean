import TypeModel.Proofs.Cpp.Spelled

/-!
# What a header includes

The lines of a header that include a file or declare a lock are found in its text, and so are the
names that its code spells.

* `statements_line`        a line with parts is written as it is;
* `mem_statements_line`    which lines include a file or declare a lock;
* `spellsTypes_header`     the text of a header spells what its types spell, and no other template;
* `mem_notices_header`     its includes and locks;
* `includes_match_spelled`   it includes what it spells;
* `not_includes_match_shadow`   a class with the name of a template, and a comment on two lines.
-/

namespace TypeModel.Cpp

open Text

namespace HeaderLine

/-! ## single lines -/

/-- the name of a file is an identifier -/
def NamesFile : HeaderLine → Prop
  | .system name | .project name => isIdentifier name = true
  | _ => True

theorem lineFeed_notMem_parts {l : HeaderLine} (h : l.Plain) (hidle : l.Idle) (hfile : l.NamesFile)
    (hparts : l.withParts = [l]) : '\n' ∉ l.text.toList := by
  have hname : ∀ {name : String}, isIdentifier name = true → '\n' ∉ name.toList := fun h =>
    (plainName_of_isTypeName (isTypeName_of_isIdentifier h)).notMem (by decide)
  have htype : ∀ {t : TypeExpr}, t.Plain → '\n' ∉ t.text.toList := fun h => h.notMem (by decide)
  cases l with
  | system name => simp [text, systemLine, hname hfile]
  | project stem => simp [text, includeLine, hname hfile]
  | opening name base =>
    cases base with
    | none => simp [text, baseText, hname h.1]
    | some t => simp [text, baseText, hname h.1, htype (h.2 t rfl)]
  | member x =>
    have hinitial : ∀ v ∈ x.initial?, '\n' ∉ v.toList := fun v hv => (hidle v hv).1
    have hx : '\n' ∉ x.type.text.toList ∧ '\n' ∉ x.name.toList := ⟨htype h.1, hname h.2⟩
    show '\n' ∉ x.text.toList
    unfold Member.initial? at hinitial
    unfold Member.text
    cases hform : x.form with
    | static => simp [hx]
    | bitField bits =>
      have hbits : '\n' ∉ (Nat.repr bits).toList := fun hmem =>
        absurd (TypeExpr.isTypeChar_repr (.ofNat bits) '\n' hmem) (by decide)
      simpa [hx] using hbits
    | value initial =>
      rw [hform] at hinitial
      cases initial with
      | none => simp [hx]
      | some v => simp [hx, hinitial v rfl]
  | lock => decide
  | synonym u => simp [text, UsingDeclaration.text, hname h.1, htype h.2]
  | function d => exact d.lineFeed_notMem_text h
  | other text => cases hparts

/-- a line with parts is written as it is -/
theorem statements_line {l : HeaderLine} (h : l.Plain) (hidle : l.Idle) (hfile : l.NamesFile)
    (hparts : l.withParts = [l]) : statements l.text = [l.text] := by
  have hn := lineFeed_notMem_parts h hidle hfile hparts
  cases l with
  | system name =>
    refine statements_between (by decide) (by decide) ?_
    simpa [text, systemLine] using hn
  | project stem =>
    refine statements_between (by decide) (by decide) ?_
    simpa [text, includeLine] using hn
  | opening name base =>
    have htext : (HeaderLine.opening name base).text =
        "class " ++ (name ++ baseText base) ++ " \x7b" :=
      congrArg (· ++ " \x7b") String.append_assoc
    rw [htext] at hn ⊢
    refine statements_between (by decide) (by decide) ?_
    simpa using hn
  | member x => exact x.statements_text h.1 hn
  | lock => decide
  | synonym u => exact u.statements_text hn
  | function d => exact d.statements_text h
  | other text => cases hparts

theorem isCode_of_not_isAside {line : String} {body rest : List Char}
    (hline : line.toList = body ++ rest) (hbody : body ≠ []) (h : isAside body = false) :
    isCode line = true := by
  obtain ⟨c, cs, rfl⟩ := List.exists_cons_of_ne_nil hbody
  have hc : ['/', '*', '#', '\x7d'].contains c = false := (Bool.or_eq_false_iff.mp h).1
  unfold isCode
  rw [hline]
  simp at hc ⊢
  exact ⟨hc.1, hc.2.1, hc.2.2.1⟩

/-- lines with parts are code, but for includes -/
theorem isCode_line {l : HeaderLine} (h : l.Plain) (hparts : l.withParts = [l]) :
    isCode l.text = !l.isInclude := by
  cases l with
  | system name => simp [text, systemLine, isCode, isInclude]
  | project stem => simp [text, includeLine, isCode, isInclude]
  | opening name base => simp [text, isCode, isInclude]
  | member x =>
    have haside : isAside x.body = false := by
      unfold Member.body
      split
      · rfl
      · exact not_isAside_type h.1 _
      · rw [List.append_assoc]
        exact not_isAside_type h.1 _
      · exact not_isAside_type h.1 _
    refine isCode_of_not_isAside x.toList_text ?_ haside
    obtain ⟨c, hc, _⟩ := Option.map_eq_some_iff.mp (x.head?_body h.1)
    exact fun hnil => by simp [hnil] at hc
  | lock => decide
  | synonym u => simp [text, UsingDeclaration.text, isCode, isInclude]
  | function d =>
    refine isCode_of_not_isAside d.toList_text ?_ (not_isAside_body h)
    exact List.append_ne_nil_of_right_ne_nil _ (List.cons_ne_nil _ _)
  | other text => cases hparts

/-- lines that include a file or declare a lock -/
def isNotice : HeaderLine → Bool
  | .system _ | .project _ | .lock => true
  | _ => false

/-- the line of a member does not begin like that of a lock -/
theorem text_member_ne {x : Member} (hx : x.type.Plain) : x.text ≠ lockMember := by
  have hfirst : ∀ {cs : List Char} (rest : List Char), cs = x.type.text.toList ++ ' ' :: rest →
      cs ++ [';'] ≠ lockMember.toList := by
    rintro cs rest rfl heq
    have hword := hx.firstWord_ne (by decide : isIntroducer "mutable".toList = true) (rest ++ [';'])
    rw [← List.cons_append, ← List.append_assoc, heq] at hword
    exact hword (by decide)
  intro heq
  have hbody := x.toList_text.symm.trans (congrArg String.toList heq)
  unfold Member.body at hbody
  split at hbody
  · cases hbody
  · exact hfirst _ rfl hbody
  · exact hfirst _ (List.append_assoc ..) hbody
  · exact hfirst _ rfl hbody

theorem text_function_ne (d : Declaration) : d.text ≠ lockMember := by
  intro heq
  have hopen : '(' ∈ d.text.toList := by
    rw [d.toList_text, Declaration.body]
    simp
  rw [heq] at hopen
  exact absurd hopen (by decide)

theorem systemLine_injective : Function.Injective systemLine := fun _ _ heq =>
  (String.append_right_inj _).mp ((String.append_left_inj _).mp heq)

theorem includeLine_injective : Function.Injective includeLine := fun _ _ heq =>
  (String.append_right_inj _).mp ((String.append_left_inj _).mp heq)

theorem systemLine_ne_includeLine (name stem : String) : systemLine name ≠ includeLine stem := by
  intro heq
  have hlist := congrArg String.toList heq
  simp [systemLine, includeLine] at hlist

theorem eq_lock {l : HeaderLine} (h : l.Plain) (hparts : l.withParts = [l])
    (heq : l.text = lockMember) : l = .lock := by
  have hlist := congrArg String.toList heq
  cases l with
  | system name => simp [text, systemLine, lockMember] at hlist
  | project stem => simp [text, includeLine, lockMember] at hlist
  | opening name base => simp [text, lockMember] at hlist
  | member y => exact absurd heq (text_member_ne h.1)
  | lock => rfl
  | synonym u => simp [text, lockMember, UsingDeclaration.text] at hlist
  | function d => exact absurd heq (text_function_ne d)
  | other text => cases hparts

/-- lines that include a file differ from all others with parts -/
theorem eq_of_isInclude {l x : HeaderLine} (hx : x.isInclude = true) (h : l.Plain)
    (hparts : l.withParts = [l]) (heq : l.text = x.text) : l = x := by
  have hcode : isCode x.text = false := by
    cases x with
    | system name => exact isCode_line (l := .system name) trivial rfl
    | project stem => exact isCode_line (l := .project stem) trivial rfl
    | _ => cases hx
  have hinclude : l.isInclude = true := by
    rw [← heq, isCode_line h hparts] at hcode
    simpa using hcode
  cases l with
  | system name =>
    cases x with
    | system name' => rw [systemLine_injective heq]
    | project stem => exact absurd heq (systemLine_ne_includeLine name stem)
    | _ => cases hx
  | project stem =>
    cases x with
    | system name => exact absurd heq.symm (systemLine_ne_includeLine name stem)
    | project stem' => rw [includeLine_injective heq]
    | _ => cases hx
  | _ => cases hinclude

/-- which lines include a file or declare a lock -/
theorem mem_statements_line {l x : HeaderLine} (hx : x.isNotice = true) (h : l.Plain)
    (hidle : l.Idle) (hfile : l.NamesFile) : x.text ∈ statements l.text ↔ l = x := by
  cases l with
  | other text =>
    refine ⟨fun hmem => ?_, fun heq => by rw [← heq] at hx; cases hx⟩
    obtain ⟨hlock, hinclude⟩ := hidle.1 _ hmem
    cases x with
    | lock => exact absurd rfl hlock
    | system name =>
      refine absurd ?_ hinclude
      exact ⟨('<' :: name.toList) ++ ">".toList, by simp [HeaderLine.text, systemLine]⟩
    | project stem =>
      refine absurd ?_ hinclude
      exact ⟨('"' :: stem.toList) ++ ".h\"".toList, by simp [HeaderLine.text, includeLine]⟩
    | _ => cases hx
  | _ =>
    rw [statements_line h hidle hfile rfl, List.mem_singleton]
    refine ⟨fun heq => ?_, fun heq => heq ▸ rfl⟩
    cases x with
    | system name => exact eq_of_isInclude rfl h rfl heq.symm
    | project stem => exact eq_of_isInclude rfl h rfl heq.symm
    | lock => exact eq_lock h rfl heq.symm
    | _ => cases hx

end HeaderLine

/-! ## all lines of a header -/

theorem HeaderLine.Plain.types {l : HeaderLine} (h : l.Plain) : ∀ t ∈ l.types, t.Plain := by
  cases l with
  | opening name base => exact fun t ht => h.2 t (Option.mem_toList.mp ht)
  | member x => exact List.forall_mem_singleton.mpr h.1
  | synonym u => exact List.forall_mem_singleton.mpr h.2
  | function d =>
    refine List.forall_mem_append.mpr ⟨fun t ht => h.returns t (Option.mem_toList.mp ht), ?_⟩
    exact List.forall_mem_map.mpr fun a ha => (h.arguments a ha).1
  | _ => exact fun _ ht => absurd ht List.not_mem_nil

section
variable {h : Header} (hplain : ∀ l ∈ h.lines, l.Plain) (hidle : ∀ l ∈ h.lines, l.Idle)
  (hfile : ∀ l ∈ h.lines, l.NamesFile)
include hplain hidle hfile

theorem mem_statements_header {x : HeaderLine} (hx : x.isNotice = true) :
    x.text ∈ statements h.text ↔ x ∈ h.lines := by
  rw [statements_header, List.mem_flatMap]
  constructor
  · rintro ⟨l, hl, hmem⟩
    rwa [← (HeaderLine.mem_statements_line hx (hplain l hl) (hidle l hl) (hfile l hl)).mp hmem]
  · intro hmem
    refine ⟨x, hmem, ?_⟩
    exact (HeaderLine.mem_statements_line hx (hplain x hmem) (hidle x hmem) (hfile x hmem)).mpr rfl

/-- a line without types spells no template, and any other is code with its types in it -/
theorem spelled_line {l : HeaderLine} (hl : l ∈ h.lines) :
    (l.types = [] ∧ ∀ name ∈ templateHeaders, templateName name ∉ spelled l.text) ∨
      statements l.text = [l.text] ∧ spelled l.text = words l.text.toList ∧
        SpellsTypes l.types l.text.toList := by
  have hstatements := HeaderLine.statements_line (hplain l hl) (hidle l hl) (hfile l hl)
  have hcode := HeaderLine.isCode_line (hplain l hl)
  have hspells := HeaderLine.spellsTypes_line (hplain l hl) (hidle l hl)
  have hinclude : ∀ text, statements text = [text] → isCode text = false → spelled text = [] := by
    intro text hone hnot
    unfold spelled
    rw [hone, List.filter_cons_of_neg (by simp [hnot])]
    rfl
  cases l with
  | system name =>
    rw [hinclude _ (hstatements rfl) (hcode rfl)]
    exact Or.inl ⟨rfl, fun _ _ => List.not_mem_nil⟩
  | project stem =>
    rw [hinclude _ (hstatements rfl) (hcode rfl)]
    exact Or.inl ⟨rfl, fun _ _ => List.not_mem_nil⟩
  | other text => exact Or.inl ⟨rfl, (hidle _ hl).2⟩
  | _ =>
    refine Or.inr ⟨hstatements rfl, ?_, hspells rfl rfl⟩
    unfold spelled
    rw [hstatements rfl, List.filter_cons_of_pos (hcode rfl)]
    exact List.flatMap_singleton _ _

/-- the text of a header has its types in it, spells what they spell, and no other template -/
theorem spellsTypes_header :
    (∀ t ∈ h.types, ∃ line ∈ statements h.text, t.text.toList <:+: line.toList) ∧
      (∀ t ∈ h.types, ∀ w ∈ words t.text.toList, w ∈ spelled h.text) ∧
      ∀ name ∈ templateHeaders, templateName name ∈ spelled h.text →
        ∃ t ∈ h.types, templateName name ∈ words t.text.toList := by
  have hspelled : spelled h.text = h.lines.flatMap fun l => spelled l.text := by
    unfold spelled
    rw [statements_header, List.filter_flatMap, List.flatMap_assoc]
  have hline := fun l (hl : l ∈ h.lines) => spelled_line hplain hidle hfile hl
  rw [hspelled, statements_header]
  refine ⟨fun t ht => ?_, fun t ht w hw => ?_, fun name hname hw => ?_⟩
  · obtain ⟨l, hl, ht⟩ := List.mem_flatMap.mp ht
    rcases hline l hl with ⟨hnone, _⟩ | ⟨hone, _, hspells⟩
    · rw [hnone] at ht
      cases ht
    · exact ⟨l.text, List.mem_flatMap.mpr ⟨l, hl, hone ▸ List.mem_singleton_self _⟩,
        hspells.within t ht⟩
  · obtain ⟨l, hl, ht⟩ := List.mem_flatMap.mp ht
    rcases hline l hl with ⟨hnone, _⟩ | ⟨_, hwords, hspells⟩
    · rw [hnone] at ht
      cases ht
    · exact List.mem_flatMap.mpr ⟨l, hl, hwords ▸ hspells.all t ht w hw⟩
  · obtain ⟨l, hl, hw⟩ := List.mem_flatMap.mp hw
    rcases hline l hl with ⟨_, hnone⟩ | ⟨_, hwords, hspells⟩
    · exact absurd hw (hnone name hname)
    · obtain ⟨t, ht, hw⟩ := hspells.only name hname (hwords ▸ hw)
      exact ⟨t, List.mem_flatMap.mpr ⟨l, hl, ht⟩, hw⟩

end

/-! ## includes and locks of a header -/

/-- the line alone, if it includes a file or declares a lock -/
def HeaderLine.notices (l : HeaderLine) : List HeaderLine := if l.isNotice then [l] else []

theorem mem_notices {l x : HeaderLine} (hx : x.isNotice = true) : x ∈ l.notices ↔ l = x := by
  unfold HeaderLine.notices
  split
  case isTrue hl => rw [List.mem_singleton, eq_comm]
  case isFalse hl =>
    refine iff_of_false List.not_mem_nil ?_
    rintro rfl
    exact hl hx

theorem notices_memberBlock (b : MemberBlock) :
    b.lines.flatMap HeaderLine.notices = if b.hasMutex then [.lock] else [] := by
  rw [flatMap_memberBlock_lines fun _ => rfl]
  have hmembers : (b.members.flatMap fun x => (HeaderLine.member x).notices) = [] :=
    List.flatMap_eq_nil_iff.mpr fun _ _ => rfl
  rw [hmembers, List.nil_append]
  rfl

section
variable {m : Model} {ns : Option String} {e : Entry} {s : StructType} {inner : List TypeDef}

theorem lock_mem_notices {withMutex : Bool} {blocks : List MemberBlock}
    (h : memberBlocks m ns s withMutex = .ok blocks) {x : HeaderLine} :
    x ∈ (blocks.flatMap fun b => b.lines.flatMap HeaderLine.notices) ↔
      x = .lock ∧ withMutex = true := by
  rw [← hasMutex_iff h, List.mem_flatMap]
  constructor
  · rintro ⟨b, hb, hx⟩
    rw [notices_memberBlock] at hx
    split at hx
    case isTrue hmutex => exact ⟨List.mem_singleton.mp hx, b, hb, hmutex⟩
    case isFalse => cases hx
  · rintro ⟨rfl, b, hb, hmutex⟩
    refine ⟨b, hb, ?_⟩
    rw [notices_memberBlock, if_pos hmutex]
    exact List.mem_singleton_self _

/-- a struct inside another one has no lock -/
theorem notices_nestedOf {x : Entry} {n : Nested} (h : nestedOf m ns x = .ok n) :
    n.lines.flatMap HeaderLine.notices = [] := by
  rw [flatMap_nested_lines fun _ => rfl]
  unfold nestedOf at h
  cases ht : x.type with
  | struct i deeper =>
    rw [ht] at h
    obtain ⟨blocks, hblocks, h⟩ := bind_eq_ok.mp h
    cases h
    refine List.eq_nil_iff_forall_not_mem.mpr fun x hx => ?_
    exact absurd ((lock_mem_notices hblocks).mp hx).2 Bool.false_ne_true
  | enumeration y =>
    rw [ht] at h
    cases h
    rfl
  | array a =>
    rw [ht] at h
    obtain ⟨u, _, h⟩ := bind_eq_ok.mp h
    cases h
    rfl
  | «alias» a =>
    rw [ht] at h
    obtain ⟨u, _, h⟩ := bind_eq_ok.mp h
    cases h
    rfl

theorem mem_notices_header {h : Header} {c : ClassDeclaration} (hbody : h.body = .classOf c)
    (hc : ClassParts m ns e s c) {x : HeaderLine} (hx : x.isNotice = true) :
    x ∈ h.lines ↔ (∃ name ∈ h.standardIncludes, .system name = x) ∨
      (∃ stem ∈ h.projectIncludes, .project stem = x) ∨
        x = .lock ∧ s.options.threading = true := by
  have hmem : x ∈ h.lines ↔ x ∈ h.lines.flatMap HeaderLine.notices := by
    simp only [List.mem_flatMap, mem_notices hx, exists_eq_right]
  have hnested : (c.nested.flatMap fun n => n.lines.flatMap HeaderLine.notices) = [] := by
    refine List.flatMap_eq_nil_iff.mpr fun n hn => ?_
    obtain ⟨y, _, hy⟩ := (mem_mapM_iff hc.nested).mp hn
    exact notices_nestedOf hy
  have hitems : ((itemsOf c.functions).flatMap fun i => i.line.notices) = [] := by
    refine List.flatMap_eq_nil_iff.mpr fun i _ => ?_
    cases i <;> rfl
  have hopening : (HeaderLine.opening c.name c.base).notices = [] := rfl
  rw [hmem, flatMap_header (fun _ => rfl) hbody, hnested, hitems, hopening]
  simp only [List.append_nil, List.mem_append, lock_mem_notices hc.members, List.mem_flatMap,
    mem_notices hx, or_assoc]

theorem includes_of_header (ht : e.type = .struct s inner) {h : Header}
    (hh : Header.ofEntry m e = .ok h) :
    h.standardIncludes = standardHeaders s inner ∧
      stemsMentioned m s.name (structReferences s inner) = .ok h.projectIncludes := by
  unfold Header.ofEntry at hh
  rw [ht] at hh
  obtain ⟨stems, hstems, hh⟩ := bind_eq_ok.mp hh
  obtain ⟨c, _, hh⟩ := bind_eq_ok.mp hh
  cases hh
  exact ⟨rfl, hstems⟩

theorem mem_stemsMentioned {own : String} {refs : List TypeRef} {stems : List String}
    (h : stemsMentioned m own refs = .ok stems) {stem : String} :
    stem ∈ stems ↔ stem ≠ own ∧
      ∃ r ∈ refs, ∃ id, r.type? = some id ∧ ∃ d, m.entry? id = some d ∧ headerStem d = stem := by
  obtain ⟨targets, htargets, h⟩ := bind_eq_ok.mp h
  cases h
  rw [Text.mem_orderedOf, List.mem_filter, and_comm, decide_eq_true_eq, List.mem_filterMap]
  refine and_congr_right fun _ => ?_
  constructor
  · rintro ⟨t, ht, hstem⟩
    obtain ⟨r, hr, htarget⟩ := (mem_mapM_iff htargets).mp ht
    cases t with
    | basic b => cases hstem
    | declared d =>
      obtain ⟨id, hid, hd⟩ := Model.target_eq_declared.mp htarget
      exact ⟨r, hr, id, congrArg Binding.type? hid, d, hd, Option.some.inj hstem⟩
  · rintro ⟨r, hr, id, hid, d, hd, rfl⟩
    have hbinding : r.binding = .type id := by
      unfold TypeRef.type? at hid
      cases hb : r.binding <;> rw [hb] at hid <;> cases hid
      rfl
    have htarget := Model.target_eq_declared.mpr ⟨id, hbinding, hd⟩
    exact ⟨.declared d, (mem_mapM_iff htargets).mpr ⟨r, hr, htarget⟩, rfl⟩

theorem isIdentifier_headerStem {d : Entry} (hd : Entry.Plain d) :
    isIdentifier (headerStem d) = true := by
  unfold headerStem
  cases ho : d.outer with
  | none => exact hd.name
  | some outer => exact hd.outer outer ho

theorem namesFile_header (hm : ∀ e ∈ m.allTypes, Entry.Plain e) (ht : e.type = .struct s inner)
    {h : Header} (hh : Header.ofEntry m e = .ok h) : ∀ l ∈ h.lines, l.NamesFile := by
  obtain ⟨c, hbody, -, hc⟩ := classParts_of_header ht hh
  obtain ⟨hstandard, hstems⟩ := includes_of_header ht hh
  intro l hl
  cases l with
  | system name =>
    have hname : name ∈ h.standardIncludes := by
      simpa using (mem_notices_header hbody hc rfl).mp hl
    rw [hstandard, @mem_standardHeaders m none] at hname
    have htemplates : ∀ name ∈ templateHeaders, isIdentifier name = true := by decide
    have hothers : ∀ name ∈ ["cstdint", "string", "mutex"], isIdentifier name = true := by decide
    rcases hname with rfl | rfl | hneed | ⟨-, rfl⟩
    · exact hothers _ (by decide)
    · exact hothers _ (by decide)
    · exact htemplates name (mem_templateHeaders hneed)
    · exact hothers _ (by decide)
  | project stem =>
    have hstem : stem ∈ h.projectIncludes := by
      simpa using (mem_notices_header hbody hc rfl).mp hl
    obtain ⟨-, r, -, id, -, d, hd, rfl⟩ := (mem_stemsMentioned hstems).mp hstem
    exact isIdentifier_headerStem (hm d (Model.entry?_eq_some_iff_mem.mp hd).1)
  | _ => trivial

end

/-! ## includes against what is spelled -/

section
variable {m : Model} {e : Entry} {s : StructType} {inner : List TypeDef} {h : Header}
  (ht : e.type = .struct s inner) (hh : Header.ofEntry m e = .ok h)
include ht hh

/-- the types in a header need what its struct needs -/
theorem exists_needs_iff {z : Need} :
    (∃ t ∈ h.types, z ∈ t.needs) ↔ z ∈ structNeeds m h.ns s inner := by
  obtain ⟨c, hbody, hns, hc⟩ := classParts_of_header ht hh
  rw [← mem_needs_types, hns]
  exact mem_needs_header_iff ht hbody hc

/-- a declaration that a type in a header needs is one of the model, spelled as the header does -/
theorem declared_of_need {t : TypeExpr} (hmem : t ∈ h.types) {id : TypeId} {spelling : String}
    (hneed : .type id spelling ∈ t.needs) :
    ∃ d, m.entry? id = some d ∧ qualifiedName d h.ns = spelling := by
  obtain ⟨r, _, hr⟩ := type_mem_structNeeds.mp ((exists_needs_iff ht hh).mp ⟨t, hmem, hneed⟩)
  exact (type_mem_refNeeds.mp hr).2

/-- a type in a header has the handles that it needs -/
theorem mem_handles_header {t : TypeExpr} (hmem : t ∈ h.types) {id : TypeId} {d : Entry}
    (hd : m.entry? id = some d) : id ∈ t.handles ↔ .type id (qualifiedName d h.ns) ∈ t.needs := by
  rw [TypeExpr.mem_handles_iff]
  constructor
  · rintro ⟨spelling, hneed⟩
    obtain ⟨d', hd', rfl⟩ := declared_of_need ht hh hmem hneed
    rw [hd] at hd'
    cases hd'
    exact hneed
  · exact fun hneed => ⟨_, hneed⟩

/-- the headers of a project that are included: those of the declarations behind the types -/
theorem mem_projectIncludes_iff {stem : String} :
    stem ∈ h.projectIncludes ↔ stem ≠ s.name ∧ ∃ t ∈ h.types, ∃ id, ∃ d, m.entry? id = some d ∧
      .type id (qualifiedName d h.ns) ∈ t.needs ∧ headerStem d = stem := by
  rw [mem_stemsMentioned (includes_of_header ht hh).2]
  refine and_congr_right fun _ => ?_
  constructor
  · rintro ⟨r, hr, id, hid, d, hd, hstem⟩
    have hneed : .type id (qualifiedName d h.ns) ∈ structNeeds m h.ns s inner :=
      type_mem_structNeeds.mpr ⟨r, hr, type_mem_refNeeds.mpr ⟨hid, d, hd, rfl⟩⟩
    obtain ⟨t, hmem, hneed⟩ := (exists_needs_iff ht hh).mpr hneed
    exact ⟨t, hmem, id, d, hd, hneed, hstem⟩
  · rintro ⟨t, hmem, id, d, hd, hneed, hstem⟩
    obtain ⟨r, hr, hneed⟩ := type_mem_structNeeds.mp ((exists_needs_iff ht hh).mp ⟨t, hmem, hneed⟩)
    exact ⟨r, hr, id, (type_mem_refNeeds.mp hneed).1, d, hd, hstem⟩

/-- the headers of templates that are included: those of the templates in the types -/
theorem mem_standardIncludes_iff {name : String} (hname : name ∈ templateHeaders) :
    name ∈ h.standardIncludes ↔ ∃ t ∈ h.types, .template name ∈ t.needs := by
  have hother : ∀ name ∈ templateHeaders, name ≠ "cstdint" ∧ name ≠ "string" ∧ name ≠ "mutex" := by
    decide
  rw [(includes_of_header ht hh).1, @mem_standardHeaders m h.ns, exists_needs_iff ht hh]
  simp [hother name hname]

theorem mutex_mem_standardIncludes :
    "mutex" ∈ h.standardIncludes ↔ s.options.threading = true := by
  have hnone : .template "mutex" ∉ structNeeds m h.ns s inner := fun hneed =>
    absurd (mem_templateHeaders hneed) (by decide)
  rw [(includes_of_header ht hh).1, @mem_standardHeaders m h.ns]
  simp [hnone]

end

/-- in a header whose comments, values and friends name no templates and include nothing: its types
stand in its text, it includes the headers of the declarations that are spelled there as types, but
for one of its own name, it includes `mutex` just for a lock, and it spells a template if and only
if it includes the header of the template, or has a declaration of that name among its types -/
theorem includes_match_spelled {m : Model} (hm : ∀ e ∈ m.allTypes, Entry.Plain e) {e : Entry}
    (he : e ∈ m.declaredTypes) {s : StructType} {inner : List TypeDef}
    (ht : e.type = .struct s inner) (hw : WellNamed s inner) {h : Header}
    (hh : Header.ofEntry m e = .ok h) (hidle : ∀ l ∈ h.lines, l.Idle) :
    (∀ t ∈ h.types, ∃ line ∈ statements h.text, t.text.toList <:+: line.toList) ∧
      (∀ stem, includeLine stem ∈ statements h.text ↔ stem ≠ s.name ∧
        ∃ t ∈ h.types, ∃ id ∈ t.handles, ∃ d, m.entry? id = some d ∧
          qualifiedName d h.ns ∈ spelled h.text ∧ headerStem d = stem) ∧
      (∀ name ∈ templateHeaders, templateName name ∈ spelled h.text ↔
        systemLine name ∈ statements h.text ∨
          ∃ t ∈ h.types, ∃ id ∈ t.handles, ∃ d, m.entry? id = some d ∧
            qualifiedName d h.ns = templateName name) ∧
      (systemLine "mutex" ∈ statements h.text ↔ lockMember ∈ statements h.text) := by
  have hplain := plain_header hm he ht hw hh
  have hfile := namesFile_header hm ht hh
  obtain ⟨c, hbody, -, hc⟩ := classParts_of_header ht hh
  have htypes : ∀ t ∈ h.types, t.Plain := by
    intro t ht
    obtain ⟨l, hl, ht⟩ := List.mem_flatMap.mp ht
    exact (hplain l hl).types t ht
  obtain ⟨hwithin, hall, honly⟩ := spellsTypes_header hplain hidle hfile
  have hnotice := fun {x : HeaderLine} (hx : x.isNotice = true) =>
    (mem_statements_header hplain hidle hfile hx).trans (mem_notices_header hbody hc hx)
  have hsystem : ∀ name, systemLine name ∈ statements h.text ↔ name ∈ h.standardIncludes :=
    fun name => by simpa [HeaderLine.text] using hnotice (x := .system name) rfl
  have hproject : ∀ stem, includeLine stem ∈ statements h.text ↔ stem ∈ h.projectIncludes :=
    fun stem => by simpa [HeaderLine.text] using hnotice (x := .project stem) rfl
  have hlock : lockMember ∈ statements h.text ↔ s.options.threading = true := by
    simpa [HeaderLine.text] using hnotice (x := .lock) rfl
  refine ⟨hwithin, fun stem => ?_, fun name hname => ?_, ?_⟩
  · rw [hproject, mem_projectIncludes_iff ht hh]
    refine and_congr_right fun _ => ?_
    constructor
    · rintro ⟨t, hmem, id, d, hd, hneed, hstem⟩
      have hspelled := hall t hmem _ ((htypes t hmem).mem_words_of_need hneed)
      exact ⟨t, hmem, id, (mem_handles_header ht hh hmem hd).mpr hneed, d, hd, hspelled, hstem⟩
    · rintro ⟨t, hmem, id, hid, d, hd, -, hstem⟩
      exact ⟨t, hmem, id, d, hd, (mem_handles_header ht hh hmem hd).mp hid, hstem⟩
  · rw [hsystem, mem_standardIncludes_iff ht hh hname]
    constructor
    · intro hspelled
      obtain ⟨t, hmem, hword⟩ := honly name hname hspelled
      rcases ((htypes t hmem).templateName_mem_words hname).mp hword with hneed | ⟨id, hneed⟩
      · exact Or.inl ⟨t, hmem, hneed⟩
      · obtain ⟨d, hd, hsame⟩ := declared_of_need ht hh hmem hneed
        exact Or.inr ⟨t, hmem, id, TypeExpr.mem_handles_iff.mpr ⟨_, hneed⟩, d, hd, hsame⟩
    · rintro (⟨t, hmem, hneed⟩ | ⟨t, hmem, id, hid, d, hd, hsame⟩)
      · exact hall t hmem _ (((htypes t hmem).templateName_mem_words hname).mpr (Or.inl hneed))
      · have hneed := (mem_handles_header ht hh hmem hd).mp hid
        exact hsame ▸ hall t hmem _ ((htypes t hmem).mem_words_of_need hneed)
  · rw [hsystem, hlock, mutex_mem_standardIncludes ht hh]

/-- `Picture` uses each template, and `Point` in two of them -/
def gallery : Model :=
  { primitives := [{ name := "Builtins", dataTypes := [{ name := "int64", bitLength := some 64 }] }]
    types :=
      [.struct { name := "Point" } [],
        .struct
          { name := "Picture",
            fields :=
              [{ name := "corners", typeRef := { name := "Point" }, arraySize := some 4 },
                { name := "paths", typeRef := { name := "Path" },
                  key := some { name := "int64" } }],
            options := { threading := true } }
          [.array { name := "Path", elementType := some { name := "Point" } }]] }

theorem includes_match_spelled_gallery :
    ∃ e ∈ gallery.analyze.1.declaredTypes, ∃ s inner h, e.type = .struct s inner ∧
      Header.ofEntry gallery.analyze.1 e = .ok h ∧
      (∃ t ∈ h.types, ∃ id ∈ t.handles, ∃ d, Model.entry? gallery.analyze.1 id = some d ∧
        qualifiedName d h.ns ∈ spelled h.text ∧ headerStem d = "Point") ∧
      (∀ name ∈ templateHeaders, templateName name ∈ spelled h.text) ∧
      systemLine "mutex" ∈ statements h.text := by
  obtain ⟨e, he, s, inner, ht, hw, hheader⟩ :
      ∃ e ∈ gallery.analyze.1.declaredTypes, ∃ s inner, e.type = .struct s inner ∧
        WellNamed s inner ∧
        (Header.ofEntry gallery.analyze.1 e >>= fun h =>
          pure (decide (∀ l ∈ h.lines, l.Idle),
            (h.lines.flatMap fun l => statements l.text).filter fun line =>
              line = lockMember || "#include".isPrefixOf line)) =
          .ok (true, ["#include <array>", "#include <cstdint>", "#include <map>",
            "#include <mutex>", "#include <string>", "#include <vector>", "#include \"Point.h\"",
            lockMember]) :=
    ⟨_, List.mem_of_getElem? (i := 1) rfl, _, _, rfl, by decide +kernel, by decide +kernel⟩
  obtain ⟨h, hh, hvalues⟩ := bind_eq_ok.mp hheader
  obtain ⟨hidle, hlines⟩ := Prod.mk.inj (Except.ok.inj hvalues)
  rw [← statements_header] at hlines
  have hline : ∀ line, line ∈ ["#include <array>", "#include <map>", "#include <vector>",
      "#include \"Point.h\"", lockMember] → line ∈ statements h.text := by
    intro line hmem
    refine List.mem_of_mem_filter ((congrArg (line ∈ ·) hlines).mpr ?_)
    revert line
    decide
  have hplain : ∀ e ∈ gallery.analyze.1.allTypes, Entry.Plain e := by decide +kernel
  obtain ⟨-, hstems, htemplates, hmutex⟩ :=
    includes_match_spelled hplain he ht hw hh (of_decide_eq_true hidle)
  refine ⟨e, he, s, inner, h, ht, hh, ?_, fun name hname => ?_, ?_⟩
  · exact ((hstems "Point").mp (hline _ (by decide))).2
  · refine (htemplates name hname).mpr (Or.inl (hline _ ?_))
    revert name
    decide
  · exact hmutex.mpr (hline _ (by decide))

/-- `Holder` has a member of a class with the name of a template, and a comment whose second line
declares a member -/
def shadow : Model :=
  { packages := [{ name := "std", types := [.struct { name := "map" } []] }]
    types :=
      [.struct
        { name := "Holder",
          fields :=
            [{ name := "value", typeRef := { name := "std.map" },
               comment := ["A value.\nstd::vector<int> extra;"] }] }
        []] }

/-- two templates are spelled in the header, and it includes neither of them -/
theorem not_includes_match_shadow :
    shadow.analyze.2.isOk = true ∧
    ∃ e ∈ shadow.analyze.1.declaredTypes, ∃ s h, e.type = .struct s [] ∧
      Header.ofEntry shadow.analyze.1 e = .ok h ∧
      ∀ name ∈ ["map", "vector"], templateName name ∈ spelled h.text ∧
        systemLine name ∉ statements h.text := by
  refine ⟨by decide +kernel, ?_⟩
  obtain ⟨e, he, s, ht, hheader⟩ :
      ∃ e ∈ shadow.analyze.1.declaredTypes, ∃ s, e.type = .struct s [] ∧
        (Header.ofEntry shadow.analyze.1 e >>= fun h =>
          let lines := h.lines.flatMap fun l => statements l.text
          pure (decide (∀ name ∈ ["map", "vector"],
            templateName name ∈ (lines.filter isCode).flatMap (words ·.toList) ∧
              systemLine name ∉ lines))) = .ok true :=
    ⟨_, List.mem_of_getElem? (i := 0) rfl, _, rfl, by decide +kernel⟩
  obtain ⟨h, hh, hlines⟩ := bind_eq_ok.mp hheader
  have hlines := of_decide_eq_true (Except.ok.inj hlines)
  rw [← statements_header] at hlines
  exact ⟨e, he, s, h, ht, hh, hlines⟩

end TypeModel.Cpp
