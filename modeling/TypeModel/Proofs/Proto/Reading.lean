import TypeModel.Proofs.Proto.Coverage
import TypeModel.Proofs.Text.Comments

/-!
# A schema read back

The declarations of a schema are read off its text, line by line, with the messages that are open
at each line on a stack.  Where the words of the model are words and its comments stay behind their
marks, what is read is what the model declares.

* `Reading`, `reading line`     what a line says about declarations;
* `declaredPaths text`          the paths at which a text declares messages and enums;
* `fieldTypes text`             the type names in its field lines;
* `Schema.Legible s`            names are words, and comments stay comments;
* `readings_text`               such a schema says what its declarations say;
* `declaredPaths_readings`      the stack gives back the paths of nested declarations;
* `schema_declares_model`       the result, about the text of the schema;
* `not_schema_declares_ghostly`  a comment with a second line that declares a message.
-/

namespace TypeModel.Proto

open Text

/-! ## reading -/

/-- what a line of a schema says about declarations -/
inductive Reading where
  | opening (name : Name)
  /-- a declaration with nothing in it -/
  | whole (name : Name)
  | closing
  | field (types : List String)
  deriving DecidableEq, Repr

/-- digits in front of a semicolon -/
def isNumber (word : String) : Bool :=
  word.toList.getLast? = some ';' && word.toList.dropLast.all Char.isDigit

def readingOf (words : List String) : Option Reading :=
  match words with
  | [word] => if word = "\x7d" then some .closing else none
  | [keyword, name, bracket] =>
    if keyword = "message" ∨ keyword = "enum" then
      if bracket = "\x7b" then some (.opening name)
      else if bracket = "\x7b\x7d" then some (.whole name) else none
    else none
  | [type, _, equals, number] =>
    if equals = "=" ∧ isNumber number then some (.field [type]) else none
  | [first, second, _, equals, number] =>
    if equals = "=" ∧ isNumber number then
      if first = "repeated" then some (.field [second])
      else some (.field
        [String.ofList (first.toList.drop "map<".length).dropLast,
          String.ofList second.toList.dropLast])
    else none
  | _ => none

/-- comment lines say nothing -/
def reading (line : String) : Option Reading :=
  if line.toList.head? = some '/' then none else readingOf (split ' ' line)

def readings (text : String) : List Reading := (statements text).filterMap reading

/-- the paths of what is declared, where `opened` are the declarations that are open -/
def pathsFrom (opened : List Name) : List Reading → List (List Name)
  | [] => []
  | .opening name :: rest => (opened ++ [name]) :: pathsFrom (opened ++ [name]) rest
  | .whole name :: rest => (opened ++ [name]) :: pathsFrom opened rest
  | .closing :: rest => pathsFrom opened.dropLast rest
  | .field _ :: rest => pathsFrom opened rest

def declaredPaths (text : String) : List (List Name) := pathsFrom [] (readings text)

def Reading.types : Reading → List String
  | .field types => types
  | _ => []

def fieldTypes (text : String) : List String := (readings text).flatMap Reading.types

/-! ## what declarations say -/

def MessageField.types (l : MessageField) : List String :=
  (l.shape.key?.toList ++ [l.shape.value]).map TypeName.text

mutual

def Declaration.readings : Declaration → List Reading
  | .message name _ nested fields =>
    .opening name :: (Declaration.readingsOfAll nested ++
      (fields.map fun l => .field l.types) ++ [.closing])
  | .enumeration name _ _ => [.opening name, .closing]

def Declaration.readingsOfAll : List Declaration → List Reading
  | [] => []
  | d :: ds => d.readings ++ Declaration.readingsOfAll ds

end

mutual

/-- a declaration and all inside it -/
def Declaration.subtree : Declaration → List Declaration
  | .message name comment nested fields =>
    .message name comment nested fields :: Declaration.subtreeOfAll nested
  | .enumeration name comment values => [.enumeration name comment values]

def Declaration.subtreeOfAll : List Declaration → List Declaration
  | [] => []
  | d :: ds => d.subtree ++ Declaration.subtreeOfAll ds

end

mutual

/-- what is opened is closed again, so declarations in front of others leave the stack alone -/
theorem pathsFrom_readings (opened : List Name) (rest : List Reading) :
    ∀ d : Declaration, pathsFrom opened (d.readings ++ rest) =
      d.paths.map (opened ++ ·) ++ pathsFrom opened rest
  | .message name _ nested fields => by
    have hfields : ∀ (ls : List MessageField) (rest : List Reading),
        pathsFrom (opened ++ [name]) ((ls.map fun l => .field l.types) ++ rest) =
          pathsFrom (opened ++ [name]) rest := by
      intro ls rest
      induction ls with
      | nil => rfl
      | cons l ls ih => exact ih
    have hnested : (opened ++ [name] ++ ·) = fun path : List Name => opened ++ name :: path := by
      funext path
      exact List.append_cons opened name path |>.symm
    rw [Declaration.readings, List.cons_append, pathsFrom, List.append_assoc, List.append_assoc,
      pathsFrom_readingsOfAll _ _ nested, hfields, List.singleton_append, pathsFrom,
      List.dropLast_concat, Declaration.paths, List.map_cons, List.map_map, hnested]
    rfl
  | .enumeration name _ _ => by
    rw [Declaration.readings, Declaration.paths]
    show _ :: pathsFrom (opened ++ [name]).dropLast rest = _
    rw [List.dropLast_concat]
    rfl

theorem pathsFrom_readingsOfAll (opened : List Name) (rest : List Reading) :
    ∀ ds : List Declaration, pathsFrom opened (Declaration.readingsOfAll ds ++ rest) =
      (Declaration.pathsOfAll ds).map (opened ++ ·) ++ pathsFrom opened rest
  | [] => rfl
  | d :: ds => by
    rw [Declaration.readingsOfAll, List.append_assoc, pathsFrom_readings opened _ d,
      pathsFrom_readingsOfAll opened rest ds, Declaration.pathsOfAll, List.map_append,
      List.append_assoc]

end

theorem declaredPaths_readings (ds : List Declaration) :
    pathsFrom [] (Declaration.readingsOfAll ds) = Declaration.pathsOfAll ds := by
  have h := pathsFrom_readingsOfAll [] [] ds
  rwa [List.append_nil, pathsFrom, List.append_nil, List.map_id''] at h
  exact fun _ => rfl

mutual

/-- types are written in fields -/
theorem exists_field_of_mem_types {type : String} :
    ∀ d : Declaration, type ∈ d.readings.flatMap Reading.types →
      ∃ x ∈ d.subtree, ∃ l ∈ x.fields, type ∈ l.types
  | .message name comment nested fields => by
    intro h
    simp only [Declaration.readings, List.flatMap_cons, List.flatMap_append, List.mem_append,
      List.flatMap_map, List.mem_flatMap, Reading.types, List.not_mem_nil, false_or,
      List.flatMap_nil, or_false] at h
    rcases h with ⟨r, hr, htype⟩ | ⟨l, hl, htype⟩
    · obtain ⟨x, hx, hfield⟩ :=
        exists_field_of_mem_typesOfAll nested (List.mem_flatMap.mpr ⟨r, hr, htype⟩)
      exact ⟨x, List.mem_cons_of_mem _ hx, hfield⟩
    · exact ⟨_, List.mem_cons_self, l, hl, htype⟩
  | .enumeration name comment values => fun h => absurd h List.not_mem_nil

theorem exists_field_of_mem_typesOfAll {type : String} :
    ∀ ds : List Declaration, type ∈ (Declaration.readingsOfAll ds).flatMap Reading.types →
      ∃ x ∈ Declaration.subtreeOfAll ds, ∃ l ∈ x.fields, type ∈ l.types
  | [] => fun h => absurd h List.not_mem_nil
  | d :: ds => by
    intro h
    rw [Declaration.readingsOfAll, List.flatMap_append, List.mem_append] at h
    rcases h with h | h
    · obtain ⟨x, hx, hfield⟩ := exists_field_of_mem_types d h
      exact ⟨x, List.mem_append_left _ hx, hfield⟩
    · obtain ⟨x, hx, hfield⟩ := exists_field_of_mem_typesOfAll ds h
      exact ⟨x, List.mem_append_right _ hx, hfield⟩

end

mutual

/-- what is in a subtree stands at a place -/
theorem exists_place_of_mem_subtree {x : Declaration} :
    ∀ d : Declaration, x ∈ d.subtree → x = d ∨ ∃ p, declarationAt? d.nested p = some x
  | .message _ _ nested _ => fun h =>
    (List.mem_cons.mp h).imp_right (exists_place_of_mem_subtreeOfAll nested)
  | .enumeration _ _ _ => fun h => Or.inl (List.mem_singleton.mp h)

theorem exists_place_of_mem_subtreeOfAll {x : Declaration} :
    ∀ ds : List Declaration, x ∈ Declaration.subtreeOfAll ds → ∃ p, declarationAt? ds p = some x
  | [] => fun h => absurd h List.not_mem_nil
  | d :: ds => by
    intro h
    rw [Declaration.subtreeOfAll, List.mem_append] at h
    rcases h with h | h
    · rcases exists_place_of_mem_subtree d h with rfl | ⟨p, hp⟩
      · exact ⟨[0], rfl⟩
      · have hne : p ≠ [] := by
          rintro rfl
          cases hp
        exact ⟨0 :: p, (declarationAt?_cons _ 0 hne).trans hp⟩
    · obtain ⟨p, hp⟩ := exists_place_of_mem_subtreeOfAll ds h
      cases p with
      | nil => cases hp
      | cons i is =>
        refine ⟨(i + 1) :: is, ?_⟩
        cases is with
        | nil => exact hp
        | cons j is => exact hp

end

/-! ## words and sentences -/

/-- nothing that a blank would cut or that begins a comment -/
def isWord (s : String) : Bool := s.toList.head?.any (· != '/') && s.toList.all (!isBlank ·)

section
variable {s : String}

theorem notMem_of_isWord (h : isWord s = true) {c : Char} (hc : isBlank c = true) :
    c ∉ s.toList := by
  intro hmem
  have hsolid := List.all_eq_true.mp (Bool.and_eq_true_iff.mp h).2 c hmem
  rw [hc] at hsolid
  cases hsolid

theorem exists_head_of_isWord (h : isWord s = true) :
    ∃ c rest, s.toList = c :: rest ∧ c ≠ '/' ∧ isBlank c = false := by
  obtain ⟨c, hc, hne⟩ := (Option.any_eq_true _ _).mp (Bool.and_eq_true_iff.mp h).1
  obtain ⟨rest, hs⟩ := List.head?_eq_some_iff.mp hc
  refine ⟨c, rest, hs, by simpa using hne, ?_⟩
  have hsolid := List.all_eq_true.mp (Bool.and_eq_true_iff.mp h).2 c (List.mem_of_mem_head? hc)
  rwa [Bool.not_eq_true'] at hsolid

theorem getLast?_of_isWord (h : isWord s = true) :
    s.toList.getLast?.map isBlank = some false := by
  obtain ⟨c, rest, hs, -, -⟩ := exists_head_of_isWord h
  have hne : s.toList ≠ [] := hs ▸ List.cons_ne_nil c rest
  have hsolid := List.all_eq_true.mp (Bool.and_eq_true_iff.mp h).2 _ (List.getLast_mem hne)
  rw [List.getLast?_eq_some_getLast hne, Option.map_some]
  rwa [Bool.not_eq_true', ← Option.some_inj] at hsolid

/-- parts of a word that begins otherwise -/
theorem isWord_append {a : String} (ha : isWord a = true) (hs : s.toList.all (!isBlank ·) = true) :
    isWord (a ++ s) = true := by
  obtain ⟨hhead, hall⟩ := Bool.and_eq_true_iff.mp ha
  obtain ⟨c, rest, hc, -, -⟩ := exists_head_of_isWord ha
  unfold isWord
  rw [String.toList_append, List.all_append, hall, hs,
    List.head?_append_of_ne_nil _ (hc ▸ List.cons_ne_nil c rest), hhead]
  rfl

end

section
variable {words : List String} (hne : words ≠ []) (hwords : ∀ w ∈ words, isWord w = true)
include hne hwords

/-- words with blanks between them are a line that begins and ends with a word -/
theorem ends_joinWith :
    (∃ c, (joinWith " " words).toList.head? = some c ∧ c ≠ '/' ∧ isBlank c = false) ∧
      (joinWith " " words).toList.getLast?.map isBlank = some false := by
  induction words with
  | nil => exact absurd rfl hne
  | cons w words ih =>
    obtain ⟨hw, hrest⟩ := List.forall_mem_cons.mp hwords
    obtain ⟨c, rest, hc, hslash, hblank⟩ := exists_head_of_isWord hw
    have hsolid : w.toList ≠ [] := hc ▸ List.cons_ne_nil c rest
    cases words with
    | nil =>
      have hjoin : joinWith " " [w] = w := by simp [joinWith]
      rw [hjoin]
      exact ⟨⟨c, by rw [hc]; rfl, hslash, hblank⟩, getLast?_of_isWord hw⟩
    | cons w' words =>
      have hjoin : (joinWith " " (w :: w' :: words)).toList =
          w.toList ++ ' ' :: (joinWith " " (w' :: words)).toList := by
        simp [joinWith]
      obtain ⟨-, hlast⟩ := ih (List.cons_ne_nil _ _) hrest
      obtain ⟨b, hb, hbb⟩ := Option.map_eq_some_iff.mp hlast
      rw [hjoin]
      refine ⟨⟨c, ?_, hslash, hblank⟩, ?_⟩
      · rw [List.head?_append_of_ne_nil _ hsolid, hc]
        rfl
      · rw [List.getLast?_append, List.getLast?_cons, hb]
        exact congrArg some hbb

theorem readings_joinWith : readings (joinWith " " words) = (readingOf words).toList := by
  obtain ⟨⟨c, hc, hslash, hblank⟩, hlast⟩ := ends_joinWith hne hwords
  have hline : '\n' ∉ (joinWith " " words).toList := by
    intro hmem
    rcases mem_joinWith hmem with hmem | ⟨w, hw, hmem⟩
    · exact absurd hmem (by decide)
    · exact notMem_of_isWord (hwords w hw) (by decide) hmem
  have hfirst : (joinWith " " words).toList.head?.map isBlank = some false := by
    rw [hc]
    exact congrArg some hblank
  have hcut : split ' ' (joinWith " " words) = words :=
    split_joinWith_of_notMem rfl hne fun w hw => notMem_of_isWord (hwords w hw) (by decide)
  have hnot : ¬ (joinWith " " words).toList.head? = some '/' := by
    rw [hc]
    exact fun h => hslash (Option.some.inj h)
  unfold readings
  rw [statements_of_line hfirst hlast hline, List.filterMap_cons, reading, if_neg hnot, hcut]
  cases readingOf words <;> rfl

end

/-! ## scripts -/

/-- the steps write lines that say `rs`, and do not fail -/
def Reads (ss : Script) (rs : List Reading) : Prop :=
  ∃ texts, Yields ss texts ∧ texts.flatMap readings = rs

section
variable {ss ss' : Script} {rs rs' : List Reading}

theorem Reads.append (h : Reads ss rs) (h' : Reads ss' rs') : Reads (ss ++ ss') (rs ++ rs') := by
  obtain ⟨texts, hyields, rfl⟩ := h
  obtain ⟨texts', hyields', rfl⟩ := h'
  exact ⟨texts ++ texts', hyields.append hyields', List.flatMap_append⟩

theorem Reads.indented (h : Reads ss rs) : Reads [.indented ss] rs := by
  obtain ⟨texts, hyields, hrs⟩ := h
  exact ⟨texts, hyields.indented, hrs⟩

theorem reads_nil : Reads [] [] := ⟨[], rfl, rfl⟩

theorem reads_blank : Reads [.blank] [] := ⟨[], rfl, rfl⟩

theorem reads_line {text : String} {rs : List Reading} (h : readings text = rs) :
    Reads [.line text] rs :=
  ⟨[text], yields_line text, (List.flatMap_singleton _ _).trans h⟩

theorem reads_flatMap {α : Type} {f : α → Script} {g : α → List Reading} {xs : List α}
    (h : ∀ x ∈ xs, Reads (f x) (g x)) : Reads (xs.flatMap f) (xs.flatMap g) := by
  induction xs with
  | nil => exact reads_nil
  | cons x xs ih =>
    obtain ⟨hx, hxs⟩ := List.forall_mem_cons.mp h
    exact hx.append (ih hxs)

theorem Reads.readings_render (h : Reads ss rs) : readings (ss.render indent) = rs := by
  obtain ⟨texts, hyields, rfl⟩ := h
  have hindent : IsBlankLine indent := ⟨by decide, by decide⟩
  unfold readings
  rw [hyields.statements_render hindent, List.filterMap_flatMap]

end

/-! ### comments -/

/-- lines that begin with a slash say nothing -/
theorem readings_of_slashes {text : String}
    (h : PartsOk (fun part => allBlank part = true ∨ "//".toList <+: trimEnd part) text) :
    readings text = [] := by
  unfold readings
  rw [List.filterMap_eq_nil_iff]
  intro line hline
  obtain ⟨part, hpart, rfl⟩ := List.mem_map.mp hline
  obtain ⟨hpart, hsolid⟩ := List.mem_filter.mp hpart
  have hmark := (h part hpart).resolve_left (by simpa using hsolid)
  obtain ⟨rest, hrest⟩ := hmark
  obtain ⟨e, -, he⟩ := trimEnd_eq part
  have hfirst : part.head? = some '/' := by
    rw [he, ← hrest]
    rfl
  have htrim : (trim part).head? = some '/' := by
    rw [trim_of_head? (by rw [hfirst]; rfl), ← hrest]
    rfl
  unfold reading
  rw [String.toList_ofList, if_pos htrim]

theorem reads_comment {comment : List String}
    (h : ∀ text ∈ comment, StaysBehind "//".toList text.toList) :
    Reads [.comment "//" comment] [] := by
  refine ⟨comment.map (Writer.commentLine "//"), ?_, ?_⟩
  · unfold Yields
    rw [Step.textsAll, Step.texts]
    exact congrArg (·, false) (List.append_nil _)
  · rw [List.flatMap_map, List.flatMap_eq_nil_iff]
    intro text htext
    exact readings_of_slashes ((staysBehind_iff (by decide) (by decide) text).mpr (h text htext))

theorem readings_remark {text : String} (h : '\n' ∉ text.toList) : readings ("//" ++ text) = [] := by
  refine readings_of_slashes fun part hpart => Or.inr ?_
  have hline : '\n' ∉ ("//" ++ text).toList := by
    rw [String.toList_append, List.mem_append]
    exact fun hmem => hmem.elim (fun hmem => absurd hmem (by decide)) h
  rw [splitOn_of_notMem hline] at hpart
  obtain rfl := List.mem_singleton.mp hpart
  rw [String.toList_append, trimEnd_append_of_getLast? (by decide)]
  exact List.prefix_append _ _

/-! ### lines -/

theorem readings_opening {keyword name : String} (hkeyword : keyword = "message" ∨ keyword = "enum")
    (hname : isWord name = true) :
    readings (keyword ++ " " ++ name ++ " \x7b") = [.opening name] := by
  have hwords : ∀ w ∈ [keyword, name, "\x7b"], isWord w = true := by
    have hk : isWord keyword = true := by rcases hkeyword with rfl | rfl <;> decide
    simpa [hk, hname] using (by decide : isWord "\x7b" = true)
  have hjoin : keyword ++ " " ++ name ++ " \x7b" = joinWith " " [keyword, name, "\x7b"] := by
    refine String.toList_injective ?_
    simp [joinWith]
  rw [hjoin, readings_joinWith (List.cons_ne_nil _ _) hwords, readingOf, if_pos hkeyword,
    if_pos rfl]
  rfl

theorem readings_closing : readings "\x7d" = [.closing] := by decide

theorem solid_of_isDigit {c : Char} (h : c.isDigit = true) : c ≠ '/' ∧ isBlank c = false := by
  obtain ⟨hlow, hhigh⟩ := Bool.and_eq_true_iff.mp h
  have hlow : 48 ≤ c.toNat := UInt32.le_iff_toNat_le.mp (of_decide_eq_true hlow)
  have hhigh : c.toNat ≤ 57 := UInt32.le_iff_toNat_le.mp (of_decide_eq_true hhigh)
  refine ⟨?_, ?_⟩
  · rintro rfl
    exact absurd hlow (by decide)
  · simp only [isBlank, Bool.or_eq_false_iff, Bool.and_eq_false_iff, decide_eq_false_iff_not,
      beq_eq_false_iff_ne]
    omega

theorem isWord_natRepr (n : Nat) : isWord (Nat.repr n) = true := by
  obtain ⟨c, rest, hrepr⟩ := List.exists_cons_of_ne_nil (repr_ne_nil n)
  have hsolid : ∀ c ∈ (Nat.repr n).toList, c ≠ '/' ∧ isBlank c = false :=
    fun c hc => solid_of_isDigit (isDigit_of_mem_repr hc)
  have hall : (Nat.repr n).toList.all (!isBlank ·) = true :=
    List.all_eq_true.mpr fun c hc => by rw [(hsolid c hc).2]; rfl
  have hslash : c ≠ '/' := (hsolid c (hrepr ▸ List.mem_cons_self)).1
  unfold isWord
  rw [hall, hrepr]
  simpa using hslash

theorem isWord_intRepr (n : Int) : isWord (Int.repr n) = true := by
  cases n with
  | ofNat k => exact isWord_natRepr k
  | negSucc k =>
    exact isWord_append (by decide) (Bool.and_eq_true_iff.mp (isWord_natRepr (k + 1))).2

theorem isNumber_repr (n : Nat) : isNumber (Nat.repr n ++ ";") = true := by
  unfold isNumber
  rw [String.toList_append, show ";".toList = [';'] from rfl, List.getLast?_concat,
    List.dropLast_concat]
  exact Bool.and_eq_true_iff.mpr ⟨by decide, List.all_eq_true.mpr fun _ => isDigit_of_mem_repr⟩

/-- an enumerator with its value says nothing about declarations -/
theorem readings_enumerator {name : String} (hname : isWord name = true) (value : Int) :
    readings (name ++ " = " ++ Int.repr value ++ ";") = [] := by
  have hlast : ∀ bracket ∈ ["\x7b", "\x7b\x7d"], Int.repr value ++ ";" ≠ bracket := by
    intro bracket hbracket heq
    have hsemicolon : bracket.toList.getLast? = some ';' := by
      rw [← heq, String.toList_append, show ";".toList = [';'] from rfl, List.getLast?_concat]
    have hnone : ∀ b ∈ ["\x7b", "\x7b\x7d"], b.toList.getLast? ≠ some ';' := by decide
    exact hnone bracket hbracket hsemicolon
  have hwords : ∀ w ∈ [name, "=", Int.repr value ++ ";"], isWord w = true := by
    have hvalue := isWord_append (isWord_intRepr value) (by decide : ";".toList.all (!isBlank ·))
    simpa [hname, hvalue] using (by decide : isWord "=" = true)
  have hjoin : name ++ " = " ++ Int.repr value ++ ";" =
      joinWith " " [name, "=", Int.repr value ++ ";"] := by
    refine String.toList_injective ?_
    simp [joinWith]
  rw [hjoin, readings_joinWith (List.cons_ne_nil _ _) hwords, readingOf,
    if_neg (hlast _ List.mem_cons_self), if_neg (hlast _ (List.mem_cons_of_mem _ List.mem_cons_self)),
    ite_self]
  rfl

theorem readingOf_single (type name : String) (number : Nat) :
    readingOf [type, name, "=", Nat.repr number ++ ";"] = some (.field [type]) :=
  if_pos ⟨rfl, isNumber_repr number⟩

theorem readingOf_repeated (type name : String) (number : Nat) :
    readingOf ["repeated", type, name, "=", Nat.repr number ++ ";"] = some (.field [type]) := by
  rw [readingOf, if_pos ⟨rfl, isNumber_repr number⟩, if_pos rfl]

/-- key and value stand between the brackets of a map -/
theorem readingOf_map (key value name : String) (number : Nat) :
    readingOf ["map<" ++ key ++ ",", value ++ ">", name, "=", Nat.repr number ++ ";"] =
      some (.field [key, value]) := by
  have hfirst : "map<" ++ key ++ "," ≠ "repeated" := by
    intro heq
    have hhead := congrArg (fun s : String => s.toList.head?) heq
    simp at hhead
  have hkey : (("map<" ++ key ++ ",").toList.drop "map<".length).dropLast = key.toList := by
    have hlist : ("map<" ++ key ++ ",").toList = "map<".toList ++ (key.toList ++ [',']) := by simp
    rw [hlist, show "map<".length = "map<".toList.length from rfl, List.drop_left,
      List.dropLast_concat]
  have hvalue : (value ++ ">").toList.dropLast = value.toList := by simp
  rw [readingOf, if_pos ⟨rfl, isNumber_repr number⟩, if_neg hfirst, hkey, hvalue,
    String.ofList_toList, String.ofList_toList]

theorem isWord_mapType {key value : String} (hkey : isWord key = true) (hvalue : isWord value = true) :
    ∀ w ∈ ["map<" ++ key ++ ",", value ++ ">"], isWord w = true := by
  have hfirst : isWord ("map<" ++ key ++ ",") = true :=
    isWord_append (isWord_append (by decide) (Bool.and_eq_true_iff.mp hkey).2) (by decide)
  have hsecond : isWord (value ++ ">") = true := isWord_append hvalue (by decide)
  simpa [hsecond] using hfirst

section
variable {l : MessageField} (hname : isWord l.name = true)
include hname

/-- the words of a field are those of its type, its name, the sign and its number -/
theorem readings_typed {words : List String} (hne : words ≠ [])
    (hwords : ∀ w ∈ words, isWord w = true)
    (htext : l.text = joinWith " " (words ++ [l.name, "=", Nat.repr l.number ++ ";"])) :
    readings l.text = (readingOf (words ++ [l.name, "=", Nat.repr l.number ++ ";"])).toList := by
  have hnumber : isWord (Nat.repr l.number ++ ";") = true :=
    isWord_append (isWord_natRepr l.number) (by decide)
  have hequals : isWord "=" = true := by decide
  rw [htext]
  refine readings_joinWith (List.append_ne_nil_of_left_ne_nil hne _) ?_
  rw [List.forall_mem_append]
  refine ⟨hwords, ?_⟩
  simpa [hname, hequals] using hnumber

/-- a field line says its types -/
theorem readings_field (htypes : ∀ type ∈ l.types, isWord type = true) :
    readings l.text = [.field l.types] := by
  unfold MessageField.types at htypes ⊢
  cases hshape : l.shape with
  | single value =>
    rw [hshape] at htypes
    have htext : l.text = joinWith " " ([value.text] ++ [l.name, "=", Nat.repr l.number ++ ";"]) := by
      refine String.toList_injective ?_
      simp [MessageField.text, hshape, Shape.text, joinWith]
    exact (readings_typed hname (List.cons_ne_nil _ _) htypes htext).trans
      (congrArg Option.toList (readingOf_single value.text l.name l.number))
  | repeated value =>
    rw [hshape] at htypes
    have htext : l.text =
        joinWith " " (["repeated", value.text] ++ [l.name, "=", Nat.repr l.number ++ ";"]) := by
      refine String.toList_injective ?_
      simp [MessageField.text, hshape, Shape.text, joinWith]
    have hwords : ∀ w ∈ ["repeated", value.text], isWord w = true :=
      List.forall_mem_cons.mpr ⟨by decide, htypes⟩
    exact (readings_typed hname (List.cons_ne_nil _ _) hwords htext).trans
      (congrArg Option.toList (readingOf_repeated value.text l.name l.number))
  | map key value =>
    rw [hshape] at htypes
    have htext : l.text = joinWith " " (["map<" ++ key.text ++ ",", value.text ++ ">"] ++
        [l.name, "=", Nat.repr l.number ++ ";"]) := by
      refine String.toList_injective ?_
      simp [MessageField.text, hshape, Shape.text, joinWith]
    obtain ⟨hkey, hvalue⟩ : isWord key.text = true ∧ isWord value.text = true := by
      simpa [Shape.key?, Shape.value] using htypes
    exact (readings_typed hname (List.cons_ne_nil _ _) (isWord_mapType hkey hvalue) htext).trans
      (congrArg Option.toList (readingOf_map key.text value.text l.name l.number))

end

/-! ## declarations -/

/-- the words in the lines of a declaration -/
def Declaration.words : Declaration → List String
  | .message name _ _ fields => name :: fields.flatMap fun l => l.name :: l.types
  | .enumeration name _ values => name :: values.map Prod.fst

def Declaration.comments : Declaration → List String
  | .message _ comment _ fields => comment ++ fields.flatMap (·.comment)
  | .enumeration _ comment _ => comment

/-- the words of a declaration are words, and its comments stay comments -/
structure Declaration.Legible (d : Declaration) : Prop where
  words : ∀ x ∈ d.words, isWord x = true
  comments : ∀ text ∈ d.comments, StaysBehind "//".toList text.toList

structure Schema.Legible (s : Schema) : Prop where
  package : ∀ p ∈ s.package, isWord p = true
  declarations : ∀ d ∈ Declaration.subtreeOfAll s.roots, d.Legible
  wrappers : ∀ w ∈ s.wrappers, '\n' ∉ w.package.toList

theorem reads_fields {fields : List MessageField}
    (hwords : ∀ l ∈ fields, ∀ x ∈ l.name :: l.types, isWord x = true)
    (hcomments : ∀ l ∈ fields, ∀ text ∈ l.comment, StaysBehind "//".toList text.toList) :
    Reads (fields.flatMap MessageField.script) (fields.map fun l => .field l.types) := by
  rw [List.map_eq_flatMap]
  refine reads_flatMap fun l hl => ?_
  obtain ⟨hname, htypes⟩ := List.forall_mem_cons.mp (hwords l hl)
  exact (reads_comment (hcomments l hl)).append (reads_line (readings_field hname htypes))

theorem reads_enumScript {name : Name} {values : List (String × Int64)}
    (hname : isWord name = true) (hvalues : ∀ v ∈ values, isWord v.1 = true) :
    Reads (enumScript name values) [.opening name, .closing] := by
  have hoption : Reads (if hasAliases values then [.line "option allow_alias = true;"] else [])
      [] := by
    split
    · exact reads_line (by decide)
    · exact reads_nil
  have hlines : Reads (values.map fun v => .line (v.1 ++ " = " ++ Int.repr v.2.toInt ++ ";"))
      [] := by
    rw [List.map_eq_flatMap]
    have hall := reads_flatMap (g := fun _ => []) fun v (hv : v ∈ values) =>
      reads_line (readings_enumerator (hvalues v hv) v.2.toInt)
    rwa [List.flatMap_eq_nil_iff.mpr fun _ _ => rfl] at hall
  exact (reads_line (readings_opening (.inr rfl) hname)).append
    ((hoption.append hlines).indented.append (reads_line readings_closing))

theorem reads_separated {scripts : List Script} {rss : List (List Reading)}
    (h : List.Forall₂ Reads scripts rss) : Reads (separated scripts) rss.flatten := by
  induction h with
  | nil => exact reads_nil
  | @cons s rs scripts rss hs hrest ih =>
    cases hrest with
    | nil =>
      rw [separated, List.flatten_singleton]
      exact hs
    | cons hs' hrest =>
      rw [separated, List.flatten_cons]
      · exact hs.append (reads_blank.append ih)
      · exact nofun

theorem reads_apart {scripts : List Script} {rss : List (List Reading)}
    (h : List.Forall₂ Reads scripts rss) :
    Reads (scripts.flatMap fun s => .blank :: s) rss.flatten := by
  induction h with
  | nil => exact reads_nil
  | cons hs _ ih => exact (reads_blank.append hs).append ih

theorem Declaration.readingsOfAll_eq_flatten (ds : List Declaration) :
    Declaration.readingsOfAll ds = (ds.map Declaration.readings).flatten := by
  induction ds with
  | nil => rfl
  | cons d ds ih => rw [readingsOfAll, List.map_cons, List.flatten_cons, ih]

mutual

theorem reads_declaration : ∀ d : Declaration, (∀ x ∈ d.subtree, x.Legible) →
    Reads d.script d.readings
  | .message name comment nested fields => by
    intro h
    obtain ⟨⟨hwords, hcomments⟩, hnested⟩ := List.forall_mem_cons.mp h
    obtain ⟨hname, hwords⟩ := List.forall_mem_cons.mp hwords
    obtain ⟨hcomment, hcomments⟩ := List.forall_mem_append.mp hcomments
    rw [List.forall_mem_flatMap] at hwords hcomments
    have hinner : Reads (separated (Declaration.scripts nested) ++
        (if nested.isEmpty || fields.isEmpty then [] else [.blank]))
        (Declaration.readingsOfAll nested) := by
      have hblank : Reads (if nested.isEmpty || fields.isEmpty then [] else [.blank]) [] := by
        split
        · exact reads_nil
        · exact reads_blank
      rw [Declaration.readingsOfAll_eq_flatten]
      have hall := (reads_separated (reads_scripts nested hnested)).append hblank
      rwa [List.append_nil] at hall
    rw [Declaration.script, Declaration.readings]
    exact (reads_comment hcomment).append ((reads_line (readings_opening (.inl rfl) hname)).append
      ((hinner.append (reads_fields hwords hcomments)).indented.append
        (reads_line readings_closing)))
  | .enumeration name comment values => by
    intro h
    obtain ⟨hwords, hcomments⟩ := h _ (List.mem_singleton_self _)
    obtain ⟨hname, hvalues⟩ := List.forall_mem_cons.mp hwords
    rw [List.forall_mem_map] at hvalues
    rw [Declaration.script, Declaration.readings]
    exact (reads_comment hcomments).append (reads_enumScript hname hvalues)

theorem reads_scripts : ∀ ds : List Declaration,
    (∀ x ∈ Declaration.subtreeOfAll ds, x.Legible) →
      List.Forall₂ Reads (Declaration.scripts ds) (ds.map Declaration.readings)
  | [] => fun _ => .nil
  | d :: ds => by
    intro h
    obtain ⟨hd, hds⟩ := List.forall_mem_append.mp h
    exact .cons (reads_declaration d hd) (reads_scripts ds hds)

end

/-! ## schemas -/

theorem Declaration.subtreeOfAll_eq_flatMap (ds : List Declaration) :
    subtreeOfAll ds = ds.flatMap subtree := by
  induction ds with
  | nil => rfl
  | cons d ds ih => rw [subtreeOfAll, List.flatMap_cons, ih]

theorem reads_wrapper {w : Wrapper} (hpackage : '\n' ∉ w.package.toList)
    (h : ∀ x ∈ (Declaration.message w.name [] w.declarations []).subtree, x.Legible) :
    Reads w.script (Declaration.message w.name [] w.declarations []).readings := by
  obtain ⟨hwrapper, h⟩ := List.forall_mem_cons.mp h
  have hname := hwrapper.words w.name List.mem_cons_self
  have hremark : readings ("// Package " ++ w.package) = [] := by
    have hsplit : "// Package " ++ w.package = "//" ++ (" Package " ++ w.package) := by
      refine String.toList_injective ?_
      simp
    rw [hsplit]
    refine readings_remark ?_
    rw [String.toList_append, List.mem_append]
    exact fun hmem => hmem.elim (fun hmem => absurd hmem (by decide)) hpackage
  have hinner := reads_separated (reads_scripts _ h)
  rw [← Declaration.readingsOfAll_eq_flatten] at hinner
  rw [Declaration.readings, List.map_nil, List.append_nil]
  exact (reads_line hremark).append ((reads_line (readings_opening (.inl rfl) hname)).append
    (hinner.indented.append (reads_line readings_closing)))

theorem readings_package {p : String} (h : isWord p = true) :
    readings ("package " ++ p ++ ";") = [] := by
  have hwords : ∀ w ∈ ["package", p ++ ";"], isWord w = true := by
    have hend : isWord (p ++ ";") = true := isWord_append h (by decide)
    simpa [hend] using (by decide : isWord "package" = true)
  have hjoin : "package " ++ p ++ ";" = joinWith " " ["package", p ++ ";"] := by
    refine String.toList_injective ?_
    simp [joinWith]
  rw [hjoin, readings_joinWith (List.cons_ne_nil _ _) hwords]
  rfl

/-- a legible schema says what its declarations say -/
theorem readings_text {s : Schema} (h : s.Legible) :
    readings s.text = Declaration.readingsOfAll s.roots := by
  have hlegible := h.declarations
  unfold Schema.roots at hlegible ⊢
  rw [Declaration.subtreeOfAll_eq_flatMap, List.flatMap_append, List.forall_mem_append,
    ← Declaration.subtreeOfAll_eq_flatMap, List.forall_mem_flatMap, List.forall_mem_map] at hlegible
  obtain ⟨hdeclarations, hwrappers⟩ := hlegible
  have hbanner : readings ("// " ++ banner) = [] := by decide
  have hsyntax : readings "syntax = \"proto3\";" = [] := by decide
  have hhead := (reads_line hbanner).append (reads_blank.append (reads_line hsyntax))
  have hbody := reads_apart (reads_scripts _ hdeclarations)
  have hwrapped : Reads (s.wrappers.flatMap fun w => .blank :: w.script)
      (s.wrappers.flatMap fun w => (Declaration.message w.name [] w.declarations []).readings) :=
    reads_flatMap fun w hw =>
      reads_blank.append (reads_wrapper (h.wrappers w hw) (hwrappers w hw))
  rw [Declaration.readingsOfAll_eq_flatten, List.map_append, List.flatten_append, List.map_map,
    ← List.flatMap_def]
  unfold Schema.text Schema.script
  cases hp : s.package with
  | none => exact (((hhead.append reads_nil).append hbody).append hwrapped).readings_render
  | some p =>
    have hpackage := reads_blank.append (reads_line (readings_package (h.package p hp)))
    exact (((hhead.append hpackage).append hbody).append hwrapped).readings_render

/-! ## the result -/

/-- the messages around packages -/
def wrapperPaths (m : Model) : List (List Name) :=
  if wrapsPackages m then m.packages.map fun p => [wrapperName p.name] else []

section
variable {m : Model} {c : ProtoConfig} {schema : Schema}

theorem wrapperPaths_of_ofModel (h : Schema.ofModel m c = .ok schema) :
    schema.wrappers.map (fun w => [w.name]) = wrapperPaths m := by
  unfold wrapperPaths
  rcases ofModel_cases h with ⟨hw, -, hws⟩ | ⟨hw, -, hws⟩
  · have hnames := flatMap_of_forall₂ (g := fun x => [[wrapperName x.1.name]])
      (k := fun w : Wrapper => [[w.name]])
      (fun x w hx => by rw [Wrapper.name, (wrapper_declarations hx).1]) hws
    rw [if_pos hw, List.map_eq_flatMap, hnames, ← List.map_eq_flatMap]
    conv_rhs => rw [← List.zipIdx_map_fst 0 m.packages, List.map_map]
    rfl
  · rw [hws, if_neg (by simp [hw])]
    rfl

/-- the messages around packages aside, the declarations have the paths of the schema -/
theorem pathsOfAll_roots (s : Schema) :
    (Declaration.pathsOfAll s.roots).Perm (s.paths ++ s.wrappers.map fun w => [w.name]) := by
  have happend : Declaration.pathsOfAll s.roots = Declaration.pathsOfAll s.declarations ++
      s.wrappers.flatMap fun w =>
        [w.name] :: (Declaration.pathsOfAll w.declarations).map (w.name :: ·) := by
    unfold Schema.roots
    rw [Declaration.pathsOfAll_append]
    congr 1
    induction s.wrappers with
    | nil => rfl
    | cons w ws ih => rw [List.map_cons, Declaration.pathsOfAll, ih, List.flatMap_cons]; rfl
  have hsplit := List.flatMap_append_perm s.wrappers (fun w => [[w.name]])
    fun w => (Declaration.pathsOfAll w.declarations).map (w.name :: ·)
  rw [happend, Schema.paths, List.append_assoc]
  refine (List.Perm.append_left _ hsplit.symm).trans (List.Perm.append_left _ ?_)
  rw [← List.map_eq_flatMap]
  exact List.perm_append_comm

/-- a type name in a line is that of a primitive type, or the path of a declaration -/
theorem scalar_or_path_of_field (h : Schema.ofModel m c = .ok schema) {d : Declaration}
    (hd : d ∈ Declaration.subtreeOfAll schema.roots) {l : MessageField} (hl : l ∈ d.fields)
    {type : String} (htype : type ∈ l.types) :
    (∃ kind : PrimitiveKind, type = kind.protoName) ∨
      ∃ path ∈ schemaPaths m, type = joinWith "." path := by
  obtain ⟨n, hn, rfl⟩ := List.mem_map.mp htype
  obtain ⟨p, hp⟩ := exists_place_of_mem_subtreeOfAll _ hd
  obtain ⟨own, s, inner, _, hown⟩ :=
    declare_struct_of_declarationAt? h hp (List.ne_nil_of_mem hl)
  obtain ⟨f, _, hline⟩ := exists_of_mem_messageFieldsFrom _ (declare_struct hown).2 hl
  have hname : n = l.shape.value ∨ l.shape.key? = some n := by
    rw [List.mem_append, Option.mem_toList, List.mem_singleton] at hn
    exact hn.symm
  obtain ⟨r, b, _, hr⟩ := exists_writes hline hname
  refine (scalar_or_path_of_fieldType hr).imp_left ?_
  rintro ⟨kind, rfl⟩
  exact ⟨kind, rfl⟩

/-- the text of a schema declares what the model declares, and the messages around packages, each
as often, and every type name in a field line is that of a primitive type or one of these paths -/
theorem schema_declares_model (m : Model) (c : ProtoConfig) {schema : Schema}
    (h : Schema.ofModel m c = .ok schema) (hlegible : schema.Legible) :
    generate m c = .ok (({} : FileSet).insert (fileName m c) schema.text) ∧
      (declaredPaths schema.text).Perm (schemaPaths m ++ wrapperPaths m) ∧
      ∀ type ∈ fieldTypes schema.text, (∃ kind : PrimitiveKind, type = kind.protoName) ∨
        ∃ path ∈ schemaPaths m, type = joinWith "." path := by
  refine ⟨?_, ?_, ?_⟩
  · unfold generate
    rw [h]
    rfl
  · unfold declaredPaths
    rw [readings_text hlegible, declaredPaths_readings, ← paths_of_ofModel h,
      ← wrapperPaths_of_ofModel h]
    exact pathsOfAll_roots schema
  · intro type htype
    unfold fieldTypes at htype
    rw [readings_text hlegible] at htype
    obtain ⟨d, hd, l, hl, htype⟩ := exists_field_of_mem_typesOfAll _ htype
    exact scalar_or_path_of_field h hd hl htype

end

/-- a struct `Order` with types inside it on two levels, a second one of that name in the only
package, and fields that lead from the one to the inside of the other; the second line of its
comment is a comment by itself -/
def namesakes : Model :=
  { types :=
      [.struct
        { name := "Order"
          comment := ["An order.\n// With its lines."]
          fields :=
            [{ name := "state", typeRef := { name := "com.example.Order.State" } },
              { name := "lines", typeRef := { name := "Lines" } }] }
        [.struct { name := "Line" } [.enumeration { name := "Kind" }]],
        .array { name := "Lines", elementType := some { name := "Order.Line" } }]
    packages :=
      [{ name := "com.example",
         types := [.struct { name := "Order" } [.enumeration { name := "State" }]] }] }

def namesakesSchema : Schema :=
  { package := none
    declarations :=
      [.message "Order" ["An order.\n// With its lines."]
        [.message "Line" [] [.enumeration "Kind" [] [("KIND_UNSPECIFIED", 0)]] []]
        [⟨[], .single (.declared ((TypeId.packaged 0 0).withInner 0)
            ["ComExample", "Order", "State"]), "state", 1⟩,
          ⟨[], .repeated (.declared ((TypeId.topLevel 0).withInner 0) ["Order", "Line"]),
            "lines", 2⟩]]
    wrappers :=
      [⟨"com.example",
        [.message "Order" [] [.enumeration "State" [] [("STATE_UNSPECIFIED", 0)]] []]⟩] }

theorem ofModel_namesakes : Schema.ofModel namesakes.analyze.1 {} = .ok namesakesSchema := rfl

theorem legible_namesakes : namesakesSchema.Legible := by
  refine ⟨nofun, ?_, by decide⟩
  have hall : ∀ d ∈ Declaration.subtreeOfAll namesakesSchema.roots,
      (∀ x ∈ d.words, isWord x = true) ∧ ∀ text ∈ d.comments,
        text = "An order.\n// With its lines." := by
    decide
  intro d hd
  obtain ⟨hwords, hcomments⟩ := hall d hd
  refine ⟨hwords, fun text htext => ?_⟩
  rw [hcomments text htext]
  exact ⟨by decide, by decide⟩

theorem schema_declares_namesakes :
    Schema.ofModel namesakes.analyze.1 {} = .ok namesakesSchema ∧ namesakesSchema.Legible ∧
      (declaredPaths namesakesSchema.text).Perm [["Order"], ["Order", "Line"],
        ["Order", "Line", "Kind"], ["ComExample", "Order"], ["ComExample", "Order", "State"],
        ["ComExample"]] := by
  obtain ⟨-, hpaths, -⟩ := schema_declares_model _ {} ofModel_namesakes legible_namesakes
  exact ⟨ofModel_namesakes, legible_namesakes, hpaths⟩

/-- a struct whose comment has a second line that declares a message -/
def ghostly : Model :=
  { types :=
      [.struct { name := "Person", comment := ["A person.\nmessage Ghost \x7b\x7d"] } []] }

def ghostlySchema : Schema :=
  { package := none
    declarations := [.message "Person" ["A person.\nmessage Ghost \x7b\x7d"] [] []]
    wrappers := [] }

theorem ofModel_ghostly : Schema.ofModel ghostly.analyze.1 {} = .ok ghostlySchema := rfl

/-- the schema declares a message that is not in the model -/
theorem not_schema_declares_ghostly :
    ghostly.analyze.2 = .ok [] ∧
      generate ghostly.analyze.1 {} =
        .ok (({} : FileSet).insert "model.proto" ghostlySchema.text) ∧
      declaredPaths ghostlySchema.text = [["Ghost"], ["Person"]] ∧
      schemaPaths ghostly.analyze.1 ++ wrapperPaths ghostly.analyze.1 = [["Person"]] ∧
      ¬ (declaredPaths ghostlySchema.text).Perm
        (schemaPaths ghostly.analyze.1 ++ wrapperPaths ghostly.analyze.1) := by
  have hfile : generate ghostly.analyze.1 {} =
      .ok (({} : FileSet).insert "model.proto" ghostlySchema.text) := by
    rw [generate, ofModel_ghostly]
    rfl
  have hread : declaredPaths ghostlySchema.text = [["Ghost"], ["Person"]] := by decide +kernel
  have hmodel : schemaPaths ghostly.analyze.1 ++ wrapperPaths ghostly.analyze.1 = [["Person"]] :=
    rfl
  refine ⟨by decide +kernel, hfile, hread, hmodel, fun hperm => ?_⟩
  have hlength := hperm.length_eq
  rw [hread, hmodel] at hlength
  cases hlength

end TypeModel.Proto
