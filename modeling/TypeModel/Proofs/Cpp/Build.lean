import TypeModel.Proofs.Cpp.Files
import TypeModel.Proofs.Cpp.HeaderLines

/-!
# The build file and the entry point

The files of a project, the sources and tests in its build file, and the headers in its entry point
are listed in three places.  Here they are read off the texts and compared.

* `listedSources build`      the files between `set(MODEL_SOURCES` and the bracket that closes it;
* `mainLine m c`             the line that builds the program of the project;
* `testLine t`               the line that builds the test program `t` from its source;
* `includeLine stem`         the line that includes a header of the project;
* `statements_buildFile`     the build file has the lines that its parts are written as;
* `includeLine_mem_iff`      nothing but the includes of the entry point includes a header;
* `build_agrees`             the three places agree.
-/

namespace TypeModel

/-- the paths in a directory -/
def FileSet.pathsUnder (fs : FileSet) (dir : String) : List String :=
  fs.paths.filter fun p => dir.toList.isPrefixOf p.toList

namespace Cpp

open Text

def listedSources (build : String) : List String :=
  ((statements build).dropWhile (· ≠ "set(MODEL_SOURCES")).tail.takeWhile (· ≠ ")")

def programLine (name path : String) : String :=
  "add_executable(" ++ name ++ " " ++ path ++ " " ++ modelSources ++ ")"

def buildsProgram (line : String) : Bool := "add_executable(".toList.isPrefixOf line.toList

def testLine (t : String) : String := programLine t ("test/" ++ t ++ ".cpp")

def mainLine (m : Model) (c : CppConfig) : String := programLine (projectName m c) "src/main.cpp"

/-! ## namespaces -/

theorem subset_of_mem_splitScopes {cs part : List Char} (h : part ∈ splitScopes cs) :
    part ⊆ cs := by
  fun_induction splitScopes cs generalizing part with
  | case1 =>
    rw [List.mem_singleton.mp h]
    exact List.nil_subset _
  | case2 cs ih =>
    rcases List.mem_cons.mp h with rfl | h
    · exact List.nil_subset _
    · exact List.subset_cons_of_subset _ (List.subset_cons_of_subset _ (ih h))
  | case3 c cs _ ih =>
    rcases mem_consHead h with rfl | ⟨w, hw, rfl⟩ | h
    · exact List.cons_subset.mpr ⟨List.mem_cons_self, List.nil_subset _⟩
    · exact List.cons_subset_cons c (ih hw)
    · exact List.subset_cons_of_subset c (ih h)

theorem dot_notMem_normalizeNamespace (s : String) : '.' ∉ (normalizeNamespace s).toList := by
  intro h
  rcases mem_joinWith h with h | ⟨w, hw, h⟩
  · revert h
    decide
  · obtain ⟨part, hpart, rfl⟩ := List.mem_map.mp hw
    rw [String.toList_ofList] at h
    have hmem := subset_of_mem_splitScopes (List.mem_of_mem_filter hpart) h
    obtain ⟨c, _, hc⟩ := List.mem_flatMap.mp hmem
    split at hc
    · revert hc
      decide
    case isFalse hdot => exact hdot (List.mem_singleton.mp hc).symm

theorem dot_notMem_namespaceOf {e : Entry} {ns : String} (h : namespaceOf e = some ns) :
    '.' ∉ ns.toList := by
  have hname : ∀ name : String, '.' ∉ name.toList →
      (if name.isEmpty then none else some name) = some ns → '.' ∉ ns.toList := by
    intro name hname hif
    split at hif
    · cases hif
    · exact Option.some.inj hif ▸ hname
  unfold namespaceOf at h
  refine hname _ ?_ h
  split
  · exact dot_notMem_normalizeNamespace _
  · cases e.package with
    | none => exact List.not_mem_nil
    | some p => exact dot_notMem_normalizeNamespace p.name

/-! ## programs -/

theorem buildsProgram_programLine (name path : String) :
    buildsProgram (programLine name path) = true := by
  unfold buildsProgram programLine
  simp

theorem statements_programLine {name path : String} (hname : '\n' ∉ name.toList)
    (hpath : '\n' ∉ path.toList) :
    statements (programLine name path) = [programLine name path] := by
  have hline : programLine name path =
      "add_executable(" ++ (name ++ " " ++ path) ++ (" " ++ modelSources ++ ")") := by
    unfold programLine
    simp only [String.append_assoc]
  rw [hline]
  exact statements_between (by decide) (by decide) (by simp [hname, hpath])

/-! ## the texts of the build file -/

namespace BuildFile

def leadTexts (b : BuildFile) : List String :=
  ["# " ++ banner, "cmake_minimum_required(VERSION 3.16)",
    "project(" ++ b.project ++ " LANGUAGES CXX)",
    "set(CMAKE_CXX_STANDARD " ++ Nat.repr b.standard ++ ")",
    "set(CMAKE_CXX_STANDARD_REQUIRED ON)",
    "include_directories($\x7bCMAKE_CURRENT_SOURCE_DIR\x7d/include)"]

def linkTexts (b : BuildFile) (target : String) : List String :=
  if b.threading then ["target_link_libraries(" ++ target ++ " PRIVATE Threads::Threads)"] else []

def testTexts (b : BuildFile) (t : TestTarget) : List String :=
  programLine t.name t.path :: b.linkTexts t.name ++
    ["add_test(NAME " ++ t.name ++ " COMMAND " ++ t.name ++ ")"]

def tailTexts (b : BuildFile) : List String :=
  (if b.threading then ["find_package(Threads REQUIRED)"] else []) ++
    [programLine b.project "src/main.cpp"] ++ b.linkTexts b.project ++
    if b.tests.isEmpty then [] else "enable_testing()" :: b.tests.flatMap b.testTexts

def texts (b : BuildFile) : List String :=
  b.leadTexts ++ "set(MODEL_SOURCES" :: (b.sources ++ ")" :: b.tailTexts)

theorem yields_linkThreads (b : BuildFile) (target : String) :
    Yields (b.linkThreads target) (b.linkTexts target) := by
  unfold linkThreads linkTexts
  split <;> rfl

theorem yields_testScript (b : BuildFile) (t : TestTarget) :
    Yields (b.testScript t) (b.testTexts t) := by
  have hfirst : Yields [.blank, .line (programLine t.name t.path)]
      [programLine t.name t.path] := rfl
  exact (hfirst.append (b.yields_linkThreads t.name)).append (yields_line _)

theorem yields_script (b : BuildFile) : Yields b.script b.texts := by
  have hlead : Yields [.line ("# " ++ banner), .blank,
      .line "cmake_minimum_required(VERSION 3.16)",
      .line ("project(" ++ b.project ++ " LANGUAGES CXX)"), .blank,
      .line ("set(CMAKE_CXX_STANDARD " ++ Nat.repr b.standard ++ ")"),
      .line "set(CMAKE_CXX_STANDARD_REQUIRED ON)", .blank,
      .line "include_directories($\x7bCMAKE_CURRENT_SOURCE_DIR\x7d/include)", .blank,
      .line "set(MODEL_SOURCES"] (b.leadTexts ++ ["set(MODEL_SOURCES"]) := rfl
  have hsources : Yields (b.sources.map .line) b.sources := by
    simpa using yields_lines id b.sources
  have hthreads : Yields (if b.threading then [.line "find_package(Threads REQUIRED)", .blank]
      else []) (if b.threading then ["find_package(Threads REQUIRED)"] else []) := by
    split <;> rfl
  have htests : Yields (if b.tests.isEmpty then []
      else .blank :: .line "enable_testing()" :: b.tests.flatMap b.testScript)
      (if b.tests.isEmpty then [] else "enable_testing()" :: b.tests.flatMap b.testTexts) := by
    split
    · rfl
    · have hfirst : Yields [.blank, .line "enable_testing()"] ["enable_testing()"] := rfl
      exact hfirst.append (yields_flatMap fun t _ => b.yields_testScript t)
  have hclosed : Yields [.line ")", .blank] [")"] := rfl
  have hproject : programLine b.project "src/main.cpp" =
      "add_executable(" ++ b.project ++ " src/main.cpp " ++ modelSources ++ ")" := by
    unfold programLine
    simp only [String.append_assoc]
    rfl
  have hall := (((((hlead.append hsources.indented).append hclosed).append hthreads).append
    (yields_line (programLine b.project "src/main.cpp"))).append
    (b.yields_linkThreads b.project)).append htests
  unfold script texts tailTexts
  rw [← hproject]
  simpa using hall

/-! ### lines -/

theorem statements_linkTexts {b : BuildFile} {target : String} (htarget : '\n' ∉ target.toList) :
    ∀ t ∈ b.linkTexts target, statements t = [t] := by
  intro t ht
  unfold linkTexts at ht
  split at ht
  · rw [List.mem_singleton.mp ht]
    exact statements_between (by decide) (by decide) htarget
  · cases ht

theorem statements_testTexts {b : BuildFile} {x : TestTarget} (hname : '\n' ∉ x.name.toList)
    (hpath : '\n' ∉ x.path.toList) : ∀ t ∈ b.testTexts x, statements t = [t] := by
  intro t ht
  rcases List.mem_cons.mp ht with rfl | ht
  · exact statements_programLine hname hpath
  · rcases List.mem_append.mp ht with ht | ht
    · exact statements_linkTexts hname t ht
    · have hline : "add_test(NAME " ++ x.name ++ " COMMAND " ++ x.name ++ ")" =
          "add_test(NAME " ++ (x.name ++ " COMMAND " ++ x.name) ++ ")" := by
        simp only [String.append_assoc]
      rw [List.mem_singleton.mp ht, hline]
      exact statements_between (by decide) (by decide) (by simp [hname])

theorem statements_leadTexts {b : BuildFile} (hproject : '\n' ∉ b.project.toList) :
    ∀ t ∈ b.leadTexts, statements t = [t] := by
  have hdigits : '\n' ∉ (Nat.repr b.standard).toList := fun h =>
    absurd (isDigit_of_mem_repr h) (by decide)
  unfold leadTexts
  simp only [List.forall_mem_cons, List.not_mem_nil, false_imp_iff, implies_true, and_true]
  refine ⟨by decide +kernel, by decide +kernel, ?_, ?_, by decide +kernel, by decide +kernel⟩
  · exact statements_between (by decide) (by decide) hproject
  · exact statements_between (by decide) (by decide) hdigits

theorem statements_tailTexts {b : BuildFile} (hproject : '\n' ∉ b.project.toList)
    (htests : ∀ x ∈ b.tests, '\n' ∉ x.name.toList ∧ '\n' ∉ x.path.toList) :
    ∀ t ∈ b.tailTexts, statements t = [t] := by
  have hthreads : ∀ t ∈ if b.threading then ["find_package(Threads REQUIRED)"] else [],
      statements t = [t] := by
    split <;> decide +kernel
  have hmain : ∀ t ∈ [programLine b.project "src/main.cpp"], statements t = [t] :=
    List.forall_mem_singleton.mpr (statements_programLine hproject (by decide))
  have htested : ∀ t ∈ if b.tests.isEmpty then []
      else "enable_testing()" :: b.tests.flatMap b.testTexts, statements t = [t] := by
    split
    · exact fun t ht => absurd ht List.not_mem_nil
    · refine List.forall_mem_cons.mpr ⟨by decide, fun t ht => ?_⟩
      obtain ⟨x, hx, ht⟩ := List.mem_flatMap.mp ht
      exact statements_testTexts (htests x hx).1 (htests x hx).2 t ht
  unfold tailTexts
  simp only [List.forall_mem_append]
  exact ⟨⟨⟨hthreads, hmain⟩, statements_linkTexts hproject⟩, htested⟩

/-- the statements of the build file are its texts -/
theorem statements_render {b : BuildFile} (hproject : '\n' ∉ b.project.toList)
    (hsources : ∀ p ∈ b.sources, statements p = [p])
    (htests : ∀ x ∈ b.tests, '\n' ∉ x.name.toList ∧ '\n' ∉ x.path.toList) :
    statements (b.script.render indent) = b.texts := by
  rw [b.yields_script.statements_render isBlankLine_indent]
  have hlines : ∀ t ∈ b.texts, statements t = [t] := by
    unfold texts
    simp only [List.forall_mem_append, List.forall_mem_cons]
    exact ⟨statements_leadTexts hproject, by decide, hsources, by decide,
      statements_tailTexts hproject htests⟩
  rw [List.flatMap_congr hlines]
  exact List.flatMap_singleton' b.texts

/-! ### sources -/

theorem open_notMem_leadTexts (b : BuildFile) : "set(MODEL_SOURCES" ∉ b.leadTexts := by
  have hproject : "set(MODEL_SOURCES" ≠ "project(" ++ b.project ++ " LANGUAGES CXX)" := by
    intro h
    have hlist := congrArg String.toList h
    simp at hlist
  have hstandard :
      "set(MODEL_SOURCES" ≠ "set(CMAKE_CXX_STANDARD " ++ Nat.repr b.standard ++ ")" := by
    intro h
    have hlist := congrArg String.toList h
    simp at hlist
  unfold leadTexts
  simp only [List.mem_cons, List.not_mem_nil, or_false, hproject, hstandard, false_or]
  decide

/-- the sources stand between the two lines that open and close their list -/
theorem takeWhile_texts {b : BuildFile} (hsources : ")" ∉ b.sources) :
    (b.texts.dropWhile (· ≠ "set(MODEL_SOURCES")).tail.takeWhile (· ≠ ")") = b.sources := by
  have hlead : ∀ t ∈ b.leadTexts, decide (t ≠ "set(MODEL_SOURCES") = true := fun t ht =>
    decide_eq_true fun h => b.open_notMem_leadTexts (h ▸ ht)
  have hinside : ∀ t ∈ b.sources, decide (t ≠ ")") = true := fun t ht =>
    decide_eq_true fun h => hsources (h ▸ ht)
  unfold texts
  rw [List.dropWhile_append_of_pos hlead, List.dropWhile_cons_of_neg (by decide), List.tail_cons,
    List.takeWhile_append_of_pos hinside, List.takeWhile_cons_of_neg (by decide), List.append_nil]

/-! ### tests -/

theorem filter_linkTexts (b : BuildFile) (target : String) :
    (b.linkTexts target).filter buildsProgram = [] := by
  unfold linkTexts buildsProgram
  split
  · simp [List.isPrefixOf]
  · rfl

theorem filter_testTexts (b : BuildFile) (x : TestTarget) :
    (b.testTexts x).filter buildsProgram = [programLine x.name x.path] := by
  have htest : buildsProgram ("add_test(NAME " ++ x.name ++ " COMMAND " ++ x.name ++ ")") =
      false := by
    unfold buildsProgram
    simp [List.isPrefixOf]
  unfold testTexts
  rw [List.cons_append, List.filter_cons_of_pos (buildsProgram_programLine _ _), List.filter_append,
    filter_linkTexts, List.nil_append, List.filter_cons_of_neg (by simp [htest])]
  rfl

theorem filter_leadTexts (b : BuildFile) : b.leadTexts.filter buildsProgram = [] := by
  have hproject : buildsProgram ("project(" ++ b.project ++ " LANGUAGES CXX)") = false := by
    unfold buildsProgram
    simp [List.isPrefixOf]
  have hstandard : buildsProgram ("set(CMAKE_CXX_STANDARD " ++ Nat.repr b.standard ++ ")") =
      false := by
    unfold buildsProgram
    simp [List.isPrefixOf]
  rw [List.filter_eq_nil_iff]
  unfold leadTexts
  simp only [List.forall_mem_cons, List.not_mem_nil, false_imp_iff, implies_true, and_true,
    hproject, hstandard]
  decide +kernel

theorem filter_tailTexts (b : BuildFile) :
    b.tailTexts.filter buildsProgram =
      programLine b.project "src/main.cpp" :: b.tests.map fun x => programLine x.name x.path := by
  have hthreads : (if b.threading then ["find_package(Threads REQUIRED)"] else []).filter
      buildsProgram = [] := by
    split <;> decide
  have htests : (if b.tests.isEmpty then [] else
      "enable_testing()" :: b.tests.flatMap b.testTexts).filter buildsProgram =
      b.tests.map fun x => programLine x.name x.path := by
    split
    case isTrue h =>
      rw [List.isEmpty_iff.mp h]
      rfl
    case isFalse =>
      rw [List.filter_cons_of_neg (by decide), List.filter_flatMap, List.map_eq_flatMap]
      simp only [filter_testTexts]
  unfold tailTexts
  rw [List.filter_append, List.filter_append, List.filter_append, hthreads, filter_linkTexts,
    htests, List.filter_cons_of_pos (buildsProgram_programLine _ _)]
  rfl

/-- programs are built from the entry point and from the tests -/
theorem filter_texts {b : BuildFile} (hsources : ∀ p ∈ b.sources, buildsProgram p = false) :
    b.texts.filter buildsProgram =
      programLine b.project "src/main.cpp" :: b.tests.map fun x => programLine x.name x.path := by
  have hinside : b.sources.filter buildsProgram = [] :=
    List.filter_eq_nil_iff.mpr fun p hp => by simp [hsources p hp]
  unfold texts
  rw [List.filter_append, filter_leadTexts, List.filter_cons_of_neg (by decide),
    List.filter_append, hinside, List.filter_cons_of_neg (by decide), filter_tailTexts]
  rfl

end BuildFile

theorem toList_programLine (name path : String) :
    (programLine name path).toList = "add_executable(".toList ++
      (name.toList ++ ' ' :: (path.toList ++ (" " ++ modelSources ++ ")").toList)) := by
  unfold programLine
  simp [String.toList_append]

theorem testLine_inj {t t' : String} (h : testLine t = testLine t') : t = t' := by
  have hlist := congrArg String.toList h
  unfold testLine at hlist
  rw [toList_programLine, toList_programLine, List.append_cancel_left_eq] at hlist
  refine String.toList_injective (List.append_inj_left hlist ?_)
  have hlength := congrArg List.length hlist
  simp only [String.toList_append, List.length_append, List.length_cons] at hlength
  omega

/-- a name without a space ends at the first space -/
theorem dropWhile_name {name : String} (hname : ' ' ∉ name.toList) (rest : List Char) :
    (name.toList ++ ' ' :: rest).dropWhile (· ≠ ' ') = ' ' :: rest := by
  rw [List.dropWhile_append_of_pos, List.dropWhile_cons_of_neg (by decide)]
  exact fun c hc => decide_eq_true fun hspace => hname (hspace ▸ hc)

/-- a test is built by another line than the entry point, whose name has no space -/
theorem testLine_ne_programLine {project : String} (hproject : ' ' ∉ project.toList) (t : String) :
    testLine t ≠ programLine project "src/main.cpp" := by
  intro h
  have hlist := congrArg String.toList h
  unfold testLine at hlist
  rw [toList_programLine, toList_programLine, List.append_cancel_left_eq] at hlist
  -- both lines have as many spaces, so the name of the test has none either
  have hcount := congrArg (List.count ' ') hlist
  have hpath : ("test/" ++ t ++ ".cpp").toList.count ' ' = t.toList.count ' ' := by simp
  have hmain : "src/main.cpp".toList.count ' ' = 0 := by decide
  simp only [List.count_append, List.count_cons_self, hpath, hmain,
    List.count_eq_zero.mpr hproject] at hcount
  have ht : ' ' ∉ t.toList := List.count_eq_zero.mp (by omega)
  have hrest := congrArg (List.dropWhile (· ≠ ' ')) hlist
  rw [dropWhile_name ht, dropWhile_name hproject] at hrest
  simp at hrest

/-! ## the texts of the entry point -/

def printText (text : String) : String := "std::cout << \"" ++ text ++ "\" << std::endl;"

namespace EntryPoint

def printed (p : EntryPoint) : List String :=
  printText p.project :: p.types.map fun (kind, name) => printText ("  " ++ kind ++ " " ++ name)

def texts (p : EntryPoint) : List String :=
  ["// " ++ banner, "#include <iostream>"] ++ p.includes.map includeLine ++
    ("int main() \x7b" :: (p.printed ++ ["return 0;"]) ++ ["\x7d"])

/-- the texts that every entry point has -/
def fixedTexts : List String :=
  ["// " ++ banner, "#include <iostream>", "int main() \x7b", "return 0;", "\x7d"]

theorem mem_texts (p : EntryPoint) {t : String} (h : t ∈ p.texts) :
    t ∈ fixedTexts ∨ t ∈ p.includes.map includeLine ∨ t ∈ p.printed := by
  unfold texts at h
  unfold fixedTexts
  simp only [List.mem_append, List.mem_cons, List.not_mem_nil, or_false] at h ⊢
  grind

theorem yields_script (p : EntryPoint) : Yields p.script p.texts := by
  have hlead : Yields [.line ("// " ++ banner), .blank, .line "#include <iostream>", .blank]
      ["// " ++ banner, "#include <iostream>"] := rfl
  have hopen : Yields [.blank, .line "int main() \x7b"] ["int main() \x7b"] := rfl
  have hbody := (((yields_line (printText p.project)).append (yields_lines
    (fun (x : String × String) => printText ("  " ++ x.1 ++ " " ++ x.2)) p.types)).append
    (yields_line "return 0;")).indented
  exact (hlead.append (yields_lines includeLine p.includes)).append
    ((hopen.append hbody).append (yields_line "\x7d"))

end EntryPoint

theorem includeLine_inj {stem stem' : String} (h : includeLine stem = includeLine stem') :
    stem = stem' := by
  have hlist := congrArg String.toList h
  unfold includeLine at hlist
  simp at hlist
  exact String.toList_injective hlist

/-- a text without a dot in its first part and without a line break in its second one, and with a
semicolon at its end, includes no header -/
theorem includeLine_notMem_statements {text stem : String} {a b : List Char}
    (htext : text.toList = a ++ (b ++ [';'])) (ha : '.' ∉ a) (hb : '\n' ∉ b) :
    includeLine stem ∉ statements text := by
  intro h
  obtain ⟨line, hline, htrim⟩ := exists_of_mem_statements h
  have hdot : '.' ∈ line := mem_of_mem_trim (htrim ▸ by simp [includeLine])
  have hquote : (includeLine stem).toList.getLast? = some '"' := by
    unfold includeLine
    rw [String.toList_append, List.getLast?_append]
    rfl
  rw [htext] at hline
  -- the line has a dot, so it is not inside `a`; all others end with the semicolon
  rcases mem_splitOn_append (by simpa using hb) hline with hsub | ⟨front, rfl⟩
  · exact ha (hsub hdot)
  · rw [htrim, ← List.append_assoc, getLast?_trim _ (by decide)] at hquote
    cases hquote

theorem includeLine_mem_iff {p : EntryPoint} {stem : String}
    (hincludes : ∀ i ∈ p.includes, '\n' ∉ i.toList)
    (hprinted : ∀ t ∈ p.printed, includeLine stem ∉ statements t) :
    includeLine stem ∈ statements (p.script.render indent) ↔ stem ∈ p.includes := by
  have hfixed : ∀ t ∈ EntryPoint.fixedTexts, includeLine stem ∉ statements t := by
    have hlines : ∀ t ∈ EntryPoint.fixedTexts,
        statements t = [t] ∧ ¬ "#include \"".toList.isPrefixOf t.toList = true := by
      decide +kernel
    intro t ht h
    obtain ⟨hline, hother⟩ := hlines t ht
    rw [hline, List.mem_singleton] at h
    refine hother (h ▸ ?_)
    unfold includeLine
    simp
  have hheader : ∀ i ∈ p.includes, statements (includeLine i) = [includeLine i] := fun i hi =>
    statements_between (by decide) (by decide) (hincludes i hi)
  rw [p.yields_script.statements_render isBlankLine_indent, List.mem_flatMap]
  constructor
  · rintro ⟨t, ht, hmem⟩
    rcases p.mem_texts ht with ht | ht | ht
    · exact absurd hmem (hfixed t ht)
    · obtain ⟨i, hi, rfl⟩ := List.mem_map.mp ht
      rw [hheader i hi, List.mem_singleton] at hmem
      exact includeLine_inj hmem ▸ hi
    · exact absurd hmem (hprinted t ht)
  · intro h
    refine ⟨includeLine stem, ?_, ?_⟩
    · unfold EntryPoint.texts
      exact List.mem_append_left _ (List.mem_append_right _ (List.mem_map_of_mem h))
    · rw [hheader stem h]
      exact List.mem_singleton_self _

/-! ## the project -/

section
variable {m : Model} {c : CppConfig}

theorem projectName_chars {x : Char} (h : x ∈ (projectName m c).toList) :
    x.isAlphanum = true ∨ x = '_' := by
  unfold projectName Text.sanitize at h
  split at h
  · have hletters : "model".toList.all Char.isAlphanum = true := by decide
    exact Or.inl (List.all_eq_true.mp hletters x h)
  · rw [String.toList_ofList] at h
    obtain ⟨y, _, rfl⟩ := List.mem_map.mp h
    split
    case isTrue hy => exact Or.inl hy
    case isFalse => exact Or.inr rfl

theorem notMem_projectName {x : Char} (hx : x.isAlphanum = false) (hne : x ≠ '_') :
    x ∉ (projectName m c).toList := fun h =>
  (projectName_chars h).elim (fun halnum => absurd (halnum.symm.trans hx) (by decide)) hne

theorem mem_sources_buildFile {p : String} :
    p ∈ (buildFile m c).sources ↔
      ∃ e ∈ m.declaredTypes, e.type.kind = .struct ∧ sourcePath e = p := by
  unfold buildFile structEntries
  simp only [List.mem_map, List.mem_filter, decide_eq_true_eq, and_assoc]

/-- a path of a source closes no list and builds no program -/
theorem sourcePath_ne {e : Entry} :
    sourcePath e ≠ ")" ∧ buildsProgram (sourcePath e) = false := by
  constructor
  · intro h
    have hlist := congrArg String.toList h
    simp [sourcePath] at hlist
  · unfold buildsProgram sourcePath
    simp [List.isPrefixOf]

theorem mem_tests_buildFile {x : TestTarget} :
    x ∈ (buildFile m c).tests ↔ c.generateTests = true ∧
      ∃ e ∈ m.declaredTypes, e.type.kind = .struct ∧ ⟨e.name ++ "Test", testPath e⟩ = x := by
  unfold buildFile structEntries
  cases c.generateTests with
  | false => simp
  | true => simp only [if_true, List.mem_map, List.mem_filter, decide_eq_true_eq, and_assoc,
      true_and]

theorem testPath_eq (e : Entry) : testPath e = "test/" ++ (e.name ++ "Test") ++ ".cpp" := by
  have hend : "Test.cpp" = "Test" ++ ".cpp" := by decide
  unfold testPath
  rw [hend]
  simp only [String.append_assoc]

theorem path_of_mem_tests {x : TestTarget} (h : x ∈ (buildFile m c).tests) :
    x.path = "test/" ++ x.name ++ ".cpp" := by
  obtain ⟨_, e, _, _, rfl⟩ := mem_tests_buildFile.mp h
  exact testPath_eq e

/-- a type as the entry point lists it, in a part without a dot and its name -/
theorem exists_qualifiedName_eq {e : Entry} (he : e ∈ m.declaredTypes) :
    ∃ space : String, '.' ∉ space.toList ∧ qualifiedName e none = space ++ e.name := by
  have hlocal : localName e = e.name := by
    unfold localName
    rw [Model.outer_eq_none_of_mem_declaredTypes he]
  unfold qualifiedName
  rw [hlocal]
  cases hns : namespaceOf e with
  | none => exact ⟨"", List.not_mem_nil, (String.empty_append).symm⟩
  | some ns =>
    refine ⟨ns ++ "::", ?_, rfl⟩
    simp [dot_notMem_namespaceOf hns]

section
variable (hnames : ∀ e ∈ m.declaredTypes, '\n' ∉ e.name.toList)
include hnames

theorem statements_buildFile :
    statements ((buildFile m c).script.render indent) = (buildFile m c).texts := by
  refine BuildFile.statements_render (notMem_projectName (by decide) (by decide)) ?_ ?_
  · intro p hp
    obtain ⟨e, he, _, rfl⟩ := mem_sources_buildFile.mp hp
    exact statements_between (by decide) (by decide) (hnames e he)
  · intro x hx
    obtain ⟨_, e, he, _, rfl⟩ := mem_tests_buildFile.mp hx
    simp [testPath, hnames e he]

theorem listedSources_buildFile :
    listedSources ((buildFile m c).script.render indent) = (buildFile m c).sources := by
  unfold listedSources
  rw [statements_buildFile hnames]
  refine BuildFile.takeWhile_texts fun h => ?_
  obtain ⟨e, _, _, hp⟩ := mem_sources_buildFile.mp h
  exact sourcePath_ne.1 hp

/-- the programs are the entry point and the tests -/
theorem programLines_buildFile :
    (statements ((buildFile m c).script.render indent)).filter buildsProgram =
      mainLine m c :: (buildFile m c).tests.map fun x => testLine x.name := by
  have hsources : ∀ p ∈ (buildFile m c).sources, buildsProgram p = false := by
    intro p hp
    obtain ⟨e, _, _, rfl⟩ := mem_sources_buildFile.mp hp
    exact sourcePath_ne.2
  have htests : ∀ x ∈ (buildFile m c).tests, programLine x.name x.path = testLine x.name := by
    intro x hx
    unfold testLine
    rw [path_of_mem_tests hx]
  rw [statements_buildFile hnames, BuildFile.filter_texts hsources, List.map_congr_left htests]
  rfl

theorem line_of_buildsProgram {line : String}
    (h : line ∈ statements ((buildFile m c).script.render indent))
    (hprogram : buildsProgram line = true) : line = mainLine m c ∨ ∃ t, line = testLine t := by
  have hmem := List.mem_filter.mpr ⟨h, hprogram⟩
  rw [programLines_buildFile hnames] at hmem
  rcases List.mem_cons.mp hmem with hmain | htest
  · exact Or.inl hmain
  · obtain ⟨x, _, rfl⟩ := List.mem_map.mp htest
    exact Or.inr ⟨x.name, rfl⟩

theorem testLine_mem_buildFile_iff {t : String} :
    testLine t ∈ statements ((buildFile m c).script.render indent) ↔ c.generateTests = true ∧
      ∃ e ∈ m.declaredTypes, e.type.kind = .struct ∧ e.name ++ "Test" = t := by
  have hprogram : buildsProgram (testLine t) = true := buildsProgram_programLine _ _
  have hmain : testLine t ≠ mainLine m c :=
    testLine_ne_programLine (notMem_projectName (by decide) (by decide)) t
  rw [← and_iff_left (a := testLine t ∈ statements _) hprogram, ← List.mem_filter,
    programLines_buildFile hnames, List.mem_cons, or_iff_right hmain, List.mem_map]
  constructor
  · rintro ⟨x, hx, hline⟩
    obtain ⟨htests, e, he, hs, rfl⟩ := mem_tests_buildFile.mp hx
    exact ⟨htests, e, he, hs, testLine_inj hline⟩
  · rintro ⟨htests, e, he, hs, rfl⟩
    exact ⟨⟨e.name ++ "Test", testPath e⟩, mem_tests_buildFile.mpr ⟨htests, e, he, hs, rfl⟩, rfl⟩

/-- what the entry point prints includes no header, whatever the namespaces are -/
theorem includeLine_notMem_printed (stem : String) :
    ∀ t ∈ (entryPoint m c).printed, includeLine stem ∉ statements t := by
  intro t ht
  rcases List.mem_cons.mp ht with rfl | ht
  · refine includeLine_notMem_statements (a := "std::cout << \"".toList ++ (projectName m c).toList)
      (b := "\" << std::endl".toList) ?_ ?_ (by decide)
    · unfold printText
      simp [entryPoint]
    · simp [notMem_projectName]
  · obtain ⟨⟨kind, name⟩, hx, rfl⟩ := List.mem_map.mp ht
    obtain ⟨e, he, hx⟩ := List.mem_map.mp hx
    obtain ⟨rfl, rfl⟩ := Prod.mk.inj hx
    obtain ⟨space, hspace, hname⟩ := exists_qualifiedName_eq he
    have hkind : '.' ∉ (kindWord e.type.kind).toList := by
      cases e.type.kind <;> decide
    refine includeLine_notMem_statements
      (a := "std::cout << \"  ".toList ++ (kindWord e.type.kind).toList ++ ' ' :: space.toList)
      (b := e.name.toList ++ "\" << std::endl".toList) ?_ ?_ ?_
    · unfold printText
      rw [hname]
      simp
    · simp [hkind, hspace]
    · simp [hnames e he]

end

/-! ## paths -/

/-- the directory of the files of a kind -/
def FileKind.directory : FileKind → String
  | .header => "include/"
  | .source => "src/"
  | .test => "test/"

theorem isPrefixOf_path_iff {k k' : FileKind} {n : Name} :
    k.directory.toList.isPrefixOf (k'.path n).toList = true ↔ k' = k := by
  cases k <;> cases k' <;> simp [FileKind.directory, FileKind.path, List.isPrefixOf]

theorem not_isPrefixOf_buildFile (k : FileKind) :
    k.directory.toList.isPrefixOf "CMakeLists.txt".toList = false := by
  cases k <;> decide

theorem mem_pathsUnder_iff {files : FileSet} (h : (generate m c).2 = .ok files) {k : FileKind}
    {p : String} : p ∈ files.pathsUnder k.directory ↔
      (∃ e ∈ m.declaredTypes, k ∈ fileKinds c e ∧ k.path e.name = p) ∨
        k = .source ∧ p = "src/main.cpp" := by
  unfold FileSet.pathsUnder
  rw [List.mem_filter, FileSet.mem_paths_collect h, map_fst_plan, List.mem_append, List.mem_flatMap]
  constructor
  · rintro ⟨⟨e, he, hp⟩ | hp, hdir⟩
    · obtain ⟨k', hk', rfl⟩ := List.mem_map.mp hp
      obtain rfl := isPrefixOf_path_iff.mp hdir
      exact Or.inl ⟨e, he, hk', rfl⟩
    · rcases List.mem_pair.mp hp with rfl | rfl
      · rw [not_isPrefixOf_buildFile] at hdir
        cases hdir
      -- the entry point stands where the source of a type `main` would
      · have hmain : "src/main.cpp" = FileKind.source.path "main" := rfl
        rw [hmain] at hdir
        exact Or.inr ⟨(isPrefixOf_path_iff.mp hdir).symm, rfl⟩
  · rintro (⟨e, he, hk, rfl⟩ | ⟨rfl, rfl⟩)
    · exact ⟨Or.inl ⟨e, he, List.mem_map_of_mem hk⟩, isPrefixOf_path_iff.mpr rfl⟩
    · exact ⟨Or.inr (by simp), by decide⟩

/-- the build file and the entry point are written last -/
theorem get?_fixed {files : FileSet} (h : (generate m c).2 = .ok files) :
    files.get? "CMakeLists.txt" = some ((buildFile m c).script.render indent) ∧
      files.get? "src/main.cpp" = some ((entryPoint m c).script.render indent) := by
  -- a source of the same path is written over
  have hlast {path text : String}
      (hpath : (((plan m c).filter fun f => f.1 = path).getLast?).map (·.2) = some (.ok text)) :
      files.get? path = some text := by
    rw [FileSet.get?_collect h path] at hpath
    obtain ⟨text', htext, hok⟩ := Option.map_eq_some_iff.mp hpath
    rw [htext, Except.ok.inj hok]
  constructor
  · refine hlast ?_
    unfold plan
    rw [List.filter_append, List.getLast?_append]
    rfl
  · refine hlast ?_
    unfold plan
    rw [List.filter_append, List.getLast?_append]
    rfl

end

/-- In a project that is generated from types without line breaks in their names, the files under
`src/` are those that the build file lists and the entry point, the files under `test/` are the
sources of the tests that it builds, apart from which it builds the entry point only, and the files
under `include/` are the headers that the entry point includes. -/
theorem build_agrees (m : Model) (c : CppConfig)
    (hnames : ∀ e ∈ m.declaredTypes, '\n' ∉ e.name.toList) {files : FileSet}
    (h : (generate m c).2 = .ok files) :
    ∃ build main, files.get? "CMakeLists.txt" = some build ∧
      files.get? "src/main.cpp" = some main ∧
      (∀ p, p ∈ files.pathsUnder "src/" ↔ p ∈ listedSources build ∨ p = "src/main.cpp") ∧
      (∀ p, p ∈ files.pathsUnder "test/" ↔
        ∃ t, p = "test/" ++ t ++ ".cpp" ∧ testLine t ∈ statements build) ∧
      (∀ line ∈ statements build, buildsProgram line = true →
        line = mainLine m c ∨ ∃ t, line = testLine t) ∧
      (c.generateTests = false ∨ structEntries m = [] → files.pathsUnder "test/" = []) ∧
      ∀ p, p ∈ files.pathsUnder "include/" ↔
        ∃ stem, p = "include/" ++ stem ++ ".h" ∧ includeLine stem ∈ statements main := by
  obtain ⟨hbuild, hmain⟩ := get?_fixed h
  have htest (p : String) : p ∈ files.pathsUnder "test/" ↔
      ∃ e ∈ m.declaredTypes, (e.type.kind = .struct ∧ c.generateTests = true) ∧ testPath e = p := by
    refine (mem_pathsUnder_iff (k := .test) h).trans ((or_iff_left nofun).trans ?_)
    simp only [test_mem_fileKinds]
    rfl
  refine ⟨_, _, hbuild, hmain, fun p => ?_, fun p => ?_,
    fun _ hline => line_of_buildsProgram hnames hline, fun hnone => ?_, fun p => ?_⟩
  · rw [listedSources_buildFile hnames, mem_sources_buildFile]
    refine (mem_pathsUnder_iff (k := .source) h).trans (or_congr ?_ (and_iff_right rfl))
    simp only [source_mem_fileKinds]
    rfl
  · simp only [htest, testLine_mem_buildFile_iff hnames]
    constructor
    · rintro ⟨e, he, ⟨hs, htests⟩, rfl⟩
      exact ⟨e.name ++ "Test", testPath_eq e, htests, e, he, hs, rfl⟩
    · rintro ⟨_, rfl, htests, e, he, hs, rfl⟩
      exact ⟨e, he, ⟨hs, htests⟩, testPath_eq e⟩
  · rw [List.eq_nil_iff_forall_not_mem]
    intro p hp
    obtain ⟨e, he, ⟨hs, htests⟩, _⟩ := (htest p).mp hp
    rcases hnone with hoff | hnone
    · exact absurd (hoff.symm.trans htests) Bool.false_ne_true
    · have hmem : e ∈ structEntries m := List.mem_filter.mpr ⟨he, decide_eq_true hs⟩
      rw [hnone] at hmem
      cases hmem
  · have hincludes : ∀ i ∈ (entryPoint m c).includes, '\n' ∉ i.toList := by
      intro i hi
      obtain ⟨e, he, rfl⟩ := List.mem_map.mp hi
      exact hnames e he
    have hincluded (stem : String) : includeLine stem ∈
        statements ((entryPoint m c).script.render indent) ↔ ∃ e ∈ m.declaredTypes, e.name = stem :=
      (includeLine_mem_iff hincludes (includeLine_notMem_printed hnames stem)).trans List.mem_map
    refine (mem_pathsUnder_iff (k := .header) h).trans ((or_iff_left nofun).trans ?_)
    simp only [hincluded]
    constructor
    · rintro ⟨e, he, _, rfl⟩
      exact ⟨e.name, rfl, e, he, rfl⟩
    · rintro ⟨_, rfl, e, he, rfl⟩
      exact ⟨e, he, List.mem_cons_self, rfl⟩

/-- two structs of one name, one of them in a package, and a struct whose source the entry point
replaces -/
def crowded : Model :=
  { types :=
      [.struct { name := "main" } [], .struct { name := "Point" } [],
        .enumeration { name := "Mode", enumerators := [{ name := "OFF" }] }]
    packages := [{ name := "geometry", types := [.struct { name := "Point" } []] }] }

theorem build_agrees_crowded :
    ∃ files build main, (generate crowded.analyze.1 {}).2 = .ok files ∧
      files.get? "CMakeLists.txt" = some build ∧ files.get? "src/main.cpp" = some main ∧
      files.pathsUnder "src/" = ["src/main.cpp", "src/Point.cpp"] ∧
      "src/Point.cpp" ∈ listedSources build ∧
      (∃ t, "test/mainTest.cpp" = "test/" ++ t ++ ".cpp" ∧ testLine t ∈ statements build) ∧
      ∃ stem, "include/Mode.h" = "include/" ++ stem ++ ".h" ∧
        includeLine stem ∈ statements main := by
  have hnames : ∀ e ∈ crowded.analyze.1.declaredTypes, '\n' ∉ e.name.toList := by
    have hlist : crowded.analyze.1.declaredTypes.map (·.name) =
        ["main", "Point", "Mode", "Point"] := rfl
    exact fun e he => (by decide : ∀ n ∈ ["main", "Point", "Mode", "Point"], '\n' ∉ n.toList) e.name
      (hlist ▸ List.mem_map_of_mem he)
  have hpaths : ((generate crowded.analyze.1 {}).2.map fun files =>
      (files.pathsUnder "src/", files.pathsUnder "test/", files.pathsUnder "include/")) =
      .ok (["src/main.cpp", "src/Point.cpp"], ["test/mainTest.cpp", "test/PointTest.cpp"],
        ["include/main.h", "include/Point.h", "include/Mode.h"]) := by
    decide +kernel
  cases hfiles : (generate crowded.analyze.1 {}).2 with
  | error err =>
    rw [hfiles] at hpaths
    cases hpaths
  | ok files =>
    rw [hfiles] at hpaths
    obtain ⟨hsources, hothers⟩ := Prod.mk.inj (Except.ok.inj hpaths)
    obtain ⟨htests, hheaders⟩ := Prod.mk.inj hothers
    obtain ⟨build, main, hbuild, hmain, hlisted, htested, _, _, hincluded⟩ :=
      build_agrees crowded.analyze.1 {} hnames hfiles
    refine ⟨files, build, main, rfl, hbuild, hmain, hsources, ?_, (htested _).mp ?_,
      (hincluded _).mp ?_⟩
    · have hpoint := (hlisted "src/Point.cpp").mp (by rw [hsources]; decide)
      exact hpoint.resolve_right (by decide)
    · rw [htests]
      decide
    · rw [hheaders]
      decide

end Cpp

end TypeModel
