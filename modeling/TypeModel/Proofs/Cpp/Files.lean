import TypeModel.Proofs.Analysis.Names
import TypeModel.Proofs.Generation.Cpp
import TypeModel.Proofs.Output.FileSet

/-!
# Files and include guards of declared types

The files of a type are named after the type alone, so types of one name share them, in whatever
package they are.  The file that is written last stays, and the path is reported.

* `FileKind.path_inj`         a path tells the kind of file and the name of the type;
* `map_fst_plan`              the paths of a project, in the order in which they are written;
* `guard_eq_iff`              when two headers have one include guard;
* `Model.lastNamed? m n`      the last declared type of a name, and `get?_headerPath` that its header
                              is the one that stays;
* `files_follow_names`        all of this for a model that passes analysis.
-/

namespace TypeModel

/-- the last declared type of a name -/
def Model.lastNamed? (m : Model) (n : Name) : Option Entry :=
  (m.declaredTypes.filter fun e => e.name = n).getLast?

namespace Cpp

/-! ## paths -/

/-- the files of a declared type: `headerPath e` is `FileKind.header.path e.name` by definition, and
likewise for the others -/
inductive FileKind where
  | header
  | source
  | test
  deriving DecidableEq, Repr

namespace FileKind

def path : FileKind → Name → String
  | .header, n => "include/" ++ n ++ ".h"
  | .source, n => "src/" ++ n ++ ".cpp"
  | .test, n => "test/" ++ n ++ "Test.cpp"

theorem path_inj (k k' : FileKind) {n n' : Name} : k.path n = k'.path n' ↔ k = k' ∧ n = n' := by
  constructor
  · intro h
    have hchars := congrArg String.toList h
    cases k <;> cases k' <;> simp [path] at hchars ⊢ <;> exact String.toList_inj.mp hchars
  · rintro ⟨rfl, rfl⟩
    rfl

theorem path_ne (k k' : FileKind) (h : k ≠ k') (n n' : Name) : k.path n ≠ k'.path n' :=
  fun hpath => h ((path_inj k k').mp hpath).1

theorem path_ne_buildFile (k : FileKind) (n : Name) : k.path n ≠ "CMakeLists.txt" := by
  intro h
  have hchars := congrArg String.toList h
  cases k <;> simp [path] at hchars

/-- the entry point stands where the implementation of a struct `main` would -/
theorem path_eq_entryPoint (k : FileKind) {n : Name} :
    k.path n = "src/main.cpp" ↔ k = .source ∧ n = "main" :=
  @path_inj k .source n "main"

end FileKind

/-- the paths of two declared types are compared by the names of the types, and one name is taken by
the entry point -/
structure PathsFollowNames (a b : Entry) : Prop where
  header : headerPath a = headerPath b ↔ a.name = b.name
  source : sourcePath a = sourcePath b ↔ a.name = b.name
  test : testPath a = testPath b ↔ a.name = b.name
  apart : headerPath a ≠ sourcePath b ∧ headerPath a ≠ testPath b ∧ sourcePath a ≠ testPath b
  entryPoint : sourcePath a = "src/main.cpp" ↔ a.name = "main"
  others : headerPath a ≠ "src/main.cpp" ∧ testPath a ≠ "src/main.cpp"

theorem pathsFollowNames (a b : Entry) : PathsFollowNames a b where
  header := (FileKind.path_inj .header .header).trans (and_iff_right rfl)
  source := (FileKind.path_inj .source .source).trans (and_iff_right rfl)
  test := (FileKind.path_inj .test .test).trans (and_iff_right rfl)
  apart := by
    refine ⟨?_, ?_, ?_⟩
    · exact FileKind.path_ne .header .source (by decide) a.name b.name
    · exact FileKind.path_ne .header .test (by decide) a.name b.name
    · exact FileKind.path_ne .source .test (by decide) a.name b.name
  entryPoint := (FileKind.path_eq_entryPoint .source).trans (and_iff_right rfl)
  others := by
    refine ⟨?_, ?_⟩
    · exact FileKind.path_ne .header .source (by decide) a.name "main"
    · exact FileKind.path_ne .test .source (by decide) a.name "main"

/-- the kinds of files that are written for a declared type -/
def fileKinds (c : CppConfig) (e : Entry) : List FileKind :=
  .header ::
    if e.type.kind = .struct then .source :: if c.generateTests then [.test] else [] else []

variable {m : Model} {a b e : Entry} {c : CppConfig}

theorem nodup_fileKinds (c : CppConfig) (e : Entry) : (fileKinds c e).Nodup := by
  unfold fileKinds
  split
  · split <;> decide
  · decide

theorem source_mem_fileKinds : FileKind.source ∈ fileKinds c e ↔ e.type.kind = .struct := by
  unfold fileKinds
  split
  case isTrue h => simp [h]
  case isFalse h => simp [h]

theorem test_mem_fileKinds :
    FileKind.test ∈ fileKinds c e ↔ e.type.kind = .struct ∧ c.generateTests = true := by
  unfold fileKinds
  split
  case isTrue h => cases c.generateTests <;> simp [h]
  case isFalse h => simp [h]

theorem map_fst_typePlan (m : Model) (c : CppConfig) (e : Entry) :
    (typePlan m c e).map (·.1) = (fileKinds c e).map (·.path e.name) := by
  unfold typePlan fileKinds
  cases ht : e.type with
  | struct s inner =>
    cases c.generateTests <;> rfl
  | enumeration x => rfl
  | array x => rfl
  | «alias» x => rfl

theorem map_fst_plan (m : Model) (c : CppConfig) :
    (plan m c).map (·.1) =
      m.declaredTypes.flatMap (fun e => (fileKinds c e).map (·.path e.name)) ++
        ["CMakeLists.txt", "src/main.cpp"] := by
  unfold plan
  rw [List.map_append, List.map_flatMap]
  simp only [map_fst_typePlan]
  rfl

/-- two types share a path if and only if they share their name -/
theorem disjoint_paths_iff :
    List.Disjoint ((fileKinds c a).map (·.path a.name)) ((fileKinds c b).map (·.path b.name)) ↔
      a.name ≠ b.name := by
  constructor
  · intro h hname
    have hheader : ∀ e : Entry, FileKind.header.path e.name ∈
        (fileKinds c e).map (·.path e.name) := fun e => List.mem_map_of_mem List.mem_cons_self
    exact h (hheader a) (hname ▸ hheader b)
  · intro hname path ha hb
    obtain ⟨k, _, rfl⟩ := List.mem_map.mp ha
    obtain ⟨k', _, h⟩ := List.mem_map.mp hb
    exact hname ((FileKind.path_inj _ _).mp h).2.symm

/-- no two declared types have one name, and no struct has the name of the entry point -/
structure DistinctPaths (m : Model) : Prop where
  names : (m.declaredTypes.map Entry.name).Nodup
  main : ∀ e ∈ m.declaredTypes, e.type.kind = .struct → e.name ≠ "main"

theorem nodup_paths_iff (m : Model) (c : CppConfig) :
    ((plan m c).map (·.1)).Nodup ↔ DistinctPaths m := by
  have hown : ∀ e ∈ m.declaredTypes, ((fileKinds c e).map (·.path e.name)).Nodup := fun e _ =>
    (nodup_fileKinds c e).map fun _ _ h => ((FileKind.path_inj _ _).mp h).1
  rw [map_fst_plan, List.nodup_append, List.nodup_flatMap, and_iff_right hown]
  have hnames : m.declaredTypes.Pairwise (Function.onFun List.Disjoint fun e =>
      (fileKinds c e).map (·.path e.name)) ↔ (m.declaredTypes.map Entry.name).Nodup := by
    rw [List.nodup_iff_pairwise_ne, List.pairwise_map]
    unfold Function.onFun
    simp only [disjoint_paths_iff]
  rw [hnames, and_iff_right (by decide : ["CMakeLists.txt", "src/main.cpp"].Nodup)]
  constructor
  · rintro ⟨hnodup, happart⟩
    refine ⟨hnodup, fun e he hs hname => ?_⟩
    refine happart _ (List.mem_flatMap.mpr ⟨e, he, ?_⟩) "src/main.cpp" (by simp) rfl
    exact List.mem_map.mpr ⟨.source, source_mem_fileKinds.mpr hs,
      (FileKind.path_eq_entryPoint _).mpr ⟨rfl, hname⟩⟩
  · rintro ⟨hnodup, hmain⟩
    refine ⟨hnodup, fun path hpath fixed hfixed heq => ?_⟩
    obtain ⟨e, he, hpath⟩ := List.mem_flatMap.mp hpath
    obtain ⟨k, hk, rfl⟩ := List.mem_map.mp hpath
    rcases List.mem_pair.mp hfixed with rfl | rfl
    · exact k.path_ne_buildFile e.name heq
    · obtain ⟨rfl, hname⟩ := (FileKind.path_eq_entryPoint k).mp heq
      exact hmain e he (source_mem_fileKinds.mp hk) hname

/-! ## include guards -/

/-- the guard of the header of a declared type -/
def guardOf (e : Entry) : String := includeGuard (namespaceOf e) e.name

/-- what stands in front of the name in a guard: the segments of the namespace in upper case -/
def guardLead (ns : Option String) : List Char :=
  ((ns.map fun ns => splitScopes ns.toList).getD []).flatMap fun s => Text.upperAll s ++ ['_']

theorem upperAll_append (xs ys : List Char) :
    Text.upperAll (xs ++ ys) = Text.upperAll xs ++ Text.upperAll ys := List.flatMap_append

theorem upperAll_flatMap (parts : List (List Char)) :
    Text.upperAll (parts.flatMap (· ++ ['_'])) =
      parts.flatMap fun s => Text.upperAll s ++ ['_'] := by
  induction parts with
  | nil => rfl
  | cons part parts ih =>
    rw [List.flatMap_cons, List.flatMap_cons, upperAll_append, upperAll_append, ih]
    rfl

theorem toList_joinWith_concat (parts : List (List Char)) (last : String) :
    (Text.joinWith "_" (parts.map String.ofList ++ [last])).toList =
      parts.flatMap (· ++ ['_']) ++ last.toList := by
  induction parts with
  | nil => simp [Text.joinWith]
  | cons part parts ih =>
    have hne : ∃ p ps, parts.map String.ofList ++ [last] = p :: ps := by
      cases parts with
      | nil => exact ⟨_, _, rfl⟩
      | cons q parts => exact ⟨_, _, rfl⟩
    obtain ⟨p, ps, hps⟩ := hne
    rw [hps] at ih
    rw [List.map_cons, List.cons_append, hps, List.flatMap_cons, List.append_assoc, ← ih]
    simp [Text.joinWith]

theorem toList_includeGuard (ns : Option String) (name : String) :
    (includeGuard ns name).toList =
      guardLead ns ++ (Text.upperAll name.toList ++ ['_', 'H']) := by
  have hsegments : (ns.map fun ns => (splitScopes ns.toList).map String.ofList).getD [] =
      ((ns.map fun ns => splitScopes ns.toList).getD []).map String.ofList := by
    cases ns <;> rfl
  unfold includeGuard guardLead
  dsimp only
  rw [hsegments, String.toList_append, Text.toUpper, String.toList_ofList, toList_joinWith_concat,
    upperAll_append, upperAll_flatMap, List.append_assoc]
  rfl

/-- the lead of the guard of `b` continues that of `a`, and the name of `a` makes up for it -/
def GuardContinues (a b : Entry) : Prop :=
  ∃ rest, guardLead (namespaceOf b) = guardLead (namespaceOf a) ++ rest ∧
    Text.upperAll a.name.toList = rest ++ Text.upperAll b.name.toList

theorem guard_eq_iff : guardOf a = guardOf b ↔ GuardContinues a b ∨ GuardContinues b a := by
  unfold guardOf GuardContinues
  rw [← String.toList_inj, toList_includeGuard, toList_includeGuard, ← List.append_assoc,
    ← List.append_assoc, List.append_left_inj, List.append_eq_append_iff]

/-- in one namespace, guards are equal if and only if the names are equal in upper case -/
theorem guard_eq_iff_of_namespace (h : namespaceOf a = namespaceOf b) :
    guardOf a = guardOf b ↔ Text.toUpper a.name = Text.toUpper b.name := by
  unfold guardOf Text.toUpper
  rw [← String.toList_inj, toList_includeGuard, toList_includeGuard, h, List.append_right_inj,
    List.append_left_inj, String.ofList_inj]

theorem ns_of_header {h : Header} (hh : Header.ofEntry m e = .ok h) :
    h.ns = namespaceOf e ∧ h.name = e.name := by
  unfold Header.ofEntry at hh
  cases ht : e.type with
  | struct s inner =>
    rw [ht] at hh
    obtain ⟨included, _, hh⟩ := bind_eq_ok.mp hh
    obtain ⟨c, _, hh⟩ := bind_eq_ok.mp hh
    cases hh
    exact ⟨rfl, (congrArg TypeDef.name ht).symm⟩
  | enumeration x =>
    rw [ht] at hh
    cases hh
    exact ⟨rfl, (congrArg TypeDef.name ht).symm⟩
  | array x =>
    rw [ht] at hh
    obtain ⟨included, _, hh⟩ := bind_eq_ok.mp hh
    obtain ⟨u, _, hh⟩ := bind_eq_ok.mp hh
    cases hh
    exact ⟨rfl, (congrArg TypeDef.name ht).symm⟩
  | «alias» x =>
    rw [ht] at hh
    obtain ⟨included, _, hh⟩ := bind_eq_ok.mp hh
    obtain ⟨u, _, hh⟩ := bind_eq_ok.mp hh
    cases hh
    exact ⟨rfl, (congrArg TypeDef.name ht).symm⟩

/-! ## the files that stay -/

/-- the header of a declared type with its path -/
def headerFile (m : Model) (e : Entry) : String × Except GenerationError String :=
  (headerPath e, (Header.ofEntry m e).map Header.text)

theorem filter_typePlan (m : Model) (c : CppConfig) (e d : Entry) :
    (typePlan m c d).filter (fun f => f.1 = headerPath e) =
      if d.name = e.name then [headerFile m d] else [] := by
  have hheader : (headerPath d = headerPath e) = (d.name = e.name) :=
    propext (pathsFollowNames d e).header
  obtain ⟨hsource, htest, _⟩ := (pathsFollowNames e d).apart
  have hrest : ∀ files : List (String × Except GenerationError String),
      (∀ f ∈ files, f.1 = sourcePath d ∨ f.1 = testPath d) →
        files.filter (fun f => f.1 = headerPath e) = [] := by
    intro files hfiles
    refine List.filter_eq_nil_iff.mpr fun f hf => ?_
    rcases hfiles f hf with h | h
    · simpa [h] using hsource.symm
    · simpa [h] using htest.symm
  have hcons : ∀ files, (∀ f ∈ files, f.1 = sourcePath d ∨ f.1 = testPath d) →
      (headerFile m d :: files).filter (fun f => f.1 = headerPath e) =
        if d.name = e.name then [headerFile m d] else [] := by
    intro files hfiles
    rw [List.filter_cons, hrest files hfiles]
    show (if decide (headerPath d = headerPath e) then _ else _) = _
    simp only [hheader, decide_eq_true_eq]
  unfold typePlan
  refine hcons _ fun f hf => ?_
  cases ht : d.type with
  | struct s inner =>
    rw [ht] at hf
    rcases List.mem_cons.mp hf with rfl | hf
    · exact Or.inl rfl
    · split at hf
      · exact Or.inr (congrArg Prod.fst (List.mem_singleton.mp hf))
      · cases hf
  | enumeration x => rw [ht] at hf; cases hf
  | array x => rw [ht] at hf; cases hf
  | «alias» x => rw [ht] at hf; cases hf

/-- the headers at a path are those of the declared types of one name, in order -/
theorem filter_plan (m : Model) (c : CppConfig) (e : Entry) :
    (plan m c).filter (fun f => f.1 = headerPath e) =
      (m.declaredTypes.filter fun d => d.name = e.name).map (headerFile m) := by
  have hfixed : ∀ files : List (String × Except GenerationError String),
      (∀ f ∈ files, f.1 = "CMakeLists.txt" ∨ f.1 = "src/main.cpp") →
        files.filter (fun f => f.1 = headerPath e) = [] := by
    intro files hfiles
    refine List.filter_eq_nil_iff.mpr fun f hf h => ?_
    have hpath : f.1 = FileKind.header.path e.name := of_decide_eq_true h
    rcases hfiles f hf with hf | hf
    · exact FileKind.header.path_ne_buildFile e.name (hpath.symm.trans hf)
    · cases ((FileKind.path_eq_entryPoint _).mp (hpath.symm.trans hf)).1
  have htail := hfixed [("CMakeLists.txt", .ok (Text.Script.render indent (buildFile m c).script)),
    ("src/main.cpp", .ok (Text.Script.render indent (entryPoint m c).script))] (by simp)
  unfold plan
  rw [List.filter_append, htail, List.append_nil, List.filter_flatMap, map_filter_eq_flatMap]
  simp only [filter_typePlan, decide_eq_true_eq]

theorem lastNamed?_of_mem (he : e ∈ m.declaredTypes) : ∃ d, m.lastNamed? e.name = some d := by
  refine Option.ne_none_iff_exists'.mp fun hnone => ?_
  have hmem : e ∈ m.declaredTypes.filter fun d => d.name = e.name :=
    List.mem_filter.mpr ⟨he, by simp⟩
  rw [List.getLast?_eq_none_iff.mp hnone] at hmem
  cases hmem

/-- the header that stays for the types of one name is that of the last of them -/
theorem get?_headerPath {files : FileSet} (h : (generate m c).2 = .ok files)
    (he : e ∈ m.declaredTypes) :
    ∃ d header, m.lastNamed? e.name = some d ∧ Header.ofEntry m d = .ok header ∧
      files.get? (headerPath e) = some header.text := by
  obtain ⟨d, hd⟩ := lastNamed?_of_mem he
  have hlast : (m.lastNamed? e.name).map (fun d => (headerFile m d).2) =
      (files.get? (headerPath e)).map .ok := by
    rw [← FileSet.get?_collect h, filter_plan, List.getLast?_map, Option.map_map]
    rfl
  rw [hd] at hlast
  obtain ⟨text, htext, hok⟩ := Option.map_eq_some_iff.mp hlast.symm
  replace hok : .ok text = (Header.ofEntry m d).map Header.text := hok
  cases hheader : Header.ofEntry m d with
  | error err =>
    rw [hheader] at hok
    cases hok
  | ok header =>
    rw [hheader] at hok
    have hheaderText : text = header.text := Except.ok.inj hok
    rw [hheaderText] at htext
    exact ⟨d, header, hd, hheader, htext⟩

/-- every path of a declared type is in the project -/
theorem path_mem_generate {files : FileSet} (h : (generate m c).2 = .ok files)
    (he : e ∈ m.declaredTypes) {k : FileKind} (hk : k ∈ fileKinds c e) :
    k.path e.name ∈ files.paths := by
  rw [FileSet.mem_paths_collect h, map_fst_plan]
  refine List.mem_append_left _ (List.mem_flatMap.mpr ⟨e, he, ?_⟩)
  exact List.mem_map_of_mem hk

/-- what stands at the paths of the declared type `e` -/
structure FilesOf (m : Model) (c : CppConfig) (files : FileSet) (e : Entry) : Prop where
  header : ∃ d h, m.lastNamed? e.name = some d ∧ Header.ofEntry m d = .ok h ∧
    h.ns = namespaceOf d ∧ h.name = d.name ∧ files.get? (headerPath e) = some h.text
  source : e.type.kind = .struct → sourcePath e ∈ files.paths
  test : e.type.kind = .struct → c.generateTests = true → testPath e ∈ files.paths

theorem filesOf_generate {files : FileSet} (h : (generate m c).2 = .ok files)
    (he : e ∈ m.declaredTypes) : FilesOf m c files e where
  header := by
    obtain ⟨d, header, hd, hheader, htext⟩ := get?_headerPath h he
    obtain ⟨hns, hname⟩ := ns_of_header hheader
    exact ⟨d, header, hd, hheader, hns, hname, htext⟩
  source hs := path_mem_generate h he (source_mem_fileKinds.mpr hs)
  test hs htests := path_mem_generate h he (test_mem_fileKinds.mpr ⟨hs, htests⟩)

/-! ## the result -/

/-- After analysis, the files of two declared types have one path if and only if the types have one
name, which types of one list never have; their include guards are equal if and only if the lead of
one continues that of the other and the names make up for it, in one namespace if the names are equal
in upper case.  A project that is generated writes over a file, and reports its path, if and only if
two declared types have one name or a struct is named `main`.  Every path of a declared type is in
it, and the header there is that of the last type of the name. -/
theorem files_follow_names (m : Model) {r : Model} {ds : Diagnostics}
    (h : m.analyze = (r, .ok ds)) :
    (∀ a ∈ r.declaredTypes, ∀ b ∈ r.declaredTypes, PathsFollowNames a b ∧
      (a ≠ b → a.id.package = b.id.package → a.name ≠ b.name) ∧
      (guardOf a = guardOf b ↔ GuardContinues a b ∨ GuardContinues b a) ∧
      (namespaceOf a = namespaceOf b →
        (guardOf a = guardOf b ↔ Text.toUpper a.name = Text.toUpper b.name))) ∧
    ∀ c : CppConfig, (DistinctPaths r → (generate r c).1 = []) ∧
      ∀ files, (generate r c).2 = .ok files →
        ((generate r c).1 = [] ↔ DistinctPaths r) ∧
        ∀ e ∈ r.declaredTypes, FilesOf r c files e := by
  have hm : r.DistinctNames := .of_analyze h
  have hnames : ∀ a ∈ r.declaredTypes, ∀ b ∈ r.declaredTypes,
      a ≠ b → a.id.package = b.id.package → a.name ≠ b.name := by
    intro a ha b hb hab hpackage hname
    have hscope : a.id.scope = b.id.scope := by
      unfold TypeId.scope
      rw [hpackage, Model.inner_eq_none_of_mem_declaredTypes ha,
        Model.inner_eq_none_of_mem_declaredTypes hb]
      rfl
    exact hab (hm.eq_of_name_eq (mem_allTypes_of_mem_declaredTypes ha)
      (mem_allTypes_of_mem_declaredTypes hb) hscope hname)
  refine ⟨fun a ha b hb => ?_, fun c => ?_⟩
  · exact ⟨pathsFollowNames a b, hnames a ha b hb, guard_eq_iff, guard_eq_iff_of_namespace⟩
  · obtain ⟨hsilent, hreported⟩ := FileSet.collect_eq_nil (plan r c)
    rw [nodup_paths_iff] at hsilent hreported
    exact ⟨hsilent, fun files hfiles =>
      ⟨⟨hreported files hfiles, hsilent⟩, fun e he => filesOf_generate hfiles he⟩⟩

/-- two enumerations of one name, one of them in a package, and two structs whose names differ in
letter case -/
def sharedStems : Model :=
  { types :=
      [.enumeration { name := "Status", enumerators := [{ name := "ACTIVE" }] },
        .struct { name := "UserName" } [], .struct { name := "Username" } []]
    packages :=
      [{ name := "billing",
         types := [.enumeration { name := "Status", enumerators := [{ name := "PAID" }] }] }] }

theorem analyze_sharedStems : sharedStems.analyze = (sharedStems.analyze.1, .ok []) :=
  Prod.ext rfl (by decide +kernel)

/-- the header that stays is that of the package -/
theorem files_follow_names_sharedStems :
    sharedStems.analyze = (sharedStems.analyze.1, .ok []) ∧
      ¬ DistinctPaths sharedStems.analyze.1 ∧
      ∃ e ∈ sharedStems.analyze.1.declaredTypes, e.id = .topLevel 0 ∧
        ∃ d h files, d.id = .packaged 0 0 ∧ Header.ofEntry sharedStems.analyze.1 d = .ok h ∧
          (generate sharedStems.analyze.1 {}).2 = .ok files ∧
          files.get? (headerPath e) = some h.text := by
  have he := List.mem_of_getElem? (l := sharedStems.analyze.1.declaredTypes) (i := 0) rfl
  have hok : (generate sharedStems.analyze.1 {}).2.isOk = true := by decide +kernel
  obtain ⟨files, hfiles⟩ := succeeds_iff_isOk.mpr hok
  obtain ⟨hiff, hfilesOf⟩ :=
    ((files_follow_names sharedStems analyze_sharedStems).2 {}).2 files hfiles
  refine ⟨analyze_sharedStems, mt hiff.mpr (by decide +kernel), _, he, rfl, ?_⟩
  obtain ⟨d, h, hd, hheader, _, _, htext⟩ := (hfilesOf _ he).header
  have hid : (sharedStems.analyze.1.lastNamed? "Status").map (·.id) = some (.packaged 0 0) := rfl
  rw [show sharedStems.analyze.1.lastNamed? "Status" = some d from hd] at hid
  exact ⟨d, h, files, Option.some.inj hid, hheader, hfiles, htext⟩

/-- two types have one header path, so that one header is written over the other, and two others have
one include guard -/
theorem not_files_distinct_sharedStems :
    sharedStems.analyze.2 = .ok [] ∧
      (∃ a ∈ sharedStems.analyze.1.declaredTypes, ∃ b ∈ sharedStems.analyze.1.declaredTypes,
        a ≠ b ∧ headerPath a = headerPath b) ∧
      (∃ a ∈ sharedStems.analyze.1.declaredTypes, ∃ b ∈ sharedStems.analyze.1.declaredTypes,
        headerPath a ≠ headerPath b ∧ guardOf a = guardOf b) ∧
      (generate sharedStems.analyze.1 {}).1 = ["include/Status.h"] ∧
      (generate sharedStems.analyze.1 {}).2.isOk = true := by
  have hmem : ∀ i e, sharedStems.analyze.1.declaredTypes[i]? = some e →
      e ∈ sharedStems.analyze.1.declaredTypes := fun _ _ => List.mem_of_getElem?
  refine ⟨congrArg Prod.snd analyze_sharedStems, ⟨_, hmem 0 _ rfl, _, hmem 3 _ rfl, ?_, rfl⟩,
    ⟨_, hmem 1 _ rfl, _, hmem 2 _ rfl, by decide +kernel, by decide +kernel⟩, ?_, ?_⟩
  · intro h
    cases congrArg Entry.id h
  · decide +kernel
  · decide +kernel

end Cpp

end TypeModel
