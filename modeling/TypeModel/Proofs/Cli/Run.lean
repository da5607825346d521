import TypeModel.Cli.Run
import TypeModel.Proofs.Generation.Depth
import TypeModel.Proofs.Output.FileSystem

/-!
# What a run does to files

* `RunError.isEarly e`       the run failed before it came to writing;
* `Output.targets o a`       the full paths that a run writes to, with their texts;
* `run_cases`                a run fails early and leaves everything, or publishes what it generated;
* `spares_publish`           publishing without force spares the files that the targets lead to;
* `run_spares_files`         both, for every run.

A target that leads to nothing because a directory in front of a step `..` is missing is not
spared: `not_spared_detour`.
-/

namespace TypeModel

/-- the full paths of a set of files below a directory, if there is one -/
def FileSystem.setTargets (dir : String) (set : Option FileSet) : List (String × String) :=
  targets dir ((set.map FileSet.files).getD [])

def Output.targets (o : Output) (a : Cli.Args) : List (String × String) :=
  FileSystem.setTargets a.output o.cpp ++ FileSystem.setTargets a.protoDirectory o.proto

namespace Cli

open FileSystem

/-- settings, model, analysis or generation failed -/
def RunError.isEarly : RunError → Bool
  | .load _ | .compile _ => true
  | .writing | .command _ => false

section
variable (execute : String → List String → Execution) (a : Args) (fs : FileSystem)

theorem spares_storeFiles (dir : String) (set : Option FileSet) :
    Spares fs (storeFiles fs false dir set).1 (setTargets dir set) := by
  cases set with
  | none => exact Spares.refl fs
  | some set => exact spares_storeAll dir set.files fs

/-- the schema is stored only if the project was -/
theorem publish_fst (force : Bool) (output : Output) :
    (publish execute a force output fs).1 =
      match (storeFiles fs force a.output output.cpp).2 with
      | none => (storeFiles fs force a.output output.cpp).1
      | some _ =>
        (storeFiles (storeFiles fs force a.output output.cpp).1 force a.protoDirectory
          output.proto).1 := by
  unfold publish
  dsimp only
  cases (storeFiles fs force a.output output.cpp).2 with
  | none => rfl
  | some cppFiles =>
    dsimp only
    cases (storeFiles (storeFiles fs force a.output output.cpp).1 force a.protoDirectory
      output.proto).2 with
    | none => rfl
    | some protoFiles =>
      dsimp only
      cases output.descriptor with
      | none => rfl
      | some request => cases output.proto <;> rfl

theorem spares_publish (output : Output) :
    Spares fs (publish execute a false output fs).1 (output.targets a) := by
  have hcpp := spares_storeFiles fs a.output output.cpp
  rw [publish_fst]
  cases (storeFiles fs false a.output output.cpp).2 with
  | none => exact hcpp.mono fun x hx => List.mem_append_left _ hx
  | some cppFiles => exact hcpp.trans (spares_storeFiles _ a.protoDirectory output.proto)

/-- nothing that fails while files are written is an early failure -/
theorem isEarly_of_publish (force : Bool) (output : Output) {e : RunError}
    (h : (publish execute a force output fs).2 = .error e) : e.isEarly = false := by
  unfold publish at h
  dsimp only at h
  cases hcpp : (storeFiles fs force a.output output.cpp).2 with
  | none =>
    rw [hcpp] at h
    cases h
    rfl
  | some cppFiles =>
    rw [hcpp] at h
    dsimp only at h
    cases hproto : (storeFiles (storeFiles fs force a.output output.cpp).1 force a.protoDirectory
      output.proto).2 with
    | none =>
      rw [hproto] at h
      cases h
      rfl
    | some protoFiles =>
      rw [hproto] at h
      dsimp only at h
      split at h
      · next request _ _ _ =>
        unfold compileDescriptor at h
        split at h
        · cases h
          rfl
        · cases h
        · cases h
          rfl
      · cases h

/-- a run fails early and leaves the files as they were, or it publishes what it has generated -/
theorem run_cases (settings : String) :
    ((run execute settings a fs).files = fs ∧
      ∃ e, (run execute settings a fs).result = .error e ∧ e.isEarly = true) ∨
    ∃ c m output, loadAll settings a fs = .ok (c, m) ∧
      (c.generate (c.analyze m).model).2 = .ok output ∧
      (run execute settings a fs).files =
        (publish execute a c.generation.forceOverwrite output fs).1 ∧
      ∀ e, (run execute settings a fs).result = .error e → e.isEarly = false := by
  unfold run
  cases hload : loadAll settings a fs with
  | error e => exact Or.inl ⟨rfl, _, rfl, rfl⟩
  | ok x =>
    obtain ⟨c, m⟩ := x
    dsimp only
    cases (c.analyze m).result with
    | error e => exact Or.inl ⟨rfl, _, rfl, rfl⟩
    | ok ds =>
      dsimp only
      cases hgen : (c.generate (c.analyze m).model).2 with
      | error e => exact Or.inl ⟨rfl, _, rfl, rfl⟩
      | ok output =>
        refine Or.inr ⟨c, m, output, rfl, hgen, rfl, fun e he => ?_⟩
        refine isEarly_of_publish execute a fs c.generation.forceOverwrite output ?_
        cases hpub : (publish execute a c.generation.forceOverwrite output fs).2 with
        | error e' =>
          dsimp only at he
          rw [hpub] at he
          cases he
          rfl
        | ok files =>
          dsimp only at he
          rw [hpub] at he
          cases he

/-- force comes from the flag or from the settings -/
theorem forceOverwrite_of_loadAll {settings : String} (hflag : a.force = false)
    (hsettings : ∀ c, loadConfig fs settings a.config = .ok c →
      c.generation.forceOverwrite = false) {c : Config} {m : Model}
    (h : loadAll settings a fs = .ok (c, m)) : c.generation.forceOverwrite = false := by
  unfold loadAll at h
  obtain ⟨c', hc', h⟩ := bind_eq_ok.mp h
  obtain ⟨m', _, h⟩ := bind_eq_ok.mp h
  cases h
  show (c'.generation.forceOverwrite || a.force) = false
  rw [hsettings c' hc', hflag]
  rfl

end

/-- a run that fails before it comes to writing leaves all files as they were; and without force,
whether it fails or not, a run changes the text of a file only if it generates a file for a path to
the same place that has a step `..` and led to nothing when the run began -/
theorem run_spares_files (execute : String → List String → Execution) (settings : String)
    (a : Args) (fs : FileSystem) :
    (∀ e, (run execute settings a fs).result = .error e → e.isEarly = true →
      (run execute settings a fs).files = fs) ∧
    (a.force = false →
      (∀ c, loadConfig fs settings a.config = .ok c → c.generation.forceOverwrite = false) →
      ∀ q t, fs.read? q = some t →
        (run execute settings a fs).files.read? q = some t ∨
        ∃ c m output, loadAll settings a fs = .ok (c, m) ∧
          (c.generate (c.analyze m).model).2 = .ok output ∧
          ∃ x ∈ output.targets a, fs.contains x.1 = false ∧ destination x.1 = destination q ∧
            ".." ∈ Path.route x.1 ∧ (run execute settings a fs).files.read? q = some x.2) := by
  rcases run_cases execute a fs settings with ⟨hfiles, _, _⟩ |
    ⟨c, m, output, hload, hgen, hfiles, hlate⟩
  · refine ⟨fun _ _ _ => hfiles, fun _ _ q t hq => Or.inl ?_⟩
    rw [hfiles]
    exact hq
  · refine ⟨fun e he hearly => ?_, fun hflag hsettings q t hq => ?_⟩
    · rw [hlate e he] at hearly
      cases hearly
    · rw [forceOverwrite_of_loadAll a fs hflag hsettings hload] at hfiles
      rw [hfiles]
      rcases (spares_publish execute a fs output).read? hq with hkept | hlost
      · exact Or.inl hkept
      · exact Or.inr ⟨c, m, output, hload, hgen, hlost⟩

/-- a model, and a header that was edited after it was generated -/
def edited : FileSystem :=
  { nodes :=
      [(["m.toml"], .file ("[[types]]\nkind = \"enumeration\"\nname = \"Status\"\n" ++
          "[[types.enumerators]]\nname = \"ACTIVE\"\n")),
        (["gen"], .directory), (["gen", "include"], .directory),
        (["gen", "include", "Status.h"], .file "// edited by hand\n")] }

/-- the output directory is that of the header, by way of a directory that is not there -/
def detour : Args := { input := "m.toml", output := "new/../gen" }

def noProgram (_ : String) (_ : List String) : Execution := .notStarted "no program"

theorem loadConfig_edited : loadConfig edited "" detour.config = .ok {} := by decide +kernel

theorem read?_edited : edited.read? "gen/include/Status.h" = some "// edited by hand\n" := by
  decide +kernel

theorem read?_detour : (run noProgram "" detour edited).files.read? "gen/include/Status.h" ≠
    some "// edited by hand\n" := by decide +kernel

/-- the header is overwritten, although nothing allows it -/
theorem not_spared_detour :
    detour.force = false ∧ loadConfig edited "" detour.config = .ok {} ∧
      edited.read? "gen/include/Status.h" = some "// edited by hand\n" ∧
      (run noProgram "" detour edited).files.read? "gen/include/Status.h" ≠
        some "// edited by hand\n" :=
  ⟨rfl, loadConfig_edited, read?_edited, read?_detour⟩

/-- it is overwritten by way of a target that led to nothing -/
theorem run_spares_files_detour :
    ∃ c m output, loadAll "" detour edited = .ok (c, m) ∧
      (c.generate (c.analyze m).model).2 = .ok output ∧
      ∃ x ∈ output.targets detour, edited.contains x.1 = false ∧
        destination x.1 = destination "gen/include/Status.h" ∧ ".." ∈ Path.route x.1 := by
  have hsettings : ∀ c, loadConfig edited "" detour.config = .ok c →
      c.generation.forceOverwrite = false := by
    intro c hc
    rw [loadConfig_edited] at hc
    cases hc
    rfl
  rcases (run_spares_files noProgram "" detour edited).2 rfl hsettings _ _ read?_edited with
    hkept | ⟨c, m, output, hload, hgen, x, hx, habsent, hplace, hup, _⟩
  · exact absurd hkept read?_detour
  · exact ⟨c, m, output, hload, hgen, x, hx, habsent, hplace, hup⟩

end Cli

end TypeModel
