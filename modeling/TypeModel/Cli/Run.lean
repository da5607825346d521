import TypeModel.Cli.Args
import TypeModel.Cli.Load
import TypeModel.Compiler
import TypeModel.Statistics

/-!
# One run of the command line program

`run` loads settings and model, compiles, writes the files and has a descriptor set compiled if
one is asked for.  Files are written only after everything was generated, so a run that fails
before that leaves the file system as it was.

Running a program is left to a function `execute` from its name and arguments to what came of it.
-/

namespace TypeModel.Cli

inductive Execution where
  | notStarted (reason : String)
  /-- the program ended with a status and left a text on its error channel -/
  | ended (status : Nat) (errors : String)
  deriving DecidableEq, Repr

inductive RunError where
  | load (e : LoadError)
  | compile (e : CompileError)
  | writing
  | command (reason : String)
  deriving DecidableEq, Repr

/-- what a run has done -/
structure RunReport where
  diagnostics : Diagnostics
  statistics : Statistics
  cppDirectory : Option String := none
  protoDirectory : Option String := none
  /-- every file with what happened to it, in order -/
  files : List (String × WriteOutcome) := []
  deriving DecidableEq

namespace RunReport

def skippedFiles (r : RunReport) : List (String × WriteOutcome) :=
  r.files.filter (·.2 = .skipped)

def ruleWidth : Nat := 40

def rule (width : Nat) : String := String.ofList (List.replicate width '=')

/-- a title in the middle of a rule -/
def titleLine (title : String) : String :=
  let room := ruleWidth - title.length
  rule (room / 2) ++ title ++ rule (room - room / 2)

def fileLine : String × WriteOutcome → String
  | (path, .written) => "  - " ++ path
  | (path, .skipped) => "  - " ++ path ++ " (skipped, exists)"

def lines (r : RunReport) : List String :=
  [titleLine " Generation Summary "] ++ r.statistics.lines ++ [""] ++
    (r.cppDirectory.map ("C++ output: " ++ ·)).toList ++
    (r.protoDirectory.map ("Protobuf output: " ++ ·)).toList ++
    ["Diagnostics: " ++ r.diagnostics.summary, "", "Generated files:"] ++
    r.files.map fileLine ++ [rule ruleWidth]

def text (r : RunReport) : String := String.join (r.lines.map (· ++ "\n"))

end RunReport

/-- the state a run leaves behind and what came of it -/
structure RunResult where
  files : FileSystem
  notices : List Notice
  result : Except RunError RunReport

/-- arguments for the schema compiler -/
def descriptorArguments (r : Proto.DescriptorRequest) : List String :=
  let dir := (Path.parent? r.input).getD ""
  ["--include_imports", "--descriptor_set_out=" ++ r.output, "-I",
    if dir.isEmpty then "." else dir, r.input]

def compileDescriptor (execute : String → List String → Execution) (program : String)
    (r : Proto.DescriptorRequest) : Except RunError Unit :=
  match execute program (descriptorArguments r) with
  | .notStarted reason =>
    .error (.command ("failed to run `" ++ program ++ "`: " ++ reason))
  | .ended 0 _ => .ok ()
  | .ended status errors =>
    .error (.command ("`" ++ program ++ "` exited with exit status: " ++ Nat.repr status ++ ": " ++
      String.ofList (Text.trim errors.toList)))

/-- store a set of files below a directory, if there is one; outcomes have full paths -/
def storeFiles (fs : FileSystem) (force : Bool) (dir : String) (set : Option FileSet) :
    FileSystem × Option (List (String × WriteOutcome)) :=
  match set with
  | none => (fs, some [])
  | some set =>
    let r := fs.storeAll force dir set.files
    (r.1, r.2.map fun outcomes => outcomes.map fun (path, o) => (Path.join dir path, o))

/-- write what was generated, and have the descriptor compiled -/
def publish (execute : String → List String → Execution) (a : Args) (force : Bool) (output : Output)
    (fs : FileSystem) : FileSystem × Except RunError (List (String × WriteOutcome)) :=
  let cpp := storeFiles fs force a.output output.cpp
  match cpp.2 with
  | none => (cpp.1, .error .writing)
  | some cppFiles =>
    let proto := storeFiles cpp.1 force a.protoDirectory output.proto
    match proto.2 with
    | none => (proto.1, .error .writing)
    | some protoFiles =>
      match output.descriptor, output.proto with
      | some request, some _ =>
        let request := request.within a.protoDirectory
        (proto.1, do
          compileDescriptor execute a.protoc request
          return cppFiles ++ protoFiles ++ [(request.output, .written)])
      | _, _ => (proto.1, .ok (cppFiles ++ protoFiles))

/-- settings with the flags of the command line on top -/
def effectiveConfig (a : Args) (c : Config) : Config :=
  { c with generation := a.apply c.generation }

/-- load settings and model; settings come first -/
def loadAll (settings : String) (a : Args) (fs : FileSystem) : Except LoadError (Config × Model) := do
  let c ← loadConfig fs settings a.config
  let m ← loadModel fs a.input
  return (effectiveConfig a c, m)

/-- `settings` is the directory for settings of the system -/
def run (execute : String → List String → Execution) (settings : String) (a : Args)
    (fs : FileSystem) : RunResult :=
  match loadAll settings a fs with
  | .error e => { files := fs, notices := [], result := .error (.load e) }
  | .ok (c, m) =>
    let analyzed := c.analyze m
    match analyzed.result with
    | .error e => { files := fs, notices := analyzed.notices, result := .error (.compile e) }
    | .ok diagnostics =>
      let generated := c.generate analyzed.model
      let notices := analyzed.notices ++ Notice.ofDiagnostics diagnostics ++ generated.1
      match generated.2 with
      | .error e => { files := fs, notices, result := .error (.compile (.generation e)) }
      | .ok output =>
        let published := publish execute a c.generation.forceOverwrite output fs
        { files := published.1
          notices
          result := published.2.map fun files =>
            { diagnostics
              statistics := .ofModel analyzed.model
              cppDirectory := output.cpp.map fun _ => a.output
              protoDirectory := output.proto.map fun _ => a.protoDirectory
              files } }

end TypeModel.Cli
