import TypeModel.Config
import TypeModel.Cpp.Source
import TypeModel.Cpp.TestStub
import TypeModel.Output.FileSet

/-!
# The C++ project

All files of a model: for every declared type a header, for every struct an implementation and a
test stub, and for the whole a build file and an entry point.

* `BuildFile`    sources, tests and settings of the project;
* `EntryPoint`   a program that includes every header and lists the types;
* `plan`         paths with their texts in order; a text may fail;
* `generate`     the files, or the first failure, and the paths that came up twice until then.
-/

namespace TypeModel.Cpp

/-- configured name, name of the model, or `model`, as an identifier -/
def projectName (m : Model) (c : CppConfig) : String :=
  Text.sanitize (c.projectName.getD (m.nameOr "model"))

def structEntries (m : Model) : List Entry :=
  m.declaredTypes.filter (·.type.kind = .struct)

/-! ## build file -/

/-- a test program and its source -/
structure TestTarget where
  name : String
  path : String

structure BuildFile where
  project : String
  standard : Nat
  sources : List String
  /-- whether threads are linked -/
  threading : Bool
  tests : List TestTarget

def buildFile (m : Model) (c : CppConfig) : BuildFile :=
  let structs := structEntries m
  { project := projectName m c
    standard := c.standard
    sources := structs.map sourcePath
    threading := structs.any fun e => (e.type.struct?.map (·.options.threading)).getD false
    tests :=
      if c.generateTests then structs.map fun e => ⟨e.name ++ "Test", testPath e⟩ else [] }

/-- a reference to the variable that holds the sources -/
def modelSources : String := "$\x7bMODEL_SOURCES\x7d"

def BuildFile.linkThreads (b : BuildFile) (target : String) : Text.Script :=
  if b.threading then
    [.line ("target_link_libraries(" ++ target ++ " PRIVATE Threads::Threads)")]
  else []

def BuildFile.testScript (b : BuildFile) (t : TestTarget) : Text.Script :=
  [.blank, .line ("add_executable(" ++ t.name ++ " " ++ t.path ++ " " ++ modelSources ++ ")")] ++
    b.linkThreads t.name ++
    [.line ("add_test(NAME " ++ t.name ++ " COMMAND " ++ t.name ++ ")")]

def BuildFile.script (b : BuildFile) : Text.Script :=
  [.line ("# " ++ banner), .blank,
    .line "cmake_minimum_required(VERSION 3.16)",
    .line ("project(" ++ b.project ++ " LANGUAGES CXX)"), .blank,
    .line ("set(CMAKE_CXX_STANDARD " ++ Nat.repr b.standard ++ ")"),
    .line "set(CMAKE_CXX_STANDARD_REQUIRED ON)", .blank,
    .line "include_directories($\x7bCMAKE_CURRENT_SOURCE_DIR\x7d/include)", .blank,
    .line "set(MODEL_SOURCES", .indented (b.sources.map .line), .line ")", .blank] ++
    (if b.threading then [.line "find_package(Threads REQUIRED)", .blank] else []) ++
    [.line ("add_executable(" ++ b.project ++ " src/main.cpp " ++ modelSources ++ ")")] ++
    b.linkThreads b.project ++
    (if b.tests.isEmpty then []
      else .blank :: .line "enable_testing()" :: b.tests.flatMap b.testScript)

/-! ## entry point -/

structure EntryPoint where
  project : String
  /-- stems of the headers -/
  includes : List String
  /-- kind and name of every type -/
  types : List (String × String)

def kindWord : TypeKind → String
  | .struct => "class"
  | .enumeration => "enum"
  | .array => "array"
  | .alias => "alias"

def entryPoint (m : Model) (c : CppConfig) : EntryPoint :=
  { project := projectName m c
    includes := m.declaredTypes.map Entry.name
    types := m.declaredTypes.map fun e => (kindWord e.type.kind, qualifiedName e none) }

def EntryPoint.script (p : EntryPoint) : Text.Script :=
  [.line ("// " ++ banner), .blank, .line "#include <iostream>", .blank] ++
    p.includes.map (fun i => .line ("#include \"" ++ i ++ ".h\"")) ++
    [.blank, .line "int main() \x7b",
      .indented ([printLine p.project] ++
        p.types.map (fun (kind, name) => printLine ("  " ++ kind ++ " " ++ name)) ++
        [.line "return 0;"]),
      .line "\x7d"]

/-! ## all files -/

/-- the files of one declared type -/
def typePlan (m : Model) (c : CppConfig) (e : Entry) :
    List (String × Except GenerationError String) :=
  (headerPath e, (Header.ofEntry m e).map Header.text) ::
    match e.type with
    | .struct s _ =>
      (sourcePath e, (Source.ofStruct m e s).map Source.text) ::
        if c.generateTests then [(testPath e, testText m e s)] else []
    | _ => []

def plan (m : Model) (c : CppConfig) : List (String × Except GenerationError String) :=
  m.declaredTypes.flatMap (typePlan m c) ++
    [("CMakeLists.txt", .ok (Text.Script.render indent (buildFile m c).script)),
     ("src/main.cpp", .ok (Text.Script.render indent (entryPoint m c).script))]

def generate (m : Model) (c : CppConfig) : List String × Except GenerationError FileSet :=
  FileSet.collect {} (plan m c)

end TypeModel.Cpp
