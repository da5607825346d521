import TypeModel.Analysis.Validation
import TypeModel.Cpp.Project
import TypeModel.Notice
import TypeModel.Proto.Descriptor
import TypeModel.Proto.Schema

/-!
# Compiling models

* `analyze c m`    resolve and validate; with `skipValidation` only resolve, and never fail;
* `generate c m`   run the generators that are switched on; both always run to their own end, and
                   a failure of the first is the one that is told;
* `compile c m`    one after the other.

Every result comes with the notices made on the way.
-/

namespace TypeModel

/-- the files of one run -/
structure Output where
  cpp : Option FileSet := none
  proto : Option FileSet := none
  descriptor : Option Proto.DescriptorRequest := none
  deriving DecidableEq

structure Compilation where
  diagnostics : Diagnostics
  output : Output

/-- why compiling fails -/
inductive CompileError where
  | analysis (diagnostics : Diagnostics)
  | generation (e : GenerationError)
  deriving DecidableEq, Repr

def CompileError.message : CompileError → String
  | .analysis ds => ds.failureMessage
  | .generation e => "Generation error: " ++ e.message

namespace Config

/-- a result with the model it leaves behind -/
structure Analyzed where
  model : Model
  notices : List Notice
  result : Except CompileError Diagnostics

def analyze (c : Config) (m : Model) : Analyzed :=
  let nested := m.deeplyNested.map Notice.deeplyNested
  if c.generation.skipValidation then
    let r := m.resolve
    { model := r.model
      notices := nested ++
        (if r.diagnostics.hasErrors then [.continuing r.diagnostics.errorCount] else [])
      result := .ok r.diagnostics }
  else
    let r := m.analyze
    { model := r.1
      notices := nested
      result := r.2.mapError .analysis }

/-- the C++ files if they are wanted, with the paths that came up twice -/
def generateCpp (c : Config) (m : Model) : List Notice × Except GenerationError (Option FileSet) :=
  if c.generation.generateCpp then
    let r := Cpp.generate m c.cpp
    (r.1.map .collision, r.2.map some)
  else ([], .ok none)

/-- the schema file if it is wanted, with the maps that cannot be repeated -/
def generateProto (c : Config) (m : Model) :
    List Notice × Except GenerationError (Option FileSet) :=
  if c.generation.generateProtobuf then
    ((Proto.warnings m).map .repeatedMap, (Proto.generate m c.proto).map some)
  else ([], .ok none)

def descriptor? (c : Config) (m : Model) : Option Proto.DescriptorRequest :=
  if c.generation.generateProtobuf && c.generation.generateBinaryDescriptor then
    some (.forSchema (Proto.fileName m c.proto))
  else none

def generate (c : Config) (m : Model) : List Notice × Except GenerationError Output :=
  let cpp := c.generateCpp m
  let proto := c.generateProto m
  (cpp.1 ++ proto.1, do
    return { cpp := ← cpp.2, proto := ← proto.2, descriptor := c.descriptor? m })

structure Compiled where
  model : Model
  notices : List Notice
  result : Except CompileError Compilation

def compile (c : Config) (m : Model) : Compiled :=
  let a := c.analyze m
  match a.result with
  | .error e => { model := a.model, notices := a.notices, result := .error e }
  | .ok diagnostics =>
    let g := c.generate a.model
    { model := a.model
      notices := a.notices ++ g.1
      result := (g.2.mapError .generation).map fun output => { diagnostics, output } }

end Config

end TypeModel
