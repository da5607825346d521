import TypeModel.Document.Value

/-!
# Settings

Which generators run (`GenerationOptions`), how the C++ project is set up (`CppConfig`) and how
the Protobuf file is named (`ProtoConfig`).  Every setting has a default, and a settings document
has one section for each of the three.
-/

namespace TypeModel

open Value

/-- the stages to run; no flag changes how a stage works -/
structure GenerationOptions where
  generateCpp : Bool := true
  generateProtobuf : Bool := false
  /-- only together with `generateProtobuf` -/
  generateBinaryDescriptor : Bool := false
  forceOverwrite : Bool := false
  skipValidation : Bool := false
  deriving DecidableEq, Repr

structure CppConfig where
  /-- project name; the model's name when missing -/
  projectName : Option String := none
  /-- language standard -/
  standard : Nat := 17
  generateTests : Bool := true
  deriving DecidableEq, Repr

structure ProtoConfig where
  /-- stem of the schema file; the model's name when missing -/
  fileStem : Option String := none
  /-- package of the schema file when no package of the model takes that place -/
  defaultPackage : Option String := none
  deriving DecidableEq, Repr

structure Config where
  generation : GenerationOptions := {}
  cpp : CppConfig := {}
  proto : ProtoConfig := {}
  deriving DecidableEq, Repr

def GenerationOptions.decode : Decoder GenerationOptions := fun v => do
  let t ← asTable v
  t.only ["generate_cpp", "generate_protobuf", "generate_binary_descriptor", "force_overwrite",
    "skip_validation"]
  return {
    generateCpp := ← t.orElse "generate_cpp" asBool true
    generateProtobuf := ← t.orElse "generate_protobuf" asBool false
    generateBinaryDescriptor := ← t.orElse "generate_binary_descriptor" asBool false
    forceOverwrite := ← t.orElse "force_overwrite" asBool false
    skipValidation := ← t.orElse "skip_validation" asBool false }

def CppConfig.decode : Decoder CppConfig := fun v => do
  let t ← asTable v
  t.only ["project_name", "standard", "generate_tests"]
  return {
    projectName := ← t.optional "project_name" asString
    standard := ← t.orElse "standard" asNatural 17
    generateTests := ← t.orElse "generate_tests" asBool true }

def ProtoConfig.decode : Decoder ProtoConfig := fun v => do
  let t ← asTable v
  t.only ["file_stem", "default_package"]
  return {
    fileStem := ← t.optional "file_stem" asString
    defaultPackage := ← t.optional "default_package" asString }

def Config.decode : Decoder Config := fun v => do
  let t ← asTable v
  t.only ["generation", "cpp", "proto"]
  return {
    generation := ← t.orElse "generation" GenerationOptions.decode {}
    cpp := ← t.orElse "cpp" CppConfig.decode {}
    proto := ← t.orElse "proto" ProtoConfig.decode {} }

end TypeModel
