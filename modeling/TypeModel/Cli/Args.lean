import TypeModel.Config
import TypeModel.Output.Path

/-!
# Command line arguments

`Args.parse` reads the arguments of a run: one input, flags and options with values.

* long forms `--name`, `--name value`, `--name=value`; short forms `-n`, `-n value`, `-nvalue`,
  `-n=value`, and several short flags in one word; `--` ends the options;
* a word that starts with `-`, except `-` itself, is never the value of an option;
* every option may be given once.

An option is settled by what follows its value (`Progress.settle`): only then it counts as
missing its value or as given twice.  A word that nothing can be made of is told first.
-/

namespace TypeModel.Cli

structure Args where
  input : String
  output : String := "generated"
  protobuf : Bool := false
  protoOutput : Option String := none
  binary : Bool := false
  force : Bool := false
  skipValidation : Bool := false
  noCpp : Bool := false
  summary : Bool := false
  config : Option String := none
  protoc : String := "protoc"
  logLevel : String := "info"
  deriving DecidableEq, Repr

namespace Args

/-- the directory for schema and descriptor -/
def protoDirectory (a : Args) : String := a.protoOutput.getD (Path.join a.output "proto")

/-- the given flags on top of configured options -/
def apply (a : Args) (o : GenerationOptions) : GenerationOptions :=
  { generateCpp := o.generateCpp && !a.noCpp
    generateProtobuf := o.generateProtobuf || a.protobuf || a.binary
    generateBinaryDescriptor := o.generateBinaryDescriptor || a.binary
    forceOverwrite := o.forceOverwrite || a.force
    skipValidation := o.skipValidation || a.skipValidation }

end Args

/-- why there are no arguments to run with -/
inductive ArgsError where
  | missingInput
  | unknown
  /-- an option without its value -/
  | missingValue
  /-- something given twice -/
  | repeated
  /-- a flag with a value -/
  | unneededValue
  | help
  | version
  deriving DecidableEq, Repr

inductive Flag where
  | protobuf
  | binary
  | force
  | skipValidation
  | noCpp
  | summary
  | help
  | version
  deriving DecidableEq, Repr

/-- options with a value -/
inductive Setting where
  | output
  | protoOutput
  | config
  | protoc
  | logLevel
  deriving DecidableEq, Repr

inductive Switch where
  | flag (f : Flag)
  | setting (s : Setting)
  deriving DecidableEq, Repr

def Switch.ofLong? (name : String) : Option Switch :=
  [("output", Switch.setting .output), ("protobuf", .flag .protobuf),
    ("proto-output", .setting .protoOutput), ("binary", .flag .binary), ("force", .flag .force),
    ("skip-validation", .flag .skipValidation), ("no-cpp", .flag .noCpp),
    ("summary", .flag .summary), ("config", .setting .config), ("protoc", .setting .protoc),
    ("log-level", .setting .logLevel), ("help", .flag .help),
    ("version", .flag .version)].lookup name

def Switch.ofShort? (c : Char) : Option Switch :=
  [('o', Switch.setting .output), ('m', .flag .protobuf), ('p', .setting .protoOutput),
    ('b', .flag .binary), ('f', .flag .force), ('s', .flag .skipValidation), ('n', .flag .noCpp),
    ('d', .flag .summary), ('c', .setting .config), ('h', .flag .help),
    ('V', .flag .version)].lookup c

/-- what was read so far -/
structure Progress where
  input : Option String := none
  flags : List Flag := []
  settings : List (Setting × String) := []
  /-- the last option, not settled yet, and its value if that was read -/
  waiting : Option (Setting × Option String) := none
  /-- `--` was read -/
  optionsEnded : Bool := false

namespace Progress

/-- an option with its value -/
def setting (p : Progress) (s : Setting) (value : String) : Except ArgsError Progress :=
  if (p.settings.lookup s).isSome then .error .repeated
  else .ok { p with settings := p.settings ++ [(s, value)], waiting := none }

/-- take in the last option -/
def settle (p : Progress) : Except ArgsError Progress :=
  match p.waiting with
  | none => .ok p
  | some (_, none) => .error .missingValue
  | some (s, some value) => p.setting s value

def flag (p : Progress) (f : Flag) : Except ArgsError Progress := do
  let p ← p.settle
  match f with
  | .help => .error .help
  | .version => .error .version
  | f => if p.flags.contains f then .error .repeated else .ok { p with flags := p.flags ++ [f] }

/-- a word that is no option: the value waited for, or the input -/
def value (p : Progress) (word : String) : Except ArgsError Progress :=
  match p.waiting, p.optionsEnded, p.input with
  | some (s, none), false, _ => .ok { p with waiting := some (s, some word) }
  | _, _, some _ => .error .unknown
  | _, _, none => do
    let p ← p.settle
    return { p with input := some word }

/-- an option with the value written beside it, or one that starts waiting -/
def option (p : Progress) (s : Setting) (attached : Option String) : Except ArgsError Progress := do
  let p ← p.settle
  match attached with
  | some value => p.setting s value
  | none => return { p with waiting := some (s, none) }

/-- the word behind `--` -/
def long (p : Progress) (word : List Char) : Except ArgsError Progress :=
  let name := String.ofList (word.takeWhile (· != '='))
  let attached :=
    match word.dropWhile (· != '=') with
    | '=' :: value => some (String.ofList value)
    | _ => none
  match Switch.ofLong? name, attached with
  | none, _ => .error .unknown
  | some (.flag _), some _ => .error .unneededValue
  | some (.flag f), none => p.flag f
  | some (.setting s), attached => p.option s attached

/-- the characters behind `-` -/
def short (p : Progress) : List Char → Except ArgsError Progress
  | [] => .ok p
  | c :: cs =>
    match Switch.ofShort? c with
    | none => .error .unknown
    | some (.flag f) => do
      let p ← p.flag f
      p.short cs
    | some (.setting s) =>
      match cs with
      | [] => p.option s none
      | '=' :: value => p.option s (some (String.ofList value))
      | value => p.option s (some (String.ofList value))

def word (p : Progress) (w : String) : Except ArgsError Progress :=
  if p.optionsEnded then p.value w
  else
    match w.toList with
    | ['-', '-'] => .ok { p with optionsEnded := true }
    | '-' :: '-' :: name => p.long name
    | '-' :: c :: cs => p.short (c :: cs)
    | _ => p.value w

def finish (p : Progress) : Except ArgsError Args := do
  let p ← p.settle
  match p.input with
  | none => .error .missingInput
  | some input =>
    let defaults : Args := { input }
    return {
      input
      output := (p.settings.lookup .output).getD defaults.output
      protobuf := p.flags.contains .protobuf
      protoOutput := p.settings.lookup .protoOutput
      binary := p.flags.contains .binary
      force := p.flags.contains .force
      skipValidation := p.flags.contains .skipValidation
      noCpp := p.flags.contains .noCpp
      summary := p.flags.contains .summary
      config := p.settings.lookup .config
      protoc := (p.settings.lookup .protoc).getD defaults.protoc
      logLevel := (p.settings.lookup .logLevel).getD defaults.logLevel }

end Progress

def Args.parse (words : List String) : Except ArgsError Args := do
  let p ← words.foldlM Progress.word {}
  p.finish

end TypeModel.Cli
