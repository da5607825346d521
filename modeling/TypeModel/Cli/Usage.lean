import TypeModel.Cli.Args

/-!
# Help and complaints about arguments

What is printed when the arguments do not lead to a run.
-/

namespace TypeModel.Cli

def usageLine : String := "Usage: typeforge [OPTIONS] <INPUT>"

def versionText : String := "typeforge 0.1.0\n"

/-- spelling and meaning of every argument -/
def argumentTable : List (String × String) := [
  ("<INPUT>", "Path to the input model"),
  ("-o, --output <DIR>", "Output directory for generated C++ code [default: generated]"),
  ("-m, --protobuf", "Generate a Protobuf schema"),
  ("-p, --proto-output <DIR>", "Output directory for Protobuf files [default: <OUTPUT>/proto]"),
  ("-b, --binary", "Compile the schema into a binary descriptor set"),
  ("-f, --force", "Overwrite existing files"),
  ("-s, --skip-validation", "Skip model validation"),
  ("-n, --no-cpp", "Skip C++ generation"),
  ("-d, --summary", "Print a generation summary"),
  ("-c, --config <FILE>", "Path to configuration file (TOML)"),
  ("--protoc <PROGRAM>", "Protobuf compiler used for binary descriptors [default: protoc]"),
  ("--log-level <LEVEL>", "Log level (off, error, warn, info, debug, trace) [default: info]"),
  ("-h, --help", "Print help"),
  ("-V, --version", "Print version")]

/-- the width of the column of spellings -/
def spellingWidth : Nat := 26

def argumentLine : String × String → String
  | (spelling, meaning) =>
    let padding := String.ofList (List.replicate (spellingWidth - spelling.length) ' ')
    "  " ++ spelling ++ padding ++ meaning ++ "\n"

def helpText : String :=
  usageLine ++ "\n\n" ++ String.join (argumentTable.map argumentLine)

def ArgsError.message : ArgsError → String
  | .missingInput => "error: the input model is missing\n\n" ++ usageLine ++ "\n"
  | .unknown => "error: unexpected argument\n\n" ++ usageLine ++ "\n"
  | .missingValue => "error: an option is missing its value\n\n" ++ usageLine ++ "\n"
  | .repeated => "error: an argument is given more than once\n\n" ++ usageLine ++ "\n"
  | .unneededValue => "error: a flag takes no value\n\n" ++ usageLine ++ "\n"
  | .help => helpText
  | .version => versionText

/-- asking for help or for the version is no failure -/
def ArgsError.isFailure : ArgsError → Bool
  | .help | .version => false
  | _ => true

end TypeModel.Cli
