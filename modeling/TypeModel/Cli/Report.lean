import TypeModel.Cli.Run

/-!
# Failures as told to the user

A failed analysis is told diagnostic by diagnostic, errors first; any other failure as one entry.
-/

namespace TypeModel.Cli

def LoadError.message : LoadError → String
  | .unreadable path => "I/O error: cannot read " ++ path
  | .missingConfig path => "Configuration error: Missing configuration file: " ++ path
  | .configRejected reason =>
    "Configuration error: Failed to parse TOML configuration: " ++ reason
  | .modelRejected path reason => "I/O error: Failed to parse model " ++ path ++ ": " ++ reason
  | .emptyModel path =>
    "I/O error: Model " ++ path ++ " declares no primitive types, types or packages"

def RunError.message : RunError → String
  | .load e => e.message
  | .compile e => e.message
  | .writing => "I/O error: cannot write the generated files"
  | .command reason => "Command failed: " ++ reason

/-- where a failure comes from -/
inductive FailureKind where
  | input
  | analysis
  | generation
  | config
  | command
  deriving DecidableEq, Repr

def RunError.kind : RunError → FailureKind
  | .load (.missingConfig _) | .load (.configRejected _) => .config
  | .load _ | .writing => .input
  | .compile (.analysis _) => .analysis
  | .compile (.generation _) => .generation
  | .command _ => .command

def FailureKind.code? : FailureKind → Option String
  | .input => some "typeforge::io"
  | .analysis => none
  | .generation => some "typeforge::generation"
  | .config => some "typeforge::config"
  | .command => some "typeforge::command"

/-- whether another failure lies behind one of this kind -/
def FailureKind.hasCause : FailureKind → Bool
  | .input | .generation => true
  | .analysis | .config | .command => false

/-- one entry of a failure report -/
structure Reportable where
  text : String
  code : Option String
  severity : Option Severity
  help : Option String
  hasCause : Bool
  deriving DecidableEq, Repr

def Reportable.ofDiagnostic (d : Diagnostic) : Reportable :=
  { text := d.placed, code := d.code.map Code.text, severity := some d.severity, help := d.help,
    hasCause := false }

def generationHelp : String :=
  "the model was generated without passing analysis; rerun without --skip-validation"

def RunError.reportables (e : RunError) : List Reportable :=
  match e with
  | .compile (.analysis ds) => ds.bySeverity.flatMap fun g => g.2.map Reportable.ofDiagnostic
  | e =>
    [{ text := e.message
       code := e.kind.code?
       severity := none
       help := if e.kind = .generation then some generationHelp else none
       hasCause := e.kind.hasCause }]

end TypeModel.Cli
