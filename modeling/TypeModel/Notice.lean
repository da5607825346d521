import TypeModel.Diagnostic.Basic

/-!
# Notices

Remarks made on the way that do not change a result, with the level and text they are logged
with.
-/

namespace TypeModel

inductive Notice where
  /-- types inside an inner struct are not resolved -/
  | deeplyNested (name : Name)
  /-- generation goes on although names are unresolved -/
  | continuing (errors : Nat)
  /-- two declarations have the same file -/
  | collision (path : String)
  /-- a map cannot be repeated -/
  | repeatedMap (field : Name)
  | diagnostic (d : Diagnostic)
  deriving DecidableEq, Repr

def Severity.logLevel : Severity → String
  | .error => "ERROR"
  | .warning => "WARN"
  | .info => "INFO"

def Notice.text : Notice → String
  | .deeplyNested name =>
    "WARN Inner types nested more than one level deep are not resolved type_name=" ++ name
  | .continuing errors =>
    "WARN Continuing with unresolved references errors=" ++ Nat.repr errors
  | .collision path =>
    "WARN Generated file path collision, keeping the later file path=" ++ path
  | .repeatedMap field =>
    "WARN Map fields cannot be repeated, emitting a plain map field=" ++ field
  | .diagnostic d => d.severity.logLevel ++ " " ++ d.report

/-- one notice for every diagnostic, errors first -/
def Notice.ofDiagnostics (ds : Diagnostics) : List Notice :=
  ds.bySeverity.flatMap fun g => g.2.map .diagnostic

end TypeModel
