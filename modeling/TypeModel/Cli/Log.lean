import TypeModel.Cli.Report

/-!
# What is logged

Notices and failures as lines of text, and the level that decides which notices are shown.
-/

namespace TypeModel.Cli

inductive LogLevel where
  | off
  | error
  | warn
  | info
  | debug
  | trace
  deriving DecidableEq, Repr

namespace LogLevel

/-- the level a word stands for, in any letter case -/
def ofText? (s : String) : Option LogLevel :=
  [("off", LogLevel.off), ("error", .error), ("warn", .warn), ("info", .info), ("debug", .debug),
    ("trace", .trace)].lookup s.toLower

/-- the level used when a word stands for none -/
def fallback : LogLevel := .warn

def shows : LogLevel → Severity → Bool
  | .off, _ => false
  | .error, s => s = .error
  | .warn, s => s ≠ .info
  | .info, _ | .debug, _ | .trace, _ => true

end LogLevel

/-- notices other than diagnostics are warnings -/
def noticeSeverity : Notice → Severity
  | .diagnostic d => d.severity
  | _ => .warning

def shownNotices (level : LogLevel) (notices : List Notice) : List String :=
  (notices.filter fun n => level.shows (noticeSeverity n)).map Notice.text

/-- a failure with its code and the advice about it -/
def Reportable.lines (r : Reportable) : List String :=
  (((r.severity.getD .error).text ++ ((r.code.map fun c => "[" ++ c ++ "]").getD "") ++ ": " ++
      r.text) :: (r.help.map ("  help: " ++ ·)).toList)

/-- a remark for every file that was left alone -/
def RunReport.skipLines (r : RunReport) : List String :=
  r.skippedFiles.map fun f =>
    "WARN Skipped existing file, use --force to overwrite path=" ++ f.1

end TypeModel.Cli
