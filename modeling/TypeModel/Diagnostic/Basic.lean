import TypeModel.Diagnostic.Code
import TypeModel.Name

/-!
# Diagnostics

A diagnostic is an error, a warning or a note about a place in a model.

* `Location`             a dotted path, and the source line when one is known;
* `Diagnostic.display`   `error[E100]: message`;
* `Diagnostic.report`    `[ERROR] place: message`, where a line is preferred to a path;
* `Diagnostics.finish`   the list itself, or a failure with all of it when it has an error.
-/

namespace TypeModel

inductive Severity where
  | error
  | warning
  | info
  deriving DecidableEq, Repr

namespace Severity

def text : Severity → String
  | .error => "error"
  | .warning => "warning"
  | .info => "info"

/-- the word in report lines -/
def label : Severity → String
  | .error => "ERROR"
  | .warning => "WARNING"
  | .info => "INFO"

end Severity

structure Location where
  path : String
  line : Option Nat := none
  deriving DecidableEq, Repr

namespace Location

/-- the place of a child; its line is not known -/
def child (l : Location) (name : Name) : Location := { path := l.path ++ "." ++ name }

def withLine (l : Location) (line : Option Nat) : Location := { l with line }

def text (l : Location) : String :=
  match l.line with
  | some line => "Line " ++ Nat.repr line
  | none => l.path

end Location

structure Diagnostic where
  severity : Severity
  code : Option Code := none
  message : String
  location : Option Location := none
  help : Option String := none
  deriving DecidableEq, Repr

namespace Diagnostic

def isError (d : Diagnostic) : Bool := d.severity = .error

def display (d : Diagnostic) : String :=
  let code :=
    match d.code with
    | some code => "[" ++ code.text ++ "]"
    | none => ""
  d.severity.text ++ code ++ ": " ++ d.message

/-- the message behind its place -/
def placed (d : Diagnostic) : String :=
  match d.location with
  | some location => location.text ++ ": " ++ d.message
  | none => d.message

def report (d : Diagnostic) : String := "[" ++ d.severity.label ++ "] " ++ d.placed

end Diagnostic

abbrev Diagnostics := List Diagnostic

namespace Diagnostics

def ofSeverity (ds : Diagnostics) (s : Severity) : Diagnostics := ds.filter (·.severity = s)

def count (ds : Diagnostics) (s : Severity) : Nat := (ds.ofSeverity s).length

def errorCount (ds : Diagnostics) : Nat := ds.count .error

def warningCount (ds : Diagnostics) : Nat := ds.count .warning

def hasErrors (ds : Diagnostics) : Bool := ds.any Diagnostic.isError

/-- errors, then warnings, then notes, each group in order; empty groups are left out -/
def bySeverity (ds : Diagnostics) : List (Severity × Diagnostics) :=
  ([Severity.error, .warning, .info].map fun s => (s, ds.ofSeverity s)).filter (!·.2.isEmpty)

/-- `1 error`, `2 errors` -/
def plural (count : Nat) (noun : String) : String :=
  if count == 1 then Nat.repr count ++ " " ++ noun else Nat.repr count ++ " " ++ noun ++ "s"

def summary (ds : Diagnostics) : String :=
  plural ds.errorCount "error" ++ ", " ++ plural ds.warningCount "warning"

/-- what is said when an analysis fails -/
def failureMessage (ds : Diagnostics) : String := "model analysis failed: " ++ ds.summary

def finish (ds : Diagnostics) : Except Diagnostics Diagnostics :=
  if ds.hasErrors then .error ds else .ok ds

theorem finish_eq_ok_iff (ds : Diagnostics) :
    ds.finish = .ok ds ↔ ∀ d ∈ ds, d.severity ≠ .error := by
  unfold finish hasErrors
  by_cases h : ds.any Diagnostic.isError
  · simp only [h, if_true, reduceCtorEq, false_iff]
    obtain ⟨d, hd, he⟩ := List.any_eq_true.1 h
    exact fun hall => hall d hd (by simpa [Diagnostic.isError] using he)
  · simp only [h]
    simpa [Diagnostic.isError] using h

end Diagnostics

end TypeModel
