import TypeModel.Text.Split

/-!
# File paths

Paths are texts with `/` between their parts.  Empty parts and `.` stand for nothing, except that
a path may start with `.`.

* `Path.join d p`            `p` seen from `d`; an absolute `p` stays;
* `Path.parent? p`           the path without its last part;
* `Path.withExtension p e`   the path with another extension.
-/

namespace TypeModel.Path

def parts (p : String) : List String := Text.split '/' p

def isAbsolute (p : String) : Bool := p.toList.head? == some '/'

def endsInSlash (p : String) : Bool := p.toList.getLast? == some '/'

/-- parts that name something: a step down, or up for `..` -/
def steps (p : String) : List String := (parts p).filter fun s => s != "" && s != "."

/-- steps from the working directory; an absolute path starts with the step `/` -/
def route (p : String) : List String := if isAbsolute p then "/" :: steps p else steps p

def join (dir p : String) : String :=
  if isAbsolute p then p
  else if dir.isEmpty || endsInSlash dir then dir ++ p
  else dir ++ "/" ++ p

/-- parts, last one first, without the parts at the end that stand for nothing -/
def namedParts (p : String) : List String :=
  (parts p).reverse.dropWhile fun s => s == "" || s == "."

/-- the last part, unless it is `..` -/
def fileName? (p : String) : Option String :=
  match namedParts p with
  | name :: _ => if name == ".." then none else some name
  | [] => none

/-- a file name cut at its last dot, if something stands in front of it -/
def cutAtDot (name : List Char) : Option (List Char × List Char) :=
  let ext := (name.reverse.takeWhile (· != '.')).reverse
  let stem := ((name.reverse.dropWhile (· != '.')).drop 1).reverse
  if stem.isEmpty then none else some (stem, ext)

/-- a file name without its extension -/
def stemOf (name : String) : String :=
  match cutAtDot name.toList with
  | some (stem, _) => String.ofList stem
  | none => name

def extension? (p : String) : Option String :=
  (fileName? p).bind fun name => (cutAtDot name.toList).map fun c => String.ofList c.2

/-- the text up to the end of the stem, followed by the extension; a path without a file name
stays -/
def setExtension (p ext : String) : String :=
  match namedParts p with
  | [] => p
  | name :: front =>
    if name == ".." then p
    else Text.joinWith "/" ((stemOf name ++ "." ++ ext) :: front).reverse

/-- the old extension is taken off the end of the text before the new one is set -/
def withExtension (p ext : String) : String :=
  match extension? p with
  | none => setExtension p ext
  | some old => setExtension (String.ofList (p.toList.take (p.length - old.length))) ext

/-- parts, last one first, without parts at the end that stand for nothing; a leading `.` stays -/
def dropIdle : List String → List String
  | ["."] => ["."]
  | s :: ss => if s == "" || s == "." then dropIdle ss else s :: ss
  | [] => []

def parent? (p : String) : Option String :=
  match dropIdle (parts p).reverse with
  | [] => none
  | _ :: front =>
    let kept := dropIdle front
    if kept.isEmpty && isAbsolute p then some "/" else some (Text.joinWith "/" kept.reverse)

end TypeModel.Path
