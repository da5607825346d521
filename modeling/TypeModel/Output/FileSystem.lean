import TypeModel.Output.FileSet
import TypeModel.Output.Path

/-!
# File systems and sinks

A `FileSystem` is a map from places to files and directories.  A place is a list of names, seen
from the working directory; the first name is `/` when it is seen from the root, and `..` when it
lies above the working directory.

* `locate`               the place a path leads to and what is there, or the `Obstacle` on the way;
* `read?`, `contains`    by path;
* `write`                a file, after creating the directories above it; it fails where a file is
                         in the way, where the path is a directory and where a name or a path is
                         too long.

A sink stores generated files and leaves what exists alone unless it may overwrite:

* `MemorySink`           a set of files;
* `FileSystem.store`     files in a file system.
-/

namespace TypeModel

inductive Node where
  | file (text : String)
  | directory
  deriving DecidableEq, Repr

/-- names from the working directory or the root, outermost first -/
abbrev Place := List String

namespace Place

def root : Place := ["/"]

/-- a place that is a directory whatever was stored: the root, the working directory and those
above it -/
def isFixed (place : Place) : Bool := place == root || place.all (· == "..")

/-- the directory around a place; the root is its own -/
def above (place : Place) : Place :=
  if place == root then place
  else
    match place.getLast? with
    | none => [".."]
    | some name => if name == ".." then place ++ [".."] else place.dropLast

def text : Place → String
  | "/" :: names => "/" ++ Text.joinWith "/" names
  | names => Text.joinWith "/" names

end Place

structure FileSystem where
  nodes : List (Place × Node) := []
  deriving DecidableEq, Repr

/-- the most bytes a name may have -/
def maxNameBytes : Nat := 255

/-- a name that something can be stored under -/
def isStorable (name : String) : Bool := name.utf8ByteSize ≤ maxNameBytes

/-- the most bytes a path may have -/
def maxPathBytes : Nat := 4095

def isShort (path : String) : Bool := path.utf8ByteSize ≤ maxPathBytes

/-- the character that ends paths is inside a path -/
def hasEnd (path : String) : Bool := path.toList.contains '\x00'

/-- a path that can be looked up: short enough, and without the character that ends paths -/
def isUsable (path : String) : Bool := isShort path && !hasEnd path

/-- why a path leads to nothing -/
inductive Obstacle where
  | missing
  /-- a file stands where the path needs a directory -/
  | notDirectory
  /-- the path or one of its names has too many bytes -/
  | tooLong
  /-- the path holds the character that ends paths -/
  | malformed
  deriving DecidableEq, Repr

namespace FileSystem

def node? (fs : FileSystem) (place : Place) : Option Node :=
  if place.isFixed then some .directory else fs.nodes.lookup place

/-- replace the node at a place, or add it -/
def putInto (place : Place) (node : Node) : List (Place × Node) → List (Place × Node)
  | [] => [(place, node)]
  | (p, n) :: ns => if p = place then (p, node) :: ns else (p, n) :: putInto place node ns

def put (fs : FileSystem) (place : Place) (node : Node) : FileSystem :=
  ⟨putInto place node fs.nodes⟩

theorem lookup_putInto (place q : Place) (node : Node) (ns : List (Place × Node)) :
    (putInto place node ns).lookup q = if q = place then some node else ns.lookup q := by
  induction ns with
  | nil => simp only [putInto, List.lookup_cons, List.lookup_nil]; grind
  | cons x xs ih =>
    obtain ⟨p, n⟩ := x
    simp only [putInto]
    split <;> simp only [List.lookup_cons, ih] <;> grind

/-- a node stored at a place is found there, and all other places keep theirs -/
theorem node?_put (fs : FileSystem) (place q : Place) (node : Node) (h : place.isFixed = false) :
    (fs.put place node).node? q = if q = place then some node else fs.node? q := by
  unfold node? put
  rw [lookup_putInto]
  by_cases e : q = place
  · subst e
    rw [h, if_pos rfl, if_pos rfl]
    rfl
  · rw [if_neg e, if_neg e]

/-- the place reached by steps; every step starts in a directory -/
def follow (fs : FileSystem) : Place → List String → Except Obstacle Place
  | place, [] => .ok place
  | place, s :: ss =>
    match fs.node? place with
    | none => .error .missing
    | some (.file _) => .error .notDirectory
    | some .directory =>
      if isStorable s then fs.follow (if s == ".." then place.above else place ++ [s]) ss
      else .error .tooLong

/-- the path ends in a part that only a directory can have -/
def needsDirectory (path : String) : Bool :=
  match (Path.parts path).getLast? with
  | some last => last == "" || last == "."
  | none => false

/-- the place a path leads to and what is there -/
def locate (fs : FileSystem) (path : String) : Except Obstacle (Place × Node) :=
  if hasEnd path then .error .malformed
  else if path.isEmpty then .error .missing
  else if !isShort path then .error .tooLong
  else do
    let place ← fs.follow [] (Path.route path)
    match fs.node? place with
    | none => .error .missing
    | some (.file text) =>
      if needsDirectory path then .error .notDirectory else .ok (place, .file text)
    | some .directory => .ok (place, .directory)

/-- what a path leads to -/
def find? (fs : FileSystem) (path : String) : Option Node :=
  match fs.locate path with
  | .ok (_, node) => some node
  | .error _ => none

def contains (fs : FileSystem) (path : String) : Bool := (fs.find? path).isSome

def read? (fs : FileSystem) (path : String) : Option String :=
  match fs.find? path with
  | some (.file text) => some text
  | _ => none

/-- create the directories that steps lead through; the place is `none` if a file is in the
way -/
def makeDirectories (fs : FileSystem) : Place → List String → FileSystem × Option Place
  | place, [] => (fs, some place)
  | place, s :: ss =>
    if s == ".." then fs.makeDirectories place.above ss
    else
      let next := place ++ [s]
      match fs.node? next with
      | some .directory => fs.makeDirectories next ss
      | some (.file _) => (fs, none)
      | none =>
        if isStorable s then (fs.put next .directory).makeDirectories next ss else (fs, none)

/-- create the directory at a path and those above it -/
def makeDirectory (fs : FileSystem) (path : String) : FileSystem × Option Place :=
  if isUsable path then fs.makeDirectories [] (Path.route path) else (fs, none)

/-- write a file; the flag tells whether it was written -/
def write (fs : FileSystem) (path text : String) : FileSystem × Bool :=
  match (Path.route path).getLast?, Path.parent? path with
  | some name, some parent =>
    let r := fs.makeDirectory parent
    match r.2 with
    | none => (r.1, false)
    | some dir =>
      let place := dir ++ [name]
      if name == ".." || needsDirectory path || !isStorable name || !isUsable path ||
          r.1.node? place = some .directory then (r.1, false)
      else (r.1.put place (.file text), true)
  | _, _ => (fs, false)

/-- paths and texts of all files, in the order of their paths -/
def files (fs : FileSystem) : List (String × String) :=
  (fs.nodes.filterMap fun (place, node) =>
    match node with
    | .file text => some (place.text, text)
    | .directory => none).mergeSort fun a b => !(b.1 < a.1)

end FileSystem

/-! ## sinks -/

inductive WriteOutcome where
  | written
  /-- the file exists and may not be overwritten -/
  | skipped
  deriving DecidableEq, Repr

def WriteOutcome.text : WriteOutcome → String
  | .written => "written"
  | .skipped => "skipped"

structure MemorySink where
  stored : FileSet := {}
  force : Bool

namespace MemorySink

def write (s : MemorySink) (path text : String) : MemorySink × WriteOutcome :=
  if s.stored.contains path && !s.force then (s, .skipped)
  else ({ s with stored := s.stored.insert path text }, .written)

/-- write files in order, with what happened to each -/
def writeAll (s : MemorySink) : List (String × String) → MemorySink × List (String × WriteOutcome)
  | [] => (s, [])
  | (path, text) :: rest =>
    let w := s.write path text
    let r := w.1.writeAll rest
    (r.1, (path, w.2) :: r.2)

end MemorySink

namespace FileSystem

/-- store one file; `none` if that is not possible -/
def store (fs : FileSystem) (force : Bool) (path text : String) :
    FileSystem × Option WriteOutcome :=
  if fs.contains path && !force then (fs, some .skipped)
  else
    let r := fs.write path text
    (r.1, if r.2 then some .written else none)

/-- store files below a directory in order, up to the first that cannot be stored -/
def storeAll (fs : FileSystem) (force : Bool) (dir : String) :
    List (String × String) → FileSystem × Option (List (String × WriteOutcome))
  | [] => (fs, some [])
  | (path, text) :: rest =>
    let w := fs.store force (Path.join dir path) text
    match w.2 with
    | none => (w.1, none)
    | some outcome =>
      let r := w.1.storeAll force dir rest
      (r.1, r.2.map ((path, outcome) :: ·))

end FileSystem

end TypeModel
