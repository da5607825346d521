/-!
# Sets of generated files

Paths with their texts in the order of first insertion.  Inserting a path again replaces the text
and keeps the place.

* `FileSet.insert`, `FileSet.get?`, `FileSet.paths`   the operations of a map;
* `FileSet.insertAll`                                  many at once, with the paths that were
                                                       there already;
* `FileSet.collect`                                    texts that may fail, up to the first failure.
-/

namespace TypeModel

structure FileSet where
  files : List (String × String) := []
  deriving DecidableEq, Repr

namespace FileSet

def paths (fs : FileSet) : List String := fs.files.map (·.1)

def contains (fs : FileSet) (path : String) : Bool := fs.paths.contains path

def get? (fs : FileSet) (path : String) : Option String := fs.files.lookup path

def size (fs : FileSet) : Nat := fs.files.length

def isEmpty (fs : FileSet) : Bool := fs.files.isEmpty

/-- replace the text at a path, or put the path at the end -/
def insertInto (path text : String) : List (String × String) → List (String × String)
  | [] => [(path, text)]
  | (p, t) :: fs => if p = path then (p, text) :: fs else (p, t) :: insertInto path text fs

def insert (fs : FileSet) (path text : String) : FileSet := ⟨insertInto path text fs.files⟩

/-- insert in order, and list the paths that were there already -/
def insertAll (fs : FileSet) : List (String × String) → FileSet × List String
  | [] => (fs, [])
  | (path, text) :: rest =>
    let r := (fs.insert path text).insertAll rest
    (r.1, if fs.contains path then path :: r.2 else r.2)

def ofList (files : List (String × String)) : FileSet × List String := insertAll {} files

/-- insert texts in order up to the first that is a failure; the list has the paths that were
there already when inserted -/
def collect {ε : Type} (fs : FileSet) :
    List (String × Except ε String) → List String × Except ε FileSet
  | [] => ([], .ok fs)
  | (_, .error e) :: _ => ([], .error e)
  | (path, .ok text) :: rest =>
    let r := (fs.insert path text).collect rest
    (if fs.contains path then path :: r.1 else r.1, r.2)

theorem lookup_insertInto (path text q : String) (fs : List (String × String)) :
    (insertInto path text fs).lookup q = if q = path then some text else fs.lookup q := by
  induction fs with
  | nil => simp only [insertInto, List.lookup_cons, List.lookup_nil]; grind
  | cons f fs ih =>
    obtain ⟨p, t⟩ := f
    simp only [insertInto]
    split <;> simp only [List.lookup_cons, ih] <;> grind

theorem get?_insert (fs : FileSet) (path text q : String) :
    (fs.insert path text).get? q = if q = path then some text else fs.get? q :=
  lookup_insertInto path text q fs.files

theorem map_fst_insertInto (path text : String) (fs : List (String × String)) :
    (insertInto path text fs).map (·.1) =
      if path ∈ fs.map (·.1) then fs.map (·.1) else fs.map (·.1) ++ [path] := by
  induction fs with
  | nil => rfl
  | cons f fs ih =>
    obtain ⟨p, t⟩ := f
    rw [List.map_cons]
    by_cases e : p = path
    · rw [insertInto, if_pos e, e, if_pos List.mem_cons_self]
      rfl
    · have hm : path ∈ p :: fs.map (·.1) ↔ path ∈ fs.map (·.1) := by
        rw [List.mem_cons]
        exact ⟨fun h => h.resolve_left (Ne.symm e), Or.inr⟩
      rw [insertInto, if_neg e, List.map_cons, ih]
      by_cases h : path ∈ fs.map (·.1)
      · rw [if_pos h, if_pos (hm.2 h)]
      · rw [if_neg h, if_neg (mt hm.1 h)]
        rfl

/-- a new path goes to the end, a known one keeps its place -/
theorem paths_insert (fs : FileSet) (path text : String) :
    (fs.insert path text).paths = if path ∈ fs.paths then fs.paths else fs.paths ++ [path] :=
  map_fst_insertInto path text fs.files

end FileSet

end TypeModel
