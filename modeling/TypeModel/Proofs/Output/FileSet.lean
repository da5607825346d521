import Mathlib.Data.List.Basic
import TypeModel.Output.FileSet

/-!
# Many files at once

Files go into a set one after another, and a path may come up again.

* `lastText? files path`   the text that a list of files has last for a path;
* `get?_insertAll`         what stands at a path afterwards: the last text, or what stood there;
* `mem_paths_insertAll`    the paths afterwards;
* `count_insertAll`        a path is reported once for each time that it was there already;
* `written files`          the texts in front of the first failure, and `collect_eq` that these are
                           inserted when texts may fail;
* `get?_collect`, `mem_paths_collect`, `collect_eq_nil`   what follows for texts that may fail.
-/

namespace TypeModel.FileSet

/-! ## texts -/

def lastText? (files : List (String × String)) (path : String) : Option String :=
  ((files.filter fun f => f.1 = path).getLast?).map (·.2)

theorem lastText?_cons (f : String × String) (files : List (String × String)) (path : String) :
    lastText? (f :: files) path =
      (lastText? files path).or (if path = f.1 then some f.2 else none) := by
  unfold lastText?
  by_cases h : f.1 = path
  · rw [List.filter_cons_of_pos (by simpa using h), if_pos h.symm, List.getLast?_cons]
    cases (files.filter fun f => f.1 = path).getLast? <;> rfl
  · rw [List.filter_cons_of_neg (by simpa using h), if_neg (Ne.symm h), Option.or_none]

theorem get?_eq_none_iff {fs : FileSet} {path : String} :
    fs.get? path = none ↔ path ∉ fs.paths := by
  unfold get? paths
  rw [List.lookup_eq_none_iff, List.mem_map]
  constructor
  · rintro h ⟨x, hx, rfl⟩
    exact bne_iff_ne.mp (h x hx) rfl
  · exact fun h x hx => bne_iff_ne.mpr fun heq => h ⟨x, hx, heq.symm⟩

theorem get?_insertAll (files : List (String × String)) :
    ∀ (fs : FileSet) (path : String),
      (fs.insertAll files).1.get? path = (lastText? files path).or (fs.get? path) := by
  induction files with
  | nil =>
    intro fs path
    rfl
  | cons f files ih =>
    intro fs path
    show ((fs.insert f.1 f.2).insertAll files).1.get? path = _
    rw [ih, get?_insert, lastText?_cons, Option.or_assoc]
    congr 1
    split <;> rfl

theorem mem_paths_insert {fs : FileSet} {path text q : String} :
    q ∈ (fs.insert path text).paths ↔ q ∈ fs.paths ∨ q = path := by
  rw [paths_insert]
  split
  case isTrue h => exact ⟨Or.inl, fun hq => hq.elim id fun hq => hq ▸ h⟩
  case isFalse h => rw [List.mem_append, List.mem_singleton]

theorem mem_paths_insertAll (files : List (String × String)) :
    ∀ {fs : FileSet} {path : String},
      path ∈ (fs.insertAll files).1.paths ↔ path ∈ fs.paths ∨ path ∈ files.map (·.1) := by
  induction files with
  | nil => simp [insertAll]
  | cons f files ih =>
    intro fs path
    show path ∈ ((fs.insert f.1 f.2).insertAll files).1.paths ↔ _
    rw [ih, mem_paths_insert, List.map_cons, List.mem_cons, or_assoc]

/-! ## paths that come up again -/

theorem contains_iff {fs : FileSet} {path : String} : fs.contains path = true ↔ path ∈ fs.paths :=
  List.contains_iff_mem

/-- a path is reported once for each time that it was there already -/
theorem count_insertAll (files : List (String × String)) :
    ∀ (fs : FileSet) (path : String),
      (fs.insertAll files).2.count path =
        (files.map (·.1)).count path - if path ∈ fs.paths then 0 else 1 := by
  induction files with
  | nil => simp [insertAll]
  | cons f files ih =>
    intro fs path
    have hrest := ih (fs.insert f.1 f.2) path
    show (if fs.contains f.1 then f.1 :: _ else _ : List String).count path = _
    rw [List.map_cons]
    by_cases hpath : path = f.1
    · rw [← hpath] at hrest ⊢
      rw [if_pos (mem_paths_insert.mpr (Or.inr rfl))] at hrest
      rw [List.count_cons_self]
      by_cases hin : path ∈ fs.paths
      · rw [if_pos (contains_iff.mpr hin), if_pos hin, List.count_cons_self, hrest]
        rfl
      · rw [if_neg (mt contains_iff.mp hin), if_neg hin, hrest]
        omega
    · have hsame : path ∈ (fs.insert f.1 f.2).paths ↔ path ∈ fs.paths :=
        mem_paths_insert.trans (or_iff_left hpath)
      simp only [hsame] at hrest
      rw [List.count_cons_of_ne (Ne.symm hpath), ← hrest]
      split
      · exact List.count_cons_of_ne (Ne.symm hpath)
      · rfl

/-- in an empty set, no path comes up again if and only if all are different -/
theorem insertAll_eq_nil_iff (files : List (String × String)) :
    (({} : FileSet).insertAll files).2 = [] ↔ (files.map (·.1)).Nodup := by
  have hcount : ∀ path, ((({} : FileSet).insertAll files).2).count path =
      (files.map (·.1)).count path - 1 := fun path => count_insertAll files {} path
  rw [List.nodup_iff_count, List.eq_nil_iff_forall_not_mem]
  refine forall_congr' fun path => ?_
  rw [← List.count_eq_zero, hcount]
  omega

/-! ## texts that may fail -/

section
variable {ε : Type}

/-- the texts in front of the first failure -/
def written : List (String × Except ε String) → List (String × String)
  | [] => []
  | (_, .error _) :: _ => []
  | (path, .ok text) :: rest => (path, text) :: written rest

/-- a text that did not fail -/
def succeeded (f : String × String) : String × Except ε String := (f.1, .ok f.2)

theorem paths_written_sublist (files : List (String × Except ε String)) :
    ((written files).map (·.1)).Sublist (files.map (·.1)) := by
  induction files with
  | nil => exact List.Sublist.slnil
  | cons f files ih =>
    obtain ⟨path, text⟩ := f
    cases text with
    | error e => exact List.nil_sublist _
    | ok text => exact ih.cons_cons path

/-- the texts in front of the first failure are inserted, and the set is given if there is none -/
theorem collect_eq (files : List (String × Except ε String)) :
    ∀ fs : FileSet, (fs.collect files).1 = (fs.insertAll (written files)).2 ∧
      ∀ out, (fs.collect files).2 = .ok out →
        files = (written files).map succeeded ∧ out = (fs.insertAll (written files)).1 := by
  induction files with
  | nil =>
    intro fs
    refine ⟨rfl, ?_⟩
    rintro _ ⟨⟩
    exact ⟨rfl, rfl⟩
  | cons f files ih =>
    intro fs
    obtain ⟨path, text⟩ := f
    cases text with
    | error e => exact ⟨rfl, nofun⟩
    | ok text =>
      obtain ⟨hpaths, hout⟩ := ih (fs.insert path text)
      refine ⟨?_, ?_⟩
      · show (if fs.contains path then path :: _ else _ : List String) = _
        rw [hpaths]
        rfl
      · intro out h
        obtain ⟨hfiles, rfl⟩ := hout out h
        exact ⟨congrArg ((path, .ok text) :: ·) hfiles, rfl⟩

/-- where no text fails, the last one for a path is what stands there -/
theorem get?_collect {files : List (String × Except ε String)} {out : FileSet}
    (h : (({} : FileSet).collect files).2 = .ok out) (path : String) :
    ((files.filter fun f => f.1 = path).getLast?).map (·.2) = (out.get? path).map .ok := by
  obtain ⟨hfiles, rfl⟩ := (collect_eq files {}).2 out h
  have hempty : ({} : FileSet).get? path = none := rfl
  have hfilter : files.filter (fun f => f.1 = path) =
      ((written files).filter fun f => f.1 = path).map succeeded := by
    rw [hfiles, List.filter_map, ← hfiles]
    rfl
  rw [hfilter, List.getLast?_map, get?_insertAll, hempty, Option.or_none]
  unfold lastText?
  rw [Option.map_map, Option.map_map]
  rfl

theorem mem_paths_collect {files : List (String × Except ε String)} {out : FileSet}
    (h : (({} : FileSet).collect files).2 = .ok out) {path : String} :
    path ∈ out.paths ↔ path ∈ files.map (·.1) := by
  obtain ⟨hfiles, rfl⟩ := (collect_eq files {}).2 out h
  have hpaths : files.map (·.1) = (written files).map (·.1) := by
    rw [hfiles, List.map_map, ← hfiles]
    rfl
  rw [mem_paths_insertAll, hpaths]
  exact or_iff_right List.not_mem_nil

/-- where all paths are different none is reported, and where no text fails that is the only way -/
theorem collect_eq_nil (files : List (String × Except ε String)) :
    ((files.map (·.1)).Nodup → (({} : FileSet).collect files).1 = []) ∧
      ∀ out, (({} : FileSet).collect files).2 = .ok out →
        (({} : FileSet).collect files).1 = [] → (files.map (·.1)).Nodup := by
  obtain ⟨hreported, hout⟩ := collect_eq files {}
  rw [hreported, insertAll_eq_nil_iff]
  refine ⟨fun h => h.sublist (paths_written_sublist files), ?_⟩
  intro out h hnodup
  rw [(hout out h).1, List.map_map]
  exact hnodup

end

end TypeModel.FileSet
