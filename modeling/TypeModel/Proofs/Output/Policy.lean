import Mathlib.Data.List.Induction
import TypeModel.Proofs.Output.FileSet
import TypeModel.Proofs.Output.Grounded

/-!
# The overwrite policy over whole histories

A sink is written to again and again, one file or a set of files at a time.  Each path has a history
of its own: the texts that were written to it, in order, with the answers.

* `Honours force before texts outcomes after`
                        the policy for one path: with force each text is stored and the last one
                        stays, without force the first one does, unless there was one before;
* `select keep xs`      the part of a list that is about one path;
* `SinkCall`, `MemorySink.run`, `FileSystem.run`
                        histories, which are those of `writes calls`;
* `MemorySink.honours_writeAll`, `Grounded.honours_storeAll`
                        both sinks honour the policy, by one write at a time;
* `sinks_keep_policy`   this, the order of files and that a set that was written is skipped.

In a file system the history is that of a place, and paths with a step `..` that lead to nothing are
left out: see `not_honoured_roundabout`.
-/

namespace TypeModel

/-! ## the history of one path -/

/-- one write, with what was there before and after -/
inductive Stores (force : Bool) (text : String) :
    Option String → WriteOutcome → Option String → Prop
  | written {before : Option String} (h : force = true ∨ before = none) :
      Stores force text before .written (some text)
  | skipped {old : String} (h : force = false) : Stores force text (some old) .skipped (some old)

/-- all writes in order: the first is stored if nothing was there, and with force every one is -/
structure Honours (force : Bool) (before : Option String) (texts : List String)
    (outcomes : List WriteOutcome) (after : Option String) : Prop where
  outcomes_eq : outcomes = texts.mapIdx fun i _ =>
    if force = true ∨ before = none ∧ i = 0 then .written else .skipped
  after_eq : after = if force = true then texts.getLast?.or before else before.or texts.head?

namespace Honours
variable {force : Bool} {before mid after : Option String} {text : String} {texts : List String}
  {o : WriteOutcome} {os : List WriteOutcome}

theorem nil (force : Bool) (before : Option String) : Honours force before [] [] before := by
  refine ⟨rfl, ?_⟩
  cases force with
  | true => rfl
  | false => exact (Option.or_none).symm

theorem cons (hw : Stores force text before o mid) (h : Honours force mid texts os after) :
    Honours force before (text :: texts) (o :: os) after := by
  obtain ⟨hos, hafter⟩ := h
  subst hos hafter
  cases force with
  | true =>
    cases hw with
    | written _ =>
      refine ⟨?_, ?_⟩
      · rw [List.mapIdx_cons]
        simp only [true_or, if_true]
      · rw [List.getLast?_cons, if_pos rfl, if_pos rfl]
        cases texts.getLast? <;> rfl
    | skipped h => cases h
  | false =>
    -- only the first write to nothing is stored, so what comes after it is skipped
    cases hw with
    | written h =>
      obtain rfl := h.resolve_left Bool.false_ne_true
      refine ⟨?_, rfl⟩
      rw [List.mapIdx_cons]
      simp
    | skipped _ =>
      refine ⟨?_, rfl⟩
      rw [List.mapIdx_cons]
      simp

end Honours

/-! ## histories -/

def select {α : Type} (keep : String → Bool) (xs : List (String × α)) : List α :=
  (xs.filter fun x => keep x.1).map (·.2)

theorem select_cons {α : Type} (keep : String → Bool) (path : String) (a : α)
    (xs : List (String × α)) :
    select keep ((path, a) :: xs) =
      if keep path = true then a :: select keep xs else select keep xs := by
  unfold select
  rw [List.filter_cons]
  split <;> rfl

inductive SinkCall where
  | write (path text : String)
  | writeAll (files : FileSet)

def SinkCall.files : SinkCall → List (String × String)
  | .write path text => [(path, text)]
  | .writeAll files => files.files

/-- one write after another, with those of a set in its order -/
def writes (calls : List SinkCall) : List (String × String) := calls.flatMap SinkCall.files

theorem mem_writes {calls : List SinkCall} {files : FileSet} (h : .writeAll files ∈ calls)
    {x : String × String} (hx : x ∈ files.files) : x ∈ writes calls :=
  List.mem_flatMap.mpr ⟨_, h, hx⟩

/-! ## files in memory -/

namespace MemorySink

def call (s : MemorySink) : SinkCall → MemorySink × List (String × WriteOutcome)
  | .write path text => ((s.write path text).1, [(path, (s.write path text).2)])
  | .writeAll files => s.writeAll files.files

def run (s : MemorySink) : List SinkCall → MemorySink × List (String × WriteOutcome)
  | [] => (s, [])
  | c :: cs => (((s.call c).1.run cs).1, (s.call c).2 ++ ((s.call c).1.run cs).2)

theorem writeAll_append (xs ys : List (String × String)) : ∀ s : MemorySink,
    s.writeAll (xs ++ ys) =
      (((s.writeAll xs).1.writeAll ys).1, (s.writeAll xs).2 ++ ((s.writeAll xs).1.writeAll ys).2) := by
  induction xs with
  | nil =>
    intro s
    rfl
  | cons x xs ih =>
    intro s
    show (((s.write x.1 x.2).1.writeAll (xs ++ ys)).1,
      (x.1, (s.write x.1 x.2).2) :: ((s.write x.1 x.2).1.writeAll (xs ++ ys)).2) = _
    rw [ih]
    rfl

theorem run_eq (calls : List SinkCall) : ∀ s : MemorySink,
    s.run calls = s.writeAll (writes calls) := by
  induction calls with
  | nil =>
    intro s
    rfl
  | cons c cs ih =>
    intro s
    have hcall : s.call c = s.writeAll c.files := by
      cases c with
      | write path text => rfl
      | writeAll files => rfl
    show (((s.call c).1.run cs).1, (s.call c).2 ++ ((s.call c).1.run cs).2) =
      s.writeAll (c.files ++ writes cs)
    rw [writeAll_append, ih, hcall]

theorem write_cases (s : MemorySink) (path text : String) :
    (s.force = false ∧ path ∈ s.stored.paths) ∧ s.write path text = (s, .skipped) ∨
      (s.force = true ∨ path ∉ s.stored.paths) ∧
        s.write path text = ({ s with stored := s.stored.insert path text }, .written) := by
  unfold write
  by_cases hstored : s.stored.contains path = true
  · have hmem := FileSet.contains_iff.mp hstored
    cases hforce : s.force with
    | false => exact Or.inl ⟨⟨rfl, hmem⟩, by rw [hstored]; rfl⟩
    | true => exact Or.inr ⟨Or.inl rfl, by rw [hstored]; rfl⟩
  · have hmem := mt FileSet.contains_iff.mpr hstored
    rw [Bool.not_eq_true] at hstored
    exact Or.inr ⟨Or.inr hmem, by rw [hstored]; rfl⟩

theorem force_write (s : MemorySink) (path text : String) :
    (s.write path text).1.force = s.force := by
  rcases s.write_cases path text with ⟨_, h⟩ | ⟨_, h⟩ <;> rw [h]

theorem force_writeAll (ws : List (String × String)) : ∀ s : MemorySink,
    (s.writeAll ws).1.force = s.force := by
  induction ws with
  | nil => exact fun s => rfl
  | cons w ws ih => exact fun s => (ih _).trans (s.force_write w.1 w.2)

theorem stores_write (s : MemorySink) (path text : String) :
    Stores s.force text (s.stored.get? path) (s.write path text).2
      ((s.write path text).1.stored.get? path) := by
  rcases s.write_cases path text with ⟨⟨hforce, hmem⟩, h⟩ | ⟨hfree, h⟩
  · rw [h]
    cases hget : s.stored.get? path with
    | none => exact absurd hmem (FileSet.get?_eq_none_iff.mp hget)
    | some old => exact .skipped hforce
  · rw [h]
    show Stores _ _ _ _ ((s.stored.insert path text).get? path)
    rw [FileSet.get?_insert, if_pos rfl]
    exact .written (hfree.imp id FileSet.get?_eq_none_iff.mpr)

theorem get?_write_of_ne (s : MemorySink) {path q : String} (hq : q ≠ path) (text : String) :
    (s.write path text).1.stored.get? q = s.stored.get? q := by
  rcases s.write_cases path text with ⟨_, h⟩ | ⟨_, h⟩
  · rw [h]
  · rw [h]
    show (s.stored.insert path text).get? q = _
    rw [FileSet.get?_insert, if_neg hq]

theorem honours_writeAll (q : String) (ws : List (String × String)) : ∀ s : MemorySink,
    Honours s.force (s.stored.get? q) (select (· == q) ws) (select (· == q) (s.writeAll ws).2)
      ((s.writeAll ws).1.stored.get? q) := by
  induction ws with
  | nil => exact fun s => Honours.nil _ _
  | cons w ws ih =>
    intro s
    obtain ⟨path, text⟩ := w
    have hrest := ih (s.write path text).1
    rw [force_write] at hrest
    show Honours _ _ (select _ ((path, text) :: ws))
      (select _ ((path, (s.write path text).2) :: ((s.write path text).1.writeAll ws).2))
      (((s.write path text).1.writeAll ws).1.stored.get? q)
    rw [select_cons, select_cons]
    by_cases hq : path = q
    · subst hq
      rw [if_pos (beq_self_eq_true path), if_pos (beq_self_eq_true path)]
      exact Honours.cons (s.stores_write path text) hrest
    · rw [if_neg (mt eq_of_beq hq), if_neg (mt eq_of_beq hq)]
      rw [s.get?_write_of_ne (Ne.symm hq)] at hrest
      exact hrest

theorem map_fst_writeAll (ws : List (String × String)) : ∀ s : MemorySink,
    (s.writeAll ws).2.map (·.1) = ws.map (·.1) := by
  induction ws with
  | nil => exact fun s => rfl
  | cons w ws ih => exact fun s => congrArg (w.1 :: ·) (ih _)

theorem paths_write (s : MemorySink) (path text : String) :
    (s.write path text).1.stored.paths =
      if path ∈ s.stored.paths then s.stored.paths else s.stored.paths ++ [path] := by
  rcases s.write_cases path text with ⟨⟨_, hmem⟩, h⟩ | ⟨_, h⟩
  · rw [h, if_pos hmem]
  · rw [h]
    exact s.stored.paths_insert path text

/-- files stand in the order of their first writes -/
theorem paths_writeAll (force : Bool) (ws : List (String × String)) :
    (({ force } : MemorySink).writeAll ws).1.stored.paths = (ws.map (·.1)).eraseDups := by
  induction ws using List.reverseRecOn with
  | nil => rfl
  | append_singleton ws w ih =>
    rw [writeAll_append]
    show ((({ force } : MemorySink).writeAll ws).1.write w.1 w.2).1.stored.paths = _
    rw [paths_write, ih, List.map_append, List.eraseDups_append]
    simp only [List.mem_eraseDups]
    by_cases hmem : w.1 ∈ ws.map (·.1)
    · rw [if_pos hmem]
      simp [List.removeAll, hmem]
    · rw [if_neg hmem]
      simp [List.removeAll, hmem, List.eraseDups_cons]

theorem writeAll_of_stored {s : MemorySink} (hforce : s.force = false)
    (files : List (String × String)) (h : ∀ x ∈ files, x.1 ∈ s.stored.paths) :
    s.writeAll files = (s, files.map fun x => (x.1, .skipped)) := by
  induction files with
  | nil => rfl
  | cons x files ih =>
    have hx := h x List.mem_cons_self
    have hskipped : s.write x.1 x.2 = (s, .skipped) := by
      rcases s.write_cases x.1 x.2 with ⟨_, heq⟩ | ⟨hfree, _⟩
      · exact heq
      · exact absurd hx (hfree.resolve_left (Bool.eq_false_iff.mp hforce))
    show (((s.write x.1 x.2).1.writeAll files).1,
      (x.1, (s.write x.1 x.2).2) :: ((s.write x.1 x.2).1.writeAll files).2) = _
    rw [hskipped, ih fun y hy => h y (List.mem_cons_of_mem x hy)]
    rfl

/-- what calls on a new sink leave and answer -/
structure KeepsPolicy (force : Bool) (calls : List SinkCall) (s : MemorySink)
    (answers : List (String × WriteOutcome)) : Prop where
  answered : answers.map (·.1) = (writes calls).map (·.1)
  honours : ∀ path, Honours force none (select (· == path) (writes calls))
    (select (· == path) answers) (s.stored.get? path)
  ordered : s.stored.paths = ((writes calls).map (·.1)).eraseDups
  repeated : force = false → ∀ files, .writeAll files ∈ calls →
    s.writeAll files.files = (s, files.files.map fun x => (x.1, .skipped))

theorem keepsPolicy_run (force : Bool) (calls : List SinkCall) :
    KeepsPolicy force calls (({ force } : MemorySink).run calls).1
      (({ force } : MemorySink).run calls).2 := by
  rw [run_eq]
  refine ⟨map_fst_writeAll _ _, fun path => honours_writeAll path (writes calls) { force },
    paths_writeAll force _, fun hforce files hfiles => writeAll_of_stored ?_ _ fun x hx => ?_⟩
  · rw [force_writeAll]
    exact hforce
  · rw [paths_writeAll, List.mem_eraseDups]
    exact List.mem_map_of_mem (mem_writes hfiles hx)

end MemorySink

/-! ## files in a file system -/

namespace FileSystem
variable {fs fs' : FileSystem} {force : Bool} {dir path text : String} {o : WriteOutcome}
  {answers : List (String × WriteOutcome)}

def call (fs : FileSystem) (force : Bool) (dir : String) :
    SinkCall → FileSystem × Option (List (String × WriteOutcome))
  | .write path text =>
    let w := fs.store force (Path.join dir path) text
    (w.1, w.2.map fun o => [(path, o)])
  | .writeAll files => fs.storeAll force dir files.files

/-- up to the first call that fails -/
def run (fs : FileSystem) (force : Bool) (dir : String) :
    List SinkCall → FileSystem × Option (List (String × WriteOutcome))
  | [] => (fs, some [])
  | c :: cs =>
    let r := fs.call force dir c
    match r.2 with
    | none => (r.1, none)
    | some answers =>
      let rest := r.1.run force dir cs
      (rest.1, rest.2.map (answers ++ ·))

/-- all files are stored if the first is and then the others are -/
theorem storeAll_cons_eq_some {w : String × String} {ws : List (String × String)} :
    fs.storeAll force dir (w :: ws) = (fs', some answers) ↔
      ∃ mid o rest, fs.store force (Path.join dir w.1) w.2 = (mid, some o) ∧
        mid.storeAll force dir ws = (fs', some rest) ∧ answers = (w.1, o) :: rest := by
  obtain ⟨path, text⟩ := w
  rw [storeAll_cons]
  generalize fs.store force (Path.join dir path) text = first
  obtain ⟨mid, _ | o⟩ := first
  · refine iff_of_false nofun ?_
    rintro ⟨_, _, _, ⟨⟩, _⟩
  · dsimp only
    rcases hrest : mid.storeAll force dir ws with ⟨last, _ | rest⟩
    · refine iff_of_false nofun ?_
      rintro ⟨_, _, _, ⟨⟩, h, _⟩
      rw [hrest] at h
      cases h
    · constructor
      · rintro ⟨⟩
        exact ⟨mid, o, rest, rfl, hrest, rfl⟩
      · rintro ⟨_, _, _, ⟨⟩, h, rfl⟩
        rw [hrest] at h
        cases h
        rfl

theorem storeAll_append {xs ys : List (String × String)} {mid : FileSystem}
    {as bs : List (String × WriteOutcome)} (hys : mid.storeAll force dir ys = (fs', some bs)) :
    ∀ {fs : FileSystem}, fs.storeAll force dir xs = (mid, some as) →
      fs.storeAll force dir (xs ++ ys) = (fs', some (as ++ bs)) := by
  induction xs generalizing as with
  | nil =>
    rintro _ ⟨⟩
    exact hys
  | cons x xs ih =>
    intro fs h
    obtain ⟨next, o, rest, hfirst, hrest, rfl⟩ := storeAll_cons_eq_some.mp h
    exact storeAll_cons_eq_some.mpr ⟨next, o, rest ++ bs, hfirst, ih hrest, rfl⟩

theorem call_eq (fs : FileSystem) (force : Bool) (dir : String) (c : SinkCall) :
    fs.call force dir c = fs.storeAll force dir c.files := by
  cases c with
  | writeAll files => rfl
  | write path text =>
    show (_, _) = fs.storeAll force dir [(path, text)]
    rw [storeAll_cons]
    generalize fs.store force (Path.join dir path) text = w
    obtain ⟨mid, _ | o⟩ := w <;> rfl

theorem storeAll_of_run (calls : List SinkCall) : ∀ {fs : FileSystem}
    {answers : List (String × WriteOutcome)}, fs.run force dir calls = (fs', some answers) →
      fs.storeAll force dir (writes calls) = (fs', some answers) := by
  induction calls with
  | nil => exact fun h => h
  | cons c cs ih =>
    intro fs answers h
    rw [run, call_eq] at h
    dsimp only at h
    rcases hfirst : fs.storeAll force dir c.files with ⟨mid, _ | as⟩
    · rw [hfirst] at h
      cases h
    · rw [hfirst] at h
      dsimp only at h
      rcases hrest : mid.run force dir cs with ⟨last, _ | bs⟩
      · rw [hrest] at h
        cases h
      · rw [hrest] at h
        cases h
        exact storeAll_append (ih hrest) hfirst

/-! ### one file -/

theorem store_cases (fs : FileSystem) (force : Bool) (path text : String) :
    (force = false ∧ fs.contains path = true) ∧ fs.store force path text = (fs, some .skipped) ∨
      (force = true ∨ fs.contains path = false) ∧ fs.store force path text =
        ((fs.write path text).1, if (fs.write path text).2 = true then some .written else none) := by
  unfold store
  cases force with
  | true => exact Or.inr ⟨Or.inl rfl, by rw [Bool.not_true, Bool.and_false]; rfl⟩
  | false =>
    cases hc : fs.contains path with
    | true => exact Or.inl ⟨⟨rfl, rfl⟩, rfl⟩
    | false => exact Or.inr ⟨Or.inr rfl, rfl⟩

/-- a file that can be stored is there already, or it is written -/
theorem store_eq_some (h : fs.store force path text = (fs', some o)) :
    (force = false ∧ fs.contains path = true ∧ fs' = fs ∧ o = .skipped) ∨
      (force = true ∨ fs.contains path = false) ∧ (fs.write path text).2 = true ∧
        fs' = (fs.write path text).1 ∧ o = .written := by
  rcases fs.store_cases force path text with ⟨⟨hforce, hc⟩, hs⟩ | ⟨hfree, hs⟩
  · rw [hs] at h
    cases h
    exact Or.inl ⟨hforce, hc, rfl, rfl⟩
  · rw [hs] at h
    obtain ⟨hfs, ho⟩ := Prod.mk.inj h
    split at ho
    · next hw => exact Or.inr ⟨hfree, hw, hfs.symm, (Option.some.inj ho).symm⟩
    · cases ho

theorem keeps_store (h : fs.store force path text = (fs', some o)) : fs.Keeps fs' := by
  rcases store_eq_some h with ⟨_, _, rfl, _⟩ | ⟨_, _, rfl, _⟩
  · exact Keeps.refl _
  · exact keeps_write _ path text

theorem text?_store_of_ne (h : fs.store force path text = (fs', some o)) {place : Place}
    (hne : place ≠ destination path) : fs'.text? place = fs.text? place := by
  rcases store_eq_some h with ⟨_, _, rfl, _⟩ | ⟨_, _, rfl, _⟩
  · rfl
  · rw [text?_write, if_neg fun h => hne h.2]

theorem locate_of_contains (h : fs.contains path = true) :
    ∃ node, fs.locate path = .ok (destination path, node) ∧
      fs.node? (destination path) = some node := by
  obtain ⟨⟨place, node⟩, hl⟩ := contains_eq_true.mp h
  obtain ⟨_, _, hfollow, hnode, _⟩ := locate_eq_ok.mp hl
  obtain rfl := eq_of_follow hfollow
  exact ⟨node, hl, hnode⟩

/-- what a path that leads somewhere is read as -/
theorem read?_of_contains (h : fs.contains path = true) :
    fs.read? path = fs.text? (destination path) := by
  obtain ⟨node, hl, hnode⟩ := locate_of_contains h
  unfold read? find? text?
  rw [hl, hnode]
  cases node <;> rfl

namespace Grounded

theorem store (h : fs.Grounded) (hs : fs.store force path text = (fs', some o)) :
    fs'.Grounded := by
  rcases store_eq_some hs with ⟨_, _, rfl, _⟩ | ⟨_, _, rfl, _⟩
  · exact h
  · exact h.write path text

theorem contains_of_store (h : fs.Grounded) (hs : fs.store force path text = (fs', some o)) :
    fs'.contains path = true := by
  rcases store_eq_some hs with ⟨_, hc, rfl, _⟩ | ⟨_, hw, rfl, _⟩
  · exact hc
  · exact contains_eq_true.mpr ⟨_, h.locate_write hw⟩

/-- a path that leads to nothing and goes up nowhere has no file at its destination -/
theorem text?_of_absent (h : fs.Grounded) (hpath : Writable path) (hup : ".." ∉ Path.route path)
    (habsent : fs.contains path = false) : fs.text? (destination path) = none := by
  rw [Option.eq_none_iff_forall_ne_some]
  intro t ht
  rw [text?_eq_some] at ht
  have hfound := contains_of_open hpath hup (h.isOpen _ _ ht) ht
  rw [habsent] at hfound
  cases hfound

theorem stores_store (h : fs.Grounded) (hs : fs.store force path text = (fs', some o))
    (hsafe : force = true ∨ fs.node? (destination path) ≠ some .directory ∧
      (fs.contains path = true ∨ ".." ∉ Path.route path)) :
    Stores force text (fs.text? (destination path)) o (fs'.text? (destination path)) := by
  rcases store_eq_some hs with ⟨hforce, hc, rfl, rfl⟩ | ⟨hfree, hw, rfl, rfl⟩
  · obtain ⟨hfile, _⟩ := hsafe.resolve_left (Bool.eq_false_iff.mp hforce)
    obtain ⟨node, _, hnode⟩ := locate_of_contains hc
    cases node with
    | directory => exact absurd hnode hfile
    | file old =>
      rw [text?_eq_some.mpr hnode]
      exact .skipped hforce
  · rw [text?_write, if_pos ⟨hw, rfl⟩]
    refine .written ?_
    rcases hsafe with hforce | ⟨_, hway⟩
    · exact Or.inl hforce
    · rcases hfree with hforce | habsent
      · exact Or.inl hforce
      · have hup := hway.resolve_left (Bool.eq_false_iff.mp habsent)
        exact Or.inr (h.text?_of_absent (writable_of_write hw) hup habsent)

end Grounded

/-! ### many files -/

def leadsTo (dir : String) (place : Place) (path : String) : Bool :=
  destination (Path.join dir path) == place

theorem leadsTo_iff {place : Place} :
    leadsTo dir place path = true ↔ destination (Path.join dir path) = place := beq_iff_eq

/-- a path to the place leads there from the start, or it goes up nowhere -/
def Direct (fs : FileSystem) (dir : String) (place : Place) (ws : List (String × String)) : Prop :=
  ∀ w ∈ ws, destination (Path.join dir w.1) = place →
    fs.contains (Path.join dir w.1) = true ∨ ".." ∉ Path.route (Path.join dir w.1)

instance (fs : FileSystem) (dir : String) (place : Place) (ws : List (String × String)) :
    Decidable (fs.Direct dir place ws) :=
  inferInstanceAs (Decidable (∀ w ∈ ws, destination (Path.join dir w.1) = place →
    fs.contains (Path.join dir w.1) = true ∨ ".." ∉ Path.route (Path.join dir w.1)))

theorem Direct.tail {place : Place} {w : String × String} {ws : List (String × String)}
    (h : fs.Direct dir place (w :: ws)) (hkeeps : fs.Keeps fs') : fs'.Direct dir place ws :=
  fun x hx hplace => (h x (List.mem_cons_of_mem w hx) hplace).imp hkeeps.contains id

theorem keeps_storeAll (ws : List (String × String)) :
    ∀ {fs : FileSystem} {answers : List (String × WriteOutcome)},
      fs.storeAll force dir ws = (fs', some answers) → fs.Keeps fs' := by
  induction ws with
  | nil =>
    rintro _ _ ⟨⟩
    exact Keeps.refl _
  | cons w ws ih =>
    intro fs answers h
    obtain ⟨mid, o, rest, hfirst, hrest, _⟩ := storeAll_cons_eq_some.mp h
    exact (keeps_store hfirst).trans (ih hrest)

theorem map_fst_storeAll (ws : List (String × String)) :
    ∀ {fs : FileSystem} {answers : List (String × WriteOutcome)},
      fs.storeAll force dir ws = (fs', some answers) → answers.map (·.1) = ws.map (·.1) := by
  induction ws with
  | nil =>
    rintro fs _ ⟨⟩
    rfl
  | cons w ws ih =>
    intro fs answers h
    obtain ⟨mid, o, rest, _, hrest, rfl⟩ := storeAll_cons_eq_some.mp h
    exact congrArg (w.1 :: ·) (ih hrest)

theorem storeAll_of_contains (files : List (String × String))
    (h : ∀ x ∈ files, fs.contains (Path.join dir x.1) = true) :
    fs.storeAll false dir files = (fs, some (files.map fun x => (x.1, .skipped))) := by
  induction files with
  | nil => rfl
  | cons x files ih =>
    refine storeAll_cons_eq_some.mpr ⟨fs, .skipped, _, ?_,
      ih fun y hy => h y (List.mem_cons_of_mem x hy), rfl⟩
    rcases fs.store_cases false (Path.join dir x.1) x.2 with ⟨_, hs⟩ | ⟨hfree, _⟩
    · exact hs
    · rw [h x List.mem_cons_self] at hfree
      rcases hfree with h | h <;> cases h

namespace Grounded

theorem contains_of_storeAll (ws : List (String × String)) :
    ∀ {fs : FileSystem} {answers : List (String × WriteOutcome)}, fs.Grounded →
      fs.storeAll force dir ws = (fs', some answers) →
      ∀ w ∈ ws, fs'.contains (Path.join dir w.1) = true := by
  induction ws with
  | nil => exact fun _ _ => nofun
  | cons w ws ih =>
    intro fs answers h hall x hx
    obtain ⟨mid, o, rest, hfirst, hrest, _⟩ := storeAll_cons_eq_some.mp hall
    rcases List.mem_cons.mp hx with rfl | hx
    · exact (keeps_storeAll ws hrest).contains (h.contains_of_store hfirst)
    · exact ih (h.store hfirst) hrest x hx

/-- the history of a place that is no directory, or of any place with force -/
theorem honours_storeAll {place : Place} (ws : List (String × String)) :
    ∀ {fs : FileSystem} {answers : List (String × WriteOutcome)}, fs.Grounded →
      fs.storeAll force dir ws = (fs', some answers) →
      (force = true ∨ fs'.node? place ≠ some .directory ∧ fs.Direct dir place ws) →
      Honours force (fs.text? place) (select (leadsTo dir place) ws)
        (select (leadsTo dir place) answers) (fs'.text? place) := by
  induction ws with
  | nil =>
    rintro fs _ _ ⟨⟩ _
    exact Honours.nil _ _
  | cons w ws ih =>
    intro fs answers h hall hsafe
    obtain ⟨path, text⟩ := w
    obtain ⟨mid, o, rest, hfirst, hrest, rfl⟩ := storeAll_cons_eq_some.mp hall
    have hmid := ih (h.store hfirst) hrest <| hsafe.imp id fun ⟨hfile, hdirect⟩ =>
      ⟨hfile, hdirect.tail (keeps_store hfirst)⟩
    rw [select_cons, select_cons]
    by_cases hplace : destination (Path.join dir path) = place
    · rw [if_pos (leadsTo_iff.mpr hplace), if_pos (leadsTo_iff.mpr hplace)]
      subst hplace
      refine Honours.cons (h.stores_store hfirst ?_) hmid
      exact hsafe.imp id fun ⟨hfile, hdirect⟩ =>
        ⟨mt ((keeps_storeAll _ hall).directories _) hfile,
          hdirect (path, text) List.mem_cons_self rfl⟩
    · rw [if_neg (mt leadsTo_iff.mp hplace), if_neg (mt leadsTo_iff.mp hplace),
        ← text?_store_of_ne hfirst (Ne.symm hplace)]
      exact hmid

end Grounded

/-- what calls leave and answer, if none of them fails -/
structure KeepsPolicy (force : Bool) (dir : String) (calls : List SinkCall) (fs fs' : FileSystem)
    (answers : List (String × WriteOutcome)) : Prop where
  answered : answers.map (·.1) = (writes calls).map (·.1)
  honours : ∀ place,
    force = true ∨ fs'.node? place ≠ some .directory ∧ fs.Direct dir place (writes calls) →
      Honours force (fs.text? place) (select (leadsTo dir place) (writes calls))
        (select (leadsTo dir place) answers) (fs'.text? place)
  found : ∀ w ∈ writes calls,
    fs'.read? (Path.join dir w.1) = fs'.text? (destination (Path.join dir w.1))
  repeated : force = false → ∀ files, .writeAll files ∈ calls →
    fs'.storeAll force dir files.files = (fs', some (files.files.map fun x => (x.1, .skipped)))

theorem Grounded.keepsPolicy_run (h : fs.Grounded) {calls : List SinkCall}
    (hrun : fs.run force dir calls = (fs', some answers)) :
    KeepsPolicy force dir calls fs fs' answers := by
  have hall := storeAll_of_run calls hrun
  have hfound := h.contains_of_storeAll _ hall
  refine ⟨map_fst_storeAll _ hall, fun place hsafe => h.honours_storeAll _ hall hsafe,
    fun w hw => read?_of_contains (hfound w hw), ?_⟩
  rintro rfl files hfiles
  exact storeAll_of_contains _ fun x hx => hfound x (mem_writes hfiles hx)

end FileSystem

/-- every history of a sink in memory keeps the policy, and so does every history of a sink in a
file system in which no call fails -/
theorem sinks_keep_policy (force : Bool) (calls : List SinkCall) :
    MemorySink.KeepsPolicy force calls (({ force } : MemorySink).run calls).1
        (({ force } : MemorySink).run calls).2 ∧
      ∀ (fs fs' : FileSystem) (dir : String) (answers : List (String × WriteOutcome)),
        fs.Grounded → fs.run force dir calls = (fs', some answers) →
          FileSystem.KeepsPolicy force dir calls fs fs' answers :=
  ⟨MemorySink.keepsPolicy_run force calls, fun _ _ _ _ h hrun => h.keepsPolicy_run hrun⟩

open FileSystem

/-- a file that was there before, and calls that write to it and to another -/
def kept : FileSystem := (({} : FileSystem).write "out/kept" "old").1

def mixedCalls : List SinkCall :=
  [.write "kept" "new", .writeAll ⟨[("a/b", "first"), ("kept", "newer")]⟩, .write "a/b" "second"]

theorem sinks_keep_policy_mixedCalls :
    (({ force := false } : MemorySink).run mixedCalls).1.stored.paths = ["kept", "a/b"] ∧
      (kept.run false "out" mixedCalls).1.text? ["out", "kept"] = some "old" := by
  have hrun : kept.run false "out" mixedCalls = ((kept.run false "out" mixedCalls).1,
      some [("kept", .skipped), ("a/b", .written), ("kept", .skipped), ("a/b", .skipped)]) :=
    Prod.ext rfl (by decide +kernel)
  obtain ⟨hmemory, hdirectory⟩ := sinks_keep_policy false mixedCalls
  have hkept := (hdirectory _ _ "out" _ (grounded_empty.write _ _) hrun).honours ["out", "kept"]
    (Or.inr ⟨by decide +kernel, by decide +kernel⟩)
  exact ⟨hmemory.ordered.trans (by decide +kernel), hkept.after_eq.trans (by decide +kernel)⟩

/-- one file by two paths, the second by way of a directory that is not there -/
def roundabout : List SinkCall := [.write "kept" "first", .write "new/../kept" "second"]

/-- both writes are answered as new, and the second text stays -/
theorem not_honoured_roundabout :
    ({} : FileSystem).Grounded ∧
      (({} : FileSystem).run false "out" roundabout).2 =
        some [("kept", .written), ("new/../kept", .written)] ∧
      ¬ Honours false (({} : FileSystem).text? ["out", "kept"])
        (select (leadsTo "out" ["out", "kept"]) (writes roundabout))
        (select (leadsTo "out" ["out", "kept"]) [("kept", .written), ("new/../kept", .written)])
        ((({} : FileSystem).run false "out" roundabout).1.text? ["out", "kept"]) := by
  refine ⟨grounded_empty, by decide +kernel, fun h => ?_⟩
  exact absurd h.after_eq (by decide +kernel)

end TypeModel
