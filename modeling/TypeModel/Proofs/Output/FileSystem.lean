import TypeModel.Output.FileSystem
import TypeModel.Proofs.Output.Path

/-!
# What storing files does to files

A path is looked up before the directories on its way are created.  So a path that goes down into a
missing directory and up again leads to nothing when it is looked up, and to a file that was there
when it is written.

* `destination path`         the place a path names, whatever is on the way;
* `locate_eq_ok`             when a path leads to a place;
* `write_steps`              the directories that a write creates, and the file it puts there;
* `node?_write_file`         what a write leaves at the place of a file;
* `Spares fs fs' targets`    every file of `fs` is in `fs'`, but for those at the destination of a
                             target that led to nothing;
* `spares_store`, `spares_storeAll`
                             one file and many, stored without force;
* `Spares.read?`             only a target with a step `..` takes the place of a file.
-/

namespace TypeModel

/-! ## places -/

/-- the place one step leads to -/
def Place.step (place : Place) (s : String) : Place :=
  if s == ".." then place.above else place ++ [s]

theorem Place.step_of_ne {s : String} (h : (s == "..") = false) (place : Place) :
    place.step s = place ++ [s] := by
  unfold Place.step
  rw [h]
  rfl

theorem Place.foldl_step {ss : List String} (h : ".." ∉ ss) (place : Place) :
    ss.foldl Place.step place = place ++ ss := by
  induction ss generalizing place with
  | nil => exact (List.append_nil place).symm
  | cons s ss ih =>
    obtain ⟨hs, hss⟩ := not_or.mp (mt List.mem_cons.mpr h)
    rw [List.foldl_cons, Place.step_of_ne (beq_eq_false_iff_ne.mpr (Ne.symm hs)), ih hss,
      List.append_assoc]
    rfl

def destination (path : String) : Place := (Path.route path).foldl Place.step []

namespace FileSystem
variable {fs fs' : FileSystem}

theorem node?_of_isFixed {place : Place} (h : place.isFixed = true) :
    fs.node? place = some .directory := if_pos h

theorem isFixed_of_node? {place : Place} (h : fs.node? place ≠ some .directory) :
    place.isFixed = false :=
  Bool.eq_false_iff.mpr fun hf => h (node?_of_isFixed hf)

/-! ## looking up -/

/-- one step of a way that can be gone -/
theorem follow_cons {place d : Place} {s : String} {ss : List String} :
    fs.follow place (s :: ss) = .ok d ↔
      fs.node? place = some .directory ∧ isStorable s = true ∧
        fs.follow (place.step s) ss = .ok d := by
  rw [follow]
  cases fs.node? place with
  | none => exact iff_of_false nofun nofun
  | some node =>
    cases node with
    | file text => exact iff_of_false nofun nofun
    | directory =>
      cases hs : isStorable s with
      | false => exact iff_of_false nofun nofun
      | true => exact ⟨fun h => ⟨rfl, rfl, h⟩, fun h => h.2.2⟩

theorem eq_of_follow {ss : List String} : ∀ {place d : Place}, fs.follow place ss = .ok d →
    d = ss.foldl Place.step place := by
  induction ss with
  | nil =>
    rintro place _ ⟨⟩
    rfl
  | cons s ss ih =>
    intro place d h
    exact ih (follow_cons.mp h).2.2

theorem follow_mono (hd : ∀ place, fs.node? place = some .directory →
      fs'.node? place = some .directory) {ss : List String} :
    ∀ {place d : Place}, fs.follow place ss = .ok d → fs'.follow place ss = .ok d := by
  induction ss with
  | nil => exact fun h => h
  | cons s ss ih =>
    intro place d h
    obtain ⟨hplace, hs, hss⟩ := follow_cons.mp h
    exact follow_cons.mpr ⟨hd place hplace, hs, ih hss⟩

theorem follow_append {ss ts : List String} : ∀ {place mid d : Place},
    fs.follow place ss = .ok mid → fs.follow mid ts = .ok d →
      fs.follow place (ss ++ ts) = .ok d := by
  induction ss with
  | nil =>
    rintro place _ d ⟨⟩ h
    exact h
  | cons s ss ih =>
    intro place mid d hmid h
    obtain ⟨hplace, hs, hrest⟩ := follow_cons.mp hmid
    exact follow_cons.mpr ⟨hplace, hs, ih hrest h⟩

/-- only a usable path is followed -/
theorem follow_of_locate {path : String} {x : Place × Node} (h : fs.locate path = .ok x) :
    isUsable path = true ∧ path.isEmpty = false ∧
      ∃ d, fs.follow [] (Path.route path) = .ok d := by
  unfold locate at h
  unfold isUsable
  cases hend : hasEnd path with
  | true =>
    rw [hend] at h
    cases h
  | false =>
    cases hempty : path.isEmpty with
    | true =>
      rw [hend, hempty] at h
      cases h
    | false =>
      cases hshort : isShort path with
      | false =>
        rw [hend, hempty, hshort] at h
        cases h
      | true =>
        cases hfollow : fs.follow [] (Path.route path) with
        | error o =>
          rw [hend, hempty, hshort, hfollow] at h
          cases h
        | ok d => exact ⟨rfl, rfl, d, rfl⟩

/-- a file is not found by a path that only a directory can have -/
theorem locate_of_follow {path : String} {d place : Place} {node : Node}
    (husable : isUsable path = true) (hempty : path.isEmpty = false)
    (hfollow : fs.follow [] (Path.route path) = .ok d) :
    fs.locate path = .ok (place, node) ↔
      d = place ∧ fs.node? d = some node ∧ (node ≠ .directory → needsDirectory path = false) := by
  obtain ⟨hshort, hend⟩ := Bool.and_eq_true_iff.mp husable
  rw [Bool.not_eq_true'] at hend
  unfold locate
  rw [hend, hempty, hshort, hfollow]
  dsimp only [bind, Except.bind]
  cases hn : fs.node? d with
  | none => exact iff_of_false nofun (by rintro ⟨_, h, _⟩; cases h)
  | some n =>
    cases n with
    | directory =>
      constructor
      · rintro ⟨⟩
        exact ⟨rfl, rfl, fun h => absurd rfl h⟩
      · rintro ⟨rfl, ⟨⟩, _⟩
        rfl
    | file text =>
      cases hneed : needsDirectory path with
      | true =>
        refine iff_of_false nofun ?_
        rintro ⟨_, ⟨⟩, hfile⟩
        cases hfile nofun
      | false =>
        constructor
        · rintro ⟨⟩
          exact ⟨rfl, rfl, fun _ => rfl⟩
        · rintro ⟨rfl, ⟨⟩, _⟩
          rfl

theorem locate_eq_ok {path : String} {place : Place} {node : Node} :
    fs.locate path = .ok (place, node) ↔
      isUsable path = true ∧ path.isEmpty = false ∧ fs.follow [] (Path.route path) = .ok place ∧
        fs.node? place = some node ∧ (node ≠ .directory → needsDirectory path = false) := by
  constructor
  · intro h
    obtain ⟨husable, hempty, d, hfollow⟩ := follow_of_locate h
    obtain ⟨rfl, hnode⟩ := (locate_of_follow husable hempty hfollow).mp h
    exact ⟨husable, hempty, hfollow, hnode⟩
  · rintro ⟨husable, hempty, hfollow, hnode⟩
    exact (locate_of_follow husable hempty hfollow).mpr ⟨rfl, hnode⟩

theorem contains_eq_true {path : String} :
    fs.contains path = true ↔ ∃ x, fs.locate path = .ok x := by
  unfold contains find?
  cases fs.locate path with
  | error o => exact iff_of_false nofun (by rintro ⟨x, h⟩; cases h)
  | ok x => exact iff_of_true rfl ⟨x, rfl⟩

theorem read?_eq_some {path text : String} :
    fs.read? path = some text ↔ ∃ place, fs.locate path = .ok (place, .file text) := by
  unfold read? find?
  cases fs.locate path with
  | error o => exact iff_of_false nofun (by rintro ⟨x, h⟩; cases h)
  | ok x =>
    obtain ⟨place, node⟩ := x
    cases node with
    | directory => exact iff_of_false nofun (by rintro ⟨x, h⟩; cases h)
    | file t =>
      constructor
      · rintro ⟨⟩
        exact ⟨place, rfl⟩
      · rintro ⟨_, ⟨⟩⟩
        rfl

/-- what is read at a path is the file at its destination -/
theorem node?_of_read? {path text : String} (h : fs.read? path = some text) :
    fs.node? (destination path) = some (.file text) := by
  obtain ⟨place, h⟩ := read?_eq_some.mp h
  obtain ⟨_, _, hfollow, hnode, _⟩ := locate_eq_ok.mp h
  rw [destination, ← eq_of_follow hfollow]
  exact hnode

/-- directories stay, and files stay files -/
structure Keeps (fs fs' : FileSystem) : Prop where
  directories : ∀ place, fs.node? place = some .directory → fs'.node? place = some .directory
  files : ∀ place t, fs.node? place = some (.file t) → ∃ t', fs'.node? place = some (.file t')

theorem Keeps.refl (fs : FileSystem) : fs.Keeps fs := ⟨fun _ h => h, fun _ t h => ⟨t, h⟩⟩

theorem Keeps.trans {fs'' : FileSystem} (h : fs.Keeps fs') (h' : fs'.Keeps fs'') :
    fs.Keeps fs'' := by
  refine ⟨fun place hd => h'.directories place (h.directories place hd), fun place t ht => ?_⟩
  obtain ⟨t', ht'⟩ := h.files place t ht
  exact h'.files place t' ht'

/-- a path that leads somewhere goes on doing so -/
theorem Keeps.contains (h : fs.Keeps fs') {path : String} (hc : fs.contains path = true) :
    fs'.contains path = true := by
  obtain ⟨⟨place, node⟩, hl⟩ := contains_eq_true.mp hc
  obtain ⟨husable, hne, hfollow, hn, hfile⟩ := locate_eq_ok.mp hl
  have hfollow' := follow_mono h.directories hfollow
  rw [contains_eq_true]
  cases node with
  | directory =>
    have hn' := h.directories place hn
    exact ⟨_, locate_eq_ok.mpr ⟨husable, hne, hfollow', hn', fun h => absurd rfl h⟩⟩
  | file t =>
    obtain ⟨t', ht'⟩ := h.files place t hn
    exact ⟨_, locate_eq_ok.mpr ⟨husable, hne, hfollow', ht', fun _ => hfile nofun⟩⟩

/-! ## creating directories -/

/-- everything in `fs` is in `fs'` -/
def Below (fs fs' : FileSystem) : Prop :=
  ∀ place node, fs.node? place = some node → fs'.node? place = some node

theorem below_put {place : Place} (h : fs.node? place = none) (node : Node) :
    fs.Below (fs.put place node) := by
  intro q n hq
  have hfixed : place.isFixed = false := isFixed_of_node? (by rw [h]; exact nofun)
  rw [node?_put fs place q node hfixed, if_neg ?_]
  · exact hq
  · rintro rfl
    rw [h] at hq
    cases hq

/-- one step on the way: up or into a directory, into one that is created, or no further -/
theorem makeDirectories_cons (fs : FileSystem) (place : Place) (s : String) (ss : List String) :
    (s = ".." ∨ fs.node? (place.step s) = some .directory ∧ place.step s = place ++ [s]) ∧
        fs.makeDirectories place (s :: ss) = fs.makeDirectories (place.step s) ss ∨
      (s ≠ ".." ∧ isStorable s = true ∧ fs.node? (place.step s) = none) ∧
        fs.makeDirectories place (s :: ss) =
          (fs.put (place.step s) .directory).makeDirectories (place.step s) ss ∨
      fs.makeDirectories place (s :: ss) = (fs, none) := by
  rw [makeDirectories]
  cases hs : s == ".." with
  | true =>
    have hstep : place.step s = place.above := by
      unfold Place.step
      rw [hs]
      rfl
    rw [hstep]
    exact Or.inl ⟨Or.inl (eq_of_beq hs), rfl⟩
  | false =>
    rw [Place.step_of_ne hs]
    dsimp only
    rw [if_neg Bool.false_ne_true]
    cases hn : fs.node? (place ++ [s]) with
    | some node =>
      cases node with
      | directory => exact Or.inl ⟨Or.inr ⟨rfl, rfl⟩, rfl⟩
      | file t => exact Or.inr (Or.inr rfl)
    | none =>
      dsimp only
      split
      · next hstorable =>
        exact Or.inr (Or.inl ⟨⟨beq_eq_false_iff_ne.mp hs, hstorable, rfl⟩, rfl⟩)
      · exact Or.inr (Or.inr rfl)

/-- the directory that is created or found is the one the steps lead to, and nothing is lost -/
theorem makeDirectories_spec (ss : List String) : ∀ (fs : FileSystem) (place : Place),
    fs.Below (fs.makeDirectories place ss).1 ∧
      ∀ d, (fs.makeDirectories place ss).2 = some d → d = ss.foldl Place.step place := by
  induction ss with
  | nil =>
    intro fs place
    exact ⟨fun _ _ h => h, by rintro _ ⟨⟩; rfl⟩
  | cons s ss ih =>
    intro fs place
    rcases fs.makeDirectories_cons place s ss with ⟨_, h⟩ | ⟨⟨_, _, hnone⟩, h⟩ | h
    · rw [h]
      exact ih fs _
    · obtain ⟨hbelow, hd⟩ := ih (fs.put (place.step s) .directory) (place.step s)
      rw [h]
      exact ⟨fun q n hq => hbelow q n (below_put hnone .directory q n hq), hd⟩
    · rw [h]
      exact ⟨fun _ _ h => h, nofun⟩

theorem makeDirectory_spec (fs : FileSystem) (path : String) :
    fs.Below (fs.makeDirectory path).1 ∧
      ∀ d, (fs.makeDirectory path).2 = some d → d = destination path := by
  unfold makeDirectory
  split
  · exact makeDirectories_spec _ fs []
  · exact ⟨fun _ _ h => h, nofun⟩

/-! ## writing -/

/-- a path that a file can have -/
structure Writable (path : String) : Prop where
  usable : isUsable path = true
  file : needsDirectory path = false
  named : Path.route path ≠ []

theorem Writable.nonempty {path : String} (h : Writable path) : path.isEmpty = false := by
  rw [Bool.eq_false_iff]
  intro hempty
  refine h.named ?_
  rw [String.isEmpty_iff.mp hempty]
  rfl

/-- a write creates the directory of the path, and then puts the file into it or stops -/
theorem write_steps (fs : FileSystem) (path text : String) :
    ∃ parent, fs.write path text = ((fs.makeDirectory parent).1, false) ∨
      ∃ name, (Writable path ∧ name ≠ ".." ∧ isStorable name = true ∧
          Path.route path = Path.route parent ++ [name] ∧
          destination path = destination parent ++ [name]) ∧
        (fs.makeDirectory parent).2 = some (destination parent) ∧
        (fs.makeDirectory parent).1.node? (destination path) ≠ some .directory ∧
        fs.write path text =
          ((fs.makeDirectory parent).1.put (destination path) (.file text), true) := by
  unfold write
  cases hname : (Path.route path).getLast? with
  | none => exact ⟨"", Or.inl rfl⟩
  | some name =>
    cases hparent : Path.parent? path with
    | none => exact ⟨"", Or.inl rfl⟩
    | some parent =>
      refine ⟨parent, ?_⟩
      dsimp only
      cases hdir : (fs.makeDirectory parent).2 with
      | none => exact Or.inl rfl
      | some dir =>
        dsimp only
        split
        · exact Or.inl rfl
        · next hopen =>
          rw [Bool.not_eq_true, Bool.or_eq_false_iff, Bool.or_eq_false_iff, Bool.or_eq_false_iff,
            Bool.or_eq_false_iff] at hopen
          obtain ⟨⟨⟨⟨hup, hfile⟩, hstorable⟩, husable⟩, hnode⟩ := hopen
          have hroute := Path.route_parent? hparent hname
          obtain rfl := (fs.makeDirectory_spec parent).2 dir hdir
          have hplace : destination path = destination parent ++ [name] := by
            rw [destination, destination, hroute, List.foldl_append]
            exact Place.step_of_ne hup _
          rw [← hplace] at hnode ⊢
          refine Or.inr ⟨name, ⟨⟨?_, hfile, ?_⟩, beq_eq_false_iff_ne.mp hup, ?_, hroute, hplace⟩, rfl,
            of_decide_eq_false hnode, rfl⟩
          · simpa using husable
          · rw [hroute]
            simp
          · simpa using hstorable

/-- a write adds directories, and then the file at the destination of the path or nothing -/
theorem write_cases (fs : FileSystem) (path text : String) :
    ∃ made, fs.Below made ∧
      (fs.write path text = (made, false) ∨
        Writable path ∧ made.node? (destination path) ≠ some .directory ∧
          fs.write path text = (made.put (destination path) (.file text), true)) := by
  obtain ⟨parent, hw | ⟨_, ⟨hpath, _⟩, _, hfree, hw⟩⟩ := fs.write_steps path text
  · exact ⟨_, (fs.makeDirectory_spec parent).1, Or.inl hw⟩
  · exact ⟨_, (fs.makeDirectory_spec parent).1, Or.inr ⟨hpath, hfree, hw⟩⟩

/-- a file is left as it is, unless a write that succeeds goes to its place -/
theorem node?_write_file {place : Place} {t : String} (h : fs.node? place = some (.file t))
    (path text : String) :
    (fs.write path text).1.node? place = some (.file
      (if (fs.write path text).2 = true ∧ destination path = place then text else t)) := by
  obtain ⟨made, hbelow, hw | ⟨_, hfree, hw⟩⟩ := fs.write_cases path text
  · rw [hw]
    exact hbelow place _ h
  · rw [hw, node?_put _ _ _ _ (isFixed_of_node? hfree)]
    by_cases hp : place = destination path
    · rw [if_pos hp, if_pos ⟨rfl, hp.symm⟩]
    · rw [if_neg hp, if_neg fun hc => hp hc.2.symm]
      exact hbelow place _ h

theorem node?_write_directory {place : Place} (h : fs.node? place = some .directory)
    (path text : String) : (fs.write path text).1.node? place = some .directory := by
  obtain ⟨made, hbelow, hw | ⟨_, hfree, hw⟩⟩ := fs.write_cases path text
  · rw [hw]
    exact hbelow place _ h
  · rw [hw, node?_put _ _ _ _ (isFixed_of_node? hfree), if_neg]
    · exact hbelow place _ h
    · rintro rfl
      exact hfree (hbelow _ _ h)

theorem keeps_write (fs : FileSystem) (path text : String) : fs.Keeps (fs.write path text).1 :=
  ⟨fun _ hd => node?_write_directory hd path text,
    fun _ _ ht => ⟨_, node?_write_file ht path text⟩⟩

theorem writable_of_write {path text : String} (h : (fs.write path text).2 = true) :
    Writable path := by
  obtain ⟨made, _, hw | ⟨hpath, _⟩⟩ := fs.write_cases path text
  · rw [hw] at h
    cases h
  · exact hpath

/-! ## storing without force -/

/-- the path leads to nothing, and it is one that a file can have -/
structure Unseen (fs : FileSystem) (path : String) : Prop where
  absent : fs.contains path = false
  writable : Writable path

/-- directories stay, and a file stays as it is or has the text of a target that was unseen -/
structure Spares (fs fs' : FileSystem) (targets : List (String × String)) : Prop where
  directories : ∀ place, fs.node? place = some .directory → fs'.node? place = some .directory
  files : ∀ place t, fs.node? place = some (.file t) → fs'.node? place = some (.file t) ∨
    ∃ x ∈ targets, fs.Unseen x.1 ∧ destination x.1 = place ∧ fs'.node? place = some (.file x.2)

namespace Spares
variable {fs'' : FileSystem} {ts us : List (String × String)}

theorem refl (fs : FileSystem) : Spares fs fs [] := ⟨fun _ h => h, fun _ _ h => Or.inl h⟩

theorem mono (h : Spares fs fs' ts) (hsub : ∀ x ∈ ts, x ∈ us) : Spares fs fs' us := by
  refine ⟨h.directories, fun place t ht => ?_⟩
  rcases h.files place t ht with hkept | ⟨x, hx, hlost⟩
  · exact Or.inl hkept
  · exact Or.inr ⟨x, hsub x hx, hlost⟩

/-- a file is still a file -/
theorem exists_file (h : Spares fs fs' ts) {place : Place} {t : String}
    (ht : fs.node? place = some (.file t)) : ∃ t', fs'.node? place = some (.file t') := by
  rcases h.files place t ht with hkept | ⟨x, _, _, _, hx⟩
  · exact ⟨t, hkept⟩
  · exact ⟨x.2, hx⟩

theorem locate (h : Spares fs fs' ts) {path : String} {place : Place} {node node' : Node}
    (hl : fs.locate path = .ok (place, node)) (hn : fs'.node? place = some node')
    (hkind : node = .directory ↔ node' = .directory) :
    fs'.locate path = .ok (place, node') := by
  obtain ⟨husable, hne, hfollow, _, hfile⟩ := locate_eq_ok.mp hl
  exact locate_eq_ok.mpr ⟨husable, hne, follow_mono h.directories hfollow, hn,
    fun hd => hfile (mt hkind.mp hd)⟩

theorem keeps (h : Spares fs fs' ts) : fs.Keeps fs' :=
  ⟨h.directories, fun _ _ => h.exists_file⟩

theorem unseen (h : Spares fs fs' ts) {path : String} (hu : fs'.Unseen path) : fs.Unseen path := by
  refine ⟨Bool.eq_false_iff.mpr fun hc => ?_, hu.writable⟩
  have := hu.absent
  rw [h.keeps.contains hc] at this
  cases this

theorem trans (h : Spares fs fs' ts) (h' : Spares fs' fs'' us) : Spares fs fs'' (ts ++ us) := by
  refine ⟨fun place hd => h'.directories place (h.directories place hd), fun place t ht => ?_⟩
  obtain ⟨t', ht'⟩ := h.exists_file ht
  rcases h'.files place t' ht' with hkept | ⟨x, hx, hunseen, hplace, hlost⟩
  · rcases h.files place t ht with hfirst | ⟨x, hx, hunseen, hplace, hlost⟩
    · rw [hfirst] at ht'
      cases ht'
      exact Or.inl hkept
    · rw [hlost] at ht'
      cases ht'
      exact Or.inr ⟨x, List.mem_append_left us hx, hunseen, hplace, hkept⟩
  · exact Or.inr ⟨x, List.mem_append_right ts hx, h.unseen hunseen, hplace, hlost⟩

end Spares

theorem spares_store (fs : FileSystem) (path text : String) :
    Spares fs (fs.store false path text).1 [(path, text)] := by
  unfold store
  cases hc : fs.contains path with
  | true => exact (Spares.refl fs).mono nofun
  | false =>
    refine ⟨fun place hd => node?_write_directory hd path text, fun place t ht => ?_⟩
    have hnode := node?_write_file ht path text
    by_cases hw : (fs.write path text).2 = true ∧ destination path = place
    · rw [if_pos hw] at hnode
      exact Or.inr ⟨_, List.mem_singleton_self _, ⟨hc, writable_of_write hw.1⟩, hw.2, hnode⟩
    · rw [if_neg hw] at hnode
      exact Or.inl hnode

/-- the full paths of files below a directory, with their texts -/
def targets (dir : String) (files : List (String × String)) : List (String × String) :=
  files.map fun x => (Path.join dir x.1, x.2)

/-- the files behind the first are stored only if that one was -/
theorem storeAll_cons (fs : FileSystem) (force : Bool) (dir path text : String)
    (rest : List (String × String)) :
    fs.storeAll force dir ((path, text) :: rest) =
      match (fs.store force (Path.join dir path) text).2 with
      | none => ((fs.store force (Path.join dir path) text).1, none)
      | some outcome =>
        (((fs.store force (Path.join dir path) text).1.storeAll force dir rest).1,
          ((fs.store force (Path.join dir path) text).1.storeAll force dir rest).2.map
            ((path, outcome) :: ·)) := by rfl

theorem spares_storeAll (dir : String) (files : List (String × String)) :
    ∀ fs : FileSystem, Spares fs (fs.storeAll false dir files).1 (targets dir files) := by
  induction files with
  | nil => exact fun fs => Spares.refl fs
  | cons x rest ih =>
    intro fs
    obtain ⟨path, text⟩ := x
    have hfirst := fs.spares_store (Path.join dir path) text
    have hall : targets dir ((path, text) :: rest) =
        [(Path.join dir path, text)] ++ targets dir rest := rfl
    rw [storeAll_cons, hall]
    cases (fs.store false (Path.join dir path) text).2 with
    | none => exact hfirst.mono fun x hx => List.mem_append_left _ hx
    | some outcome => exact hfirst.trans (ih _)

/-! ## paths without a step up -/

/-- all that is above a place is a directory, and its names can be stored -/
def Open (fs : FileSystem) (place : Place) : Prop :=
  ∀ front name back, place = front ++ name :: back →
    fs.node? front = some .directory ∧ isStorable name = true

theorem open_nil : fs.Open [] := by
  intro front name back h
  exact absurd h.symm (by simp)

theorem Open.of_append {a b : Place} (h : fs.Open (a ++ b)) : fs.Open a := by
  rintro front name back rfl
  exact h front name (back ++ b) (by simp)

theorem Open.concat {place : Place} (h : fs.Open place) (hd : fs.node? place = some .directory)
    {s : String} (hs : isStorable s = true) : fs.Open (place ++ [s]) := by
  intro front name back heq
  rcases List.eq_nil_or_concat back with rfl | ⟨back', b, rfl⟩
  · obtain ⟨rfl, hname⟩ := List.append_inj' heq rfl
    obtain ⟨rfl, _⟩ := List.cons.inj hname
    exact ⟨hd, hs⟩
  · have hfront : place ++ [s] = front ++ name :: back' ++ [b] := by
      rw [heq, List.append_assoc, List.cons_append, List.concat_eq_append]
    exact h front name back' (List.append_inj_left' hfront rfl)

theorem Open.step {place : Place} (h : fs.Open place) (hd : fs.node? place = some .directory)
    {s : String} (hs : isStorable s = true) : fs.Open (place.step s) := by
  unfold Place.step
  cases hup : s == ".." with
  | false => exact h.concat hd hs
  | true =>
    rw [if_pos rfl, Place.above]
    split
    · exact h
    · obtain rfl := eq_of_beq hup
      rcases List.eq_nil_or_concat place with rfl | ⟨front, last, rfl⟩
      · exact h.concat hd hs
      · rw [List.concat_eq_append] at h hd ⊢
        rw [List.getLast?_concat]
        dsimp only
        split
        · exact h.concat hd hs
        · rw [List.dropLast_concat]
          exact h.of_append

theorem open_of_follow {ss : List String} : ∀ {place d : Place}, fs.Open place →
    fs.follow place ss = .ok d → fs.Open d := by
  induction ss with
  | nil =>
    rintro place _ h ⟨⟩
    exact h
  | cons s ss ih =>
    intro place d h hf
    obtain ⟨hd, hs, hss⟩ := follow_cons.mp hf
    exact ih (h.step hd hs) hss

theorem follow_of_open {ss : List String} (hss : ".." ∉ ss) : ∀ {place : Place},
    fs.Open (place ++ ss) → fs.follow place ss = .ok (place ++ ss) := by
  induction ss with
  | nil =>
    intro place _
    rw [List.append_nil]
    rfl
  | cons s ss ih =>
    intro place h
    obtain ⟨hs, hss⟩ := not_or.mp (mt List.mem_cons.mpr hss)
    obtain ⟨hd, hstorable⟩ := h place s ss rfl
    have hassoc : place ++ s :: ss = place ++ [s] ++ ss := by simp
    rw [hassoc] at h ⊢
    refine follow_cons.mpr ⟨hd, hstorable, ?_⟩
    rw [Place.step_of_ne (beq_eq_false_iff_ne.mpr (Ne.symm hs))]
    exact ih hss h

/-- a path that goes up nowhere leads to the file at its destination -/
theorem contains_of_open {path t : String} (hp : Writable path) (hup : ".." ∉ Path.route path)
    (hopen : fs.Open (destination path)) (hnode : fs.node? (destination path) = some (.file t)) :
    fs.contains path = true := by
  have hplace : destination path = [] ++ Path.route path := Place.foldl_step hup []
  refine contains_eq_true.mpr ⟨(destination path, .file t), locate_eq_ok.mpr ⟨hp.usable,
    hp.nonempty, ?_, hnode, fun _ => hp.file⟩⟩
  rw [hplace] at hopen ⊢
  exact follow_of_open hup hopen

/-- so it does if another path does -/
theorem contains_of_destination {path q t : String} (hq : fs.read? q = some t)
    (hp : Writable path) (hd : destination path = destination q) (hup : ".." ∉ Path.route path) :
    fs.contains path = true := by
  obtain ⟨place, hl⟩ := read?_eq_some.mp hq
  obtain ⟨_, _, hfollow, hnode, _⟩ := locate_eq_ok.mp hl
  have hplace : place = destination path := by
    rw [eq_of_follow hfollow, ← destination, hd]
  subst hplace
  exact contains_of_open hp hup (open_of_follow open_nil hfollow) hnode

/-- a file is read as before, or it has the text of a target with a step up that led to nothing -/
theorem Spares.read? {ts : List (String × String)} (h : Spares fs fs' ts) {q t : String}
    (hq : fs.read? q = some t) :
    fs'.read? q = some t ∨ ∃ x ∈ ts, fs.contains x.1 = false ∧ destination x.1 = destination q ∧
      ".." ∈ Path.route x.1 ∧ fs'.read? q = some x.2 := by
  have hread : ∀ t', fs'.node? (destination q) = some (.file t') → fs'.read? q = some t' := by
    intro t' ht'
    obtain ⟨place, hl⟩ := read?_eq_some.mp hq
    obtain ⟨_, _, hfollow, _, _⟩ := locate_eq_ok.mp hl
    rw [destination, ← eq_of_follow hfollow] at ht'
    exact read?_eq_some.mpr ⟨place, h.locate hl ht' (iff_of_false nofun nofun)⟩
  rcases h.files _ t (node?_of_read? hq) with hkept | ⟨x, hx, hunseen, hplace, hlost⟩
  · exact Or.inl (hread t hkept)
  · refine Or.inr ⟨x, hx, hunseen.absent, hplace, ?_, hread _ hlost⟩
    by_contra hup
    have := hunseen.absent
    rw [contains_of_destination hq hunseen.writable hplace hup] at this
    cases this

end FileSystem

end TypeModel
