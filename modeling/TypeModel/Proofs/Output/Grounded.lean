import TypeModel.Proofs.Output.FileSystem

/-!
# File systems without loose ends

A `FileSystem` is any map from places to nodes.  In one that is grounded everything stands in a
directory, and then a path that was written is found again, steps `..` or not.

* `text? fs place`              the text of the file at a place;
* `Grounded fs`                 what is above a node is a directory;
* `Paves made place ss`         the directories that were created can be gone through, and
                                `Grounded.makeDirectories` that they can be for every path;
* `Grounded.locate_write`       a path that was written leads to what was written;
* `text?_write`                 no text changes but the one that is written.
-/

namespace TypeModel

/-! ## texts -/

def Node.text? : Node → Option String
  | .file text => some text
  | .directory => none

theorem Node.text?_eq_some {node : Node} {t : String} : node.text? = some t ↔ node = .file t := by
  cases node with
  | directory => exact iff_of_false nofun nofun
  | file text => exact ⟨fun h => congrArg _ (Option.some.inj h), fun h => congrArg Node.text? h⟩

namespace FileSystem
variable {fs fs' : FileSystem}

def text? (fs : FileSystem) (place : Place) : Option String := (fs.node? place).bind Node.text?

theorem text?_eq_some {place : Place} {t : String} :
    fs.text? place = some t ↔ fs.node? place = some (.file t) := by
  unfold text?
  rw [Option.bind_eq_some_iff]
  simp only [Node.text?_eq_some, exists_eq_right]

theorem text?_put {place : Place} (hfixed : place.isFixed = false) (node : Node) (q : Place) :
    (fs.put place node).text? q = if q = place then node.text? else fs.text? q := by
  unfold text?
  rw [node?_put fs place q node hfixed]
  split <;> rfl

theorem text?_makeDirectories (ss : List String) : ∀ (fs : FileSystem) (place q : Place),
    (fs.makeDirectories place ss).1.text? q = fs.text? q := by
  induction ss with
  | nil =>
    intro fs place q
    rfl
  | cons s ss ih =>
    intro fs place q
    rcases fs.makeDirectories_cons place s ss with ⟨_, h⟩ | ⟨⟨_, _, hnone⟩, h⟩ | h
    · rw [h, ih]
    · have hfree : fs.node? (place.step s) ≠ some .directory := by
        rw [hnone]
        exact nofun
      rw [h, ih, text?_put (isFixed_of_node? hfree)]
      split
      · next hq =>
        unfold text?
        rw [hq, hnone]
        rfl
      · rfl
    · rw [h]

theorem text?_makeDirectory (fs : FileSystem) (path : String) (q : Place) :
    (fs.makeDirectory path).1.text? q = fs.text? q := by
  unfold makeDirectory
  split
  · exact text?_makeDirectories _ fs [] q
  · rfl

theorem text?_write (fs : FileSystem) (path text : String) (q : Place) :
    (fs.write path text).1.text? q =
      if (fs.write path text).2 = true ∧ q = destination path then some text else fs.text? q := by
  obtain ⟨parent, hw | ⟨_, _, _, hfree, hw⟩⟩ := fs.write_steps path text
  · rw [hw, if_neg fun h => Bool.false_ne_true h.1]
    exact fs.text?_makeDirectory parent q
  · rw [hw, text?_put (isFixed_of_node? hfree), text?_makeDirectory]
    by_cases hq : q = destination path
    · rw [if_pos hq, if_pos ⟨rfl, hq⟩]
      rfl
    · rw [if_neg hq, if_neg fun h => hq h.2]

/-! ## grounded file systems -/

structure Grounded (fs : FileSystem) : Prop where
  isOpen : ∀ place node, fs.node? place = some node → fs.Open place
  /-- nothing is stored under the name `..` -/
  isNamed : ∀ place node, fs.node? place = some node → place.getLast? = some ".." →
    place.isFixed = true

theorem Open.mono (hd : ∀ place, fs.node? place = some .directory →
      fs'.node? place = some .directory) {place : Place} (h : fs.Open place) : fs'.Open place :=
  fun front name back heq => ⟨hd front (h front name back heq).1, (h front name back heq).2⟩

theorem open_of_isFixed {place : Place} (h : place.isFixed = true) : fs.Open place := by
  rintro front name back rfl
  rcases Bool.or_eq_true_iff.mp h with hroot | hup
  · have hcons : front ++ name :: back = ["/"] := eq_of_beq hroot
    rcases List.append_eq_singleton_iff.mp hcons with ⟨rfl, hname⟩ | ⟨_, hname⟩
    · obtain ⟨rfl, rfl⟩ := List.cons.inj hname
      exact ⟨rfl, by decide⟩
    · cases hname
  · rw [List.all_append, List.all_cons, Bool.and_eq_true_iff, Bool.and_eq_true_iff] at hup
    obtain ⟨hfront, hname, _⟩ := hup
    obtain rfl := eq_of_beq hname
    refine ⟨node?_of_isFixed ?_, by decide⟩
    unfold Place.isFixed
    rw [hfront, Bool.or_true]

theorem grounded_empty : ({} : FileSystem).Grounded := by
  have hfixed : ∀ place node, ({} : FileSystem).node? place = some node →
      place.isFixed = true := by
    intro place node h
    unfold node? at h
    split at h
    · assumption
    · cases h
  exact ⟨fun place node h => open_of_isFixed (hfixed place node h),
    fun place node h _ => hfixed place node h⟩

theorem node?_put_directory {place : Place} (hfree : fs.node? place ≠ some .directory)
    (node : Node) {q : Place} (hq : fs.node? q = some .directory) :
    (fs.put place node).node? q = some .directory := by
  rw [node?_put fs place q node (isFixed_of_node? hfree), if_neg]
  · exact hq
  · rintro rfl
    exact hfree hq

/-- what was created is grounded, and the way to the directory can be gone -/
structure Paves (made : FileSystem × Option Place) (place : Place) (ss : List String) : Prop where
  grounded : made.1.Grounded
  way : ∀ d, made.2 = some d → made.1.follow place ss = .ok d ∧ made.1.node? d = some .directory

theorem Paves.cons {made : FileSystem × Option Place} {place : Place} {s : String}
    {ss : List String} (h : Paves made (place.step s) ss)
    (hplace : made.1.node? place = some .directory) (hs : isStorable s = true) :
    Paves made place (s :: ss) := by
  refine ⟨h.grounded, fun d hd => ?_⟩
  obtain ⟨hfollow, hfound⟩ := h.way d hd
  exact ⟨follow_cons.mpr ⟨hplace, hs, hfollow⟩, hfound⟩

namespace Grounded

/-- something new in a directory, or a file in place of another -/
theorem put (h : fs.Grounded) {dir : Place} {name : String}
    (hdir : fs.node? dir = some .directory) (hup : name ≠ "..") (hname : isStorable name = true)
    (hfree : fs.node? (dir ++ [name]) ≠ some .directory) (node : Node) :
    (fs.put (dir ++ [name]) node).Grounded := by
  have hdirs : ∀ q, fs.node? q = some .directory →
      (fs.put (dir ++ [name]) node).node? q = some .directory :=
    fun q hq => node?_put_directory hfree node hq
  have hnew : fs.Open (dir ++ [name]) := (h.isOpen dir _ hdir).concat hdir hname
  refine ⟨fun q n hq => ?_, fun q n hq hlast => ?_⟩
  · rw [node?_put _ _ _ _ (isFixed_of_node? hfree)] at hq
    split at hq
    · next heq => exact heq ▸ hnew.mono hdirs
    · exact (h.isOpen q n hq).mono hdirs
  · rw [node?_put _ _ _ _ (isFixed_of_node? hfree)] at hq
    split at hq
    · next heq =>
      rw [heq, List.getLast?_concat] at hlast
      exact absurd (Option.some.inj hlast) hup
    · exact h.isNamed q n hq hlast

theorem node?_above (h : fs.Grounded) {place : Place} (hd : fs.node? place = some .directory) :
    fs.node? place.above = some .directory := by
  unfold Place.above
  split
  · exact hd
  · next hroot =>
    rcases List.eq_nil_or_concat place with rfl | ⟨front, last, rfl⟩
    · rfl
    · rw [List.concat_eq_append] at hd hroot ⊢
      rw [List.getLast?_concat]
      dsimp only
      split
      · next hlast =>
        obtain rfl := eq_of_beq hlast
        have hfixed := h.isNamed _ _ hd List.getLast?_concat
        refine node?_of_isFixed ?_
        unfold Place.isFixed at hfixed ⊢
        rw [Bool.not_eq_true] at hroot
        rw [hroot, Bool.false_or] at hfixed
        rw [List.all_append, hfixed, Bool.or_eq_true_iff]
        exact Or.inr rfl
      · rw [List.dropLast_concat]
        exact (h.isOpen _ _ hd front last [] rfl).1

theorem makeDirectories (ss : List String) : ∀ {fs : FileSystem} {place : Place}, fs.Grounded →
    fs.node? place = some .directory → Paves (fs.makeDirectories place ss) place ss := by
  induction ss with
  | nil =>
    intro fs place h hd
    refine ⟨h, ?_⟩
    rintro _ ⟨⟩
    exact ⟨rfl, hd⟩
  | cons s ss ih =>
    intro fs place h hd
    have hkept : ∀ mid : FileSystem, mid.node? place = some .directory →
        (mid.makeDirectories (place.step s) ss).1.node? place = some .directory :=
      fun mid => (makeDirectories_spec ss mid (place.step s)).1 place _
    rcases fs.makeDirectories_cons place s ss with ⟨hs, heq⟩ | ⟨⟨hup, hs, hnone⟩, heq⟩ | heq
    · rw [heq]
      rcases hs with rfl | ⟨hnext, hplace⟩
      · exact (ih h (h.node?_above hd)).cons (hkept fs hd) (by decide)
      · exact (ih h hnext).cons (hkept fs hd) (h.isOpen _ _ hnext place s [] hplace).2
    · have hplace := Place.step_of_ne (beq_eq_false_iff_ne.mpr hup) place
      have hfree : fs.node? (place.step s) ≠ some .directory := by
        rw [hnone]
        exact nofun
      have hput : (fs.put (place.step s) .directory).Grounded := by
        rw [hplace] at hfree ⊢
        exact h.put hd hup hs hfree .directory
      have hnext : (fs.put (place.step s) .directory).node? (place.step s) = some .directory := by
        rw [node?_put _ _ _ _ (isFixed_of_node? hfree), if_pos rfl]
      rw [heq]
      exact (ih hput hnext).cons (hkept _ (node?_put_directory hfree .directory hd)) hs
    · rw [heq]
      exact ⟨h, nofun⟩

theorem makeDirectory (h : fs.Grounded) (path : String) :
    Paves (fs.makeDirectory path) [] (Path.route path) := by
  unfold FileSystem.makeDirectory
  split
  · exact makeDirectories _ h rfl
  · exact ⟨h, nofun⟩

theorem write (h : fs.Grounded) (path text : String) : (fs.write path text).1.Grounded := by
  obtain ⟨parent, hw | ⟨name, ⟨_, hup, hname, _, hplace⟩, hdir, hfree, hw⟩⟩ :=
    fs.write_steps path text
  · rw [hw]
    exact (h.makeDirectory parent).grounded
  · obtain ⟨hmade, hway⟩ := h.makeDirectory parent
    rw [hw, hplace]
    rw [hplace] at hfree
    exact hmade.put (hway _ hdir).2 hup hname hfree (.file text)

/-- what is written can be read, on the same way -/
theorem locate_write (h : fs.Grounded) {path text : String}
    (hw : (fs.write path text).2 = true) :
    (fs.write path text).1.locate path = .ok (destination path, .file text) := by
  obtain ⟨parent, hstop | ⟨name, ⟨hpath, hup, hname, hroute, hplace⟩, hdir, hfree, heq⟩⟩ :=
    fs.write_steps path text
  · rw [hstop] at hw
    cases hw
  · obtain ⟨hmade, hway⟩ := h.makeDirectory parent
    obtain ⟨hfollow, hfound⟩ := hway _ hdir
    have hlast : (fs.makeDirectory parent).1.follow (destination parent) [name] =
        .ok (destination path) := by
      refine follow_cons.mpr ⟨hfound, hname, ?_⟩
      rw [Place.step_of_ne (beq_eq_false_iff_ne.mpr hup), hplace]
      rfl
    rw [heq]
    refine locate_eq_ok.mpr ⟨hpath.usable, hpath.nonempty, ?_, ?_, fun _ => hpath.file⟩
    · rw [hroute]
      exact follow_mono (fun q hq => node?_put_directory hfree _ hq) (follow_append hfollow hlast)
    · rw [node?_put _ _ _ _ (isFixed_of_node? hfree), if_pos rfl]

end Grounded

end FileSystem

end TypeModel
