import TypeModel.Output.Path
import TypeModel.Proofs.Text.Split

/-!
# The directory of a path

`Path.parent?` works on the text of a path, and `Path.route` on what the text means.

* `filter_dropIdle`   parts that stand for nothing are no steps;
* `isAbsolute_iff`    an absolute path is one with an empty part in front of another;
* `route_parent?`     the route of a path is that of its directory and one step more.
-/

namespace TypeModel.Path

/-- the part is a step -/
def isStep (s : String) : Bool := s != "" && s != "."

theorem steps_eq (p : String) : steps p = (parts p).filter isStep := rfl

/-- a `.` at the start of the path stays, and so does a step with all that is in front of it -/
theorem dropIdle_cons (s : String) (ss : List String) :
    (s = "." ∧ ss = [] ∧ dropIdle (s :: ss) = ["."]) ∨
      (isStep s = true ∧ dropIdle (s :: ss) = s :: ss) ∨
      (isStep s = false ∧ dropIdle (s :: ss) = dropIdle ss) := by
  have hstep : isStep s = !(s == "" || s == ".") := (Bool.not_or _ _).symm
  rw [dropIdle.eq_def]
  split
  · next heq =>
    obtain ⟨rfl, rfl⟩ := List.cons.inj heq
    exact Or.inl ⟨rfl, rfl, rfl⟩
  · next heq =>
    obtain ⟨rfl, rfl⟩ := List.cons.inj heq
    refine Or.inr ?_
    cases hidle : s == "" || s == "." with
    | true => exact Or.inr ⟨by rw [hstep, hidle]; rfl, by rw [if_pos rfl]⟩
    | false => exact Or.inl ⟨by rw [hstep, hidle]; rfl, by rw [if_neg Bool.false_ne_true]⟩
  · next heq => cases heq

theorem filter_dropIdle (l : List String) : (dropIdle l).filter isStep = l.filter isStep := by
  induction l with
  | nil => rfl
  | cons s ss ih =>
    rcases dropIdle_cons s ss with ⟨rfl, rfl, h⟩ | ⟨_, h⟩ | ⟨hs, h⟩
    · rw [h]
    · rw [h]
    · rw [h, ih, List.filter_cons_of_neg (by rw [hs]; exact Bool.false_ne_true)]

theorem dropIdle_suffix (l : List String) : dropIdle l <:+ l := by
  induction l with
  | nil => exact List.suffix_rfl
  | cons s ss ih =>
    rcases dropIdle_cons s ss with ⟨rfl, rfl, h⟩ | ⟨_, h⟩ | ⟨_, h⟩
    · exact ⟨[], h⟩
    · exact ⟨[], h⟩
    · rw [h]
      exact ih.trans (List.suffix_cons s ss)

/-- the first part that is left is a step, or it is a `.` at the start of the path -/
theorem head_dropIdle {l ss : List String} {s : String} (hl : dropIdle l = s :: ss) :
    isStep s = true ∨ s = "." ∧ ss = [] := by
  induction l with
  | nil => cases hl
  | cons t ts ih =>
    rcases dropIdle_cons t ts with ⟨rfl, rfl, h⟩ | ⟨ht, h⟩ | ⟨_, h⟩
    · rw [h] at hl
      obtain ⟨rfl, rfl⟩ := List.cons.inj hl
      exact Or.inr ⟨rfl, rfl⟩
    · rw [h] at hl
      obtain ⟨rfl, rfl⟩ := List.cons.inj hl
      exact Or.inl ht
    · rw [h] at hl
      exact ih hl

theorem isAbsolute_iff {p : String} : isAbsolute p = true ↔ ∃ s ss, parts p = "" :: s :: ss := by
  unfold isAbsolute parts Text.split
  cases p.toList with
  | nil => exact iff_of_false (by decide) (by rintro ⟨s, ss, h⟩; cases h)
  | cons c cs =>
    have hne := Text.splitOn_ne_nil '/' cs
    rw [Text.splitOn]
    by_cases hc : c = '/'
    · rw [if_pos hc, hc]
      obtain ⟨w, ws, hw⟩ := List.exists_cons_of_ne_nil hne
      exact iff_of_true rfl ⟨_, _, by rw [hw]; rfl⟩
    · rw [if_neg hc]
      obtain ⟨w, ws, hw⟩ := List.exists_cons_of_ne_nil hne
      refine iff_of_false (by simpa using hc) ?_
      rintro ⟨s, ss, h⟩
      rw [hw] at h
      obtain ⟨hfirst, _⟩ := List.cons.inj h
      have := congrArg String.toList hfirst
      rw [String.toList_ofList] at this
      cases this

theorem parts_joinWith {l : List String} {p : String} (hne : l ≠ []) (h : l <+: parts p) :
    parts (Text.joinWith "/" l) = l :=
  Text.split_joinWith_of_notMem rfl hne fun _ hs => Text.notMem_of_mem_split (h.subset hs)

/-- the first parts of a path are absolute if the path is; a single empty part is not -/
theorem isAbsolute_joinWith {l : List String} {p : String} (hne : l ≠ []) (h : l <+: parts p)
    (hone : l ≠ [""]) : isAbsolute (Text.joinWith "/" l) = isAbsolute p := by
  rw [Bool.eq_iff_iff, isAbsolute_iff, isAbsolute_iff, parts_joinWith hne h]
  obtain ⟨rest, hrest⟩ := h
  constructor
  · rintro ⟨s, ss, rfl⟩
    exact ⟨s, ss ++ rest, hrest.symm⟩
  · rintro ⟨s, ss, hp⟩
    rw [hp] at hrest
    match l, hne, hone, hrest with
    | [t], _, hone, hrest => exact absurd (congrArg (· :: []) (List.cons.inj hrest).1) hone
    | t :: u :: us, _, _, hrest =>
      obtain ⟨rfl, _⟩ := List.cons.inj hrest
      exact ⟨u, us, rfl⟩

/-- where the directory that `parent?` finds in front of the last part leads -/
theorem route_directory {p : String} {front : List String} (h : front.reverse <+: parts p) :
    route (if (dropIdle front).isEmpty && isAbsolute p then "/"
      else Text.joinWith "/" (dropIdle front).reverse) =
      if isAbsolute p then "/" :: (front.filter isStep).reverse
      else (front.filter isStep).reverse := by
  rw [← filter_dropIdle front, ← List.filter_reverse]
  have hkept : (dropIdle front).reverse <+: parts p :=
    (List.reverse_prefix.mpr (dropIdle_suffix front)).trans h
  cases hd : dropIdle front with
  | nil => cases isAbsolute p <;> rfl
  | cons s ss =>
    rw [hd] at hkept
    have hne : (s :: ss).reverse ≠ [] := by simp
    have hone : (s :: ss).reverse ≠ [""] := by
      intro hs
      rw [List.reverse_eq_iff] at hs
      obtain ⟨rfl, rfl⟩ := List.cons.inj hs
      rcases head_dropIdle hd with h' | ⟨h', _⟩
      · exact absurd h' (by decide)
      · exact absurd h' (by decide)
    rw [if_neg (by simp)]
    unfold route
    rw [isAbsolute_joinWith hne hkept hone, steps_eq, parts_joinWith hne hkept]

/-- the last part is a step, unless there is none at all -/
theorem route_parent? {p d name : String} (hd : parent? p = some d)
    (hn : (route p).getLast? = some name) : route p = route d ++ [name] := by
  unfold parent? at hd
  cases hdrop : dropIdle (parts p).reverse with
  | nil =>
    rw [hdrop] at hd
    cases hd
  | cons last front =>
    rw [hdrop] at hd
    have hparts : (last :: front).reverse <+: parts p := by
      rw [← hdrop]
      exact List.reverse_suffix.mp (by rw [List.reverse_reverse]; exact dropIdle_suffix _)
    have hfront : front.reverse <+: parts p := by
      rw [List.reverse_cons] at hparts
      exact (List.prefix_append _ _).trans hparts
    have hroute : route d = if isAbsolute p then "/" :: (front.filter isStep).reverse
        else (front.filter isStep).reverse := by
      rw [← route_directory hfront]
      dsimp only at hd
      split at hd
      · next hroot => rw [if_pos hroot, Option.some.inj hd]
      · next hroot => rw [if_neg hroot, Option.some.inj hd]
    have hsteps : steps p = ((last :: front).filter isStep).reverse := by
      rw [steps_eq, ← hdrop, filter_dropIdle, List.filter_reverse, List.reverse_reverse]
    rcases head_dropIdle hdrop with hlast | ⟨rfl, rfl⟩
    · have heq : route p = route d ++ [last] := by
        rw [hroute, route, hsteps, List.filter_cons_of_pos hlast, List.reverse_cons]
        cases isAbsolute p <;> rfl
      rw [heq, List.getLast?_concat] at hn
      rw [heq, Option.some.inj hn]
    · exfalso
      have habs : isAbsolute p = false := by
        rw [Bool.eq_false_iff, ne_eq, isAbsolute_iff]
        rintro ⟨s, ss, hp⟩
        obtain ⟨rest, hrest⟩ := hparts
        rw [hp] at hrest
        exact absurd (List.cons.inj hrest).1 (by decide)
      rw [route, habs, hsteps] at hn
      cases hn

end TypeModel.Path
