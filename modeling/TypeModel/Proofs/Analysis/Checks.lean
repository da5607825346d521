import Mathlib.Data.List.Nodup
import TypeModel.Proofs.Analysis.Reported
import TypeModel.Proofs.Analysis.WellFormed

/-!
# When a check finds no error

`Clean ds` says that a list of diagnostics holds no error; warnings and notes do not count.  Each
check of the validation has one statement here, saying what has to be so for it to be clean:

* `clean_checkPrimitive`, `clean_checkPackage`, `clean_checkScope`   names in groups and scopes;
* `clean_checkFieldNames`, `clean_checkField`, `clean_checkMethod`   members of structs;
* `clean_checkRepeated`, `clean_checkEnumerator`                     enumerators;
* `clean_checkReference`, `clean_checkArraySize`                     lengths and sizes.
-/

namespace TypeModel

def Clean (ds : Diagnostics) : Prop := ∀ d ∈ ds, d.severity ≠ .error

section
variable {ds es : Diagnostics} {i : Issue} {l : Location} {c : Bool}

theorem clean_nil : Clean [] := fun _ h => absurd h List.not_mem_nil

theorem clean_append : Clean (ds ++ es) ↔ Clean ds ∧ Clean es := List.forall_mem_append

theorem clean_flatMap {α : Type} {xs : List α} {f : α → Diagnostics} :
    Clean (xs.flatMap f) ↔ ∀ x ∈ xs, Clean (f x) := by
  constructor
  · intro h x hx d hd
    exact h d (List.mem_flatMap.mpr ⟨x, hx, hd⟩)
  · intro h d hd
    obtain ⟨x, hx, hd⟩ := List.mem_flatMap.mp hd
    exact h x hx d hd

theorem clean_singleton : Clean [i.toDiagnostic l] ↔ i.severity ≠ .error :=
  List.forall_mem_singleton

/-- a list of errors is clean if it is empty -/
theorem clean_map_error {α : Type} {xs : List α} {issue : α → Issue} {place : α → Location}
    (h : ∀ x, (issue x).severity = .error) :
    Clean (xs.map fun x => (issue x).toDiagnostic (place x)) ↔ xs = [] := by
  constructor
  · intro hc
    cases xs with
    | nil => rfl
    | cons x xs => exact absurd (h x) (hc _ List.mem_cons_self)
  · rintro rfl
    exact clean_nil

open Validation

theorem clean_reportIf_error (h : i.severity = .error) : Clean (reportIf c i l) ↔ c = false := by
  unfold reportIf
  cases c with
  | true => exact iff_of_false (fun hc => hc _ List.mem_cons_self h) nofun
  | false => exact iff_of_true clean_nil rfl

theorem clean_reportIf_of_ne (h : i.severity ≠ .error) : Clean (reportIf c i l) := by
  unfold reportIf
  split
  · exact clean_singleton.mpr h
  · exact clean_nil

end

namespace Validation

/-! ## repetitions -/

theorem repeatsBy_eq_nil {α : Type} (key : α → Name) (xs : List α) :
    ∀ seen : List Name, repeatsBy key seen xs = [] ↔
      (∀ x ∈ xs, key x ∉ seen) ∧ (xs.map key).Nodup := by
  induction xs with
  | nil => exact fun seen => iff_of_true rfl ⟨fun _ h => absurd h List.not_mem_nil, List.nodup_nil⟩
  | cons x xs ih =>
    intro seen
    unfold repeatsBy
    rw [List.map_cons, List.nodup_cons, List.forall_mem_cons]
    by_cases h : key x ∈ seen
    · rw [if_pos (List.contains_iff_mem.mpr h)]
      exact iff_of_false nofun fun hx => hx.1.1 h
    · rw [if_neg (mt List.contains_iff_mem.mp h), ih]
      constructor
      · rintro ⟨hs, hn⟩
        refine ⟨⟨h, fun y hy hyk => hs y hy (List.mem_cons_of_mem _ hyk)⟩, ?_, hn⟩
        intro hx
        obtain ⟨y, hy, hyx⟩ := List.mem_map.mp hx
        exact hs y hy (hyx ▸ List.mem_cons_self)
      · rintro ⟨⟨_, hs⟩, hx, hn⟩
        refine ⟨fun y hy hyk => ?_, hn⟩
        rcases List.mem_cons.mp hyk with hyx | hyk
        · exact hx (List.mem_map.mpr ⟨y, hy, hyx⟩)
        · exact hs y hy hyk

theorem repeatsBy_nil {α : Type} (key : α → Name) (xs : List α) :
    repeatsBy key [] xs = [] ↔ (xs.map key).Nodup := by
  rw [repeatsBy_eq_nil]
  exact and_iff_right fun _ _ => List.not_mem_nil

/-- no element has a key that stands further in front -/
theorem nodup_map_iff_take {α : Type} (key : α → Name) (xs : List α) :
    (∀ i x, xs[i]? = some x → ∀ y ∈ xs.take i, key y ≠ key x) ↔ (xs.map key).Nodup := by
  unfold List.Nodup
  rw [List.pairwise_map, List.pairwise_iff_getElem]
  constructor
  · intro h i j hi hj hij
    refine h j xs[j] (List.getElem?_eq_getElem hj) xs[i] ?_
    exact List.mem_take_iff_getElem.mpr ⟨i, Nat.lt_min.mpr ⟨hij, hi⟩, rfl⟩
  · intro h i x hx y hy
    obtain ⟨j, hj, rfl⟩ := List.mem_take_iff_getElem.mp hy
    obtain ⟨hi, rfl⟩ := List.getElem?_eq_some_iff.mp hx
    obtain ⟨hji, hj⟩ := Nat.lt_min.mp hj
    exact h j i hj hi hji

/-! ## groups and scopes -/

theorem clean_checkPrimitive {g : PrimitiveGroup} {i : Nat} {b : BasicType} :
    Clean (checkPrimitive g i b) ↔ ∀ y ∈ g.dataTypes.take i, y.name ≠ b.name := by
  have hd : Clean (reportIf ((g.dataTypes.take i).any (·.name == b.name))
      (.duplicatePrimitive b.name g.name) { path := g.name, line := b.line }) ↔
      ∀ y ∈ g.dataTypes.take i, y.name ≠ b.name := by
    rw [clean_reportIf_error rfl, List.any_eq_false]
    simp only [beq_iff_eq, ne_eq]
  unfold checkPrimitive
  cases b.bitLength with
  | none => exact hd
  | some length =>
    dsimp only
    rw [clean_append, clean_append, clean_append, hd]
    exact ⟨fun h => h.1.1.1, fun h => ⟨⟨⟨h, clean_reportIf_of_ne nofun⟩,
      clean_reportIf_of_ne nofun⟩, clean_reportIf_of_ne nofun⟩⟩

theorem clean_checkPackage {p : Package} : Clean (checkPackage p) ↔ p.name ≠ "" := by
  unfold checkPackage
  by_cases h : p.name = ""
  · rw [h]
    exact iff_of_false (fun hc => hc _ List.mem_cons_self rfl) (fun hn => hn rfl)
  · have he : p.name.isEmpty = false := by simpa using h
    rw [he]
    exact iff_of_true (clean_reportIf_of_ne nofun) h

theorem clean_checkScope {s : Scope} {types : List TypeDef} :
    Clean (checkScope s types) ↔ (types.map TypeDef.name).Nodup := by
  unfold checkScope
  rw [clean_map_error fun _ => rfl]
  exact repeatsBy_nil TypeDef.name types

theorem clean_checkTypeName (e : Entry) : Clean (checkTypeName e) :=
  clean_append.mpr ⟨clean_reportIf_of_ne nofun, clean_reportIf_of_ne nofun⟩

theorem clean_checkArraySize {size : Int64} {l : Location} :
    Clean (checkArraySize size l) ↔ 0 < size := by
  unfold checkArraySize
  rw [← Int64.not_le]
  by_cases h : size ≤ 0
  · rw [if_pos h]
    exact iff_of_false (fun hc => hc _ List.mem_cons_self rfl) (fun hn => hn h)
  · rw [if_neg h]
    exact iff_of_true (clean_reportIf_of_ne nofun) h

theorem clean_checkReference {m : Model} {r : TypeRef} {l : Location} :
    Clean (checkReference m r l) ↔ r.LengthInRange := by
  unfold checkReference TypeRef.LengthInRange
  cases hb : r.bitLength with
  | none => exact iff_of_true clean_nil nofun
  | some bits =>
    dsimp only
    by_cases h : bits = 0 ∨ bits > maxBitLength
    · rw [if_pos h]
      refine iff_of_false (fun hc => hc _ List.mem_cons_self rfl) fun hr => ?_
      obtain ⟨h1, h2⟩ := hr bits rfl
      rcases h with h | h <;> omega
    · rw [if_neg h]
      refine iff_of_true ?_ ?_
      · split
        · exact clean_singleton.mpr nofun
        · exact clean_singleton.mpr nofun
        · exact clean_nil
      · rintro _ ⟨⟩
        omega

/-! ## members of structs -/

theorem firstsBy_eq_nil {α : Type} (key : α → Name) (xs : List α) :
    ∀ seen : List Name, firstsBy key seen xs = [] ↔ ∀ x ∈ xs, key x ∈ seen := by
  induction xs with
  | nil => exact fun seen => iff_of_true rfl fun _ h => absurd h List.not_mem_nil
  | cons x xs ih =>
    intro seen
    unfold firstsBy
    rw [List.forall_mem_cons]
    by_cases h : key x ∈ seen
    · rw [if_pos (List.contains_iff_mem.mpr h), ih]
      exact (and_iff_right h).symm
    · rw [if_neg (mt List.contains_iff_mem.mp h)]
      exact iff_of_false nofun fun hx => h hx.1

theorem inheritedFields_eq_nil (s : StructType) (bases : List StructType) :
    inheritedFields s [] bases = [] ↔
      ∀ b ∈ bases, ∀ f ∈ s.fields, ∀ g ∈ b.fields, f.name ≠ g.name := by
  induction bases with
  | nil => exact iff_of_true rfl fun _ h => absurd h List.not_mem_nil
  | cons base bases ih =>
    -- while nothing is reported, the names reported before stay empty
    have hits : firstsBy Field.name [] (s.fields.filter fun f => base.fields.any (·.name == f.name))
        = [] ↔ ∀ f ∈ s.fields, ∀ g ∈ base.fields, f.name ≠ g.name := by
      rw [firstsBy_eq_nil]
      constructor
      · intro h f hf g hg hn
        have hmem : f ∈ s.fields.filter fun f => base.fields.any (·.name == f.name) :=
          List.mem_filter.mpr ⟨hf, List.any_eq_true.mpr ⟨g, hg, beq_iff_eq.mpr hn.symm⟩⟩
        exact absurd (h f hmem) List.not_mem_nil
      · intro h f hf
        obtain ⟨hf, ha⟩ := List.mem_filter.mp hf
        obtain ⟨g, hg, hn⟩ := List.any_eq_true.mp ha
        exact absurd (beq_iff_eq.mp hn).symm (h f hf g hg)
    unfold inheritedFields
    dsimp only
    rw [List.append_eq_nil_iff, List.map_eq_nil_iff, List.forall_mem_cons, ← hits]
    refine and_congr_right fun h => ?_
    rw [h]
    exact ih

theorem clean_checkFieldNames {m : Model} {e : Entry} {s : StructType} :
    Clean (checkFieldNames m e s) ↔ (s.fields.map Field.name).Nodup ∧
      ∀ b ∈ m.baseStructs e.id, ∀ f ∈ s.fields, ∀ g ∈ b.fields, f.name ≠ g.name := by
  unfold checkFieldNames
  rw [clean_append, clean_map_error fun _ => rfl, repeatsBy_nil, ← inheritedFields_eq_nil]
  have hi : Clean ((inheritedFields s [] (m.baseStructs e.id)).map fun x =>
      (Issue.inheritedField x.1.name s.name x.2.name).toDiagnostic
        (e.memberLocation x.1.name x.1.line)) ↔ inheritedFields s [] (m.baseStructs e.id) = [] :=
    clean_map_error fun _ => rfl
  exact and_congr_right fun _ => hi

theorem clean_checkField {m : Model} {e : Entry} {f : Field} :
    Clean (checkField m e f) ↔
      (∀ n, f.arraySize = some n → 0 < n) ∧ ∀ key, f.key = some key → mapKeyAllowed m key := by
  unfold checkField
  dsimp only
  rw [clean_append, clean_append, clean_append]
  refine and_congr ((and_iff_right ?_).trans ?_) ?_
  · exact ⟨clean_reportIf_of_ne nofun, clean_reportIf_of_ne nofun⟩
  · cases f.arraySize with
    | none => exact iff_of_true clean_nil (by simp)
    | some n => exact clean_checkArraySize.trans (by simp)
  · cases f.key with
    | none => exact iff_of_true clean_nil (by simp)
    | some key => exact (clean_reportIf_error rfl).trans (by simp)

theorem staticConflicts_isEmpty (x : Method) :
    (staticConflicts x).isEmpty ↔ ¬ x.has .virtual ∧ ¬ x.has .const ∧ ¬ x.has .override ∧
      ¬ x.has .pureVirtual := by
  unfold staticConflicts
  rw [List.isEmpty_iff, List.map_eq_nil_iff, List.filter_eq_nil_iff]
  simp

theorem clean_checkMethod {e : Entry} {x : Method} :
    Clean (checkMethod e x) ↔
      (x.has .static → ¬ x.has .virtual ∧ ¬ x.has .const ∧ ¬ x.has .override ∧
        ¬ x.has .pureVirtual) ∧ (x.has .override → e.type.base? ≠ none) := by
  unfold checkMethod
  dsimp only
  rw [clean_append, clean_reportIf_error rfl, clean_reportIf_error rfl, ← staticConflicts_isEmpty]
  refine and_congr ?_ ?_
  · cases x.has .static <;> simp
  · cases x.has .override <;> simp [Option.isSome_iff_ne_none]

/-! ## enumerations -/

theorem clean_checkRepeated {e : Entry} (xs : List Enumerator) :
    ∀ earlier : List Enumerator, Clean (checkRepeated e earlier xs) ↔
      (∀ x ∈ xs, ∀ y ∈ earlier, y.name ≠ x.name) ∧ (xs.map Enumerator.name).Nodup := by
  induction xs with
  | nil =>
    exact fun earlier => iff_of_true clean_nil
      ⟨fun _ h => absurd h List.not_mem_nil, List.nodup_nil⟩
  | cons x xs ih =>
    intro earlier
    have hname : ∀ l, Clean (reportIf (earlier.any (·.name == x.name))
        (.duplicateEnumerator x.name e.name) l) ↔ ∀ y ∈ earlier, y.name ≠ x.name := by
      intro l
      rw [clean_reportIf_error rfl, List.any_eq_false]
      simp only [beq_iff_eq, ne_eq]
    have hstep : Clean (checkRepeated e earlier (x :: xs)) ↔
        (∀ y ∈ earlier, y.name ≠ x.name) ∧ Clean (checkRepeated e (earlier ++ [x]) xs) := by
      rw [checkRepeated, clean_append, clean_append, hname]
      refine and_congr_left' (and_iff_left ?_)
      -- a value that is used twice is a warning
      split
      · split
        · exact clean_singleton.mpr nofun
        · exact clean_nil
      · exact clean_nil
    rw [hstep, ih, List.map_cons, List.nodup_cons, List.forall_mem_cons]
    constructor
    · rintro ⟨hx, hs, hn⟩
      refine ⟨⟨hx, fun z hz y hy => hs z hz y (List.mem_append_left _ hy)⟩, ?_, hn⟩
      intro hmem
      obtain ⟨z, hz, hzx⟩ := List.mem_map.mp hmem
      exact hs z hz x (List.mem_append_right _ (List.mem_singleton.mpr rfl)) hzx.symm
    · rintro ⟨⟨hx, hs⟩, hmem, hn⟩
      refine ⟨hx, fun z hz y hy => ?_, hn⟩
      rcases List.mem_append.mp hy with hy | hy
      · exact hs z hz y hy
      · obtain rfl := List.mem_singleton.mp hy
        exact fun hyz => hmem (List.mem_map.mpr ⟨z, hz, hyz.symm⟩)

theorem clean_checkEnumerator (e : Entry) (x : Enumerator) : Clean (checkEnumerator e x) := by
  refine clean_append.mpr ⟨clean_append.mpr ⟨clean_reportIf_of_ne nofun,
    clean_reportIf_of_ne nofun⟩, ?_⟩
  split
  · exact clean_reportIf_of_ne nofun
  · exact clean_nil

end Validation

end TypeModel
