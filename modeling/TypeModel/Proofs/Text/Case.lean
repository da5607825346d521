import Mathlib
import TypeModel.Proofs.Text.Split
import TypeModel.Text.Case

/-!
# Plain names in case styles

A plain name has ASCII letters, digits and underscores only.  In it every character is a cluster of its
own, underscores are the only separators, and letters have their usual two cases.

* `IsPlainName cs`            the characters of a plain name;
* `flatten_words`             its words are what is between the underscores;
* `words_underscore`, `words_letter`   its first word is empty behind an underscore, and else starts with
                              its first character;
* `head?_camel`, `head?_upperCamel`, `head?_constant`, `head?_snake`   the first character in each style;
* `mem_camel` and so on       which characters there are in each style.
-/

namespace TypeModel.Text

/-! ## ASCII characters -/

/-- what can be seen at each ASCII character holds for all of them -/
theorem forall_ascii {P : Char → Prop} (h : ∀ n < 128, P (Char.ofNat n)) {c : Char}
    (hc : c.toNat < 128) : P c := by
  have := h c.toNat hc
  rwa [Char.ofNat_toNat] at this

theorem toNat_lt_of_isAlphanum {c : Char} (h : c.isAlphanum = true) : c.toNat < 128 := by
  simp only [Char.isAlphanum, Char.isAlpha, Char.isUpper, Char.isLower, Char.isDigit,
    Bool.or_eq_true, Bool.and_eq_true, decide_eq_true_eq, UInt32.le_iff_toNat_le, ge_iff_le] at h
  change (65 ≤ c.toNat ∧ c.toNat ≤ 90 ∨ 97 ≤ c.toNat ∧ c.toNat ≤ 122) ∨
    48 ≤ c.toNat ∧ c.toNat ≤ 57 at h
  omega

theorem upperAll_of_ascii {cs : List Char} (h : ∀ c ∈ cs, c.toNat < 128) :
    upperAll cs = cs.map Char.toUpper := by
  induction cs with
  | nil => rfl
  | cons c cs ih =>
    have hc := h c List.mem_cons_self
    unfold upperAll at ih ⊢
    rw [List.flatMap_cons, ih fun d hd => h d (List.mem_cons_of_mem c hd), upper, if_pos hc]
    rfl

/-- a capital sigma is the one letter whose small form depends on its place -/
theorem lowerAfter_of_ascii {cs : List Char} (h : ∀ c ∈ cs, c.toNat < 128) :
    ∀ before, lowerAfter before cs = cs.map Char.toLower := by
  induction cs with
  | nil => exact fun _ => rfl
  | cons c cs ih =>
    intro before
    have hc := h c List.mem_cons_self
    have hsigma : (c == 'Σ') = false := by
      refine beq_eq_false_iff_ne.mpr ?_
      rintro rfl
      exact absurd hc (by decide)
    rw [lowerAfter, ih fun d hd => h d (List.mem_cons_of_mem c hd), lowerBetween, hsigma, lower]
    simp [hc]

theorem lowerAll_of_ascii {cs : List Char} (h : ∀ c ∈ cs, c.toNat < 128) :
    lowerAll cs = cs.map Char.toLower := lowerAfter_of_ascii h []

theorem capitalWord_of_ascii {c : Char} {cs : List Char} (h : ∀ d ∈ c :: cs, d.toNat < 128) :
    capitalWord (c :: cs) = c.toUpper :: cs.map Char.toLower := by
  obtain ⟨hc, hcs⟩ := List.forall_mem_cons.mp h
  rw [capitalWord, upper, if_pos hc, lowerAll_of_ascii hcs]
  rfl

/-! ## words -/

section
variable {g : List Char} {gs : List (List Char)}

theorem flatten_prependHead (g : List Char) (ws : List (List Char)) :
    (prependHead g ws).flatten = g ++ ws.flatten := by
  cases ws with
  | nil => rfl
  | cons w ws => exact List.append_assoc g w ws.flatten

/-- cutting loses separators only -/
theorem flatten_cutWords (gs : List (List Char)) :
    (cutWords gs).flatten = (gs.filter (!isSeparator ·)).flatten := by
  induction gs with
  | nil => rfl
  | cons g gs ih =>
    rw [cutWords]
    by_cases hsep : isSeparator g = true
    · rw [if_pos hsep, List.filter_cons_of_neg (by simp [hsep]), ← ih]
      rfl
    · rw [if_neg hsep, List.filter_cons_of_pos (by simpa using hsep), List.flatten_cons, ← ih]
      split
      · rfl
      · exact flatten_prependHead g _

theorem cutWords_ne_nil (gs : List (List Char)) : cutWords gs ≠ [] := by
  cases gs with
  | nil => exact List.cons_ne_nil _ _
  | cons g gs =>
    rw [cutWords]
    split
    · exact List.cons_ne_nil _ _
    · split
      · exact List.cons_ne_nil _ _
      · cases cutWords gs <;> exact List.cons_ne_nil _ _

theorem cutWords_separator (h : isSeparator g = true) : cutWords (g :: gs) = [] :: cutWords gs := by
  rw [cutWords, if_pos h]

/-- the first word starts with the first cluster -/
theorem cutWords_cluster (h : isSeparator g = false) :
    ∃ w ws, cutWords (g :: gs) = (g ++ w) :: ws := by
  rw [cutWords, if_neg (Bool.eq_false_iff.mp h)]
  split
  · exact ⟨[], cutWords gs, by rw [List.append_nil]⟩
  · cases cutWords gs with
    | nil => exact ⟨[], [], by rw [List.append_nil]; rfl⟩
    | cons w ws => exact ⟨w, ws, rfl⟩

end

/-! ## plain names -/

def IsPlainName (cs : List Char) : Prop := ∀ c ∈ cs, c.isAlphanum = true ∨ c = '_'

section
variable {c : Char} {cs : List Char}

theorem IsPlainName.clusters_eq (h : IsPlainName cs) : clusters cs = cs.map ([·]) := by
  refine clusters_of_plain cs fun c hc => ?_
  rcases h c hc with hc | rfl
  · have hlt := toNat_lt_of_isAlphanum hc
    exact forall_ascii (P := fun c => c.isAlphanum = true → isPlain c = true) (by decide) hlt hc
  · rfl

theorem isSeparator_of_isAlphanum (h : c.isAlphanum = true) : isSeparator [c] = false :=
  forall_ascii (P := fun c => c.isAlphanum = true → isSeparator [c] = false) (by decide)
    (toNat_lt_of_isAlphanum h) h

theorem words_of_plain (h : IsPlainName (c :: cs)) :
    words (c :: cs) = cutWords ((c :: cs).map ([·])) := by
  rw [words, h.clusters_eq]
  rfl

theorem words_underscore (h : IsPlainName ('_' :: cs)) :
    ∃ w ws, words ('_' :: cs) = [] :: w :: ws := by
  rw [words_of_plain h, List.map_cons, cutWords_separator rfl]
  cases hws : cutWords (cs.map ([·])) with
  | nil => exact absurd hws (cutWords_ne_nil _)
  | cons w ws => exact ⟨w, ws, rfl⟩

theorem words_letter (h : IsPlainName (c :: cs)) (hc : c.isAlphanum = true) :
    ∃ w ws, words (c :: cs) = (c :: w) :: ws := by
  rw [words_of_plain h, List.map_cons]
  exact cutWords_cluster (isSeparator_of_isAlphanum hc)

theorem flatten_words (h : IsPlainName cs) : (words cs).flatten = cs.filter (· != '_') := by
  cases cs with
  | nil => rfl
  | cons c cs =>
    have hsep : ∀ d ∈ c :: cs, (!isSeparator [d]) = (d != '_') := by
      intro d hd
      rcases h d hd with hd | rfl
      · have hne : d ≠ '_' := by
          rintro rfl
          exact absurd hd (by decide)
        rw [isSeparator_of_isAlphanum hd, Bool.not_false, bne_iff_ne.mpr hne]
      · rfl
    have hfilter : (c :: cs).filter ((!isSeparator ·) ∘ ([·])) = (c :: cs).filter (· != '_') :=
      List.filter_congr hsep
    rw [words_of_plain h, flatten_cutWords, List.filter_map, hfilter, ← List.flatMap_def]
    exact List.flatMap_singleton' _

theorem isAlphanum_of_mem_words (h : IsPlainName cs) {w : List Char} (hw : w ∈ words cs) {c : Char}
    (hc : c ∈ w) : c.isAlphanum = true := by
  have hmem : c ∈ (words cs).flatten := List.mem_flatten_of_mem hw hc
  rw [flatten_words h, List.mem_filter, bne_iff_ne] at hmem
  exact (h c hmem.1).resolve_right hmem.2

end

/-! ## styles -/

section
variable {ws : List (List Char)} {x : Char}

theorem head?_capitalWords (h : ∀ w ∈ ws, ∀ c ∈ w, c.isAlphanum = true) :
    (ws.flatMap capitalWord).head? = ws.flatten.head?.map Char.toUpper := by
  induction ws with
  | nil => rfl
  | cons w ws ih =>
    obtain ⟨hw, hws⟩ := List.forall_mem_cons.mp h
    cases w with
    | nil => exact ih hws
    | cons c w =>
      rw [List.flatMap_cons, capitalWord_of_ascii fun d hd => toNat_lt_of_isAlphanum (hw d hd)]
      rfl

theorem mem_capitalWords (h : ∀ w ∈ ws, ∀ c ∈ w, c.isAlphanum = true)
    (hx : x ∈ ws.flatMap capitalWord) :
    ∃ c : Char, c.isAlphanum = true ∧ (x = c.toUpper ∨ x = c.toLower) := by
  obtain ⟨w, hw, hx⟩ := List.mem_flatMap.mp hx
  cases w with
  | nil => cases hx
  | cons c w =>
    have hall := h (c :: w) hw
    rw [capitalWord_of_ascii fun d hd => toNat_lt_of_isAlphanum (hall d hd), List.mem_cons,
      List.mem_map] at hx
    rcases hx with rfl | ⟨d, hd, rfl⟩
    · exact ⟨c, hall c List.mem_cons_self, Or.inl rfl⟩
    · exact ⟨d, hall d (List.mem_cons_of_mem c hd), Or.inr rfl⟩

end

section
variable {cs : List Char} {x : Char}

theorem head?_upperCamel (h : IsPlainName cs) :
    (Style.upperCamel.ofWords (words cs)).head? = (cs.find? (· != '_')).map Char.toUpper := by
  rw [Style.ofWords, head?_capitalWords fun w hw c hc => isAlphanum_of_mem_words h hw hc,
    flatten_words h, List.head?_filter]

theorem mem_upperCamel (h : IsPlainName cs) (hx : x ∈ Style.upperCamel.ofWords (words cs)) :
    ∃ c : Char, c.isAlphanum = true ∧ (x = c.toUpper ∨ x = c.toLower) :=
  mem_capitalWords (fun _ hw _ hc => isAlphanum_of_mem_words h hw hc) hx

/-- the first letter is small, unless there is an underscore in front of it -/
theorem head?_camel (h : IsPlainName cs) :
    (Style.camel.ofWords (words cs)).head? =
      if cs.head? = some '_' then (cs.find? (· != '_')).map Char.toUpper
      else cs.head?.map Char.toLower := by
  have hall : ∀ w ∈ words cs, ∀ c ∈ w, c.isAlphanum = true :=
    fun w hw c hc => isAlphanum_of_mem_words h hw hc
  cases cs with
  | nil => rfl
  | cons c cs =>
    rcases h c List.mem_cons_self with hc | rfl
    · obtain ⟨w, ws, hwords⟩ := words_letter h hc
      have hw := hall (c :: w) (by rw [hwords]; exact List.mem_cons_self)
      have hne : c ≠ '_' := by
        rintro rfl
        exact absurd hc (by decide)
      rw [hwords, Style.ofWords, lowerAll_of_ascii fun d hd => toNat_lt_of_isAlphanum (hw d hd)]
      simp [hne]
    · obtain ⟨w, ws, hwords⟩ := words_underscore h
      have hflat := flatten_words h
      rw [hwords] at hall hflat
      rw [if_pos List.head?_cons, hwords, ← List.head?_filter, ← hflat]
      exact head?_capitalWords (List.forall_mem_cons.mp hall).2

theorem mem_camel (h : IsPlainName cs) (hx : x ∈ Style.camel.ofWords (words cs)) :
    ∃ c : Char, c.isAlphanum = true ∧ (x = c.toUpper ∨ x = c.toLower) := by
  have hall : ∀ w ∈ words cs, ∀ c ∈ w, c.isAlphanum = true :=
    fun w hw c hc => isAlphanum_of_mem_words h hw hc
  cases hwords : words cs with
  | nil =>
    rw [hwords] at hx
    cases hx
  | cons w ws =>
    rw [hwords] at hx hall
    obtain ⟨hw, hws⟩ := List.forall_mem_cons.mp hall
    rw [Style.ofWords, lowerAll_of_ascii fun d hd => toNat_lt_of_isAlphanum (hw d hd),
      List.mem_append, List.mem_map] at hx
    rcases hx with ⟨c, hc, rfl⟩ | hx
    · exact ⟨c, hw c hc, Or.inr rfl⟩
    · exact mem_capitalWords hws hx

end

/-! ## words with underscores between them -/

section
variable {cs : List Char} {x : Char} {f : List Char → List Char} {k : Char → Char}
  (hf : ∀ w, (∀ c ∈ w, c.toNat < 128) → f w = w.map k)
include hf

theorem head?_joined (hk : k '_' = '_') (h : IsPlainName cs) :
    (joinParts '_' ((words cs).map f)).head? = cs.head?.map k := by
  have hnil : f [] = [] := hf [] fun _ h => absurd h List.not_mem_nil
  cases cs with
  | nil => rfl
  | cons c cs =>
    rcases h c List.mem_cons_self with hc | rfl
    · obtain ⟨w, ws, hwords⟩ := words_letter h hc
      have hw : f (c :: w) = k c :: w.map k := by
        refine hf (c :: w) fun d hd => toNat_lt_of_isAlphanum (isAlphanum_of_mem_words h ?_ hd)
        rw [hwords]
        exact List.mem_cons_self
      rw [hwords, List.map_cons, hw]
      cases ws <;> rfl
    · obtain ⟨w, ws, hwords⟩ := words_underscore h
      rw [hwords, List.map_cons, List.map_cons, hnil, List.head?_cons, Option.map_some, hk]
      rfl

theorem mem_joined (h : IsPlainName cs) (hx : x ∈ joinParts '_' ((words cs).map f)) :
    x = '_' ∨ ∃ c : Char, c.isAlphanum = true ∧ x = k c := by
  rcases mem_joinParts hx with rfl | ⟨v, hv, hx⟩
  · exact Or.inl rfl
  · obtain ⟨w, hw, rfl⟩ := List.mem_map.mp hv
    have hall : ∀ c ∈ w, c.isAlphanum = true := fun c hc => isAlphanum_of_mem_words h hw hc
    rw [hf w fun c hc => toNat_lt_of_isAlphanum (hall c hc), List.mem_map] at hx
    obtain ⟨c, hc, rfl⟩ := hx
    exact Or.inr ⟨c, hall c hc, rfl⟩

end

section
variable {cs : List Char} {x : Char} (h : IsPlainName cs)
include h

theorem head?_constant :
    (Style.constant.ofWords (words cs)).head? = cs.head?.map Char.toUpper :=
  head?_joined (fun _ => upperAll_of_ascii) rfl h

theorem mem_constant (hx : x ∈ Style.constant.ofWords (words cs)) :
    x = '_' ∨ ∃ c : Char, c.isAlphanum = true ∧ x = c.toUpper :=
  mem_joined (fun _ => upperAll_of_ascii) h hx

theorem head?_snake : (Style.snake.ofWords (words cs)).head? = cs.head?.map Char.toLower :=
  head?_joined (fun _ => lowerAll_of_ascii) rfl h

theorem mem_snake (hx : x ∈ Style.snake.ofWords (words cs)) :
    x = '_' ∨ ∃ c : Char, c.isAlphanum = true ∧ x = c.toLower :=
  mem_joined (fun _ => lowerAll_of_ascii) h hx

end

end TypeModel.Text
