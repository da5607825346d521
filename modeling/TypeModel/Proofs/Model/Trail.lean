import Mathlib.Data.List.Nodup
import Mathlib.Data.List.Perm.Subperm
import Mathlib.Logic.Relation
import TypeModel.Model.Chain
import TypeModel.Proofs.Model.Entries

/-!
# What a trail reaches

`trailFrom` follows a step for a number of steps.  A step that starts only at members of a finite
list runs out of new members before the steps run out, so a trail is complete:

* `Reaches step a b`           `b` comes after one or more steps from `a`;
* `mem_chain`                  a chain holds what its start reaches, without the start, and
                               `mem_filterMap_baseChain` what the declarations on it hold;
* `cycleFrom?_of_reaches`      a cycle is found at a member that reaches itself,
* `cycleFrom?_eq_none`         and only there;
* `mem_cons_chain_of_cycle`    on a cycle every member has every other in its chain.
-/

namespace TypeModel

section
variable {α : Type} {step : α → Option α} {a b c : α}

def Reaches (step : α → Option α) : α → α → Prop :=
  Relation.TransGen fun a b => step a = some b

theorem Reaches.single (h : step a = some b) : Reaches step a b := Relation.TransGen.single h

theorem Reaches.cons (h : step a = some b) (hb : Reaches step b c) : Reaches step a c :=
  Relation.TransGen.head h hb

theorem Reaches.trans (h : Reaches step a b) (hb : Reaches step b c) : Reaches step a c :=
  Relation.TransGen.trans h hb

/-- what is reached is the next member or comes after it -/
theorem Reaches.next (h : Reaches step a b) :
    ∃ n, step a = some n ∧ (n = b ∨ Reaches step n b) := by
  obtain ⟨n, hn, hnb⟩ := Relation.TransGen.head'_iff.mp h
  refine ⟨n, hn, ?_⟩
  rcases Relation.reflTransGen_iff_eq_or_transGen.mp hnb with rfl | hnb
  · exact Or.inl rfl
  · exact Or.inr hnb

theorem Reaches.last (h : Reaches step a b) :
    ∃ n, (n = a ∨ Reaches step a n) ∧ step n = some b := by
  obtain ⟨n, han, hn⟩ := Relation.TransGen.tail'_iff.mp h
  refine ⟨n, ?_, hn⟩
  rcases Relation.reflTransGen_iff_eq_or_transGen.mp han with rfl | han
  · exact Or.inl rfl
  · exact Or.inr han

/-- there is one way on from each member, so whatever a cycle reaches leads back to it -/
theorem reaches_back (h : Reaches step a a) (hb : Reaches step a b) : Reaches step b a := by
  induction hb with
  | single hs =>
    obtain ⟨n, hn, hna⟩ := h.next
    rw [hs] at hn
    obtain rfl := Option.some.inj hn
    rcases hna with rfl | hna
    · exact h
    · exact hna
  | tail _ hs ih =>
    obtain ⟨n, hn, hna⟩ := ih.next
    rw [hs] at hn
    obtain rfl := Option.some.inj hn
    rcases hna with rfl | hna
    · exact h
    · exact hna

end

/-! ## trails -/

section
variable {α : Type} [DecidableEq α] {step : α → Option α}

theorem trailFrom_succ_some {n : α} {passed : List α} (fuel : Nat) (h : n ∉ passed) :
    trailFrom step (fuel + 1) passed (some n) =
      n :: trailFrom step fuel (n :: passed) (step n) := if_neg h

theorem trailFrom_succ_mem {n : α} {passed : List α} (fuel : Nat) (h : n ∈ passed) :
    trailFrom step (fuel + 1) passed (some n) = [] := if_pos h

theorem reaches_of_mem_trailFrom {b : α} (fuel : Nat) :
    ∀ (a : α) (passed : List α), b ∈ trailFrom step fuel passed (step a) →
      Reaches step a b ∧ b ∉ passed := by
  induction fuel with
  | zero =>
    intro a passed h
    exact absurd h List.not_mem_nil
  | succ fuel ih =>
    intro a passed h
    cases hs : step a with
    | none =>
      rw [hs] at h
      exact absurd h List.not_mem_nil
    | some n =>
      rw [hs] at h
      by_cases hn : n ∈ passed
      · rw [trailFrom_succ_mem fuel hn] at h
        exact absurd h List.not_mem_nil
      · rw [trailFrom_succ_some fuel hn] at h
        rcases List.mem_cons.mp h with rfl | h
        · exact ⟨Reaches.single hs, hn⟩
        · obtain ⟨hr, hb⟩ := ih n (n :: passed) h
          exact ⟨Reaches.cons hs hr, fun hp => hb (List.mem_cons_of_mem n hp)⟩

/-- every member of a trail but the last is followed by a member of the trail -/
theorem next_mem_trailFrom {x : α} (fuel : Nat) :
    ∀ (a : α) (passed : List α), x ∈ a :: trailFrom step fuel passed (step a) →
      (a :: trailFrom step fuel passed (step a)).getLast? = some x ∨
        ∃ y ∈ trailFrom step fuel passed (step a), step x = some y := by
  induction fuel with
  | zero =>
    intro a passed h
    obtain rfl := List.mem_singleton.mp h
    exact Or.inl rfl
  | succ fuel ih =>
    intro a passed h
    cases hs : step a with
    | none =>
      rw [hs] at h
      obtain rfl := List.mem_singleton.mp h
      exact Or.inl rfl
    | some n =>
      rw [hs] at h
      by_cases hn : n ∈ passed
      · rw [trailFrom_succ_mem fuel hn] at h ⊢
        obtain rfl := List.mem_singleton.mp h
        exact Or.inl rfl
      · rw [trailFrom_succ_some fuel hn] at h ⊢
        rcases List.mem_cons.mp h with rfl | h
        · exact Or.inr ⟨n, List.mem_cons_self, hs⟩
        · rcases ih n (n :: passed) h with hl | ⟨y, hy, hxy⟩
          · exact Or.inl (List.getLast?_cons_cons.trans hl)
          · exact Or.inr ⟨y, List.mem_cons_of_mem n hy, hxy⟩

/-- with more steps than there are members to start from, the members passed and the trail are
closed under the step -/
theorem trailFrom_closed (domain : List α) (hd : ∀ a b, step a = some b → a ∈ domain)
    (fuel : Nat) :
    ∀ (a : α) (rest : List α), (a :: rest).Nodup → (∀ x ∈ rest, x ∈ domain) →
      domain.length < fuel + rest.length →
      ∀ x ∈ a :: trailFrom step fuel (a :: rest) (step a), ∀ y, step x = some y →
        y ∈ a :: rest ∨ y ∈ trailFrom step fuel (a :: rest) (step a) := by
  induction fuel with
  | zero =>
    intro a rest hnd hrest hlen
    have hle : rest.length ≤ domain.length :=
      (List.Nodup.subperm (List.nodup_cons.mp hnd).2 hrest).length_le
    omega
  | succ fuel ih =>
    intro a rest hnd hrest hlen x hx y hy
    cases hs : step a with
    | none =>
      rw [hs] at hx
      obtain rfl := List.mem_singleton.mp hx
      rw [hs] at hy
      cases hy
    | some n =>
      rw [hs] at hx
      by_cases hn : n ∈ a :: rest
      · rw [trailFrom_succ_mem fuel hn] at hx
        obtain rfl := List.mem_singleton.mp hx
        rw [hs] at hy
        obtain rfl := Option.some.inj hy
        exact Or.inl hn
      · rw [trailFrom_succ_some fuel hn] at hx ⊢
        rcases List.mem_cons.mp hx with rfl | hx
        · rw [hs] at hy
          obtain rfl := Option.some.inj hy
          exact Or.inr List.mem_cons_self
        · have hrest' : ∀ z ∈ a :: rest, z ∈ domain := by
            intro z hz
            rcases List.mem_cons.mp hz with rfl | hz
            · exact hd z n hs
            · exact hrest z hz
          have hlen' : domain.length < fuel + (a :: rest).length := by
            rw [List.length_cons]
            omega
          rcases ih n (a :: rest) (List.nodup_cons.mpr ⟨hn, hnd⟩) hrest' hlen' x hx y hy with
            hy | hy
          · rcases List.mem_cons.mp hy with rfl | hy
            · exact Or.inr List.mem_cons_self
            · exact Or.inl hy
          · exact Or.inr (List.mem_cons_of_mem n hy)

end

/-! ## chains of a model -/

namespace Model
variable {m : Model} {step : TypeId → Option TypeId}

/-- steps start at declarations of the model only -/
def StartsAtTypes (m : Model) (step : TypeId → Option TypeId) : Prop :=
  ∀ a b, step a = some b → ∃ e ∈ m.allTypes, e.id = a

theorem startsAtTypes_of_type? {ref : TypeDef → Option TypeRef} :
    m.StartsAtTypes fun id => ((m.type? id).bind ref).bind TypeRef.type? := by
  intro a b h
  obtain ⟨r, hr, _⟩ := Option.bind_eq_some_iff.mp h
  obtain ⟨t, ht, _⟩ := Option.bind_eq_some_iff.mp hr
  obtain ⟨e, he, _, hid, _⟩ := exists_entry_of_type? ht
  exact ⟨e, he, hid⟩

theorem startsAtTypes_baseOf : m.StartsAtTypes m.baseOf := startsAtTypes_of_type?

theorem startsAtTypes_expansionOf : m.StartsAtTypes m.expansionOf := startsAtTypes_of_type?

theorem StartsAtTypes.mem_ids (hs : m.StartsAtTypes step) :
    ∀ a b, step a = some b → a ∈ m.allTypes.map (·.id) := by
  intro a b h
  obtain ⟨e, he, hid⟩ := hs a b h
  exact List.mem_map.mpr ⟨e, he, hid⟩

theorem chain_closed (hs : m.StartsAtTypes step) (a : TypeId) :
    ∀ x ∈ a :: m.chain step a, ∀ y, step x = some y → y ∈ a :: m.chain step a := by
  intro x hx y hy
  have hlen : (m.allTypes.map (·.id)).length < m.allTypes.length + 1 + 0 := by
    rw [List.length_map]
    exact Nat.lt_succ_self _
  rcases trailFrom_closed _ hs.mem_ids _ a [] (List.nodup_singleton a)
    (fun _ h => absurd h List.not_mem_nil) hlen x hx y hy with h | h
  · exact List.mem_cons.mpr (Or.inl (List.mem_singleton.mp h))
  · exact List.mem_cons_of_mem a h

theorem mem_cons_chain (hs : m.StartsAtTypes step) {a b : TypeId} :
    b ∈ a :: m.chain step a ↔ b = a ∨ Reaches step a b := by
  constructor
  · intro h
    rcases List.mem_cons.mp h with rfl | h
    · exact Or.inl rfl
    · exact Or.inr (reaches_of_mem_trailFrom _ a [a] h).1
  · rintro (rfl | h)
    · exact List.mem_cons_self
    · induction h with
      | single h => exact chain_closed hs a a List.mem_cons_self _ h
      | tail _ h ih => exact chain_closed hs a _ ih _ h

theorem mem_chain (hs : m.StartsAtTypes step) {a b : TypeId} :
    b ∈ m.chain step a ↔ Reaches step a b ∧ b ≠ a := by
  constructor
  · intro h
    obtain ⟨hr, hb⟩ := reaches_of_mem_trailFrom _ a [a] h
    exact ⟨hr, fun hba => hb (List.mem_singleton.mpr hba)⟩
  · rintro ⟨hr, hb⟩
    rcases List.mem_cons.mp ((mem_cons_chain hs).mpr (Or.inr hr)) with h | h
    · exact absurd h hb
    · exact h

theorem baseOf_of_mem {e : Entry} (he : e ∈ m.allTypes) :
    m.baseOf e.id = e.type.base?.bind TypeRef.type? := by
  unfold baseOf
  rw [type?_id_of_mem he]
  rfl

theorem expansionOf_of_mem {e : Entry} (he : e ∈ m.allTypes) :
    m.expansionOf e.id = e.type.expands?.bind TypeRef.type? := by
  unfold expansionOf
  rw [type?_id_of_mem he]
  rfl

/-- what `f` reads off the declarations that a declaration extends -/
theorem mem_filterMap_baseChain {β : Type} {f : TypeDef → Option β} {a : TypeId} {b : β} :
    b ∈ (m.baseChain a).filterMap (fun c => (m.type? c).bind f) ↔
      ∃ d ∈ m.allTypes, f d.type = some b ∧ Reaches m.baseOf a d.id ∧ d.id ≠ a := by
  unfold baseChain
  rw [List.mem_filterMap]
  constructor
  · rintro ⟨c, hc, hb⟩
    obtain ⟨t, ht, hf⟩ := Option.bind_eq_some_iff.mp hb
    obtain ⟨d, hd, _, rfl, rfl⟩ := exists_entry_of_type? ht
    obtain ⟨hr, hne⟩ := (mem_chain startsAtTypes_baseOf).mp hc
    exact ⟨d, hd, hf, hr, hne⟩
  · rintro ⟨d, hd, hf, hr, hne⟩
    refine ⟨d.id, (mem_chain startsAtTypes_baseOf).mpr ⟨hr, hne⟩, ?_⟩
    rw [type?_id_of_mem hd]
    exact hf

theorem mem_baseStructs {id : TypeId} {b : StructType} :
    b ∈ m.baseStructs id ↔ ∃ d ∈ m.allTypes, d.type.struct? = some b ∧
      Reaches m.baseOf id d.id ∧ d.id ≠ id := mem_filterMap_baseChain

theorem mem_baseEnumerations {id : TypeId} {b : EnumerationType} :
    b ∈ m.baseEnumerations id ↔ ∃ d ∈ m.allTypes, d.type.enumeration? = some b ∧
      Reaches m.baseOf id d.id ∧ d.id ≠ id := mem_filterMap_baseChain

theorem cycleFrom?_eq (step : TypeId → Option TypeId) (a : TypeId) :
    m.cycleFrom? step a =
      if ((a :: m.chain step a).getLast?.bind step) = some a then some (a :: m.chain step a)
      else none := rfl

theorem last_step_iff (hs : m.StartsAtTypes step) (a : TypeId) :
    ((a :: m.chain step a).getLast?.bind step) = some a ↔ Reaches step a a := by
  constructor
  · intro h
    obtain ⟨x, hx, hxa⟩ := Option.bind_eq_some_iff.mp h
    rcases (mem_cons_chain hs).mp (List.mem_of_getLast? hx) with rfl | hr
    · exact Reaches.single hxa
    · exact hr.trans (Reaches.single hxa)
  · intro h
    -- what steps to `a` is in the trail and can only be its last member
    obtain ⟨x, hx, hxa⟩ := h.last
    rcases next_mem_trailFrom _ a [a] ((mem_cons_chain hs).mpr hx) with hl | ⟨y, hy, hxy⟩
    · exact Option.bind_eq_some_iff.mpr ⟨x, hl, hxa⟩
    · rw [hxa] at hxy
      obtain rfl := Option.some.inj hxy
      exact absurd rfl ((mem_chain hs).mp hy).2

theorem cycleFrom?_of_reaches (hs : m.StartsAtTypes step) {a : TypeId} (h : Reaches step a a) :
    m.cycleFrom? step a = some (a :: m.chain step a) :=
  (cycleFrom?_eq step a).trans (if_pos ((last_step_iff hs a).mpr h))

theorem cycleFrom?_eq_none (hs : m.StartsAtTypes step) {a : TypeId} (h : ¬ Reaches step a a) :
    m.cycleFrom? step a = none :=
  (cycleFrom?_eq step a).trans (if_neg fun hl => h ((last_step_iff hs a).mp hl))

/-- two members of one cycle reach the same declarations -/
theorem mem_cons_chain_of_cycle (hs : m.StartsAtTypes step) {a b : TypeId}
    (h : Reaches step a a) (hb : b ∈ a :: m.chain step a) (x : TypeId) :
    x ∈ b :: m.chain step b ↔ x ∈ a :: m.chain step a := by
  have hab : Reaches step a b := by
    rcases (mem_cons_chain hs).mp hb with rfl | hb
    · exact h
    · exact hb
  have hba := reaches_back h hab
  rw [mem_cons_chain hs, mem_cons_chain hs]
  constructor
  · rintro (rfl | hx)
    · exact Or.inr hab
    · exact Or.inr (hab.trans hx)
  · rintro (rfl | hx)
    · exact Or.inr hba
    · exact Or.inr (hba.trans hx)

end Model

end TypeModel
