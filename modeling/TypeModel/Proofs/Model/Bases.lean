import TypeModel.Proofs.Model.Trail

/-!
# Chains one step at a time

A trail carries its steps and what it has passed.  Neither matters to what it lists, as long as
there are enough steps and nothing that was passed comes up again:

* `trailFrom_congr`     two trails that have passed the same of what lies ahead are equal;
* `trailFrom_enough`    one more step changes nothing when the steps suffice;
* `chain_cons`          the chain of a member is the next member and its chain, unless the next
                        one leads back;
* `BasesEnd.induction`  from a base to the declarations that extend it;
* `baseStructs_cons`, `flattenedFields_cons`   the same for the structs and the fields that a
                        struct inherits, and `baseEnumerations_cons` for enumerations.
-/

namespace TypeModel

section
variable {α : Type} [DecidableEq α] {step : α → Option α}

theorem trailFrom_congr (fuel : Nat) :
    ∀ (a : α) (passed passed' : List α),
      (∀ x, Reaches step a x → (x ∈ passed ↔ x ∈ passed')) →
      trailFrom step fuel passed (step a) = trailFrom step fuel passed' (step a) := by
  induction fuel with
  | zero => intro a passed passed' _; rfl
  | succ fuel ih =>
    intro a passed passed' h
    cases hs : step a with
    | none => rfl
    | some n =>
      have hn : n ∈ passed ↔ n ∈ passed' := h n (Reaches.single hs)
      by_cases hp : n ∈ passed
      · rw [trailFrom_succ_mem fuel hp, trailFrom_succ_mem fuel (hn.mp hp)]
      · rw [trailFrom_succ_some fuel hp, trailFrom_succ_some fuel (mt hn.mpr hp)]
        have hahead : ∀ x, Reaches step n x → (x ∈ n :: passed ↔ x ∈ n :: passed') := by
          intro x hx
          rw [List.mem_cons, List.mem_cons, h x (Reaches.cons hs hx)]
        rw [ih n (n :: passed) (n :: passed') hahead]

/-- the members passed, the present one apart, are different places to start from, so the steps
left and those members together bound what is still to come -/
theorem trailFrom_enough (domain : List α) (hd : ∀ a b, step a = some b → a ∈ domain)
    (fuel : Nat) :
    ∀ (a : α) (rest : List α), (a :: rest).Nodup → (∀ x ∈ rest, x ∈ domain) →
      domain.length < fuel + rest.length →
      trailFrom step (fuel + 1) (a :: rest) (step a) =
        trailFrom step fuel (a :: rest) (step a) := by
  induction fuel with
  | zero =>
    intro a rest hnd hrest hlen
    have hle : rest.length ≤ domain.length :=
      (List.Nodup.subperm (List.nodup_cons.mp hnd).2 hrest).length_le
    omega
  | succ fuel ih =>
    intro a rest hnd hrest hlen
    cases hs : step a with
    | none => rfl
    | some n =>
      by_cases hn : n ∈ a :: rest
      · rw [trailFrom_succ_mem _ hn, trailFrom_succ_mem _ hn]
      · have hrest' : ∀ x ∈ a :: rest, x ∈ domain :=
          List.forall_mem_cons.mpr ⟨hd a n hs, hrest⟩
        have hlen' : domain.length < fuel + (a :: rest).length := by
          rw [List.length_cons]
          omega
        rw [trailFrom_succ_some _ hn, trailFrom_succ_some _ hn,
          ih n (a :: rest) (List.nodup_cons.mpr ⟨hn, hnd⟩) hrest' hlen']

theorem trailFrom_nodup (fuel : Nat) :
    ∀ (a : α) (passed : List α), (trailFrom step fuel passed (step a)).Nodup := by
  induction fuel with
  | zero => intro a passed; exact List.nodup_nil
  | succ fuel ih =>
    intro a passed
    cases hs : step a with
    | none => exact List.nodup_nil
    | some n =>
      by_cases hn : n ∈ passed
      · rw [trailFrom_succ_mem fuel hn]
        exact List.nodup_nil
      · rw [trailFrom_succ_some fuel hn]
        refine List.nodup_cons.mpr ⟨fun hmem => ?_, ih n (n :: passed)⟩
        exact (reaches_of_mem_trailFrom fuel n (n :: passed) hmem).2 List.mem_cons_self

end

namespace Model
variable {m : Model} {step : TypeId → Option TypeId}

theorem chain_of_none {a : TypeId} (h : step a = none) : m.chain step a = [] := by
  unfold chain
  rw [h]
  rfl

theorem nodup_cons_chain (step : TypeId → Option TypeId) (a : TypeId) :
    (a :: m.chain step a).Nodup := by
  refine List.nodup_cons.mpr ⟨fun hmem => ?_, trailFrom_nodup _ a [a]⟩
  exact (reaches_of_mem_trailFrom _ a [a] hmem).2 (List.mem_singleton.mpr rfl)

/-- the next member may lead into a cycle, but not back to the first -/
theorem chain_cons (hs : m.StartsAtTypes step) {a b : TypeId} (h : step a = some b)
    (hab : b ≠ a) (hback : ¬ Reaches step b a) : m.chain step a = b :: m.chain step b := by
  have hb : b ∉ [a] := fun hmem => hab (List.mem_singleton.mp hmem)
  have hnd : [b, a].Nodup := List.nodup_cons.mpr ⟨hb, List.nodup_singleton a⟩
  have ha : ∀ x ∈ [a], x ∈ m.allTypes.map (·.id) := by
    intro x hx
    rw [List.mem_singleton.mp hx]
    exact hs.mem_ids a b h
  have hlen : (m.allTypes.map (·.id)).length < m.allTypes.length + [a].length := by
    rw [List.length_map, List.length_singleton]
    exact Nat.lt_succ_self _
  have hforget : ∀ x, Reaches step b x → (x ∈ [b, a] ↔ x ∈ [b]) := by
    intro x hx
    have hxa : x ≠ a := fun hxa => hback (hxa ▸ hx)
    simp [hxa]
  calc m.chain step a
      = b :: trailFrom step m.allTypes.length [b, a] (step b) := by
        unfold chain
        rw [h]
        exact trailFrom_succ_some _ hb
    _ = b :: trailFrom step (m.allTypes.length + 1) [b, a] (step b) := by
        rw [trailFrom_enough _ hs.mem_ids _ b [a] hnd ha hlen]
    _ = b :: m.chain step b := by
        rw [trailFrom_congr _ b [b, a] [b] hforget]
        rfl

/-! ## what a struct inherits -/

theorem baseChain_cons {a b : TypeId} (h : m.baseOf a = some b) (ha : ¬ Reaches m.baseOf a a) :
    m.baseChain a = b :: m.baseChain b := by
  have hab : b ≠ a := by
    rintro rfl
    exact ha (Reaches.single h)
  exact chain_cons startsAtTypes_baseOf h hab fun hback => ha (Reaches.cons h hback)

/-- no declaration extends itself, at whatever distance -/
def BasesEnd (m : Model) : Prop := ∀ a, ¬ Reaches m.baseOf a a

theorem BasesEnd.baseChain_cons (hm : m.BasesEnd) {a b : TypeId} (h : m.baseOf a = some b) :
    m.baseChain a = b :: m.baseChain b := Model.baseChain_cons h (hm a)

theorem BasesEnd.baseStructs_cons (hm : m.BasesEnd) {a b : TypeId} (h : m.baseOf a = some b)
    {s : StructType} {inner : List TypeDef} (hb : m.type? b = some (.struct s inner)) :
    m.baseStructs a = s :: m.baseStructs b := by
  unfold baseStructs
  rw [hm.baseChain_cons h, List.filterMap_cons, hb]
  rfl

/-- chains of bases end, so what holds of the handles without a base, and of a handle if it holds of
its base, holds of all -/
theorem BasesEnd.induction (hm : m.BasesEnd) {P : TypeId → Prop}
    (root : ∀ a, m.baseOf a = none → P a)
    (step : ∀ a b, m.baseOf a = some b → P b → P a) (a : TypeId) : P a := by
  have hlength : ∀ n, ∀ a, (m.baseChain a).length = n → P a := by
    intro n
    induction n with
    | zero =>
      intro a hlen
      refine root a (Option.eq_none_iff_forall_ne_some.mpr fun b hb => ?_)
      rw [hm.baseChain_cons hb] at hlen
      cases hlen
    | succ n ih =>
      intro a hlen
      cases hb : m.baseOf a with
      | none => exact root a hb
      | some b =>
        rw [hm.baseChain_cons hb, List.length_cons] at hlen
        exact step a b hb (ih b (by omega))
  exact hlength _ a rfl

/-- what an extended struct extends is extended too -/
theorem BasesEnd.mem_baseStructs (hm : m.BasesEnd) {a b : TypeId} (h : Reaches m.baseOf a b)
    {s : StructType} (hs : s ∈ m.baseStructs b) : s ∈ m.baseStructs a := by
  obtain ⟨c, hc, hcs⟩ := List.mem_filterMap.mp hs
  have hac : Reaches m.baseOf a c := h.trans ((mem_chain startsAtTypes_baseOf).mp hc).1
  have hca : c ≠ a := by
    rintro rfl
    exact hm c hac
  exact List.mem_filterMap.mpr ⟨c, (mem_chain startsAtTypes_baseOf).mpr ⟨hac, hca⟩, hcs⟩

theorem baseStructs_of_none {a : TypeId} (h : m.baseOf a = none) : m.baseStructs a = [] := by
  unfold baseStructs baseChain
  rw [chain_of_none h]
  rfl

theorem baseEnumerations_cons {a b : TypeId} (h : m.baseOf a = some b)
    (ha : ¬ Reaches m.baseOf a a) {x : EnumerationType} (hb : m.type? b = some (.enumeration x)) :
    m.baseEnumerations a = x :: m.baseEnumerations b := by
  unfold baseEnumerations
  rw [Model.baseChain_cons h ha, List.filterMap_cons, hb]
  rfl

theorem BasesEnd.baseEnumerations_cons (hm : m.BasesEnd) {a b : TypeId}
    (h : m.baseOf a = some b) {x : EnumerationType} (hb : m.type? b = some (.enumeration x)) :
    m.baseEnumerations a = x :: m.baseEnumerations b := Model.baseEnumerations_cons h (hm a) hb

theorem baseEnumerations_of_none {a : TypeId} (h : m.baseOf a = none) :
    m.baseEnumerations a = [] := by
  unfold baseEnumerations baseChain
  rw [chain_of_none h]
  rfl

theorem BasesEnd.flattenedFields_cons (hm : m.BasesEnd) {a b : TypeId} (h : m.baseOf a = some b)
    {sb : StructType} {inner : List TypeDef} (hb : m.type? b = some (.struct sb inner))
    (s : StructType) : m.flattenedFields a s = m.flattenedFields b sb ++ s.instanceFields := by
  unfold flattenedFields
  rw [hm.baseStructs_cons h hb, List.reverse_cons, List.flatMap_append]
  simp

theorem mem_flattenedFields {a : TypeId} {s : StructType} {f : Field} :
    f ∈ m.flattenedFields a s ↔
      (∃ b ∈ m.baseStructs a, f ∈ b.instanceFields) ∨ f ∈ s.instanceFields := by
  unfold flattenedFields
  rw [List.mem_append, List.mem_flatMap]
  simp only [List.mem_reverse]

end Model

end TypeModel
