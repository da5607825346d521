import TypeModel.Proofs.Analysis.Checks

/-!
# Checks that follow chains

Two checks look beyond one declaration and its base.  A cycle is reported at one of its members
only, and a map key whose aliases lead nowhere is not reported at all; both are right only when
all checks are taken together.

* `clean_reportCycles`    the cycle checks of all declarations are clean if and only if no
                         declaration is reached from itself;
* `mapKeyAllowed_iff`    where references are known and expansions end, a key passes its check if
                         and only if it is an allowed one.
-/

namespace TypeModel

namespace Validation

/-! ## cycles -/

section
variable {m : Model} {step : TypeId → Option TypeId}

theorem clean_reportCycle_of_not_reaches (hs : m.StartsAtTypes step) {e : Entry}
    (kind : CycleKind) (h : ¬ Reaches step e.id e.id) : Clean (reportCycle m e kind step) := by
  unfold reportCycle
  rw [Model.cycleFrom?_eq_none hs h]
  exact clean_nil

/-- a cycle is an error at an entry that no other member precedes -/
theorem not_clean_reportCycle (hs : m.StartsAtTypes step) {e : Entry} (kind : CycleKind)
    (h : Reaches step e.id e.id)
    (hf : (m.walk.find? fun x => (e.id :: m.chain step e.id).contains x.id) = some e) :
    ¬ Clean (reportCycle m e kind step) := by
  have herror : ∀ path, (Issue.cycle kind path).severity = .error := by
    intro path
    cases kind <;> rfl
  rw [reportCycle_eq (Model.cycleFrom?_of_reaches hs h), clean_reportIf_error (herror _),
    Model.firstOf, hf]
  simp

/-- a cycle has a member that the walk visits before all others -/
theorem exists_first_of_reaches (hs : m.StartsAtTypes step) {a : TypeId} (h : Reaches step a a) :
    ∃ x ∈ m.allTypes, x.id ∈ a :: m.chain step a ∧ Reaches step x.id x.id ∧
      (m.walk.find? fun y => (x.id :: m.chain step x.id).contains y.id) = some x := by
  obtain ⟨b, hb, _⟩ := h.next
  obtain ⟨e, he, rfl⟩ := hs a b hb
  obtain ⟨x, hx⟩ : ∃ x, (m.walk.find? fun x => (e.id :: m.chain step e.id).contains x.id)
      = some x := by
    refine Option.isSome_iff_exists.mp (List.find?_isSome.mpr ⟨e, Model.mem_walk_iff.mpr he, ?_⟩)
    exact List.contains_iff_mem.mpr List.mem_cons_self
  have hmem : x.id ∈ e.id :: m.chain step e.id := by
    have hc := List.find?_some hx
    exact List.contains_iff_mem.mp hc
  have hxx : Reaches step x.id x.id := by
    rcases (Model.mem_cons_chain hs).mp hmem with hxe | hex
    · rw [hxe]
      exact h
    · exact (reaches_back h hex).trans hex
  -- all members list the same cycle, so the member found is the first of its own
  have hsame : (fun y : Entry => (x.id :: m.chain step x.id).contains y.id) =
      fun y => (e.id :: m.chain step e.id).contains y.id := by
    funext y
    rw [Bool.eq_iff_iff, List.contains_iff_mem, List.contains_iff_mem]
    exact Model.mem_cons_chain_of_cycle hs h hmem y.id
  refine ⟨x, Model.mem_walk_iff.mp (List.mem_of_find?_eq_some hx), hmem, hxx, ?_⟩
  rw [hsame]
  exact hx

/-- the check may call the cycle at an entry what it likes -/
theorem clean_reportCycles (hs : m.StartsAtTypes step) (kind : Entry → CycleKind) :
    (∀ e ∈ m.allTypes, (∃ b, step e.id = some b) → Clean (reportCycle m e (kind e) step)) ↔
      ∀ a, ¬ Reaches step a a := by
  constructor
  · intro h a ha
    obtain ⟨x, hxm, _, hxx, hfirst⟩ := exists_first_of_reaches hs ha
    obtain ⟨n, hn, _⟩ := hxx.next
    exact not_clean_reportCycle hs (kind x) hxx hfirst (h x hxm ⟨n, hn⟩)
  · intro h e _ _
    exact clean_reportCycle_of_not_reaches hs _ (h e.id)

end

end Validation

/-! ## map keys -/

theorem TypeDef.exists_of_kind_alias {t : TypeDef} (h : t.kind = .alias) : ∃ a, t = .alias a := by
  cases t with
  | «alias» a => exact ⟨a, rfl⟩
  | struct s inner => cases h
  | enumeration x => cases h
  | array a => cases h

namespace Validation

theorem mapKeyAllowed_eq (m : Model) (key : TypeRef) :
    mapKeyAllowed m key = true ↔
      mapKeyVerdict m (m.allTypes.length + 2) [] key ≠ some false := by
  unfold mapKeyAllowed
  cases mapKeyVerdict m (m.allTypes.length + 2) [] key with
  | none => simp
  | some v => cases v <;> simp

end Validation

namespace Model
variable {m : Model}

theorem type?_bind_alias {id : TypeId} {a : AliasType} (h : m.type? id = some (.alias a)) :
    m.bind.type? id =
      some (.alias { a with actualType := a.actualType.map (Namespace.ofModel m).bindRef }) := by
  obtain ⟨e, _, he, _, ht⟩ := exists_entry_of_type? h
  rw [type?_bind, he]
  refine congrArg some ?_
  dsimp only [Namespace.bindEntry]
  rw [ht]
  split <;> rfl

/-- a declaration that is no alias is none in the bound model -/
theorem type?_bind_of_not_alias {id : TypeId} {t : TypeDef} (h : m.type? id = some t)
    (ht : t.kind ≠ .alias) : ∃ t', m.bind.type? id = some t' ∧ t'.kind ≠ .alias := by
  obtain ⟨e, _, he, _, rfl⟩ := exists_entry_of_type? h
  rw [type?_bind, he]
  exact ⟨_, rfl, by rw [Namespace.kind_bindEntry]; exact ht⟩

/-- the type at the handle that a name means -/
theorem exists_type?_of_meaning {n : Name} {id : TypeId} (h : m.meaning n = .type id) :
    ∃ e ∈ m.allTypes, e.id = id ∧ e.Carries n ∧ m.type? id = some e.type := by
  rcases m.meaning_cases n with ⟨x, _, _, hm⟩ | ⟨e, he, hc, hm⟩ | ⟨_, _, hm⟩
  · rw [h] at hm
    cases hm
  · rw [h] at hm
    injection hm with hid
    exact ⟨e, he, hid.symm, hc, hid.symm ▸ type?_id_of_mem he⟩
  · rw [h] at hm
    cases hm

theorem meaning_ne_pending (n : Name) : m.meaning n ≠ .pending := by
  rcases m.meaning_cases n with ⟨x, _, _, hm⟩ | ⟨e, _, _, hm⟩ | ⟨_, _, hm⟩ <;> rw [hm] <;> nofun

end Model

namespace Validation
variable {m : Model}

theorem mapKeyVerdict_of_allowedKey {n : Name} (h : m.AllowedKey n) :
    ∀ (fuel : Nat) (passed : List TypeId) (r : TypeRef), r.binding = m.meaning n →
      mapKeyVerdict m.bind fuel passed r ≠ some false := by
  induction h with
  | primitive hm hb hf =>
    intro fuel passed r hr
    cases fuel with
    | zero => exact nofun
    | succ fuel =>
      unfold mapKeyVerdict
      rw [hr, hm]
      dsimp only
      rw [show m.bind.basic? _ = some _ from hb]
      simp [hf]
  | «alias» hm ht ha _ ih =>
    intro fuel passed r hr
    cases fuel with
    | zero => exact nofun
    | succ fuel =>
      unfold mapKeyVerdict
      rw [hr, hm]
      dsimp only
      split
      · exact nofun
      · rw [Model.type?_bind_alias ht, ha]
        exact ih fuel _ _ (m.binding_bindRef _)

/-- what holds on a walk along aliases: the handles passed are different declarations, and each of
them leads to the present one -/
structure KeyWalk (m : Model) (passed : List TypeId) (r : TypeRef) : Prop where
  nodup : passed.Nodup
  known : ∀ p ∈ passed, p ∈ m.allTypes.map (·.id)
  binding : r.binding = m.meaning r.name
  declares : m.Declares r.name
  leads : ∀ p ∈ passed, ∀ id, m.meaning r.name = .type id → Relation.TransGen m.StandsFor p id

namespace KeyWalk
variable {passed : List TypeId} {r : TypeRef} (h : KeyWalk m passed r)
include h

theorem length_le : passed.length ≤ m.allTypes.length := by
  have hle := (List.Nodup.subperm h.nodup h.known).length_le
  rwa [List.length_map] at hle

/-- the walk goes on to what the present declaration stands for -/
theorem step {e : Entry} (he : e ∈ m.allTypes) (hm : m.meaning r.name = .type e.id)
    (hp : e.id ∉ passed) {r' : TypeRef} (hexp : e.type.expands? = some r')
    (hdecl : m.Declares r'.name) :
    KeyWalk m (e.id :: passed) ((Namespace.ofModel m).bindRef r') where
  nodup := List.nodup_cons.mpr ⟨hp, h.nodup⟩
  known := List.forall_mem_cons.mpr ⟨List.mem_map_of_mem he, h.known⟩
  binding := m.binding_bindRef r'
  declares := hdecl
  leads := by
    intro p hmem id hm'
    have hnext : m.StandsFor e.id id := ⟨e, he, rfl, r', hexp, hm'⟩
    rcases List.mem_cons.mp hmem with rfl | hmem
    · exact Relation.TransGen.single hnext
    · exact Relation.TransGen.tail (h.leads p hmem e.id hm) hnext

end KeyWalk

/-- neither do the steps of a walk run out nor is a handle met twice -/
theorem allowedKey_of_mapKeyVerdict
    (hknown : ∀ e ∈ m.allTypes, ∀ r, e.type.expands? = some r → m.Declares r.name)
    (hgiven : ∀ e ∈ m.allTypes, e.type.kind = .alias → e.type.expands? ≠ none)
    (hends : ∀ a, ¬ Relation.TransGen m.StandsFor a a) (fuel : Nat) :
    ∀ (passed : List TypeId) (r : TypeRef), KeyWalk m passed r →
      m.allTypes.length < fuel + passed.length →
      mapKeyVerdict m.bind fuel passed r ≠ some false → m.AllowedKey r.name := by
  induction fuel with
  | zero =>
    intro passed r hwalk hlen
    have hle := hwalk.length_le
    omega
  | succ fuel ih =>
    intro passed r hwalk hlen hv
    unfold mapKeyVerdict at hv
    rw [hwalk.binding] at hv
    cases hm : m.meaning r.name with
    | pending => exact absurd hm (m.meaning_ne_pending r.name)
    | unresolved => exact absurd hm ((m.declares_iff r.name).mp hwalk.declares)
    | basic id =>
      rw [hm] at hv
      dsimp only at hv
      cases hb : m.bind.basic? id with
      | none => exact absurd (by rw [hb]) hv
      | some b =>
        rw [hb] at hv
        exact .primitive hm hb (by simpa using hv)
    | type id =>
      rw [hm] at hv
      dsimp only at hv
      obtain ⟨e, he, rfl, _, ht⟩ := Model.exists_type?_of_meaning hm
      by_cases hp : e.id ∈ passed
      · exact absurd (hwalk.leads e.id hp e.id hm) (hends e.id)
      · rw [if_neg hp] at hv
        by_cases hk : e.type.kind = .alias
        · obtain ⟨a, ha⟩ := TypeDef.exists_of_kind_alias hk
          obtain ⟨r', hr'⟩ : ∃ r', a.actualType = some r' := by
            have hsome := hgiven e he hk
            rw [ha] at hsome
            exact Option.ne_none_iff_exists'.mp hsome
          have hexp : e.type.expands? = some r' := by rw [ha]; exact hr'
          rw [ha] at ht
          rw [Model.type?_bind_alias ht, hr'] at hv
          have hnext := hwalk.step he hm hp hexp (hknown e he r' hexp)
          have hlen' : m.allTypes.length < fuel + (e.id :: passed).length := by
            rw [List.length_cons]
            omega
          exact .alias hm ht hr' (ih _ ((Namespace.ofModel m).bindRef r') hnext hlen' hv)
        · obtain ⟨t', ht', hk'⟩ := Model.type?_bind_of_not_alias ht hk
          rw [ht'] at hv
          cases t' with
          | «alias» a => exact absurd rfl hk'
          | struct s inner => exact absurd rfl hv
          | enumeration x => exact absurd rfl hv
          | array a => exact absurd rfl hv

theorem mapKeyAllowed_iff
    (hknown : ∀ e ∈ m.allTypes, ∀ r, e.type.expands? = some r → m.Declares r.name)
    (hgiven : ∀ e ∈ m.allTypes, e.type.kind = .alias → e.type.expands? ≠ none)
    (hends : ∀ a, ¬ Relation.TransGen m.StandsFor a a) {r : TypeRef}
    (hr : r.binding = m.meaning r.name) (hdecl : m.Declares r.name) :
    mapKeyAllowed m.bind r = true ↔ m.AllowedKey r.name := by
  rw [mapKeyAllowed_eq]
  constructor
  · have hwalk : KeyWalk m [] r := ⟨List.nodup_nil, fun _ h => absurd h List.not_mem_nil, hr, hdecl,
      fun _ h => absurd h List.not_mem_nil⟩
    refine allowedKey_of_mapKeyVerdict hknown hgiven hends _ [] r hwalk ?_
    rw [Model.allTypes_bind, List.length_map, List.length_nil]
    omega
  · intro h
    exact mapKeyVerdict_of_allowedKey h _ _ r hr

end Validation

end TypeModel
