import Mathlib.Data.List.Basic
import TypeModel.Generation.Target
import TypeModel.Proofs.Model.Sites

/-!
# How far references are followed

Generators follow a reference through aliases, or through aliases and arrays, and give up after
`maxExpansion` references.

* `Succeeds x`              the computation `x` gives a result;
* `Model.Leads m ks r n t`  from `r`, after `n` declarations of the kinds `ks`, the primitive type or
                            the declaration of another kind `t` is reached;
* `succeeds_isScalar`       a reference is classified if it leads somewhere over aliases before the
                            bound;
* `expand_ok_iff`           it is expanded to what it leads to over aliases and arrays.
-/

namespace TypeModel

/-! ## computations that may fail -/

section
variable {ε α β : Type} {x : Except ε α} {f : α → Except ε β}

def Succeeds (x : Except ε α) : Prop := ∃ a, x = .ok a

theorem succeeds_ok (a : α) : Succeeds (.ok a : Except ε α) := ⟨a, rfl⟩

@[simp] theorem succeeds_pure (a : α) : Succeeds (pure a : Except ε α) := ⟨a, rfl⟩

theorem not_succeeds_error (e : ε) : ¬ Succeeds (.error e : Except ε α) := nofun

theorem succeeds_iff_isOk : Succeeds x ↔ x.isOk = true := by
  cases x with
  | error e => exact iff_of_false nofun nofun
  | ok a => exact iff_of_true ⟨a, rfl⟩ rfl

theorem ok_bind (a : α) : ((.ok a : Except ε α) >>= f) = f a := rfl

theorem bind_eq_ok {b : β} : (x >>= f) = .ok b ↔ ∃ a, x = .ok a ∧ f a = .ok b := by
  cases x with
  | error e => exact iff_of_false nofun (by rintro ⟨_, h, _⟩; cases h)
  | ok a =>
    rw [ok_bind]
    constructor
    · exact fun h => ⟨a, rfl, h⟩
    · rintro ⟨_, ⟨⟩, h⟩
      exact h

theorem succeeds_bind :
    Succeeds (x >>= f) ↔ Succeeds x ∧ ∀ a, x = .ok a → Succeeds (f a) := by
  cases x with
  | error e => exact iff_of_false nofun fun h => not_succeeds_error e h.1
  | ok a =>
    rw [ok_bind]
    constructor
    · intro h
      refine ⟨succeeds_ok a, ?_⟩
      rintro _ ⟨⟩
      exact h
    · exact fun h => h.2 a rfl

/-- what follows a computation does as well as `P`, whatever the result -/
theorem succeeds_bind_iff {P : Prop} (h : ∀ a, Succeeds (f a) ↔ P) :
    Succeeds (x >>= f) ↔ Succeeds x ∧ P := by
  rw [succeeds_bind]
  constructor
  · rintro ⟨⟨a, ha⟩, hf⟩
    exact ⟨⟨a, ha⟩, (h a).mp (hf a ha)⟩
  · rintro ⟨hx, hp⟩
    exact ⟨hx, fun a _ => (h a).mpr hp⟩

theorem Succeeds.bind (hx : Succeeds x) (hf : ∀ a, x = .ok a → Succeeds (f a)) :
    Succeeds (x >>= f) := succeeds_bind.mpr ⟨hx, hf⟩

theorem succeeds_map {g : α → β} : Succeeds (x.map g) ↔ Succeeds x := by
  cases x with
  | error e => exact iff_of_false nofun nofun
  | ok a => exact iff_of_true ⟨g a, rfl⟩ ⟨a, rfl⟩

theorem succeeds_mapM {l : List α} : Succeeds (l.mapM f) ↔ ∀ a ∈ l, Succeeds (f a) := by
  induction l with
  | nil => exact iff_of_true (succeeds_pure []) fun _ h => absurd h List.not_mem_nil
  | cons a l ih =>
    rw [List.mapM_cons, List.forall_mem_cons, succeeds_bind_iff fun _ => ?_]
    rw [← ih]
    exact (succeeds_bind_iff fun _ => iff_true_intro (succeeds_pure _)).trans (and_iff_left trivial)

/-- what `k` reads off the results is what `g` reads off the arguments -/
theorem flatMap_of_mapM {γ : Type} {g : α → List γ} {k : β → List γ}
    (hf : ∀ a b, f a = .ok b → k b = g a) {l : List α} :
    ∀ {bs : List β}, l.mapM f = .ok bs → bs.flatMap k = l.flatMap g := by
  induction l with
  | nil =>
    rintro _ ⟨⟩
    rfl
  | cons a l ih =>
    intro bs h
    rw [List.mapM_cons] at h
    obtain ⟨b, hb, h⟩ := bind_eq_ok.mp h
    obtain ⟨bs', hbs, h⟩ := bind_eq_ok.mp h
    cases h
    rw [List.flatMap_cons, List.flatMap_cons, hf a b hb, ih hbs]

theorem map_of_mapM {γ : Type} {g : α → γ} {k : β → γ} (hf : ∀ a b, f a = .ok b → k b = g a)
    {l : List α} {bs : List β} (h : l.mapM f = .ok bs) : bs.map k = l.map g := by
  rw [List.map_eq_flatMap, List.map_eq_flatMap]
  exact flatMap_of_mapM (fun a b hb => by rw [hf a b hb]) h

end

/-! ## following references -/

namespace Model

inductive Leads (m : Model) (ks : List TypeKind) : TypeRef → Nat → Target → Prop
  | basic {r : TypeRef} {id : BasicId} {b : BasicType} :
      r.binding = .basic id → m.basic? id = some b → Leads m ks r 0 (.basic b)
  | declared {r : TypeRef} {id : TypeId} {e : Entry} :
      r.binding = .type id → m.entry? id = some e → e.type.kind ∉ ks →
        Leads m ks r 0 (.declared e)
  | step {r r' : TypeRef} {id : TypeId} {e : Entry} {n : Nat} {t : Target} :
      r.binding = .type id → m.entry? id = some e → e.type.kind ∈ ks →
        e.type.expands? = some r' → Leads m ks r' n t → Leads m ks r (n + 1) t

/-- `r` leads somewhere before the bound -/
def Within (m : Model) (ks : List TypeKind) (r : TypeRef) : Prop :=
  ∃ n < maxExpansion, ∃ t, m.Leads ks r n t

section
variable {m : Model} {ks : List TypeKind} {r : TypeRef}

theorem target_eq_basic {b : BasicType} :
    m.target r = .ok (.basic b) ↔ ∃ id, r.binding = .basic id ∧ m.basic? id = some b := by
  unfold target
  cases r.binding with
  | basic id => cases h : m.basic? id <;> simp [h]
  | type id => cases h : m.entry? id <;> simp [h]
  | pending => simp
  | unresolved => simp

theorem target_eq_declared {e : Entry} :
    m.target r = .ok (.declared e) ↔ ∃ id, r.binding = .type id ∧ m.entry? id = some e := by
  unfold target
  cases r.binding with
  | basic id => cases h : m.basic? id <;> simp [h]
  | type id => cases h : m.entry? id <;> simp [h]
  | pending => simp
  | unresolved => simp

theorem leads_of_target_basic {b : BasicType} (h : m.target r = .ok (.basic b)) (n : Nat)
    (t : Target) : m.Leads ks r n t ↔ n = 0 ∧ t = .basic b := by
  obtain ⟨id, hr, hb⟩ := target_eq_basic.mp h
  constructor
  · rintro (⟨hr', hb'⟩ | ⟨hr', _, _⟩ | ⟨hr', _, _, _, _⟩)
    · rw [hr] at hr'
      cases hr'
      rw [hb] at hb'
      cases hb'
      exact ⟨rfl, rfl⟩
    · rw [hr] at hr'
      cases hr'
    · rw [hr] at hr'
      cases hr'
  · rintro ⟨rfl, rfl⟩
    exact .basic hr hb

theorem leads_of_target_declared {e : Entry} (h : m.target r = .ok (.declared e)) (n : Nat)
    (t : Target) : m.Leads ks r n t ↔
      (e.type.kind ∉ ks ∧ n = 0 ∧ t = .declared e) ∨
      (e.type.kind ∈ ks ∧ ∃ r', e.type.expands? = some r' ∧ ∃ k, n = k + 1 ∧ m.Leads ks r' k t) := by
  obtain ⟨id, hr, he⟩ := target_eq_declared.mp h
  constructor
  · rintro (⟨hr', _⟩ | ⟨hr', he', hk⟩ | ⟨hr', he', hk, hx, hd⟩)
    · rw [hr] at hr'
      cases hr'
    · rw [hr] at hr'
      cases hr'
      rw [he] at he'
      cases he'
      exact Or.inl ⟨hk, rfl, rfl⟩
    · rw [hr] at hr'
      cases hr'
      rw [he] at he'
      cases he'
      exact Or.inr ⟨hk, _, hx, _, rfl, hd⟩
  · rintro (⟨hk, rfl, rfl⟩ | ⟨hk, r', hx, k, rfl, hd⟩)
    · exact .declared hr he hk
    · exact .step hr he hk hx hd

/-- a reference that leads somewhere has a target -/
theorem Leads.succeeds_target {n : Nat} {t : Target} (h : m.Leads ks r n t) :
    Succeeds (m.target r) := by
  cases h with
  | basic hr hb => exact ⟨_, target_eq_basic.mpr ⟨_, hr, hb⟩⟩
  | declared hr he _ => exact ⟨_, target_eq_declared.mpr ⟨_, hr, he⟩⟩
  | step hr he _ _ _ => exact ⟨_, target_eq_declared.mpr ⟨_, hr, he⟩⟩

theorem Within.succeeds_target (h : m.Within ks r) : Succeeds (m.target r) := by
  obtain ⟨_, _, _, h⟩ := h
  exact h.succeeds_target

/-- one more reference is followed where the declaration is of a kind in `ks` -/
theorem exists_leads_of_declared {e : Entry} (h : m.target r = .ok (.declared e)) (n : Nat)
    (t : Target) : (∃ k < n + 1, m.Leads ks r k t) ↔
      (e.type.kind ∉ ks ∧ t = .declared e) ∨
      (e.type.kind ∈ ks ∧ ∃ r', e.type.expands? = some r' ∧ ∃ k < n, m.Leads ks r' k t) := by
  constructor
  · rintro ⟨k, hk, hl⟩
    rcases (leads_of_target_declared h k t).mp hl with ⟨hn, _, ht⟩ | ⟨hm, r', hx, j, rfl, hj⟩
    · exact Or.inl ⟨hn, ht⟩
    · exact Or.inr ⟨hm, r', hx, j, by omega, hj⟩
  · rintro (⟨hn, ht⟩ | ⟨hm, r', hx, k, hk, hl⟩)
    · exact ⟨0, by omega, (leads_of_target_declared h 0 t).mpr (Or.inl ⟨hn, rfl, ht⟩)⟩
    · refine ⟨k + 1, by omega, (leads_of_target_declared h (k + 1) t).mpr (Or.inr ?_)⟩
      exact ⟨hm, r', hx, k, rfl, hl⟩

/-- a primitive type is reached at once -/
theorem exists_leads_of_basic {b : BasicType} (h : m.target r = .ok (.basic b)) (n : Nat)
    (t : Target) : (∃ k < n + 1, m.Leads ks r k t) ↔ t = .basic b := by
  constructor
  · rintro ⟨k, _, hl⟩
    exact ((leads_of_target_basic h k t).mp hl).2
  · intro ht
    exact ⟨0, by omega, (leads_of_target_basic h 0 t).mpr ⟨rfl, ht⟩⟩

theorem not_exists_leads {ε : GenerationError} (h : m.target r = .error ε) (n : Nat) (t : Target) :
    ¬ ∃ k < n, m.Leads ks r k t := by
  rintro ⟨k, _, hl⟩
  obtain ⟨x, hx⟩ := hl.succeeds_target
  rw [h] at hx
  cases hx

end

/-! ## what generators do -/

theorem stops_iff {k : TypeKind} {ks : List TypeKind} (hk : k ∉ ks) {P Q : Prop} :
    (k ∉ ks ∧ P) ∨ (k ∈ ks ∧ Q) ↔ P := by simp [hk]

theorem follows_iff {k : TypeKind} {ks : List TypeKind} (hk : k ∈ ks) {P Q : Prop} :
    (k ∉ ks ∧ P) ∨ (k ∈ ks ∧ Q) ↔ Q := by simp [hk]

theorem exists_some_eq {α : Type} {a : α} {P : α → Prop} : (∃ x, some a = some x ∧ P x) ↔ P a := by
  simp

/-- the expansion of a reference is what it leads to over aliases and arrays -/
theorem expandWithin_ok_iff (m : Model) (origin : Name) (fuel : Nat) :
    ∀ (repeated : Bool) (r : TypeRef) (t : Target),
      (∃ rep, m.expandWithin origin fuel repeated r = .ok (t, rep)) ↔
        ∃ n < fuel, m.Leads [.alias, .array] r n t := by
  induction fuel with
  | zero =>
    intro repeated r t
    exact iff_of_false (by rintro ⟨rep, h⟩; cases h) (by rintro ⟨n, hn, _⟩; omega)
  | succ fuel ih =>
    intro repeated r t
    rw [expandWithin]
    cases ht : m.target r with
    | error ε =>
      exact iff_of_false (by rintro ⟨rep, h⟩; cases h) (not_exists_leads ht _ t)
    | ok x =>
      rw [ok_bind]
      cases x with
      | basic b =>
        rw [exists_leads_of_basic ht]
        constructor
        · rintro ⟨rep, h⟩
          cases h
          rfl
        · rintro rfl
          exact ⟨repeated, rfl⟩
      | declared e =>
        rw [exists_leads_of_declared ht]
        dsimp only
        cases hte : e.type with
        | struct s inner =>
          rw [stops_iff (by simp [TypeDef.kind])]
          exact ⟨by rintro ⟨rep, h⟩; cases h; rfl, by rintro rfl; exact ⟨repeated, rfl⟩⟩
        | enumeration x =>
          rw [stops_iff (by simp [TypeDef.kind])]
          exact ⟨by rintro ⟨rep, h⟩; cases h; rfl, by rintro rfl; exact ⟨repeated, rfl⟩⟩
        | array a =>
          rw [follows_iff (by simp [TypeDef.kind])]
          dsimp only [TypeDef.expands?]
          cases a.elementType with
          | none => exact iff_of_false (by rintro ⟨rep, h⟩; cases h) (by rintro ⟨_, h, _⟩; cases h)
          | some element =>
            rw [exists_some_eq]
            exact ih true element t
        | «alias» a =>
          rw [follows_iff (by simp [TypeDef.kind])]
          dsimp only [TypeDef.expands?]
          cases a.actualType with
          | none => exact iff_of_false (by rintro ⟨rep, h⟩; cases h) (by rintro ⟨_, h, _⟩; cases h)
          | some actual =>
            rw [exists_some_eq]
            exact ih repeated actual t

theorem succeeds_isScalarWithin (m : Model) (origin : Name) (fuel : Nat) :
    ∀ r : TypeRef, Succeeds (m.isScalarWithin origin fuel r) ↔
      ∃ t, ∃ n < fuel, m.Leads [.alias] r n t := by
  induction fuel with
  | zero =>
    intro r
    exact iff_of_false (not_succeeds_error _) (by rintro ⟨t, n, hn, _⟩; omega)
  | succ fuel ih =>
    intro r
    rw [isScalarWithin]
    cases ht : m.target r with
    | error ε =>
      exact iff_of_false (not_succeeds_error _) fun ⟨t, h⟩ => not_exists_leads ht _ t h
    | ok x =>
      rw [ok_bind]
      cases x with
      | basic b =>
        refine iff_of_true (succeeds_pure _) ⟨.basic b, ?_⟩
        exact (exists_leads_of_basic ht _ _).mpr rfl
      | declared e =>
        simp only [exists_leads_of_declared ht]
        cases hte : e.type with
        | struct s inner =>
          exact iff_of_true (succeeds_pure _) ⟨_, Or.inl ⟨by simp [TypeDef.kind], rfl⟩⟩
        | enumeration x =>
          exact iff_of_true (succeeds_pure _) ⟨_, Or.inl ⟨by simp [TypeDef.kind], rfl⟩⟩
        | array a =>
          exact iff_of_true (succeeds_pure _) ⟨_, Or.inl ⟨by simp [TypeDef.kind], rfl⟩⟩
        | «alias» a =>
          simp only [follows_iff (show (TypeDef.alias a).kind ∈ [TypeKind.alias] by
            simp [TypeDef.kind])]
          dsimp only [TypeDef.expands?]
          cases a.actualType with
          | none => exact iff_of_false (not_succeeds_error _) (by rintro ⟨_, _, h, _⟩; cases h)
          | some actual =>
            simp only [exists_some_eq]
            exact ih actual

theorem succeeds_isScalar (m : Model) (r : TypeRef) :
    Succeeds (m.isScalar r) ↔ m.Within [.alias] r := by
  unfold isScalar Within
  rw [succeeds_isScalarWithin]
  exact ⟨fun ⟨t, n, hn, h⟩ => ⟨n, hn, t, h⟩, fun ⟨n, hn, t, h⟩ => ⟨t, n, hn, h⟩⟩

theorem expand_ok_iff {m : Model} {r : TypeRef} {t : Target} :
    (∃ rep, m.expand r = .ok (t, rep)) ↔ ∃ n < maxExpansion, m.Leads [.alias, .array] r n t :=
  m.expandWithin_ok_iff r.name maxExpansion false r t

theorem succeeds_expand (m : Model) (r : TypeRef) :
    Succeeds (m.expand r) ↔ m.Within [.alias, .array] r := by
  unfold Within
  constructor
  · rintro ⟨⟨t, rep⟩, h⟩
    obtain ⟨n, hn, hl⟩ := expand_ok_iff.mp ⟨rep, h⟩
    exact ⟨n, hn, t, hl⟩
  · rintro ⟨n, hn, t, hl⟩
    obtain ⟨rep, h⟩ := expand_ok_iff.mpr ⟨n, hn, hl⟩
    exact ⟨_, h⟩

end Model

end TypeModel
