import TypeModel.Proofs.Resolution.Bound

/-!
# What names mean

The meaning of a name in a model, said by first matches among its declarations:

* `Model.meaning m n`     the first primitive type named `n`, else the first top-level type named
                          `n`, else the first packaged or inner type that carries `n`;
* `Model.baseMeaning`     the first type of one kind that carries the name and is not the one that
                          asks, where only the first top-level type of the name counts.

`sites_resolve` is the result: resolution gives every reference of every listed type the meaning
of its name, so none is left pending, every handle points to a declaration that carries the name,
and no declaration is its own base or has a base of the other kind.
-/

namespace TypeModel

/-- a top-level declaration carries its name and no other -/
theorem Entry.carries_of_mem_topLevelTypes {m : Model} {e : Entry} (he : e ∈ m.topLevelTypes)
    (n : Name) : e.Carries n ↔ n = e.name := by
  obtain ⟨i, t, _, rfl⟩ := Model.mem_topLevelTypes.mp he
  constructor
  · rintro (h | ⟨s, hs, _⟩ | h)
    · exact h
    · cases hs
    · exact h
  · exact Or.inl

namespace Model

def meaning (m : Model) (n : Name) : Binding :=
  match m.basicTypes.find? fun x => x.2.name = n with
  | some x => .basic x.1
  | none =>
    match m.firstTopLevel? n with
    | some e => .type e.id
    | none =>
      match (m.packagedTypes ++ m.innerTypes).find? fun e => e.Carries n with
      | some e => .type e.id
      | none => .unresolved

/-- the types that a base name may stand for, in order -/
def baseCandidates (m : Model) (n : Name) : List Entry :=
  (m.firstTopLevel? n).toList ++ (m.packagedTypes ++ m.innerTypes).filter fun e => e.Carries n

def baseMeaning (m : Model) (n : Name) (kind : TypeKind) (referrer : TypeId) : Binding :=
  match (m.baseCandidates n).find? fun e => e.type.kind = kind ∧ e.id ≠ referrer with
  | some e => .type e.id
  | none => .unresolved

/-- the meaning of the name at a site of the entry `e` -/
def siteMeaning (m : Model) (e : Entry) (s : Site) : Binding :=
  if s.role = .base then m.baseMeaning s.ref.name e.type.kind e.id else m.meaning s.ref.name

end Model

/-! ## the namespace of a model -/

namespace Namespace

theorem allCarriers_ofModel (m : Model) (n : Name) :
    (ofModel m).allCarriers n = (m.baseCandidates n).map Entry.candidate := by
  unfold allCarriers Model.baseCandidates
  rw [global?_ofModel, carriers_ofModel, List.map_append]
  cases m.firstTopLevel? n <;> rfl

theorem resolve_fst (m : Model) (n : Name) : ((ofModel m).resolve n).1 = m.meaning n := by
  unfold resolve Model.meaning
  rw [basic?_ofModel, global?_ofModel, carriers_ofModel]
  cases m.basicTypes.find? fun x => x.2.name = n with
  | some x => rfl
  | none =>
    cases m.firstTopLevel? n with
    | some e => rfl
    | none =>
      rw [← List.head?_filter]
      cases (m.packagedTypes ++ m.innerTypes).filter fun e => e.Carries n with
      | nil => rfl
      | cons c cs => cases cs <;> rfl

theorem resolveBase_fst (m : Model) (n : Name) (kind : TypeKind) (referrer : TypeId) :
    ((ofModel m).resolveBase n kind referrer).1 = m.baseMeaning n kind referrer := by
  unfold resolveBase Model.baseMeaning
  dsimp only
  rw [allCarriers_ofModel, ← List.head?_filter, List.filter_map]
  have hf : ((fun c : Candidate => decide (c.kind = kind ∧ c.id ≠ referrer)) ∘ Entry.candidate)
      = fun e => decide (e.type.kind = kind ∧ e.id ≠ referrer) := rfl
  rw [hf]
  cases (m.baseCandidates n).filter fun e => e.type.kind = kind ∧ e.id ≠ referrer with
  | nil => rfl
  | cons c cs =>
    cases cs with
    | nil => rfl
    | cons c' cs =>
      show (if _ then _ else _ : Binding × Option Issue).1 = _
      split <;> rfl

theorem resolveSite_fst (m : Model) (e : Entry) (s : Site) :
    ((ofModel m).resolveSite e.id e.type.kind s.role s.ref.name).1 = m.siteMeaning e s := by
  unfold resolveSite Model.siteMeaning
  split
  · exact resolveBase_fst m s.ref.name e.type.kind e.id
  · exact resolve_fst m s.ref.name

end Namespace

/-! ## what a meaning says -/

section
variable {α : Type} {p : α → Prop} [DecidablePred p] {l : List α} {a : α}

theorem found (h : l.find? (fun x => decide (p x)) = some a) : a ∈ l ∧ p a :=
  ⟨List.mem_of_find?_eq_some h, by simpa using List.find?_some h⟩

theorem not_found (h : l.find? (fun x => decide (p x)) = none) : ∀ a ∈ l, ¬ p a := by
  intro a ha
  simpa using List.find?_eq_none.mp h a ha

end

namespace Model

theorem firstTopLevel?_some {m : Model} {n : Name} {e : Entry} (h : m.firstTopLevel? n = some e) :
    e ∈ m.topLevelTypes ∧ e.name = n := found h

theorem mem_baseCandidates {m : Model} {n : Name} {e : Entry} (h : e ∈ m.baseCandidates n) :
    e ∈ m.allTypes ∧ e.Carries n := by
  rcases List.mem_append.mp h with h | h
  · obtain ⟨he, hn⟩ := firstTopLevel?_some (Option.mem_toList.mp h)
    exact ⟨mem_allTypes_split.mpr (Or.inl he), Or.inl hn.symm⟩
  · obtain ⟨he, hn⟩ := List.mem_filter.mp h
    exact ⟨mem_allTypes_split.mpr (Or.inr he), of_decide_eq_true hn⟩

/-- the meaning of a name is a primitive type of that name, a type that carries it, or nothing
where no declaration has the name -/
theorem meaning_cases (m : Model) (n : Name) :
    (∃ x ∈ m.basicTypes, x.2.name = n ∧ m.meaning n = .basic x.1) ∨
    (∃ e ∈ m.allTypes, e.Carries n ∧ m.meaning n = .type e.id) ∨
    ((∀ x ∈ m.basicTypes, x.2.name ≠ n) ∧ (∀ e ∈ m.allTypes, ¬ e.Carries n) ∧
      m.meaning n = .unresolved) := by
  unfold meaning
  cases hb : m.basicTypes.find? fun x => x.2.name = n with
  | some x => exact Or.inl ⟨x, (found hb).1, (found hb).2, rfl⟩
  | none =>
    refine Or.inr ?_
    cases ht : m.firstTopLevel? n with
    | some e =>
      obtain ⟨he, hn⟩ := firstTopLevel?_some ht
      exact Or.inl ⟨e, mem_allTypes_split.mpr (Or.inl he), Or.inl hn.symm, rfl⟩
    | none =>
      cases ho : (m.packagedTypes ++ m.innerTypes).find? fun e => e.Carries n with
      | some e =>
        exact Or.inl ⟨e, mem_allTypes_split.mpr (Or.inr (found ho).1), (found ho).2, rfl⟩
      | none =>
        refine Or.inr ⟨not_found hb, ?_, rfl⟩
        intro e he hc
        rcases mem_allTypes_split.mp he with he | he
        · rw [Entry.carries_of_mem_topLevelTypes he] at hc
          exact not_found ht e he hc.symm
        · exact not_found ho e he hc

theorem baseMeaning_cases (m : Model) (n : Name) (kind : TypeKind) (referrer : TypeId) :
    (∃ e ∈ m.baseCandidates n, e.type.kind = kind ∧ e.id ≠ referrer ∧
      m.baseMeaning n kind referrer = .type e.id) ∨
    ((∀ e ∈ m.baseCandidates n, ¬ (e.type.kind = kind ∧ e.id ≠ referrer)) ∧
      m.baseMeaning n kind referrer = .unresolved) := by
  unfold baseMeaning
  cases h : (m.baseCandidates n).find? fun e => e.type.kind = kind ∧ e.id ≠ referrer with
  | some e =>
    obtain ⟨he, hk, hr⟩ := found h
    exact Or.inl ⟨e, he, hk, hr, rfl⟩
  | none => exact Or.inr ⟨not_found h, rfl⟩

end Model

/-! ## resolution -/

def Site.withBinding (s : Site) (b : Binding) : Site :=
  { s with ref := { s.ref with binding := b } }

/-- what holds of the site `s` of the entry `e` once references are bound -/
structure Model.Settled (m : Model) (e : Entry) (s : Site) : Prop where
  decided : s.ref.binding ≠ .pending
  basic : ∀ id, s.ref.binding = .basic id →
    s.role ≠ .base ∧ ∃ b, m.basic? id = some b ∧ b.name = s.ref.name
  type : ∀ id, s.ref.binding = .type id → ∃ d, m.entry? id = some d ∧ d.Carries s.ref.name
  base : ∀ id, s.role = .base → s.ref.binding = .type id →
    id ≠ e.id ∧ ∃ d, m.entry? id = some d ∧ d.type.kind = e.type.kind

theorem Namespace.carries_bindEntry (ns : Namespace) (e : Entry) (n : Name) :
    (ns.bindEntry e).Carries n ↔ e.Carries n := by
  rw [← Entry.mem_lookupNames, lookupNames_bindEntry, Entry.mem_lookupNames]

theorem Namespace.bindSite_ofModel (m : Model) (e : Entry) (s : Site) :
    (ofModel m).bindSite e.id e.type.kind s = s.withBinding (m.siteMeaning e s) := by
  unfold bindSite
  rw [resolveSite_fst]
  rfl

namespace Model

theorem entry?_bind_of_mem {m : Model} {d : Entry} (hd : d ∈ m.allTypes) :
    m.bind.entry? d.id = some ((Namespace.ofModel m).bindEntry d) := by
  rw [entry?_bind, mem_allTypes_iff.mp hd]
  rfl

theorem settled_meaning (m : Model) (e : Entry) (s : Site) (h : s.role ≠ .base) :
    m.bind.Settled e (s.withBinding (m.meaning s.ref.name)) := by
  rcases m.meaning_cases s.ref.name with ⟨x, hx, hn, hm⟩ | ⟨d, hd, hc, hm⟩ | ⟨_, _, hm⟩
  · rw [hm]
    refine ⟨nofun, ?_, nofun, nofun⟩
    rintro _ ⟨⟩
    exact ⟨h, x.2, mem_basicTypes_iff.mp hx, hn⟩
  · rw [hm]
    refine ⟨nofun, nofun, ?_, fun id hb => absurd hb h⟩
    rintro _ ⟨⟩
    exact ⟨_, entry?_bind_of_mem hd, (Namespace.carries_bindEntry _ d _).mpr hc⟩
  · rw [hm]
    exact ⟨nofun, nofun, nofun, nofun⟩

theorem settled_baseMeaning (m : Model) (e : Entry) (s : Site) :
    m.bind.Settled e (s.withBinding (m.baseMeaning s.ref.name e.type.kind e.id)) := by
  rcases m.baseMeaning_cases s.ref.name e.type.kind e.id with ⟨d, hd, hk, hr, hm⟩ | ⟨_, hm⟩
  · obtain ⟨hd, hc⟩ := mem_baseCandidates hd
    have hb := entry?_bind_of_mem hd
    rw [hm]
    refine ⟨nofun, nofun, ?_, ?_⟩
    · rintro _ ⟨⟩
      exact ⟨_, hb, (Namespace.carries_bindEntry _ d _).mpr hc⟩
    · rintro _ _ ⟨⟩
      exact ⟨hr, _, hb, (Namespace.kind_bindEntry _ d).trans hk⟩
  · rw [hm]
    exact ⟨nofun, nofun, nofun, nofun⟩

theorem settled_siteMeaning (m : Model) (e : Entry) (s : Site) :
    m.bind.Settled e (s.withBinding (m.siteMeaning e s)) := by
  unfold siteMeaning
  split
  case isTrue h => exact m.settled_baseMeaning e s
  case isFalse h => exact m.settled_meaning e s h

theorem sites_bind (m : Model) :
    m.bind.allTypes.map (fun e => (e.id, e.sites)) =
      m.allTypes.map fun e => (e.id, e.sites.map fun s => s.withBinding (m.siteMeaning e s)) := by
  rw [allTypes_bind, List.map_map]
  apply List.map_congr_left
  intro e _
  show ((Namespace.ofModel m).bindEntry e |>.id, ((Namespace.ofModel m).bindEntry e).sites) = _
  rw [Namespace.sites_bindEntry]
  congr 1
  exact List.map_congr_left fun s _ => Namespace.bindSite_ofModel m e s

/-- resolution binds every reference of every listed type to the meaning of its name, and leaves
no reference without a decision, no handle without a declaration of that name, and no declaration
with itself or one of the other kind as its base -/
theorem sites_resolve (m : Model) :
    m.resolve.model.allTypes.map (fun e => (e.id, e.sites)) =
      m.allTypes.map (fun e => (e.id, e.sites.map fun s => s.withBinding (m.siteMeaning e s))) ∧
    ∀ e ∈ m.resolve.model.allTypes, ∀ s ∈ e.sites, m.resolve.model.Settled e s := by
  rw [m.model_resolve_eq]
  refine ⟨m.sites_bind, ?_⟩
  intro e he s hs
  obtain ⟨d, hd, rfl⟩ := mem_allTypes_bind.mp he
  rw [Namespace.sites_bindEntry] at hs
  obtain ⟨r, _, rfl⟩ := List.mem_map.mp hs
  rw [Namespace.bindSite_ofModel]
  have h := m.settled_siteMeaning d r
  -- an entry and its bound form have the same handle and kind
  exact ⟨h.decided, h.basic, h.type, by
    intro id hb ht
    rw [Namespace.kind_bindEntry]
    exact h.base id hb ht⟩

/-- a struct that extends its own name, with a struct of that name inside it -/
def selfNamed : Model :=
  { types := [.struct { name := "Leaf", base := some { name := "Leaf" } }
      [.struct { name := "Leaf" } []]] }

/-- the base of `selfNamed` is the struct inside it, not the struct itself -/
theorem sites_resolve_selfNamed :
    ∃ e ∈ selfNamed.resolve.model.allTypes, ∃ s ∈ e.sites,
      e.id = .topLevel 0 ∧ s.ref.binding = .type ((TypeId.topLevel 0).withInner 0) ∧
        selfNamed.resolve.model.Settled e s := by
  refine ⟨_, List.mem_cons_self, _, List.mem_cons_self, rfl, by decide, ?_⟩
  exact selfNamed.sites_resolve.2 _ List.mem_cons_self _ List.mem_cons_self

end Model

end TypeModel
