import TypeModel.Proofs.Analysis.Analyze

/-!
# Names in one scope

Analysis compares the names of types that stand in one list: the top-level types, the types of a
package, or the types inside a struct.  Across such lists names are not compared.

* `TypeId.scope id`              the list of a declaration: its package, and the position of the
                                 struct around it;
* `Model.DistinctNames m`        in each list the names are different;
* `distinctNames_of_analyze`     analysis gives that;
* `outer_eq_of_scope_eq`         the declarations of a list have the same struct around them;
* `DistinctNames.eq_of_name_eq`  so a list and a name make out a declaration.
-/

namespace TypeModel

def TypeId.scope (id : TypeId) : Option Nat × Option Nat :=
  (id.package, id.inner.map fun _ => id.index)

/-- the handles of a list: all outside structs, or all inside the same one -/
theorem TypeId.cases_of_scope_eq {a b : TypeId} (h : a.scope = b.scope) :
    (∃ p i j, a = ⟨p, i, none⟩ ∧ b = ⟨p, j, none⟩) ∨
      ∃ (o : TypeId) (x y : Nat), a = o.withInner x ∧ b = o.withInner y := by
  obtain ⟨p, i, x⟩ := a
  obtain ⟨q, j, y⟩ := b
  obtain ⟨hpackage, hinner⟩ := Prod.mk.inj h
  obtain rfl : p = q := hpackage
  cases x with
  | none =>
    cases y with
    | none => exact Or.inl ⟨p, i, j, rfl, rfl⟩
    | some y => cases hinner
  | some x =>
    cases y with
    | none => cases hinner
    | some y =>
      obtain rfl : i = j := Option.some.inj hinner
      exact Or.inr ⟨⟨p, i, none⟩, x, y, rfl, rfl⟩

namespace Model
variable {m : Model}

structure DistinctNames (m : Model) : Prop where
  topLevel : (m.types.map TypeDef.name).Nodup
  packaged : ∀ p ∈ m.packages, (p.types.map TypeDef.name).Nodup
  inner : ∀ e ∈ m.declaredTypes, (e.type.innerTypes.map TypeDef.name).Nodup

theorem distinctNames_of_analyze {ds : Diagnostics} (h : m.analyze.2 = .ok ds) :
    m.analyze.1.DistinctNames := by
  obtain ⟨_, htop, hpackages, hinner, _⟩ := (clean_validate m.bind).mp (clean_of_analyze h).2
  rw [m.analyze_eq]
  exact ⟨htop, fun p hp => (hpackages p hp).2, hinner⟩

theorem DistinctNames.of_analyze {r : Model} {ds : Diagnostics} (h : m.analyze = (r, .ok ds)) :
    r.DistinctNames := by
  have hr : m.analyze.1 = r := congrArg Prod.fst h
  exact hr ▸ distinctNames_of_analyze (congrArg Prod.snd h)

theorem DistinctNames.container (hm : m.DistinctNames) {p : Option Nat} {types : List TypeDef}
    (h : m.container? p = some types) : (types.map TypeDef.name).Nodup := by
  cases p with
  | none =>
    obtain rfl : m.types = types := Option.some.inj h
    exact hm.topLevel
  | some p =>
    obtain ⟨package, hp, rfl⟩ := Option.map_eq_some_iff.mp h
    exact hm.packaged package (List.mem_of_getElem? hp)

theorem outer_eq_of_scope_eq {a b : Entry} (ha : a ∈ m.allTypes) (hb : b ∈ m.allTypes)
    (hscope : a.id.scope = b.id.scope) : a.outer = b.outer := by
  rw [(entry?_eq_some_iff.mp (mem_allTypes_iff.mp ha)).2.2.2,
    (entry?_eq_some_iff.mp (mem_allTypes_iff.mp hb)).2.2.2]
  obtain ⟨p, i, j, ha', hb'⟩ | ⟨o, x, y, ha', hb'⟩ := TypeId.cases_of_scope_eq hscope
  · rw [ha', hb']
    rfl
  · rw [ha', hb']
    rfl

/-- a list and a name make out a declaration -/
theorem DistinctNames.eq_of_name_eq (hm : m.DistinctNames) {a b : Entry} (ha : a ∈ m.allTypes)
    (hb : b ∈ m.allTypes) (hscope : a.id.scope = b.id.scope) (hname : a.name = b.name) :
    a = b := by
  refine eq_of_id_eq ha hb ?_
  have hta := type?_id_of_mem ha
  have htb := type?_id_of_mem hb
  obtain ⟨p, i, j, ha', hb'⟩ | ⟨o, x, y, ha', hb'⟩ := TypeId.cases_of_scope_eq hscope
  · rw [ha', type?_outside] at hta
    rw [hb', type?_outside] at htb
    obtain ⟨types, htypes, hi⟩ := Option.bind_eq_some_iff.mp hta
    rw [htypes] at htb
    rw [ha', hb', index_eq_of_nodup (hm.container htypes) hi htb hname]
  · rw [ha', type?_withInner] at hta
    rw [hb', type?_withInner] at htb
    obtain ⟨d, hd, hx⟩ := Option.bind_eq_some_iff.mp hta
    rw [hd] at htb
    obtain ⟨e, _, hentry, hid, rfl⟩ := exists_entry_of_type? hd
    have he : e ∈ m.declaredTypes := mem_declaredTypes_iff.mpr ⟨hid ▸ hentry, by rw [hid]; rfl⟩
    rw [ha', hb', index_eq_of_nodup (hm.inner e he) hx htb hname]

end Model

end TypeModel
