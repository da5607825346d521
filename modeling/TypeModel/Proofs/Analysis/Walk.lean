import TypeModel.Analysis.Visit
import TypeModel.Proofs.Model.Sites

/-!
# The order of the visits

* `forall_visits`           what holds of all visits: of primitive types, scopes, packages, entries;
* `Entry.visits_eq`         an entry, its members and, for arrays and aliases, what they stand for;
* `Model.flatMap_visits`    what comes from whole declarations comes in the order of the walk;
* `Model.visited_eq_walk`   the declarations themselves do.
-/

namespace TypeModel

/-! ## all visits -/

section
variable {m : Model} {e : Entry}

theorem forall_visitsWithInner {P : Visit → Prop} :
    (∀ v ∈ e.visitsWithInner, P v) ↔
      (∀ v ∈ e.visits, P v) ∧ (∀ s inner, e.type = .struct s inner → P (.scope (.struct e) inner)) ∧
        ∀ x ∈ e.inners, ∀ v ∈ x.visits, P v := by
  unfold Entry.visitsWithInner
  rw [List.forall_mem_append]
  refine and_congr_right fun _ => ?_
  cases ht : e.type with
  | struct s inner =>
    dsimp only
    rw [List.forall_mem_cons, List.forall_mem_flatMap]
    refine and_congr_left' ⟨?_, fun h => h s inner rfl⟩
    rintro h _ _ ⟨⟩
    exact h
  | enumeration x => simp [Entry.inners, ht]
  | array a => simp [Entry.inners, ht]
  | «alias» a => simp [Entry.inners, ht]

theorem forall_package_visits {P : Visit → Prop} :
    (∀ v ∈ (m.packages.mapIdx Package.visits).flatten, P v) ↔
      (∀ p ∈ m.packages, P (.package p) ∧ P (.scope (.package p) p.types)) ∧
        ∀ e ∈ m.packagedTypes, ∀ v ∈ e.visitsWithInner, P v := by
  unfold Model.packagedTypes
  constructor
  · intro h
    have hv : ∀ i p, m.packages[i]? = some p → ∀ v ∈ Package.visits i p, P v :=
      fun i p hp v hv => h v (mem_mapIdx_flatten_iff.mpr ⟨i, p, hp, hv⟩)
    constructor
    · intro p hp
      obtain ⟨i, hi⟩ := List.mem_iff_getElem?.mp hp
      exact ⟨hv i p hi _ List.mem_cons_self,
        hv i p hi _ (List.mem_cons_of_mem _ List.mem_cons_self)⟩
    · intro e he v hve
      obtain ⟨i, p, hp, he⟩ := mem_mapIdx_flatten_iff.mp he
      refine hv i p hp v (List.mem_cons_of_mem _ (List.mem_cons_of_mem _ ?_))
      exact List.mem_flatMap.mpr ⟨e, he, hve⟩
  · rintro ⟨hp, he⟩ v hv
    obtain ⟨i, p, hi, hv⟩ := mem_mapIdx_flatten_iff.mp hv
    have hmem : p ∈ m.packages := List.mem_of_getElem? hi
    rcases List.mem_cons.mp hv with rfl | hv
    · exact (hp p hmem).1
    · rcases List.mem_cons.mp hv with rfl | hv
      · exact (hp p hmem).2
      · obtain ⟨e, hep, hve⟩ := List.mem_flatMap.mp hv
        exact he e (mem_mapIdx_flatten_iff.mpr ⟨i, p, hi, hep⟩) v hve

theorem forall_visits (m : Model) (P : Visit → Prop) :
    (∀ v ∈ m.visits, P v) ↔
      (∀ v ∈ m.primitives.flatMap fun g => g.dataTypes.mapIdx (Visit.primitive g), P v) ∧
      P (.scope .global m.types) ∧
      (∀ p ∈ m.packages, P (.package p) ∧ P (.scope (.package p) p.types)) ∧
      ∀ e ∈ m.declaredTypes, ∀ v ∈ e.visitsWithInner, P v := by
  unfold Model.visits Model.declaredTypes
  rw [List.append_assoc, List.cons_append, List.forall_mem_append, List.forall_mem_cons,
    List.forall_mem_append, List.forall_mem_append, forall_package_visits]
  constructor
  · rintro ⟨hb, hg, ht, hp, he⟩
    exact ⟨hb, hg, hp, List.forall_mem_flatMap.mp ht, he⟩
  · rintro ⟨hb, hg, hp, ht, he⟩
    exact ⟨hb, hg, List.forall_mem_flatMap.mpr ht, hp, he⟩

theorem forall_declared_visits {P : Visit → Prop} :
    (∀ e ∈ m.declaredTypes, ∀ v ∈ e.visitsWithInner, P v) ↔
      (∀ e ∈ m.declaredTypes, ∀ s inner, e.type = .struct s inner → P (.scope (.struct e) inner)) ∧
        ∀ e ∈ m.allTypes, ∀ v ∈ e.visits, P v := by
  unfold Model.allTypes Model.innerTypes
  simp only [forall_visitsWithInner]
  rw [List.forall_mem_append, List.forall_mem_flatMap]
  constructor
  · intro h
    exact ⟨fun e he => (h e he).2.1, fun e he => (h e he).1, fun e he => (h e he).2.2⟩
  · rintro ⟨hs, hd, hi⟩ e he
    exact ⟨hd e he, hs e he, hi e he⟩

end

/-! ## the order of the visits -/

section
variable {β : Type} {f : Visit → List β}

theorem Entry.flatMap_visitsWithInner (hscope : ∀ s types, f (.scope s types) = []) (e : Entry) :
    e.visitsWithInner.flatMap f = (e :: e.inners).flatMap fun x => x.visits.flatMap f := by
  unfold Entry.visitsWithInner
  rw [List.flatMap_append, List.flatMap_cons]
  congr 1
  cases ht : e.type with
  | struct s inner =>
    show (Visit.scope (.struct e) inner :: e.inners.flatMap Entry.visits).flatMap f = _
    rw [List.flatMap_cons, hscope, List.nil_append, List.flatMap_assoc]
  | enumeration x => simp [Entry.inners, ht]
  | array a => simp [Entry.inners, ht]
  | «alias» a => simp [Entry.inners, ht]

theorem Package.flatMap_visits (hpackage : ∀ p, f (.package p) = [])
    (hscope : ∀ s types, f (.scope s types) = []) (p : Nat) (package : Package) :
    (Package.visits p package).flatMap f =
      ((Model.typesOfPackage p package).flatMap Entry.visitsWithInner).flatMap f := by
  unfold Package.visits
  rw [List.flatMap_cons, List.flatMap_cons, hpackage, hscope]
  rfl

theorem Model.flatMap_package_visits (hpackage : ∀ p, f (.package p) = [])
    (hscope : ∀ s types, f (.scope s types) = []) (m : Model) :
    (m.packages.mapIdx Package.visits).flatten.flatMap f =
      (m.packagedTypes.flatMap Entry.visitsWithInner).flatMap f := by
  unfold packagedTypes
  rw [List.mapIdx_eq_zipIdx_map, List.mapIdx_eq_zipIdx_map, ← List.flatMap_def,
    ← List.flatMap_def, List.flatMap_assoc, List.flatMap_assoc, List.flatMap_assoc]
  simp only [Package.flatMap_visits hpackage hscope, List.flatMap_assoc]

/-- whole declarations are visited in the order of the walk, each with all its own visits -/
theorem Model.flatMap_visits (m : Model) (hprimitive : ∀ g i b, f (.primitive g i b) = [])
    (hpackage : ∀ p, f (.package p) = []) (hscope : ∀ s types, f (.scope s types) = []) :
    m.visits.flatMap f = m.walk.flatMap fun e => e.visits.flatMap f := by
  have hprimitives : (m.primitives.flatMap fun g =>
      g.dataTypes.mapIdx (Visit.primitive g)).flatMap f = [] := by
    rw [List.flatMap_eq_nil_iff]
    intro v hv
    obtain ⟨g, _, hv⟩ := List.mem_flatMap.mp hv
    obtain ⟨i, b, _, rfl⟩ := mem_mapIdx_iff.mp hv
    exact hprimitive g i b
  have hinner : ∀ es : List Entry, (es.flatMap Entry.visitsWithInner).flatMap f =
      es.flatMap fun e => (e :: e.inners).flatMap fun x => x.visits.flatMap f := by
    intro es
    rw [List.flatMap_assoc]
    simp only [Entry.flatMap_visitsWithInner hscope]
  unfold visits walk declaredTypes
  rw [List.flatMap_append, List.flatMap_append, List.flatMap_cons, hprimitives, hscope,
    flatMap_package_visits hpackage hscope, hinner, hinner, List.flatMap_assoc,
    List.flatMap_append]
  rfl

end

/-! ## the visits of a declaration -/

/-- the declaration that a visit is about as a whole -/
def Visit.entry? : Visit → Option Entry
  | .entry e => some e
  | _ => none

/-- the visit is about a member of a declaration -/
def Visit.isMember : Visit → Bool
  | .field _ _ | .method _ _ | .enumerator _ _ | .reference _ _ _ => true
  | _ => false

/-- the visit after the members of an array or alias -/
def Entry.lastVisits (e : Entry) : List Visit :=
  match e.type with
  | .array _ | .alias _ => [.expansion e]
  | .struct _ _ | .enumeration _ => []

theorem isMember_of_mem_field {e : Entry} {f : Field} {v : Visit} (h : v ∈ f.visits e) :
    v.isMember = true := by
  rcases List.mem_cons.mp h with rfl | h
  · rfl
  · rcases List.mem_cons.mp h with rfl | h
    · rfl
    · obtain ⟨key, _, rfl⟩ := mem_toList_map.mp h
      rfl

theorem isMember_of_mem_method {e : Entry} {x : Method} {v : Visit} (h : v ∈ x.visits e) :
    v.isMember = true := by
  rcases List.mem_cons.mp h with rfl | h
  · rfl
  · rcases List.mem_append.mp h with h | h
    · obtain ⟨r, _, rfl⟩ := mem_toList_map.mp h
      rfl
    · obtain ⟨p, _, rfl⟩ := List.mem_map.mp h
      rfl

theorem Entry.visits_eq (e : Entry) :
    ∃ vs, (∀ v ∈ vs, v.isMember = true) ∧ e.visits = .entry e :: (vs ++ e.lastVisits) := by
  unfold Entry.visits Entry.lastVisits
  cases e.type with
  | struct s inner =>
    refine ⟨s.fields.flatMap (Field.visits e) ++ s.methods.flatMap (Method.visits e), ?_, ?_⟩
    · intro v hv
      rcases List.mem_append.mp hv with hv | hv
      · obtain ⟨f, _, hv⟩ := List.mem_flatMap.mp hv
        exact isMember_of_mem_field hv
      · obtain ⟨x, _, hv⟩ := List.mem_flatMap.mp hv
        exact isMember_of_mem_method hv
    · rw [List.append_nil]
  | enumeration x =>
    refine ⟨x.enumerators.map (.enumerator e), ?_, ?_⟩
    · intro v hv
      obtain ⟨y, _, rfl⟩ := List.mem_map.mp hv
      rfl
    · rw [List.append_nil]
  | array a =>
    refine ⟨(a.elementType.map fun r => Visit.reference e r e.location).toList, ?_, rfl⟩
    intro v hv
    obtain ⟨r, _, rfl⟩ := mem_toList_map.mp hv
    rfl
  | «alias» a =>
    refine ⟨(a.actualType.map fun r => Visit.reference e r e.location).toList, ?_, rfl⟩
    intro v hv
    obtain ⟨r, _, rfl⟩ := mem_toList_map.mp hv
    rfl

/-- the declarations come in the order of the walk -/
theorem Model.visited_eq_walk (m : Model) : m.visits.filterMap Visit.entry? = m.walk := by
  have hone : ∀ e : Entry, (e.visits.flatMap fun v => v.entry?.toList) = [e] := by
    intro e
    obtain ⟨vs, hvs, hvisits⟩ := e.visits_eq
    have hmembers : (vs.flatMap fun v => v.entry?.toList) = [] := by
      rw [List.flatMap_eq_nil_iff]
      intro v hv
      have hv := hvs v hv
      cases v <;> first | rfl | cases hv
    have hlast : (e.lastVisits.flatMap fun v => v.entry?.toList) = [] := by
      unfold Entry.lastVisits
      cases e.type <;> rfl
    rw [hvisits, List.flatMap_cons, List.flatMap_append, hmembers, hlast]
    rfl
  rw [List.filterMap_eq_flatMap_toList, m.flatMap_visits (fun _ _ _ => rfl) (fun _ => rfl)
    (fun _ _ => rfl)]
  simp only [hone, List.flatMap_singleton']

end TypeModel
