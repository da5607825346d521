import TypeModel.Proofs.Model.Changes
import TypeModel.Proofs.Resolution.Pass
import TypeModel.Proofs.Resolution.Registry

/-!
# The shape of a bound model

`Model.bind` changes the bindings of references and nothing else.  A bound model therefore has the
entries of the model it came from, each with its references bound:

* `bindEntry ns e`     the entry `e` of the bound model;
* `allTypes_bind`      the entries of a bound model, in order, and the same for its other lists;
* `sites_bindEntry`    the sites of a bound entry are the sites of the entry, each with the binding
                       that its name is resolved to;
* `ofModel_bind`       names are looked up in a bound model as before.
-/

namespace TypeModel

/-! ## names after a change of references -/

section
variable {fb : TypeId → TypeKind → TypeRef → TypeRef} {f : TypeRef → TypeRef}

theorem Entry.lookupNames_mapRefs (e : Entry) : (e.mapRefs fb f).lookupNames = e.lookupNames := by
  unfold Entry.lookupNames
  rw [name_mapRefs, qualifiedName_mapRefs]
  cases h : e.outer <;> simp [Entry.mapRefs, StructType.mapRefs, h]

theorem Entry.candidate_mapRefs (e : Entry) : (e.mapRefs fb f).candidate = e.candidate := by
  unfold Entry.candidate
  rw [kind_mapRefs, qualifiedName_mapRefs]
  rfl

/-- a declaration is entered without regard to its references -/
theorem Namespace.add_mapRefs (ns : Namespace) (e : Entry) : ns.add (e.mapRefs fb f) = ns.add e := by
  unfold Namespace.add
  rw [Namespace.registerAll_eq, Namespace.registerAll_eq, Entry.candidate_mapRefs,
    Entry.lookupNames_mapRefs, Entry.name_mapRefs]

/-- names are looked up without regard to references -/
theorem Namespace.ofModel_mapRefs (m : Model) :
    Namespace.ofModel (m.mapRefs fb f) = Namespace.ofModel m := by
  unfold Namespace.ofModel
  rw [Model.allTypes_mapRefs, List.foldl_map]
  simp only [Namespace.add_mapRefs]
  rfl

end

/-! ## bound declarations -/

namespace Namespace

def bindSite (ns : Namespace) (id : TypeId) (kind : TypeKind) (s : Site) : Site :=
  { s with ref := { s.ref with binding := (ns.resolveSite id kind s.role s.ref.name).1 } }

/-- an entry of the bound model -/
def bindEntry (ns : Namespace) (e : Entry) : Entry :=
  { id := e.id
    package := e.package.map (ns.bindPackage (e.id.package.getD 0))
    outer := e.outer.map (ns.bindStruct e.id.outer)
    type := if e.id.isInner then ns.bindType e.id e.type else ns.bindWithInner e.id e.type }

theorem name_bindType (ns : Namespace) (id : TypeId) (t : TypeDef) :
    (ns.bindType id t).name = t.name := t.name_mapRefsAt id

theorem sites_bindType (ns : Namespace) (id : TypeId) (t : TypeDef) :
    (ns.bindType id t).sites = t.sites.map (ns.bindSite id t.kind) := by
  unfold bindType
  rw [TypeDef.sites_mapRefs]
  apply List.map_congr_left
  intro s _
  unfold Site.mapRef bindSite resolveSite
  by_cases h : s.role = .base
  · rw [if_pos h, if_pos h]
    rfl
  · rw [if_neg h, if_neg h]
    rfl

/-- a fact about a type that does not depend on the types inside it holds for both forms of
binding -/
theorem bindWithInner_eq {α : Type} (ns : Namespace) (id : TypeId) (t : TypeDef) (f : TypeDef → α)
    (hf : ∀ s inner inner', f (.struct s inner) = f (.struct s inner')) :
    f (ns.bindWithInner id t) = f (ns.bindType id t) := t.mapRefsWithInner_eq id f hf

theorem type_bindEntry {α : Type} (ns : Namespace) (e : Entry) (f : TypeDef → α)
    (hf : ∀ s inner inner', f (.struct s inner) = f (.struct s inner')) :
    f (ns.bindEntry e).type = f (ns.bindType e.id e.type) := e.type_mapRefs f hf

@[simp] theorem id_bindEntry (ns : Namespace) (e : Entry) : (ns.bindEntry e).id = e.id := rfl

@[simp] theorem kind_bindEntry (ns : Namespace) (e : Entry) :
    (ns.bindEntry e).type.kind = e.type.kind := e.kind_mapRefs

theorem sites_bindEntry (ns : Namespace) (e : Entry) :
    (ns.bindEntry e).sites = e.sites.map (ns.bindSite e.id e.type.kind) :=
  (ns.type_bindEntry e TypeDef.sites fun _ _ _ => rfl).trans (ns.sites_bindType e.id e.type)

@[simp] theorem lookupNames_bindEntry (ns : Namespace) (e : Entry) :
    (ns.bindEntry e).lookupNames = e.lookupNames := e.lookupNames_mapRefs

end Namespace

/-! ## lists of a bound model -/

namespace Model

theorem packages_bind (m : Model) :
    m.bind.packages = m.packages.mapIdx (Namespace.ofModel m).bindPackage := rfl

theorem declaredTypes_bind (m : Model) :
    m.bind.declaredTypes = m.declaredTypes.map (Namespace.ofModel m).bindEntry :=
  m.declaredTypes_mapRefs

theorem allTypes_bind (m : Model) :
    m.bind.allTypes = m.allTypes.map (Namespace.ofModel m).bindEntry := m.allTypes_mapRefs

theorem ofModel_bind (m : Model) : Namespace.ofModel m.bind = Namespace.ofModel m :=
  Namespace.ofModel_mapRefs m

theorem mem_allTypes_bind {m : Model} {e' : Entry} :
    e' ∈ m.bind.allTypes ↔ ∃ e ∈ m.allTypes, (Namespace.ofModel m).bindEntry e = e' := by
  rw [allTypes_bind]
  exact List.mem_map

theorem entry?_bind (m : Model) (id : TypeId) :
    m.bind.entry? id = (m.entry? id).map (Namespace.ofModel m).bindEntry := by
  cases h : m.entry? id with
  | some e =>
    have hid : e.id = id := (entry?_eq_some_iff.mp h).2.1
    have he : e ∈ m.allTypes := mem_allTypes_iff.mpr (by rw [hid]; exact h)
    have hb := mem_allTypes_iff.mp (mem_allTypes_bind.mpr ⟨e, he, rfl⟩)
    rw [Namespace.id_bindEntry, hid] at hb
    exact hb
  | none =>
    cases hb : m.bind.entry? id with
    | none => rfl
    | some e' =>
      have hid : e'.id = id := (entry?_eq_some_iff.mp hb).2.1
      have he' : e' ∈ m.bind.allTypes := mem_allTypes_iff.mpr (by rw [hid]; exact hb)
      obtain ⟨e, he, rfl⟩ := mem_allTypes_bind.mp he'
      have := mem_allTypes_iff.mp he
      rw [← Namespace.id_bindEntry (Namespace.ofModel m) e, hid, h] at this
      cases this

theorem type?_eq_entry_type (m : Model) (id : TypeId) :
    m.type? id = (m.entry? id).map (·.type) := by
  unfold entry?
  cases m.type? id <;> rfl

end Model

end TypeModel
