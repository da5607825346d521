import TypeModel.Proofs.Resolution.Bound

/-!
# Resolution forgets earlier bindings

Between two resolutions a model may be edited, and its references may hold handles that are stale
or point nowhere.  None of that is read: a name is looked up among the declarations, and the binding
is written over whatever was there.

* `Model.unbound m`             the model with every reference of a listed type pending again, so
                                that `m.unbound = m'.unbound` says that `m` and `m'` differ in such
                                bindings only;
* `resolve_unbound`             bindings do not matter to resolution;
* `unbound_bind`                resolution changes nothing else;
* `resolve_forgets_bindings`    both, for any two models, and that a second resolution changes
                                nothing.
-/

namespace TypeModel

def TypeRef.unbound (r : TypeRef) : TypeRef := { r with binding := .pending }

/-- every reference of a listed type as if it had never been resolved -/
def Model.unbound (m : Model) : Model := m.mapRefs (fun _ _ => TypeRef.unbound) TypeRef.unbound

/-! ## reports -/

/-- a site is resolved and reported by its role, its name and its place -/
theorem Namespace.reports_unbound (ns : Namespace) (e : Entry) :
    ns.reports (e.mapRefs (fun _ _ => TypeRef.unbound) TypeRef.unbound) = ns.reports e := by
  have hname : ∀ s : Site, (s.mapRef TypeRef.unbound TypeRef.unbound).ref.name = s.ref.name := by
    intro s
    simp [Site.mapRef, TypeRef.unbound]
  have hplace : ∀ s : Site, (s.mapRef TypeRef.unbound TypeRef.unbound).location
      (e.mapRefs (fun _ _ => TypeRef.unbound) TypeRef.unbound) = s.location e := by
    intro s
    simp only [Site.location, Site.mapRef, Entry.memberLocation, Entry.location_mapRefs]
  unfold Namespace.reports
  rw [Entry.sites_mapRefs, Entry.kind_mapRefs, List.filterMap_map]
  refine List.filterMap_congr fun s _ => ?_
  simp only [Function.comp_apply, hname, hplace]
  rfl

namespace Model

theorem resolutionDiagnostics_unbound (m : Model) :
    m.unbound.resolutionDiagnostics = m.resolutionDiagnostics := by
  unfold resolutionDiagnostics unbound
  rw [Namespace.ofModel_mapRefs, walk_mapRefs, List.flatMap_map]
  simp only [Namespace.reports_unbound]

/-! ## bindings -/

/-- a binding is written over any other -/
theorem bind_unbound (m : Model) : m.unbound.bind = m.bind := by
  show m.unbound.mapRefs (Namespace.ofModel m.unbound).bindBase
    (Namespace.ofModel m.unbound).bindRef = _
  rw [unbound, Namespace.ofModel_mapRefs, mapRefs_mapRefs]
  rfl

/-- what is left after the bindings are taken off again is the model as it was -/
theorem unbound_bind (m : Model) : m.bind.unbound = m.unbound := by
  show (m.mapRefs (Namespace.ofModel m).bindBase (Namespace.ofModel m).bindRef).mapRefs _ _ = _
  rw [mapRefs_mapRefs]
  rfl

theorem resolve_unbound (m : Model) : m.unbound.resolve = m.resolve := by
  rw [resolve_eq, resolve_eq, bind_unbound, resolutionDiagnostics_unbound]

theorem resolve_eq_of_unbound_eq {m m' : Model} (h : m'.unbound = m.unbound) :
    m'.resolve = m.resolve := by
  rw [← resolve_unbound m', h, resolve_unbound]

theorem unbound_resolve (m : Model) : m.resolve.model.unbound = m.unbound := by
  rw [model_resolve_eq, unbound_bind]

theorem innerTypes_within_resolve (m : Model) :
    m.resolve.model.innerTypes.map (·.type.innerTypes) =
      m.innerTypes.map (·.type.innerTypes) := by
  rw [model_resolve_eq, show m.bind.innerTypes = m.innerTypes.map (Namespace.ofModel m).bindEntry from
    m.innerTypes_mapRefs, List.map_map]
  refine List.map_congr_left fun e he => ?_
  exact Entry.innerTypes_mapRefs (mem_innerTypes_iff.mp he).2

/-- models that differ only in bindings at references of listed types are resolved to the same
model with the same reports, a second resolution changes nothing, and resolution changes nothing
but those bindings: not the types nested deeper either -/
theorem resolve_forgets_bindings (m : Model) :
    (∀ m' : Model, m'.unbound = m.unbound → m'.resolve = m.resolve) ∧
      m.resolve.model.resolve = m.resolve ∧
      m.resolve.model.unbound = m.unbound ∧
      m.resolve.model.innerTypes.map (·.type.innerTypes) =
        m.innerTypes.map (·.type.innerTypes) :=
  ⟨fun _ => resolve_eq_of_unbound_eq, resolve_eq_of_unbound_eq m.unbound_resolve, m.unbound_resolve,
    m.innerTypes_within_resolve⟩

/-- a struct with a base, a field, a type inside it and one inside that, whose references are bound
as given -/
def boundAs (b : Binding) : Model :=
  { types :=
      [.struct { name := "Base" } [],
        .struct
          { name := "Outer", base := some { name := "Base", binding := b },
            fields := [{ name := "leaf", typeRef := { name := "Leaf", binding := b } }] }
          [.struct
              { name := "Leaf",
                fields := [{ name := "lost", typeRef := { name := "Gone", binding := b } }] }
              [.alias { name := "Deep", actualType := some { name := "Base" } }]]] }

/-- a handle that points nowhere is forgotten like one that was never set -/
theorem resolve_forgets_bindings_boundAs :
    (boundAs (.type (.packaged 7 3))).unbound = (boundAs .pending).unbound ∧
      (boundAs (.type (.packaged 7 3))).resolve = (boundAs .pending).resolve ∧
      (boundAs .pending).resolve.diagnostics.length = 1 :=
  ⟨rfl, (boundAs .pending).resolve_forgets_bindings.1 _ rfl, by decide +kernel⟩

end Model

end TypeModel
