import TypeModel.Proofs.Analysis.CycleChecks
import TypeModel.Proofs.Resolution.Pass

/-!
# Ways through a model

A model is gone through in four ways: its entries are listed, handles are followed, validation
walks from declaration to declaration, and resolution takes the declarations one after the other
and puts them back bound.  All four come to the same declarations, to each of them once and by the
same handle.

* `Model.FitsHandles`        no list is longer than the positions of 32 bits reach;
* `traversals_agree`         the four ways side by side.
-/

namespace TypeModel

/-! ## handles of 32 bits -/

/-- every list of declarations is shorter than the positions of a handle reach -/
structure Model.FitsHandles (m : Model) : Prop where
  types : m.types.length < UInt32.size
  packages : m.packages.length < UInt32.size
  packaged : ∀ package ∈ m.packages, package.types.length < UInt32.size
  inner : ∀ e ∈ m.declaredTypes, e.type.innerTypes.length < UInt32.size

/-- the positions in the handle of an entry are numbers of 32 bits -/
theorem Model.FitsHandles.ofNumbers_id {m : Model} (h : m.FitsHandles) {e : Entry}
    (he : e ∈ m.allTypes) : TypeId.ofNumbers e.id.package e.id.index e.id.inner = e.id := by
  have hlt : ∀ {α : Type} {l : List α} {i : Nat} {x : α}, l.length < UInt32.size →
      l[i]? = some x → positionOf i = i := by
    intro α l i x hl hi
    have hi := (List.getElem?_eq_some_iff.mp hi).1
    exact positionOf_of_lt (by omega)
  have hdeclared : ∀ d ∈ m.declaredTypes,
      TypeId.ofNumbers d.id.package d.id.index d.id.inner = d.id := by
    intro d hd
    rcases List.mem_append.mp hd with hd | hd
    · obtain ⟨i, t, hi, rfl⟩ := Model.mem_topLevelTypes.mp hd
      show TypeId.topLevel (positionOf i) = TypeId.topLevel i
      rw [hlt h.types hi]
    · obtain ⟨p, package, i, t, hp, hi, rfl⟩ := Model.mem_packagedTypes.mp hd
      show TypeId.packaged (positionOf p) (positionOf i) = TypeId.packaged p i
      rw [hlt h.packages hp, hlt (h.packaged package (List.mem_of_getElem? hp)) hi]
  rcases List.mem_append.mp he with he | he
  · exact hdeclared e he
  · obtain ⟨d, hd, he⟩ := List.mem_flatMap.mp he
    obtain ⟨s, inner, i, t, hs, hi, rfl⟩ := Entry.mem_inners.mp he
    have hinner := h.inner d hd
    rw [hs] at hinner
    -- the handle of an inner type is that of the struct around it with one more position
    show (TypeId.ofNumbers d.id.package d.id.index d.id.inner).withInner (positionOf i) =
      d.id.withInner i
    rw [hdeclared d hd, hlt hinner hi]

/-! ## the four ways -/

/-- listing, following handles, validation and resolution come to the same declarations, each once
and by one handle -/
theorem traversals_agree (m : Model) (h : m.FitsHandles) :
    (m.allTypes.map (·.id)).Nodup ∧
    (∀ e ∈ m.allTypes, m.entry? e.id = some e ∧
      TypeId.ofNumbers e.id.package e.id.index e.id.inner = e.id) ∧
    (∀ id, (m.entry? id).isSome = true → id ∈ m.allTypes.map (·.id)) ∧
    (m.visits.filterMap Visit.entry?).Perm m.allTypes ∧
    ∃ visited : List Entry, visited.Perm m.allTypes ∧
      ((Namespace.ofModel m).pass m).run {} =
        (m.resolve.model, { visited := visited, diagnostics := m.resolve.diagnostics }) := by
  refine ⟨m.nodup_ids_allTypes, ?_, ?_, ?_, m.walk, m.allTypes_perm_walk.symm, run_pass m⟩
  · intro e he
    exact ⟨Model.mem_allTypes_iff.mp he, h.ofNumbers_id he⟩
  · intro id hid
    obtain ⟨e, he⟩ := Option.isSome_iff_exists.mp hid
    obtain ⟨hmem, rfl⟩ := Model.entry?_eq_some_iff_mem.mp he
    exact List.mem_map_of_mem hmem
  · rw [m.visited_eq_walk]
    exact m.allTypes_perm_walk.symm

/-- a struct with a struct inside it that has a type inside it in turn, and a package -/
def twoLevels : Model :=
  { types :=
      [.struct { name := "Order" } [.struct { name := "Line" } [.enumeration { name := "Unit" }]],
        .alias { name := "OrderId" }]
    packages :=
      [{ name := "shop"
         types := [.struct { name := "Item" } [.enumeration { name := "Status" }]] }] }

theorem traversals_agree_twoLevels :
    twoLevels.FitsHandles ∧
    twoLevels.allTypes.map (·.id.text) = ["0", "1", "p0:0", "0.0", "p0:0.0"] ∧
    ∃ visited : List Entry, visited.Perm twoLevels.allTypes ∧
      ((Namespace.ofModel twoLevels).pass twoLevels).run {} =
        (twoLevels.resolve.model,
          { visited := visited, diagnostics := twoLevels.resolve.diagnostics }) := by
  have h : twoLevels.FitsHandles := ⟨by decide, by decide, by decide, by decide⟩
  exact ⟨h, by decide +kernel, (traversals_agree twoLevels h).2.2.2.2⟩

end TypeModel
