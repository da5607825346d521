import Mathlib.Data.List.Flatten
import TypeModel.Proofs.Model.Growth
import TypeModel.Proofs.Model.Sites
import TypeModel.Proofs.Resolution.Qualified

/-!
# Resolution of models that grow

A name is resolved by the declarations that carry it, in their order.  Declarations that are added
at the end of a list under other names change neither these nor their handles.

* `Model.NewName m m' n`       a declaration that `m'` has and `m` has not is found under `n`;
* `Model.reportAt m e s`       what resolution says about the site `s` of `e`, if anything;
* `Grows.resolveSite`          a name that is not new is resolved as before;
* `Grows.type?_bind`           declarations whose names are not new are bound as before;
* `resolve_stable`             what is added under unused names changes no binding and no report.
-/

namespace TypeModel

namespace Namespace

theorem resolveSite_congr {ns ns' : Namespace} {n : Name} (hb : ns'.basic? n = ns.basic? n)
    (hg : ns'.global? n = ns.global? n) (hc : ns'.carriers n = ns.carriers n) (id : TypeId)
    (kind : TypeKind) (role : Role) :
    ns'.resolveSite id kind role n = ns.resolveSite id kind role n := by
  unfold resolveSite resolveBase resolve noBase allCarriers
  rw [hb, hg, hc]

/-- a type is bound by what the names at its sites are resolved to -/
theorem bindType_congr {ns ns' : Namespace} {id : TypeId} {t : TypeDef}
    (h : ∀ s ∈ t.sites, ns'.resolveSite id t.kind s.role s.ref.name =
      ns.resolveSite id t.kind s.role s.ref.name) : ns'.bindType id t = ns.bindType id t := by
  refine TypeDef.mapRefs_congr (fun r hr => ?_) fun r hr => ?_
  · have hsite := h _ (TypeDef.mem_sites_of_base? hr)
    unfold resolveSite at hsite
    rw [if_pos rfl, if_pos rfl] at hsite
    unfold bindBase
    rw [hsite]
  · obtain ⟨s, hs, hrole, rfl⟩ := hr
    have hsite := h s hs
    unfold resolveSite at hsite
    rw [if_neg hrole, if_neg hrole] at hsite
    unfold bindRef
    rw [hsite]

theorem bindWithInner_congr {ns ns' : Namespace} {id : TypeId} {t : TypeDef}
    (h : ns'.bindType id t = ns.bindType id t)
    (hinner : ∀ (i : Nat) (x : TypeDef), t.innerTypes[i]? = some x →
      ns'.bindType (id.withInner i) x = ns.bindType (id.withInner i) x) :
    ns'.bindWithInner id t = ns.bindWithInner id t := by
  cases t with
  | struct s inner =>
    have hlists : (inner.mapIdx fun i x => ns'.bindType (id.withInner i) x) =
        inner.mapIdx fun i x => ns.bindType (id.withInner i) x := by
      apply List.ext_getElem?
      intro i
      rw [List.getElem?_mapIdx, List.getElem?_mapIdx]
      exact Option.map_congr fun x hx => hinner i x hx
    have hself : ns'.bindStruct id s = ns.bindStruct id s := (TypeDef.struct.inj h).1
    show TypeDef.struct (ns'.bindStruct id s) _ = .struct (ns.bindStruct id s) _
    rw [hself, hlists]
  | enumeration e => exact h
  | array a => exact h
  | «alias» a => exact h

end Namespace

namespace Model
variable {m m' : Model}

/-- declarations are new at handles that pointed nowhere -/
def NewName (m m' : Model) (n : Name) : Prop :=
  (∃ x ∈ m'.basicTypes, m.basic? x.1 = none ∧ x.2.name = n) ∨
    ∃ e ∈ m'.allTypes, m.type? e.id = none ∧ e.Carries n

instance (m m' : Model) (n : Name) : Decidable (m.NewName m' n) :=
  inferInstanceAs (Decidable ((∃ x ∈ m'.basicTypes, m.basic? x.1 = none ∧ x.2.name = n) ∨
    ∃ e ∈ m'.allTypes, m.type? e.id = none ∧ e.Carries n))

def reportAt (m : Model) (e : Entry) (s : Site) : Option Diagnostic :=
  (m.issueAt e s).map (·.toDiagnostic (s.location e))

theorem resolutionDiagnostics_eq (m : Model) :
    m.resolve.diagnostics = m.walk.flatMap fun e => e.sites.filterMap (m.reportAt e) := by
  rw [m.diagnostics_resolve_eq]
  rfl

/-! ## look-ups -/

theorem filter_filter_of_imp {α : Type} {keep p : α → Bool} {l : List α}
    (h : ∀ a ∈ l, p a = true → keep a = true) : (l.filter keep).filter p = l.filter p := by
  rw [List.filter_filter]
  refine List.filter_congr fun a ha => ?_
  cases hp : p a with
  | true => rw [h a ha hp, Bool.and_true]
  | false => rw [Bool.false_and]

/-- what is listed for members that look the same through `v` is the same list -/
theorem flatMap_eq_of_map_eq {α β γ : Type} {v : α → β} {f g : α → List γ} {xs : List α} :
    ∀ {ys : List α}, ys.map v = xs.map v → (∀ x ∈ xs, ∀ y, v y = v x → f y = g x) →
      ys.flatMap f = xs.flatMap g := by
  induction xs with
  | nil =>
    intro ys hmap _
    rw [List.map_eq_nil_iff.mp hmap]
    rfl
  | cons x xs ih =>
    intro ys hmap h
    obtain ⟨y, ys', rfl, hy, hrest⟩ := List.map_eq_cons_iff.mp hmap
    rw [List.flatMap_cons, List.flatMap_cons, h x List.mem_cons_self y hy,
      ih hrest fun z hz => h z (List.mem_cons_of_mem x hz)]

theorem candidate_bare (e : Entry) : e.bare.candidate = e.candidate := by
  unfold Entry.candidate
  rw [e.qualifiedName_bare]
  rfl

theorem carries_bare (e : Entry) (n : Name) : e.bare.Carries n ↔ e.Carries n := by
  unfold Entry.Carries
  rw [e.qualifiedName_bare]
  rfl

/-- the candidates among declarations are told without the rest of their packages -/
theorem candidates_of_bare {keep p : Entry → Bool} {xs ys : List Entry}
    (h : (ys.filter keep).map Entry.bare = xs.map Entry.bare)
    (hbare : ∀ e : Entry, p e.bare = p e) (hp : ∀ e ∈ ys, p e = true → keep e = true) :
    (ys.filter p).map Entry.candidate = (xs.filter p).map Entry.candidate := by
  have hmap : ∀ l : List Entry,
      (l.filter p).map Entry.candidate = ((l.map Entry.bare).filter p).map Entry.candidate := by
    intro l
    rw [List.filter_map, List.map_map, List.filter_congr fun e _ => (hbare e).symm]
    exact List.map_congr_left fun e _ => (candidate_bare e).symm
  calc (ys.filter p).map Entry.candidate
      = ((ys.filter keep).filter p).map Entry.candidate := by rw [filter_filter_of_imp hp]
    _ = (xs.filter p).map Entry.candidate := by rw [hmap, h, ← hmap]

theorem type?_eq_none_of_outer {id : TypeId} (h : m.type? id.outer = none) : m.type? id = none := by
  obtain ⟨p, i, inner⟩ := id
  cases inner with
  | none => exact h
  | some j =>
    rw [show (⟨p, i, some j⟩ : TypeId) = (⟨p, i, none⟩ : TypeId).withInner j from rfl,
      type?_withInner]
    exact congrArg (Option.bind · _) h

namespace Grows

theorem holds_of_carries {n : Name} (hn : ¬ m.NewName m' n) {e : Entry} (he : e ∈ m'.allTypes)
    (hc : e.Carries n) : m.holds e = true := by
  by_contra hnew
  refine hn (Or.inr ⟨e, he, type?_eq_none_of_outer ?_, hc⟩)
  exact Option.not_isSome_iff_eq_none.mp hnew

theorem basic?_ofModel (h : m.Grows m') {n : Name} (hn : ¬ m.NewName m' n) :
    (Namespace.ofModel m').basic? n = (Namespace.ofModel m).basic? n := by
  rw [Namespace.basic?_ofModel, Namespace.basic?_ofModel, ← h.basicTypes, ← List.head?_filter,
    ← List.head?_filter, filter_filter_of_imp]
  intro x hx hname
  by_contra hnew
  refine hn (Or.inl ⟨x, hx, ?_, of_decide_eq_true hname⟩)
  exact Option.not_isSome_iff_eq_none.mp hnew

theorem global?_ofModel (h : m.Grows m') {n : Name} (hn : ¬ m.NewName m' n) :
    (Namespace.ofModel m').global? n = (Namespace.ofModel m).global? n := by
  rw [Namespace.global?_ofModel, Namespace.global?_ofModel]
  unfold firstTopLevel?
  rw [← List.head?_filter, ← List.head?_filter, ← List.head?_map, ← List.head?_map]
  refine congrArg _ (candidates_of_bare h.bare_topLevelTypes (fun _ => rfl) fun e he hname => ?_)
  have hcarries : e.Carries n := Or.inl (of_decide_eq_true hname).symm
  exact holds_of_carries hn (mem_allTypes_split.mpr (Or.inl he)) hcarries

theorem carriers_ofModel (h : m.Grows m') {n : Name} (hn : ¬ m.NewName m' n) :
    (Namespace.ofModel m').carriers n = (Namespace.ofModel m).carriers n := by
  have hothers : ((m'.packagedTypes ++ m'.innerTypes).filter m.holds).map Entry.bare =
      (m.packagedTypes ++ m.innerTypes).map Entry.bare := by
    rw [List.filter_append, List.map_append, List.map_append, h.bare_packagedTypes,
      h.bare_innerTypes]
  rw [Namespace.carriers_ofModel, Namespace.carriers_ofModel]
  refine candidates_of_bare hothers (fun e => decide_eq_decide.mpr (carries_bare e n))
    fun e he hcarries => ?_
  exact holds_of_carries hn (mem_allTypes_split.mpr (Or.inr he)) (of_decide_eq_true hcarries)

theorem resolveSite (h : m.Grows m') {n : Name} (hn : ¬ m.NewName m' n) (id : TypeId)
    (kind : TypeKind) (role : Role) :
    (Namespace.ofModel m').resolveSite id kind role n =
      (Namespace.ofModel m).resolveSite id kind role n :=
  Namespace.resolveSite_congr (h.basic?_ofModel hn) (h.global?_ofModel hn) (h.carriers_ofModel hn)
    id kind role

/-! ## bindings -/

section
variable (h : m.Grows m')
  (hnew : ∀ e ∈ m.allTypes, ∀ s ∈ e.sites, ¬ m.NewName m' s.ref.name)
include h hnew

theorem bindType {e : Entry} (he : e ∈ m.allTypes) :
    (Namespace.ofModel m').bindType e.id e.type = (Namespace.ofModel m).bindType e.id e.type :=
  Namespace.bindType_congr fun s hs => h.resolveSite (hnew e he s hs) _ _ _

theorem bindWithInner {e : Entry} (he : e ∈ m.allTypes) (hin : e.id.isInner = false) :
    (Namespace.ofModel m').bindWithInner e.id e.type =
      (Namespace.ofModel m).bindWithInner e.id e.type := by
  refine Namespace.bindWithInner_congr (h.bindType hnew he) fun i x hx => ?_
  have houter : e.id.outer = e.id := by
    unfold TypeId.outer
    rw [← Option.not_isSome_iff_eq_none.mp (Bool.not_eq_true _ ▸ hin)]
  have hinner : m.type? (e.id.withInner i) = some x := by
    rw [type?_withInner, houter, type?_id_of_mem he]
    exact hx
  obtain ⟨d, hd, _, hid, rfl⟩ := exists_entry_of_type? hinner
  rw [← hid]
  exact h.bindType hnew hd

theorem type?_bind {e : Entry} (he : e ∈ m.allTypes) :
    ∃ t, m.bind.type? e.id = some t ∧ m'.bind.type? e.id = some t := by
  obtain ⟨e', he', hbare⟩ := h.exists_entry he
  obtain ⟨hid, htype⟩ := Entry.eq_of_bare hbare
  have hold := congrArg (Option.map Entry.type) (entry?_bind_of_mem he)
  have hnow := congrArg (Option.map Entry.type) (entry?_bind_of_mem he')
  rw [← type?_eq_entry_type] at hold hnow
  rw [hid] at hnow
  refine ⟨_, hold, hnow.trans (congrArg some ?_)⟩
  show (if e'.id.isInner then _ else _) = (if e.id.isInner then _ else _)
  rw [hid, htype]
  cases hin : e.id.isInner with
  | true => exact h.bindType hnew he
  | false => exact h.bindWithInner hnew he hin

/-! ## reports -/

theorem reportAt {e e' : Entry} (he : e ∈ m.allTypes) (hbare : e'.bare = e.bare) {s : Site}
    (hs : s ∈ e.sites) : m'.reportAt e' s = m.reportAt e s := by
  obtain ⟨hid, htype⟩ := Entry.eq_of_bare hbare
  have hplace : s.location e' = s.location e := by
    unfold Site.location Entry.memberLocation Entry.location
    rw [← e'.qualifiedName_bare, ← e.qualifiedName_bare, hbare, htype]
  unfold Model.reportAt issueAt
  rw [hid, htype, hplace, h.resolveSite (hnew e he s hs)]

/-- the reports about old declarations come in the same order, with those about new ones in
between -/
theorem diagnostics_sublist : m.resolve.diagnostics.Sublist m'.resolve.diagnostics := by
  have hold : ((m'.walk.filter m.holds).flatMap fun e => e.sites.filterMap (m'.reportAt e)) =
      m.walk.flatMap fun e => e.sites.filterMap (m.reportAt e) := by
    refine flatMap_eq_of_map_eq h.bare_walk fun e he e' hbare => ?_
    have hsites : e'.sites = e.sites := congrArg TypeDef.sites (Entry.eq_of_bare hbare).2
    rw [hsites]
    exact List.filterMap_congr fun s hs => h.reportAt hnew (mem_walk_iff.mp he) hbare hs
  rw [resolutionDiagnostics_eq, resolutionDiagnostics_eq, ← hold]
  exact List.filter_sublist.flatMap _

end

end Grows

/-- a declaration that is added under names that no reference of the model has leaves every
declaration of the model bound as it was, and what is said about each of its references -/
theorem resolve_stable (hadds : m.Adds m')
    (hnew : ∀ e ∈ m.allTypes, ∀ s ∈ e.sites, ¬ m.NewName m' s.ref.name) :
    (∀ e ∈ m.allTypes, ∃ e' ∈ m'.allTypes, e'.id = e.id ∧ e'.type = e.type ∧
      (∃ t, m.resolve.model.type? e.id = some t ∧ m'.resolve.model.type? e.id = some t) ∧
      ∀ s ∈ e.sites, m'.reportAt e' s = m.reportAt e s) ∧
    m.resolve.diagnostics = (m.walk.flatMap fun e => e.sites.filterMap (m.reportAt e)) ∧
    m'.resolve.diagnostics = (m'.walk.flatMap fun e => e.sites.filterMap (m'.reportAt e)) ∧
    m.resolve.diagnostics.Sublist m'.resolve.diagnostics := by
  have h := hadds.grows
  refine ⟨fun e he => ?_, m.resolutionDiagnostics_eq, m'.resolutionDiagnostics_eq,
    h.diagnostics_sublist hnew⟩
  obtain ⟨e', he', hbare⟩ := h.exists_entry he
  obtain ⟨hid, htype⟩ := Entry.eq_of_bare hbare
  rw [m.model_resolve_eq, m'.model_resolve_eq]
  exact ⟨e', he', hid, htype, h.type?_bind hnew he, fun s hs => h.reportAt hnew he hbare hs⟩

/-- two packages with a `Tag` each, and a struct that refers to a type inside it, to `Tag` and to
a type that is missing; `late` ends the first package -/
def tagged (late : List TypeDef) : Model :=
  { types :=
      [.struct
        { name := "Frame",
          fields :=
            [{ name := "cell", typeRef := { name := "Frame.Cell" } },
              { name := "tag", typeRef := { name := "Tag" } },
              { name := "gone", typeRef := { name := "Gone" } }] }
        [.struct { name := "Cell" } []]],
    packages :=
      [{ name := "left", types := .struct { name := "Tag" } [] :: late },
        { name := "right", types := [.struct { name := "Tag" } []] }] }

/-- `Frame` is bound as before with `Tag` ambiguous and `Gone` missing, and the new type has a
report of its own -/
theorem resolve_stable_tagged :
    let late := .struct { name := "Late", base := some { name := "Lost" } }
      [.struct { name := "Slot" } []]
    (tagged []).resolve.diagnostics.length = 2 ∧
      (tagged [late]).resolve.diagnostics.length = 3 ∧
      (tagged []).resolve.diagnostics.Sublist (tagged [late]).resolve.diagnostics ∧
      (tagged [late]).resolve.model.type? (.topLevel 0) =
        (tagged []).resolve.model.type? (.topLevel 0) := by
  intro late
  obtain ⟨hentries, _, _, hreports⟩ :=
    resolve_stable (.packaged 0 late rfl : (tagged []).Adds (tagged [late])) (by decide +kernel)
  have hframe : ((tagged []).type? (.topLevel 0)).isSome = true := rfl
  obtain ⟨t, ht⟩ := Option.isSome_iff_exists.mp hframe
  obtain ⟨e, he, _, hid, _⟩ := exists_entry_of_type? ht
  obtain ⟨_, _, _, _, ⟨u, hold, hnow⟩, _⟩ := hentries e he
  rw [hid] at hold hnow
  exact ⟨by decide +kernel, by decide +kernel, hreports, hnow.trans hold.symm⟩

end Model

end TypeModel
