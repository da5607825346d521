import TypeModel.Proofs.Analysis.Names
import TypeModel.Proofs.Resolution.Forgetting

/-!
# References by qualified names

The report of an ambiguous name advises a qualified name.  Packaged and inner types are found under
their qualified names, but also under `Outer.Inner`, and all of these names stand in one table, so
a qualified name may be shared.

* `Model.carrying m n`         the packaged and inner types that carry `n`, in the order of look-up;
* `resolve_ofModel`            how a name that belongs to no primitive type is resolved;
* `Model.Unshared m e`         no other type is found under the qualified name of `e`;
* `Model.SharedChoice m e`     what is chosen where others are;
* `Model.issueAt m d s`        what is reported about a site, and `diagnostics_resolve` that the
                               reports of resolution are these, site after site;
* `qualifiedName_binds_iff`    a qualified name stands for its type and draws no report if and only
                               if it is not shared.
-/

namespace TypeModel

namespace Model

/-- the packaged and inner types that carry a name, in the order in which they are found -/
def carrying (m : Model) (n : Name) : List Entry :=
  (m.packagedTypes ++ m.innerTypes).filter fun e => e.Carries n

/-- a top-level type, or one whose qualified name no other type carries -/
def Unshared (m : Model) (e : Entry) : Prop :=
  e.id.isGlobal = true ∨ ∀ a ∈ m.allTypes, a.Carries e.qualifiedName → a = e

/-- what resolution reports about the site `s` of the entry `d` -/
def issueAt (m : Model) (d : Entry) (s : Site) : Option Issue :=
  ((Namespace.ofModel m).resolveSite d.id d.type.kind s.role s.ref.name).2

/-! ## the types that carry a name -/

theorem mem_topLevelTypes_iff {m : Model} {e : Entry} (he : e ∈ m.allTypes) :
    e ∈ m.topLevelTypes ↔ e.id.isGlobal = true := by
  constructor
  · exact isGlobal_of_mem_topLevelTypes
  · intro h
    rcases mem_allTypes_split.mp he with ht | ho
    · exact ht
    · rw [isGlobal_of_mem_others ho] at h
      cases h

theorem mem_carrying {m : Model} {e : Entry} (he : e ∈ m.allTypes) (hg : e.id.isGlobal = false)
    {n : Name} (hn : e.Carries n) : e ∈ m.carrying n := by
  refine List.mem_filter.mpr ⟨?_, decide_eq_true hn⟩
  refine (mem_allTypes_split.mp he).resolve_left fun ht => ?_
  rw [(mem_topLevelTypes_iff he).mp ht] at hg
  cases hg

theorem carries_of_mem_carrying {m : Model} {e : Entry} {n : Name} (h : e ∈ m.carrying n) :
    e ∈ m.allTypes ∧ e.Carries n := by
  obtain ⟨he, hn⟩ := List.mem_filter.mp h
  exact ⟨mem_allTypes_split.mpr (Or.inr he), of_decide_eq_true hn⟩

/-- no type is found twice -/
theorem nodup_ids_carrying (m : Model) (n : Name) : ((m.carrying n).map (·.id)).Nodup := by
  refine m.nodup_ids_allTypes.sublist (List.Sublist.map _ ?_)
  refine List.filter_sublist.trans ?_
  unfold allTypes declaredTypes
  rw [List.append_assoc]
  exact List.sublist_append_right _ _

/-! ## names that belong to no primitive type -/

theorem resolve_ofModel (m : Model) {n : Name} (hprim : ∀ x ∈ m.basicTypes, x.2.name ≠ n) :
    (Namespace.ofModel m).resolve n =
      match m.firstTopLevel? n, m.carrying n with
      | some a, _ => (.type a.id, none)
      | none, [] => (.unresolved, some (.undefinedType n))
      | none, [a] => (.type a.id, none)
      | none, a :: b :: rest =>
        (.type a.id, some (.ambiguous n a.qualifiedName
          ((a :: b :: rest).map (·.qualifiedName)) (some b.qualifiedName))) := by
  have hbasic : m.basicTypes.find? (fun x => x.2.name = n) = none :=
    List.find?_eq_none.mpr fun x hx => by simpa using hprim x hx
  unfold Namespace.resolve
  rw [Namespace.basic?_ofModel, Namespace.global?_ofModel, Namespace.carriers_ofModel, hbasic]
  cases m.firstTopLevel? n with
  | some a => rfl
  | none =>
    have hids := m.nodup_ids_carrying n
    unfold carrying at hids ⊢
    cases hc : (m.packagedTypes ++ m.innerTypes).filter fun e => e.Carries n with
    | nil => rfl
    | cons a cs =>
      cases cs with
      | nil => rfl
      | cons b rest =>
        rw [hc, List.map_cons, List.map_cons, List.nodup_cons, List.mem_cons, not_or] at hids
        -- the advice is the first candidate that was not chosen, and that is the second one
        have hother : ((a :: b :: rest).map Entry.candidate).find? (·.id ≠ a.candidate.id) =
            some b.candidate := by
          have hne : b.candidate.id ≠ a.candidate.id := fun h => hids.1.1 h.symm
          rw [List.map_cons, List.map_cons, List.find?_cons_of_neg (by simp),
            List.find?_cons_of_pos (by simpa using hne)]
        show (Binding.type a.id,
          some (Namespace.ambiguity n a.candidate ((a :: b :: rest).map Entry.candidate))) = _
        unfold Namespace.ambiguity
        rw [hother, List.map_map]
        rfl

/-! ## sites -/

/-- the reports of resolution are those about the sites of the resolved model -/
theorem diagnostics_resolve (m : Model) :
    m.resolve.diagnostics = m.resolve.model.walk.flatMap fun d =>
      d.sites.filterMap fun s =>
        (m.resolve.model.issueAt d s).map (·.toDiagnostic (s.location d)) := by
  have h : m.bind.resolve = m.resolve := resolve_eq_of_unbound_eq m.unbound_bind
  rw [m.model_resolve_eq, ← h, diagnostics_resolve_eq]
  rfl

/-- binding and report of a reference of the resolved model are what its site is resolved to -/
theorem resolveSite_of_mem_sites {m : Model} {d : Entry} (hd : d ∈ m.resolve.model.allTypes)
    {s : Site} (hs : s ∈ d.sites) :
    (Namespace.ofModel m.resolve.model).resolveSite d.id d.type.kind s.role s.ref.name =
      (s.ref.binding, m.resolve.model.issueAt d s) := by
  rw [m.model_resolve_eq] at hd ⊢
  obtain ⟨d₀, _, rfl⟩ := mem_allTypes_bind.mp hd
  rw [Namespace.sites_bindEntry] at hs
  obtain ⟨s₀, _, rfl⟩ := List.mem_map.mp hs
  refine Prod.ext ?_ rfl
  rw [m.ofModel_bind, Namespace.kind_bindEntry]
  rfl

theorem binding_issueAt {m : Model} {d : Entry} (hd : d ∈ m.resolve.model.allTypes) {s : Site}
    (hs : s ∈ d.sites) (hrole : s.role ≠ .base) :
    (s.ref.binding, m.resolve.model.issueAt d s) =
      (Namespace.ofModel m.resolve.model).resolve s.ref.name := by
  rw [← resolveSite_of_mem_sites hd hs]
  exact if_neg hrole

/-! ## the result -/

/-- what becomes of a reference by the qualified name of `e` where that name is shared -/
inductive SharedChoice (m : Model) (e : Entry) : Binding × Option Issue → Prop
  /-- a top-level type that is so named takes it without a report -/
  | hidden (a : Entry) : a ∈ m.topLevelTypes → a ≠ e → a.name = e.qualifiedName →
      SharedChoice m e (.type a.id, none)
  /-- the first type takes it, and the qualified name of the second is advised -/
  | reported (a b : Entry) (rest : List Entry) : a ≠ b →
      m.carrying e.qualifiedName = a :: b :: rest →
      SharedChoice m e (.type a.id, some (.ambiguous e.qualifiedName a.qualifiedName
        ((a :: b :: rest).map (·.qualifiedName)) (some b.qualifiedName)))

theorem resolve_topLevel {m : Model} (hm : m.DistinctNames) {e : Entry} (he : e ∈ m.topLevelTypes)
    (hprim : ∀ x ∈ m.basicTypes, x.2.name ≠ e.name) :
    (Namespace.ofModel m).resolve e.name = (.type e.id, none) := by
  rw [resolve_ofModel m hprim, firstTopLevel?_of_nodup hm.topLevel he]

/-- the qualified name of a type outside the top level stands for that type where no other carries
it, and else there is a choice -/
theorem resolve_qualifiedName_cases {m : Model} {e : Entry} (he : e ∈ m.allTypes)
    (hg : e.id.isGlobal = false) (hprim : ∀ x ∈ m.basicTypes, x.2.name ≠ e.qualifiedName) :
    (∀ a ∈ m.allTypes, a.Carries e.qualifiedName → a = e) ∧
        (Namespace.ofModel m).resolve e.qualifiedName = (.type e.id, none) ∨
      SharedChoice m e ((Namespace.ofModel m).resolve e.qualifiedName) := by
  have hself : e ∈ m.carrying e.qualifiedName := mem_carrying he hg (Or.inr (Or.inr rfl))
  rw [resolve_ofModel m hprim]
  cases ht : m.firstTopLevel? e.qualifiedName with
  | some a =>
    obtain ⟨ha, hname⟩ := firstTopLevel?_some ht
    refine Or.inr (.hidden a ha ?_ hname)
    rintro rfl
    rw [(mem_topLevelTypes_iff he).mp ha] at hg
    cases hg
  | none =>
    have hno : ∀ a ∈ m.topLevelTypes, ¬ a.name = e.qualifiedName := not_found ht
    cases hc : m.carrying e.qualifiedName with
    | nil =>
      rw [hc] at hself
      cases hself
    | cons a cs =>
      cases cs with
      | nil =>
        rw [hc] at hself
        obtain rfl := List.mem_singleton.mp hself
        refine Or.inl ⟨fun b hb hcarries => ?_, rfl⟩
        cases hbg : b.id.isGlobal with
        | true =>
          have hbt := (mem_topLevelTypes_iff hb).mpr hbg
          exact absurd ((Entry.carries_of_mem_topLevelTypes hbt _).mp hcarries).symm (hno b hbt)
        | false =>
          have hmem := mem_carrying hb hbg hcarries
          rw [hc] at hmem
          exact List.mem_singleton.mp hmem
      | cons b rest =>
        refine Or.inr (.reported a b rest ?_ hc)
        rintro rfl
        have hids := m.nodup_ids_carrying e.qualifiedName
        rw [hc, List.map_cons, List.map_cons] at hids
        exact (List.nodup_cons.mp hids).1 List.mem_cons_self

/-- a choice is never the type itself without a report -/
theorem SharedChoice.ne {m : Model} {e : Entry} (he : e ∈ m.allTypes) {x : Binding × Option Issue}
    (h : SharedChoice m e x) : x ≠ (.type e.id, none) := by
  cases h with
  | hidden a ha hne hname =>
    intro heq
    have hid : a.id = e.id := Binding.type.inj (Prod.mk.inj heq).1
    exact hne (eq_of_id_eq (mem_allTypes_split.mpr (Or.inl ha)) he hid)
  | reported a b rest hne hc =>
    intro heq
    cases (Prod.mk.inj heq).2

/-- where there is a choice, another type carries the name -/
theorem SharedChoice.exists_other {m : Model} {e : Entry} {x : Binding × Option Issue}
    (h : SharedChoice m e x) : ∃ a ∈ m.allTypes, a.Carries e.qualifiedName ∧ a ≠ e := by
  cases h with
  | hidden a ha hne hname =>
    exact ⟨a, mem_allTypes_split.mpr (Or.inl ha), Or.inl hname.symm, hne⟩
  | reported a b rest hne hc =>
    have hmem : a ∈ m.carrying e.qualifiedName ∧ b ∈ m.carrying e.qualifiedName := by
      rw [hc]
      simp
    obtain ⟨ha, hac⟩ := carries_of_mem_carrying hmem.1
    obtain ⟨hb, hbc⟩ := carries_of_mem_carrying hmem.2
    by_cases hae : a = e
    · exact ⟨b, hb, hbc, fun hbe => hne (hae.trans hbe.symm)⟩
    · exact ⟨a, ha, hac, hae⟩

theorem resolve_qualifiedName_iff {m : Model} (hm : m.DistinctNames) {e : Entry}
    (he : e ∈ m.allTypes) (hprim : ∀ x ∈ m.basicTypes, x.2.name ≠ e.qualifiedName) :
    ((Namespace.ofModel m).resolve e.qualifiedName = (.type e.id, none) ↔ m.Unshared e) ∧
      (¬ m.Unshared e → SharedChoice m e ((Namespace.ofModel m).resolve e.qualifiedName)) := by
  cases hg : e.id.isGlobal with
  | true =>
    have ht := (mem_topLevelTypes_iff he).mpr hg
    obtain ⟨i, t, _, rfl⟩ := mem_topLevelTypes.mp ht
    exact ⟨iff_of_true (resolve_topLevel hm ht hprim) (Or.inl rfl),
      fun hshared => absurd (Or.inl rfl) hshared⟩
  | false =>
    rcases resolve_qualifiedName_cases he hg hprim with ⟨honly, hresolve⟩ | hchoice
    · exact ⟨iff_of_true hresolve (Or.inr honly), fun hshared => absurd (Or.inr honly) hshared⟩
    · refine ⟨iff_of_false (hchoice.ne he) ?_, fun _ => hchoice⟩
      obtain ⟨a, ha, hcarries, hne⟩ := hchoice.exists_other
      rintro (hglobal | honly)
      · rw [hg] at hglobal
        cases hglobal
      · exact hne (honly a ha hcarries)

/-- After analysis, let the qualified name of a type belong to no primitive type.  A reference by it
stands for that type and draws no report if and only if the name is not shared; else a top-level type
hides it, or the first type that carries it is taken and the next one advised.  Every reference of
the resolved model by that name, bases aside, is bound and reported so, and resolution reports
nothing else. -/
theorem qualifiedName_binds_iff {m r : Model} {ds : Diagnostics} (h : m.analyze = (r, .ok ds))
    {e : Entry} (he : e ∈ r.allTypes)
    (hprim : ∀ x ∈ r.basicTypes, x.2.name ≠ e.qualifiedName) :
    ((Namespace.ofModel r).resolve e.qualifiedName = (.type e.id, none) ↔ r.Unshared e) ∧
    (¬ r.Unshared e → SharedChoice r e ((Namespace.ofModel r).resolve e.qualifiedName)) ∧
    (∀ d ∈ r.allTypes, ∀ s ∈ d.sites, s.role ≠ .base → s.ref.name = e.qualifiedName →
      (s.ref.binding, r.issueAt d s) = (Namespace.ofModel r).resolve e.qualifiedName) ∧
    m.resolve.diagnostics = r.walk.flatMap fun d =>
      d.sites.filterMap fun s => (r.issueAt d s).map (·.toDiagnostic (s.location d)) := by
  have hr : m.resolve.model = r := congrArg Prod.fst h
  have hm : r.DistinctNames := .of_analyze h
  obtain ⟨hiff, hchoice⟩ := resolve_qualifiedName_iff hm he hprim
  have hreports := m.diagnostics_resolve
  rw [hr] at hreports
  refine ⟨hiff, hchoice, fun d hd s hs hrole hname => ?_, hreports⟩
  rw [← hname, ← hr]
  exact binding_issueAt (hr ▸ hd) hs hrole

/-- two structs `Outer` with a struct `Leaf` inside, one of them in a package, and a reference to the
first by its qualified name -/
def twinOuters : Model :=
  { types :=
      [.struct { name := "Outer" } [.struct { name := "Leaf" } []],
        .struct { name := "Holder",
                  fields := [{ name := "leaf", typeRef := { name := "Outer.Leaf" } }] } []]
    packages :=
      [{ name := "p", types := [.struct { name := "Outer" } [.struct { name := "Leaf" } []]] }] }

/-- the warning about the field of `Holder` -/
def twinReport : Diagnostic :=
  (Issue.ambiguous "Outer.Leaf" "Outer.Leaf" ["Outer.Leaf", "p.Outer.Leaf"]
    (some "p.Outer.Leaf")).toDiagnostic { path := "Holder.leaf", line := none }

theorem analyze_twinOuters : twinOuters.analyze = (twinOuters.analyze.1, .ok [twinReport]) :=
  Prod.ext rfl (by decide +kernel)

/-- the `Leaf` of the package has a qualified name of its own, the other one shares it -/
theorem qualifiedName_binds_iff_twinOuters :
    twinOuters.analyze = (twinOuters.analyze.1, .ok [twinReport]) ∧
      (∃ e ∈ twinOuters.analyze.1.allTypes, e.qualifiedName = "p.Outer.Leaf" ∧
        twinOuters.analyze.1.Unshared e) ∧
      ∃ e ∈ twinOuters.analyze.1.allTypes, e.qualifiedName = "Outer.Leaf" ∧
        ¬ twinOuters.analyze.1.Unshared e := by
  have hleaf := List.mem_of_getElem? (l := twinOuters.analyze.1.allTypes) (i := 3) rfl
  have hother := List.mem_of_getElem? (l := twinOuters.analyze.1.allTypes) (i := 4) rfl
  refine ⟨analyze_twinOuters, ⟨_, hother, rfl, ?_⟩, ⟨_, hleaf, rfl, fun hunshared => ?_⟩⟩
  · exact (qualifiedName_binds_iff analyze_twinOuters hother nofun).1.mp rfl
  · have hsilent := (qualifiedName_binds_iff analyze_twinOuters hleaf nofun).1.mpr hunshared
    cases congrArg (·.2.isSome) hsilent

/-- the field of `Holder` has the qualified name of the first `Leaf` and is bound to it, and a warning
advises the qualified name of the other -/
theorem not_qualifiedName_binds_twinOuters :
    twinOuters.analyze.2 = .ok [twinReport] ∧
      ∃ e ∈ twinOuters.analyze.1.allTypes,
        (∀ x ∈ twinOuters.analyze.1.basicTypes, x.2.name ≠ e.qualifiedName) ∧
        ∃ d ∈ twinOuters.analyze.1.allTypes, ∃ s ∈ d.sites,
          s.role ≠ .base ∧ s.ref.name = e.qualifiedName ∧ s.ref.binding = .type e.id ∧
            twinOuters.analyze.1.issueAt d s =
              some (.ambiguous "Outer.Leaf" "Outer.Leaf" ["Outer.Leaf", "p.Outer.Leaf"]
                (some "p.Outer.Leaf")) := by
  have hleaf := List.mem_of_getElem? (l := twinOuters.analyze.1.allTypes) (i := 3) rfl
  have hholder := List.mem_of_getElem? (l := twinOuters.analyze.1.allTypes) (i := 1) rfl
  refine ⟨congrArg Prod.snd analyze_twinOuters, _, hleaf, nofun, _, hholder, _,
    List.mem_cons_self, nofun, rfl, ?_, rfl⟩
  decide +kernel

end Model

end TypeModel
