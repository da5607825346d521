import TypeModel.Proofs.Analysis.CycleChecks
import TypeModel.Proofs.Model.Cycles

/-!
# Each cycle is reported once

Every declaration on a cycle has a check that finds it, and only the member that the walk visits
first reports it.

* `CycleReports m step kind ds cs`   the diagnostics `ds` tell of the cycles `cs`, which are all
                                     cycles of `step` and each of them once, at the member visited
                                     first and with all members in order;
* `reportCycle_eq_ite`                a check reports if and only if its declaration is the first
                                     member of a cycle;
* `cycles_reported_once`             the result, for bases and for expansions.

Bindings are taken as they are, so this also holds where a base is of another kind or a handle
points nowhere.
-/

namespace TypeModel

/-! ## the member visited first -/

/-- the report of a cycle at its member `e`, which the declarations `others` follow -/
def cycleDiagnostic (kind : CycleKind) (e : Entry) (others : List Entry) : Diagnostic :=
  (Issue.cycle kind ((e :: others ++ [e]).map Entry.name)).toDiagnostic e.location

namespace Model
variable {m : Model} {step : TypeId → Option TypeId}

theorem exists_entry_of_cycle (hs : m.StartsAtTypes step) {a x : TypeId} (h : Reaches step a a)
    (hx : x ∈ a :: m.chain step a) : ∃ e ∈ m.allTypes, e.id = x := by
  have hback : Reaches step x a := by
    rcases (mem_cons_chain hs).mp hx with rfl | hax
    · exact h
    · exact reaches_back h hax
  obtain ⟨y, hy, _⟩ := hback.next
  exact hs x y hy

theorem map_id_filterMap_entry? : ∀ {ids : List TypeId},
    (∀ x ∈ ids, ∃ e ∈ m.allTypes, e.id = x) → (ids.filterMap m.entry?).map (·.id) = ids := by
  intro ids
  induction ids with
  | nil => intro _; rfl
  | cons x ids ih =>
    intro h
    obtain ⟨e, he, hid⟩ := h x List.mem_cons_self
    have hentry : m.entry? x = some e := entry?_eq_some_iff_mem.mpr ⟨he, hid⟩
    rw [List.filterMap_cons, hentry, List.map_cons,
      ih fun y hy => h y (List.mem_cons_of_mem x hy), hid]

theorem names_of_ids : ∀ {es : List Entry}, (∀ e ∈ es, e ∈ m.allTypes) →
    ((es.map (·.id)).filterMap fun id => (m.type? id).map TypeDef.name) = es.map Entry.name := by
  intro es
  induction es with
  | nil => intro _; rfl
  | cons e es ih =>
    intro h
    have htype : m.type? e.id = some e.type := type?_id_of_mem (h e List.mem_cons_self)
    rw [List.map_cons, List.filterMap_cons, htype, List.map_cons,
      ih fun x hx => h x (List.mem_cons_of_mem e hx)]
    rfl

/-- the declarations that follow one on its chain -/
def followers (m : Model) (step : TypeId → Option TypeId) (e : Entry) : List Entry :=
  (m.chain step e.id).filterMap m.entry?

theorem mem_allTypes_of_mem_followers {e x : Entry} (h : x ∈ m.followers step e) :
    x ∈ m.allTypes := by
  obtain ⟨id, _, hid⟩ := List.mem_filterMap.mp h
  exact (entry?_eq_some_iff_mem.mp hid).1

theorem map_id_followers (hs : m.StartsAtTypes step) {e : Entry} (h : Reaches step e.id e.id) :
    (e :: m.followers step e).map (·.id) = e.id :: m.chain step e.id := by
  rw [List.map_cons, followers, map_id_filterMap_entry?]
  exact fun x hx => exists_entry_of_cycle hs h (List.mem_cons_of_mem _ hx)

/-- the declaration lies on a cycle and is the member that the walk visits first -/
def isFirstOnCycle (m : Model) (step : TypeId → Option TypeId) (e : Entry) : Bool :=
  (m.cycleFrom? step e.id).isSome &&
    (m.walk.find? fun x => (e.id :: m.chain step e.id).contains x.id).map (·.id) = some e.id

theorem reportCycle_eq_ite (hs : m.StartsAtTypes step) {e : Entry} (he : e ∈ m.allTypes)
    (kind : CycleKind) :
    Validation.reportCycle m e kind step =
      if m.isFirstOnCycle step e then [cycleDiagnostic kind e (m.followers step e)] else [] := by
  unfold Validation.reportCycle isFirstOnCycle
  by_cases h : Reaches step e.id e.id
  · have hids : (e.id :: m.chain step e.id) ++ [e.id] =
        (e :: m.followers step e ++ [e]).map (·.id) := by
      rw [List.map_append, map_id_followers hs h]
      rfl
    have hlisted : ∀ x ∈ e :: m.followers step e ++ [e], x ∈ m.allTypes := by
      intro x hx
      rcases List.mem_append.mp hx with hx | hx
      · rcases List.mem_cons.mp hx with rfl | hx
        · exact he
        · exact mem_allTypes_of_mem_followers hx
      · rw [List.mem_singleton.mp hx]
        exact he
    rw [cycleFrom?_of_reaches hs h, Option.isSome_some, Bool.true_and]
    dsimp only
    rw [hids, names_of_ids hlisted]
    rfl
  · rw [cycleFrom?_eq_none hs h]
    rfl

theorem isFirstOnCycle_iff (hs : m.StartsAtTypes step) {e : Entry} (he : e ∈ m.allTypes) :
    m.isFirstOnCycle step e = true ↔ Reaches step e.id e.id ∧
      m.walk.find? (fun x => (e.id :: m.chain step e.id).contains x.id) = some e := by
  unfold isFirstOnCycle
  rw [Bool.and_eq_true, decide_eq_true_iff]
  refine and_congr ?_ ?_
  · by_cases h : Reaches step e.id e.id
    · rw [cycleFrom?_of_reaches hs h]
      exact iff_of_true rfl h
    · rw [cycleFrom?_eq_none hs h]
      exact iff_of_false Bool.false_ne_true h
  · constructor
    · intro h
      obtain ⟨x, hx, hid⟩ := Option.map_eq_some_iff.mp h
      have hxm : x ∈ m.allTypes := mem_walk_iff.mp (List.mem_of_find?_eq_some hx)
      rw [hx, eq_of_id_eq hxm he hid]
    · intro h
      rw [h]
      rfl

theorem flatMap_reportCycle (hs : m.StartsAtTypes step) (kind : Entry → CycleKind) :
    (m.walk.flatMap fun e => Validation.reportCycle m e (kind e) step) =
      (m.walk.filter (m.isFirstOnCycle step)).map fun e =>
        cycleDiagnostic (kind e) e (m.followers step e) := by
  have hwalk : ∀ es : List Entry, (∀ e ∈ es, e ∈ m.allTypes) →
      (es.flatMap fun e => Validation.reportCycle m e (kind e) step) =
        (es.filter (m.isFirstOnCycle step)).map fun e =>
          cycleDiagnostic (kind e) e (m.followers step e) := by
    intro es
    induction es with
    | nil => intro _; rfl
    | cons e es ih =>
      intro h
      rw [List.flatMap_cons, ih fun x hx => h x (List.mem_cons_of_mem e hx),
        reportCycle_eq_ite hs (h e List.mem_cons_self), List.filter_cons]
      split <;> rfl
  exact hwalk m.walk fun e he => mem_walk_iff.mp he

end Model

/-! ## the result -/

/-- the members of a cycle, given by the first and those that follow it -/
def cycleOf (c : Entry × List Entry) : Cycle TypeId := ((c.1 :: c.2).map (·.id) : List TypeId)

structure CycleReports (m : Model) (step : TypeId → Option TypeId) (kind : Entry → CycleKind)
    (ds : Diagnostics) (cs : List (Entry × List Entry)) : Prop where
  reports : ds = cs.map fun c => cycleDiagnostic (kind c.1) c.1 c.2
  listed : ∀ c ∈ cs, ∀ e ∈ c.1 :: c.2, e ∈ m.allTypes
  cycles : ∀ c, c ∈ cs.map cycleOf ↔ IsCycleOf step c
  once : (cs.map cycleOf).Nodup
  first : ∀ c ∈ cs,
    (m.visits.filterMap Visit.entry?).find? (fun x => x.id ∈ (c.1 :: c.2).map (·.id)) = some c.1

namespace Model
variable {m : Model} {step : TypeId → Option TypeId}

/-- the first members with what follows them -/
def reportedCycles (m : Model) (step : TypeId → Option TypeId) : List (Entry × List Entry) :=
  (m.walk.filter (m.isFirstOnCycle step)).map fun e => (e, m.followers step e)

theorem mem_reportedCycles (hs : m.StartsAtTypes step) {c : Entry × List Entry} :
    c ∈ m.reportedCycles step ↔ c.1 ∈ m.allTypes ∧ c.2 = m.followers step c.1 ∧
      Reaches step c.1.id c.1.id ∧
      m.walk.find? (fun x => (c.1.id :: m.chain step c.1.id).contains x.id) = some c.1 := by
  unfold reportedCycles
  rw [List.mem_map]
  constructor
  · rintro ⟨e, he, rfl⟩
    obtain ⟨hwalk, hfirst⟩ := List.mem_filter.mp he
    have hmem := mem_walk_iff.mp hwalk
    exact ⟨hmem, rfl, (isFirstOnCycle_iff hs hmem).mp hfirst⟩
  · rintro ⟨hmem, hfollow, hfirst⟩
    refine ⟨c.1, List.mem_filter.mpr ⟨mem_walk_iff.mpr hmem, ?_⟩, by rw [← hfollow]⟩
    exact (isFirstOnCycle_iff hs hmem).mpr hfirst

theorem cycleOf_followers (hs : m.StartsAtTypes step) {e : Entry} (h : Reaches step e.id e.id) :
    cycleOf (e, m.followers step e) = ((e.id :: m.chain step e.id : List TypeId) : Cycle TypeId) :=
  congrArg _ (map_id_followers hs h)

/-- the member that the walk visits first has the cycle as its chain -/
theorem exists_first (hs : m.StartsAtTypes step) {c : Cycle TypeId} (hc : IsCycleOf step c) :
    ∃ e ∈ m.allTypes, Reaches step e.id e.id ∧
      c = ((e.id :: m.chain step e.id : List TypeId) : Cycle TypeId) ∧
      m.walk.find? (fun x => (e.id :: m.chain step e.id).contains x.id) = some e := by
  obtain ⟨a, ha⟩ := hc.exists_mem
  obtain ⟨e, he, hea, hreach, hfirst⟩ := Validation.exists_first_of_reaches hs (hc.reaches ha)
  have hec : e.id ∈ c := by
    rw [eq_chain_of_isCycleOf hs hc ha]
    exact Cycle.mem_coe_iff.mpr hea
  exact ⟨e, he, hreach, eq_chain_of_isCycleOf hs hc hec, hfirst⟩

/-- a cycle has one member that the walk visits first -/
theorem nodup_cycles (hs : m.StartsAtTypes step) :
    ((m.reportedCycles step).map cycleOf).Nodup := by
  unfold reportedCycles
  rw [List.map_map]
  refine List.Nodup.map_on ?_ (List.Nodup.filter _ (List.Nodup.of_map _ m.nodup_ids_walk))
  intro x hx y hy hxy
  obtain ⟨hxw, hxf⟩ := List.mem_filter.mp hx
  obtain ⟨hyw, hyf⟩ := List.mem_filter.mp hy
  obtain ⟨hxr, hxfirst⟩ := (isFirstOnCycle_iff hs (mem_walk_iff.mp hxw)).mp hxf
  obtain ⟨hyr, hyfirst⟩ := (isFirstOnCycle_iff hs (mem_walk_iff.mp hyw)).mp hyf
  have hcycle : ((x.id :: m.chain step x.id : List TypeId) : Cycle TypeId) =
      ((y.id :: m.chain step y.id : List TypeId) : Cycle TypeId) := by
    rw [← cycleOf_followers hs hxr, ← cycleOf_followers hs hyr]
    exact hxy
  have hsame : (fun z : Entry => (x.id :: m.chain step x.id).contains z.id) =
      fun z => (y.id :: m.chain step y.id).contains z.id := by
    funext z
    rw [Bool.eq_iff_iff, List.contains_iff_mem, List.contains_iff_mem, ← Cycle.mem_coe_iff,
      ← Cycle.mem_coe_iff, hcycle]
  rw [hsame, hyfirst] at hxfirst
  exact (Option.some.inj hxfirst).symm

theorem cycleReports_flatMap (hs : m.StartsAtTypes step) (kind : Entry → CycleKind) :
    CycleReports m step kind (m.walk.flatMap fun e => Validation.reportCycle m e (kind e) step)
      (m.reportedCycles step) where
  reports := by
    rw [flatMap_reportCycle hs, reportedCycles, List.map_map]
    rfl
  listed := by
    intro c hc e he
    obtain ⟨hmem, hfollow, _⟩ := (mem_reportedCycles hs).mp hc
    rcases List.mem_cons.mp he with rfl | he
    · exact hmem
    · rw [hfollow] at he
      exact mem_allTypes_of_mem_followers he
  cycles := by
    intro c
    rw [List.mem_map]
    constructor
    · rintro ⟨⟨e, others⟩, hr, rfl⟩
      obtain ⟨_, hfollow, hreach, _⟩ := (mem_reportedCycles hs).mp hr
      dsimp only at hfollow hreach
      rw [hfollow, cycleOf_followers hs hreach]
      exact isCycleOf_chain hs hreach
    · intro hc
      obtain ⟨e, he, hreach, hce, hfirst⟩ := exists_first hs hc
      refine ⟨(e, m.followers step e), (mem_reportedCycles hs).mpr ⟨he, rfl, hreach, hfirst⟩, ?_⟩
      rw [cycleOf_followers hs hreach, hce]
  once := nodup_cycles hs
  first := by
    intro c hc
    obtain ⟨_, hfollow, hreach, hfirst⟩ := (mem_reportedCycles hs).mp hc
    rw [m.visited_eq_walk, hfollow, map_id_followers hs hreach, ← hfirst]
    congr 1
    funext x
    rw [Bool.eq_iff_iff, decide_eq_true_iff, List.contains_iff_mem]

theorem reportCycle_of_acyclic (hs : m.StartsAtTypes step) {e : Entry} (kind : CycleKind)
    (h : ¬ Reaches step e.id e.id) : Validation.reportCycle m e kind step = [] := by
  unfold Validation.reportCycle
  rw [cycleFrom?_eq_none hs h]

theorem hasCode_of_mem_reportCycle {e : Entry} {kind : CycleKind} {d : Diagnostic}
    (h : d ∈ Validation.reportCycle m e kind step) (codes : List Code) :
    d.hasCode codes = codes.contains (Issue.cycle kind []).code := by
  unfold Validation.reportCycle Validation.reportIf at h
  split at h
  · cases h
  · dsimp only at h
    split at h
    · rw [List.mem_singleton.mp h]
      cases kind <;> rfl
    · cases h

theorem filter_reportCycle (codes : List Code) (e : Entry) (kind : CycleKind) :
    (Validation.reportCycle m e kind step).filter (Diagnostic.hasCode codes) =
      if codes.contains (Issue.cycle kind []).code then Validation.reportCycle m e kind step
      else [] := by
  split
  next h =>
    exact List.filter_eq_self.mpr fun d hd => (hasCode_of_mem_reportCycle hd codes).trans h
  next h =>
    refine List.filter_eq_nil_iff.mpr fun d hd hcode => h ?_
    rw [← hasCode_of_mem_reportCycle hd codes]
    exact hcode

/-- only structs and enumerations have bases, and their checks follow them -/
theorem filter_cycleReport_bases {e : Entry} (he : e ∈ m.allTypes) :
    (e.cycleReport m).filter (Diagnostic.hasCode baseCycleCodes) =
      Validation.reportCycle m e (baseCycleKind e) m.baseOf := by
  have hends : e.type.base? = none →
      Validation.reportCycle m e (baseCycleKind e) m.baseOf = [] := by
    intro hbase
    refine reportCycle_of_acyclic startsAtTypes_baseOf _ fun h => ?_
    obtain ⟨b, hb, _⟩ := h.next
    rw [baseOf_of_mem he, hbase] at hb
    cases hb
  unfold Entry.cycleReport
  cases ht : e.type with
  | struct s inner =>
    rw [filter_reportCycle, baseCycleKind, ht]
    rfl
  | enumeration x =>
    rw [filter_reportCycle, baseCycleKind, ht]
    rfl
  | array a =>
    rw [filter_reportCycle, hends (by rw [ht]; rfl)]
    rfl
  | «alias» a =>
    rw [filter_reportCycle, hends (by rw [ht]; rfl)]
    rfl

/-- only arrays and aliases expand, and their checks follow what they stand for -/
theorem filter_cycleReport_expansions {e : Entry} (he : e ∈ m.allTypes) :
    (e.cycleReport m).filter (Diagnostic.hasCode [.expansionCycle]) =
      Validation.reportCycle m e .expansion m.expansionOf := by
  have hends : e.type.expands? = none →
      Validation.reportCycle m e .expansion m.expansionOf = [] := by
    intro hexpands
    refine reportCycle_of_acyclic startsAtTypes_expansionOf _ fun h => ?_
    obtain ⟨b, hb, _⟩ := h.next
    rw [expansionOf_of_mem he, hexpands] at hb
    cases hb
  unfold Entry.cycleReport
  cases ht : e.type with
  | struct s inner =>
    rw [filter_reportCycle, hends (by rw [ht]; rfl)]
    rfl
  | enumeration x =>
    rw [filter_reportCycle, hends (by rw [ht]; rfl)]
    rfl
  | array a =>
    rw [filter_reportCycle]
    rfl
  | «alias» a =>
    rw [filter_reportCycle]
    rfl

theorem cycleReports_bases (m : Model) :
    CycleReports m m.baseOf baseCycleKind
      (m.validate.filter (Diagnostic.hasCode baseCycleCodes)) (m.reportedCycles m.baseOf) := by
  have hreports : m.validate.filter (Diagnostic.hasCode baseCycleCodes) =
      m.walk.flatMap fun e => Validation.reportCycle m e (baseCycleKind e) m.baseOf := by
    rw [filter_validate (by decide)]
    exact List.flatMap_congr fun e he => filter_cycleReport_bases (mem_walk_iff.mp he)
  rw [hreports]
  exact cycleReports_flatMap startsAtTypes_baseOf baseCycleKind

theorem cycleReports_expansions (m : Model) :
    CycleReports m m.expansionOf (fun _ => .expansion)
      (m.validate.filter (Diagnostic.hasCode [.expansionCycle]))
      (m.reportedCycles m.expansionOf) := by
  have hreports : m.validate.filter (Diagnostic.hasCode [.expansionCycle]) =
      m.walk.flatMap fun e => Validation.reportCycle m e .expansion m.expansionOf := by
    rw [filter_validate (by decide)]
    exact List.flatMap_congr fun e he => filter_cycleReport_expansions (mem_walk_iff.mp he)
  rw [hreports]
  exact cycleReports_flatMap startsAtTypes_expansionOf fun _ => .expansion

/-- the checks of a declaration that is on no cycle, also where its chain leads into one -/
theorem no_report_off_cycles {e : Entry} (hb : ¬ Reaches m.baseOf e.id e.id)
    (hx : ¬ Reaches m.expansionOf e.id e.id) (reported : Validation.Reported) :
    ((e.visits.mapM (Visit.check m)).run reported).1.flatten.filter
      (Diagnostic.hasCode cycleCodes) = [] := by
  have hring : e.ring? m = none := by
    unfold Entry.ring? Entry.cycleStep
    split
    · exact cycleFrom?_eq_none startsAtTypes_baseOf hb
    · exact cycleFrom?_eq_none startsAtTypes_baseOf hb
    · exact cycleFrom?_eq_none startsAtTypes_expansionOf hx
    · exact cycleFrom?_eq_none startsAtTypes_expansionOf hx
  have hnone : e.cycleReport m = [] := by
    unfold Entry.cycleReport
    split
    · exact reportCycle_of_acyclic startsAtTypes_baseOf _ hb
    · exact reportCycle_of_acyclic startsAtTypes_baseOf _ hb
    · exact reportCycle_of_acyclic startsAtTypes_expansionOf _ hx
    · exact reportCycle_of_acyclic startsAtTypes_expansionOf _ hx
  rw [run_mapM_check_visits hring, ← List.flatMap_def, filter_check_visits fun _ h => h, hnone]
  rfl

end Model

theorem CycleReports.nil_of_acyclic {m : Model} {step : TypeId → Option TypeId}
    {kind : Entry → CycleKind} {ds : Diagnostics} {cs : List (Entry × List Entry)}
    (h : CycleReports m step kind ds cs) (hacyclic : ∀ c, ¬ IsCycleOf step c) : ds = [] := by
  have hnone : cs = [] := by
    refine List.eq_nil_iff_forall_not_mem.mpr fun c hc => ?_
    exact hacyclic (cycleOf c) ((h.cycles (cycleOf c)).mp (List.mem_map_of_mem hc))
  rw [h.reports, hnone]
  rfl

/-- the reports of cycles are one for each cycle of bases and one for each cycle of expansions,
at the member visited first; a declaration that is on no cycle has none -/
theorem Model.cycles_reported_once (m : Model) :
    (∃ cs, CycleReports m m.baseOf baseCycleKind
      (m.validate.filter (Diagnostic.hasCode baseCycleCodes)) cs) ∧
    (∃ cs, CycleReports m m.expansionOf (fun _ => .expansion)
      (m.validate.filter (Diagnostic.hasCode [.expansionCycle])) cs) ∧
    (∀ e ∈ m.allTypes, ¬ Reaches m.baseOf e.id e.id → ¬ Reaches m.expansionOf e.id e.id →
      ∀ reported, ((e.visits.mapM (Visit.check m)).run reported).1.flatten.filter
        (Diagnostic.hasCode cycleCodes) = []) ∧
    ((∀ c, ¬ IsCycleOf m.baseOf c) →
      m.validate.filter (Diagnostic.hasCode baseCycleCodes) = []) ∧
    ((∀ c, ¬ IsCycleOf m.expansionOf c) →
      m.validate.filter (Diagnostic.hasCode [.expansionCycle]) = []) :=
  ⟨⟨_, m.cycleReports_bases⟩, ⟨_, m.cycleReports_expansions⟩,
    fun _ _ hb hx => no_report_off_cycles hb hx,
    m.cycleReports_bases.nil_of_acyclic, m.cycleReports_expansions.nil_of_acyclic⟩

/-- `Left` and `Right` extend each other, and `Tail`, which is visited first, extends `Left` -/
def ring : Model :=
  { types :=
      [.struct { name := "Tail", base := some { name := "Left", binding := .type (.topLevel 1) } }
          [],
        .struct { name := "Left", base := some { name := "Right", binding := .type (.topLevel 2) } }
          [],
        .struct { name := "Right", base := some { name := "Left", binding := .type (.topLevel 1) } }
          []] }

example : (ring.validate.filter (Diagnostic.hasCode cycleCodes)).map (·.message) =
    ["circular struct inheritance: Left -> Right -> Left"] := by decide +kernel

end TypeModel
