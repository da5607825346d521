import TypeModel.Analysis.Validation
import TypeModel.Proofs.Analysis.Walk
import TypeModel.Proofs.Model.Cycles
import TypeModel.Proofs.Model.Sorted

/-!
# Which member of a cycle reports it

Validation keeps the members of the cycles that were reported, in ascending order, and each member
of a cycle looks them up before it reports.  The members come in the order of the walk, so what was
kept tells which of them have been passed:

* `Entry.ring? m e`             the members of the cycle that the check of `e` finds;
* `Kept m passed kept`          `kept` are the cycles that the declarations `passed` have found;
* `kept_iff_passed`             the members of a cycle were kept if and only if the declaration is
                                not the one that the walk visits first;
* `Visit.report m v`            what there is to report about a visit if cycles are reported at the
                                member that the walk visits first;
* `keeps_check`, `run_mapM_check`   one check and a run of checks report that, after what was
                                passed;
* `Model.validate_eq`           validation does.
-/

namespace TypeModel

/-! ## the cycle that a declaration finds -/

/-- the step that the check of a declaration follows -/
def Entry.cycleStep (m : Model) (e : Entry) : TypeId → Option TypeId :=
  match e.type with
  | .struct _ _ | .enumeration _ => m.baseOf
  | .array _ | .alias _ => m.expansionOf

/-- a declaration that can have a base -/
def Entry.inherits (e : Entry) : Bool := e.type.kind = .struct || e.type.kind = .enumeration

/-- the members of the cycle through a declaration -/
def Entry.ring? (m : Model) (e : Entry) : Option (List TypeId) :=
  m.cycleFrom? (e.cycleStep m) e.id

/-- these members in ascending order -/
def Entry.key? (m : Model) (e : Entry) : Option (List TypeId) := (e.ring? m).map TypeId.sorted

/-- the handle of the member that the walk visits first -/
def Model.firstOf (m : Model) (members : List TypeId) : Option TypeId :=
  (m.walk.find? fun x => members.contains x.id).map (·.id)

section
variable {m : Model} {e x : Entry} {members : List TypeId}

theorem startsAtTypes_cycleStep : m.StartsAtTypes (e.cycleStep m) := by
  unfold Entry.cycleStep
  cases e.type with
  | struct s inner => exact Model.startsAtTypes_baseOf
  | enumeration x => exact Model.startsAtTypes_baseOf
  | array a => exact Model.startsAtTypes_expansionOf
  | «alias» a => exact Model.startsAtTypes_expansionOf

theorem cycleStep_of_inherits (h : e.inherits = true) : e.cycleStep m = m.baseOf := by
  unfold Entry.inherits at h
  unfold Entry.cycleStep
  cases ht : e.type <;> rw [ht] at h <;> first | rfl | cases h

theorem cycleStep_of_expands (h : e.inherits = false) : e.cycleStep m = m.expansionOf := by
  unfold Entry.inherits at h
  unfold Entry.cycleStep
  cases ht : e.type <;> rw [ht] at h <;> first | rfl | cases h

/-- only structs and enumerations have bases, and only arrays and aliases expand -/
theorem cycleStep_eq {b : TypeId} (hx : x ∈ m.allTypes) (h : e.cycleStep m x.id = some b) :
    x.cycleStep m = e.cycleStep m := by
  have hbase := Model.baseOf_of_mem hx
  have hexpansion := Model.expansionOf_of_mem hx
  unfold Entry.cycleStep at h ⊢
  cases he : e.type <;> cases ht : x.type <;> rw [ht] at hbase hexpansion <;> rw [he] at h <;>
    first | rfl | exact absurd (h.symm.trans hbase) nofun | exact absurd (h.symm.trans hexpansion) nofun

theorem ring?_eq_some (h : e.ring? m = some members) :
    members = e.id :: m.chain (e.cycleStep m) e.id ∧ Reaches (e.cycleStep m) e.id e.id := by
  have hreaches : Reaches (e.cycleStep m) e.id e.id := by
    by_contra hnot
    rw [Entry.ring?, Model.cycleFrom?_eq_none startsAtTypes_cycleStep hnot] at h
    cases h
  rw [Entry.ring?, Model.cycleFrom?_of_reaches startsAtTypes_cycleStep hreaches] at h
  exact ⟨(Option.some.inj h).symm, hreaches⟩

theorem mem_of_ring? (h : e.ring? m = some members) : e.id ∈ members := by
  rw [(ring?_eq_some h).1]
  exact List.mem_cons_self

/-- every member of a cycle finds the same members -/
theorem ring?_of_mem (h : e.ring? m = some members) (hx : x ∈ m.allTypes) (hmem : x.id ∈ members) :
    ∃ others, x.ring? m = some others ∧ others.Perm members := by
  obtain ⟨rfl, hreaches⟩ := ring?_eq_some h
  have hs := startsAtTypes_cycleStep (m := m) (e := e)
  have hback : Reaches (e.cycleStep m) x.id x.id := by
    rcases (Model.mem_cons_chain hs).mp hmem with hxe | hex
    · rw [hxe]
      exact hreaches
    · exact (reaches_back hreaches hex).trans hex
  obtain ⟨b, hb, _⟩ := hback.next
  refine ⟨x.id :: m.chain (e.cycleStep m) x.id, ?_, ?_⟩
  · rw [Entry.ring?, cycleStep_eq hx hb]
    exact Model.cycleFrom?_of_reaches hs hback
  · exact (List.perm_ext_iff_of_nodup (m.nodup_cons_chain _ _)
      (m.nodup_cons_chain _ _)).mpr
      (Model.mem_cons_chain_of_cycle hs hreaches hmem)

/-! ## what was kept -/

/-- the cycles that the declarations `passed` have found, by their members -/
def Kept (m : Model) (passed : List Entry) (kept : Validation.Reported) : Prop :=
  ∀ key, key ∈ kept ↔ ∃ e ∈ passed, e.key? m = some key

theorem kept_nil : Kept m [] [] := fun _ =>
  iff_of_false List.not_mem_nil fun ⟨_, h, _⟩ => List.not_mem_nil h

theorem kept_iff_passed {passed rest : List Entry} {kept : Validation.Reported}
    (hwalk : m.walk = passed ++ e :: rest) (hkept : Kept m passed kept)
    (h : e.ring? m = some members) :
    TypeId.sorted members ∈ kept ↔ m.firstOf members ≠ some e.id := by
  have hlisted : ∀ x ∈ passed, x ∈ m.allTypes ∧ x.id ≠ e.id := by
    intro x hx
    have hids := m.nodup_ids_walk
    rw [hwalk, List.map_append, List.map_cons] at hids
    refine ⟨Model.mem_walk_iff.mp (hwalk ▸ List.mem_append_left _ hx), ?_⟩
    exact (List.nodup_append.mp hids).2.2 _ (List.mem_map_of_mem hx) _ List.mem_cons_self
  have hfind : m.walk.find? (fun x => members.contains x.id) =
      (passed.find? fun x => members.contains x.id).or (some e) := by
    rw [hwalk, List.find?_append, List.find?_cons,
      List.contains_iff_mem.mpr (mem_of_ring? h)]
  unfold Model.firstOf
  rw [hkept, hfind]
  constructor
  · rintro ⟨x, hx, hring⟩
    obtain ⟨others, hothers, hsorted⟩ := Option.map_eq_some_iff.mp hring
    have hmem : x.id ∈ members :=
      (TypeId.sorted_eq_iff_perm.mp hsorted).mem_iff.mp (mem_of_ring? hothers)
    have hfound : (passed.find? fun x => members.contains x.id).isSome = true :=
      List.find?_isSome.mpr ⟨x, hx, List.contains_iff_mem.mpr hmem⟩
    obtain ⟨y, hy⟩ := Option.isSome_iff_exists.mp hfound
    rw [hy]
    exact fun hid => (hlisted y (List.mem_of_find?_eq_some hy)).2 (Option.some.inj hid)
  · intro hne
    cases hpassed : passed.find? fun x => members.contains x.id with
    | none =>
      rw [hpassed] at hne
      exact absurd rfl hne
    | some x =>
      have hx := List.mem_of_find?_eq_some hpassed
      have hc := List.find?_some hpassed
      obtain ⟨others, hothers, hperm⟩ :=
        ring?_of_mem h (hlisted x hx).1 (List.contains_iff_mem.mp hc)
      refine ⟨x, hx, ?_⟩
      rw [Entry.key?, hothers, Option.map_some, TypeId.sorted_eq_iff_perm.mpr hperm]

end

/-! ## what there is to report -/

namespace Validation

/-- the report of the cycle through an entry, at its member visited first -/
def reportCycle (m : Model) (e : Entry) (kind : CycleKind) (step : TypeId → Option TypeId) :
    Diagnostics :=
  match m.cycleFrom? step e.id with
  | none => []
  | some members =>
    let path := (members ++ [e.id]).filterMap fun id => (m.type? id).map TypeDef.name
    reportIf (m.firstOf members = some e.id) (.cycle kind path) e.location

def reportEntry (m : Model) (e : Entry) : Diagnostics :=
  checkTypeName e ++
    match e.type with
    | .struct s _ => checkFieldNames m e s ++ reportCycle m e .struct m.baseOf
    | .enumeration x =>
      checkRepeated e [] x.enumerators ++
        reportIf (!hasZeroEnumerator m e.id x) (.missingZero x.name) e.location ++
        reportCycle m e .enumeration m.baseOf
    | .array a => reportIf a.elementType.isNone (.missingElementType a.name) e.location
    | .alias a => reportIf a.actualType.isNone (.missingActualType a.name) e.location

def reportExpansion (m : Model) (e : Entry) : Diagnostics :=
  (match e.type with
    | .array { size := some size, .. } => checkArraySize size e.location
    | _ => []) ++
  reportCycle m e .expansion m.expansionOf

end Validation

namespace Visit

open Validation in
/-- what there is to report about a visit -/
def report (m : Model) : Visit → Diagnostics
  | .primitive g i b => checkPrimitive g i b
  | .package p => checkPackage p
  | .scope s types => checkScope s types
  | .entry e => reportEntry m e
  | .field e f => checkField m e f
  | .method e x => checkMethod e x
  | .enumerator e x => checkEnumerator e x
  | .reference _ r location => checkReference m r location
  | .expansion e => reportExpansion m e

/-- the declaration that a visit follows a chain from -/
def checked? : Visit → Option Entry
  | .entry e => if e.inherits then some e else none
  | .expansion e => some e
  | _ => none

/-- only arrays and aliases are visited for what they stand for -/
def IsSound : Visit → Prop
  | .expansion e => e.inherits = false
  | _ => True

theorem checked?_of_isMember {v : Visit} (h : v.isMember = true) :
    v.IsSound ∧ v.checked? = none := by
  cases v <;> first | exact ⟨trivial, rfl⟩ | cases h

end Visit

/-! ## one check and a run of checks -/

section
open Validation
variable {m : Model} {kept : Reported}

/-- the names of the members of a cycle, from the entry around to it again -/
def cyclePath (m : Model) (e : Entry) (members : List TypeId) : List Name :=
  (members ++ [e.id]).filterMap fun id => (m.type? id).map TypeDef.name

theorem run_checkCycle_eq {e : Entry} {kind : CycleKind} {step : TypeId → Option TypeId}
    {members : List TypeId} (h : m.cycleFrom? step e.id = some members) :
    (checkCycle m e kind step).run kept =
      if kept.contains (TypeId.sorted members) then ([], kept)
      else ([(Issue.cycle kind (cyclePath m e members)).toDiagnostic e.location],
        TypeId.sorted members :: kept) := by
  unfold checkCycle
  rw [h]
  show StateT.run (if kept.contains (TypeId.sorted members) then _ else _) kept = _
  split <;> rfl

/-- what was kept decides rightly whether the check of the declaration reports its cycle -/
def Due (m : Model) (kept : Reported) (e : Entry) : Prop :=
  ∀ members, e.ring? m = some members →
    (TypeId.sorted members ∈ kept ↔ m.firstOf members ≠ some e.id)

/-- the check reports `ds`, and what is kept then is also what the declaration `checked` finds -/
def Keeps (m : Model) (kept : Reported) (x : StateM Reported Diagnostics) (ds : Diagnostics)
    (checked : Option Entry) : Prop :=
  ∃ kept', x.run kept = (ds, kept') ∧
    ∀ key, key ∈ kept' ↔ key ∈ kept ∨ checked.bind (Entry.key? m) = some key

theorem keeps_pure (ds : Diagnostics) : Keeps m kept (pure ds) ds none :=
  ⟨kept, rfl, fun _ => (or_iff_left nofun).symm⟩

theorem Keeps.map {x : StateM Reported Diagnostics} {ds : Diagnostics} {checked : Option Entry}
    (h : Keeps m kept x ds checked) (f : Diagnostics → Diagnostics) :
    Keeps m kept (do let y ← x; return f y) (f ds) checked := by
  obtain ⟨kept', hrun, hkept⟩ := h
  refine ⟨kept', ?_, hkept⟩
  show (f (x.run kept).1, (x.run kept).2) = _
  rw [hrun]

theorem run_checkCycle_none {e : Entry} {kind : CycleKind} {step : TypeId → Option TypeId}
    (h : m.cycleFrom? step e.id = none) : (checkCycle m e kind step).run kept = ([], kept) := by
  unfold checkCycle
  rw [h]
  rfl

theorem reportCycle_none {e : Entry} {kind : CycleKind} {step : TypeId → Option TypeId}
    (h : m.cycleFrom? step e.id = none) : reportCycle m e kind step = [] := by
  unfold reportCycle
  rw [h]

theorem reportCycle_eq {e : Entry} {kind : CycleKind} {step : TypeId → Option TypeId}
    {members : List TypeId} (h : m.cycleFrom? step e.id = some members) :
    reportCycle m e kind step =
      reportIf (m.firstOf members = some e.id) (.cycle kind (cyclePath m e members)) e.location := by
  unfold reportCycle
  rw [h]
  rfl

/-- the check of a declaration reports and keeps the cycle, unless that was kept before -/
theorem keeps_checkCycle {e : Entry} (kind : CycleKind) (h : Due m kept e) :
    Keeps m kept (checkCycle m e kind (e.cycleStep m)) (reportCycle m e kind (e.cycleStep m))
      (some e) := by
  unfold Keeps
  rw [Option.bind_some, Entry.key?]
  cases hring : e.ring? m with
  | none =>
    rw [run_checkCycle_none hring, reportCycle_none hring]
    exact ⟨kept, rfl, fun _ => (or_iff_left nofun).symm⟩
  | some members =>
    have hfirst := h members hring
    rw [run_checkCycle_eq hring, reportCycle_eq hring, Option.map_some]
    by_cases hkept : TypeId.sorted members ∈ kept
    · rw [if_pos (List.contains_iff_mem.mpr hkept), decide_eq_false (hfirst.mp hkept)]
      refine ⟨kept, rfl, fun key => (or_iff_left_of_imp ?_).symm⟩
      rintro ⟨⟩
      exact hkept
    · rw [if_neg (mt List.contains_iff_mem.mp hkept),
        decide_eq_true (not_not.mp (mt hfirst.mpr hkept))]
      refine ⟨TypeId.sorted members :: kept, rfl, fun key => ?_⟩
      rw [List.mem_cons, or_comm, Option.some.injEq, eq_comm]

theorem keeps_checkEntry {e : Entry} (h : (Visit.entry e).checked? = some e → Due m kept e) :
    Keeps m kept (checkEntry m e) (reportEntry m e) (Visit.entry e).checked? := by
  have hcycle : ∀ kind, e.inherits = true →
      Keeps m kept (checkCycle m e kind m.baseOf) (reportCycle m e kind m.baseOf) (some e) := by
    intro kind hi
    have hkeeps := keeps_checkCycle kind (h (if_pos hi))
    rw [cycleStep_of_inherits hi] at hkeeps
    exact hkeeps
  unfold Visit.checked?
  dsimp only
  unfold Entry.inherits checkEntry reportEntry at *
  cases ht : e.type with
  | struct s inner =>
    rw [ht] at hcycle
    rw [← List.append_assoc]
    exact (hcycle .struct rfl).map fun cycle =>
      checkTypeName e ++ checkFieldNames m e s ++ cycle
  | enumeration x =>
    rw [ht] at hcycle
    rw [← List.append_assoc, ← List.append_assoc]
    exact (hcycle .enumeration rfl).map fun cycle =>
      checkTypeName e ++ checkRepeated e [] x.enumerators ++
        reportIf (!hasZeroEnumerator m e.id x) (.missingZero x.name) e.location ++ cycle
  | array a => exact keeps_pure _
  | «alias» a => exact keeps_pure _

theorem keeps_checkExpansion {e : Entry} (hv : e.inherits = false) (h : Due m kept e) :
    Keeps m kept (checkExpansion m e) (reportExpansion m e) (some e) := by
  have hcycle := keeps_checkCycle .expansion h
  rw [cycleStep_of_expands hv] at hcycle
  exact hcycle.map _

/-- a check reports what it should after the declarations in front of it -/
theorem keeps_check {v : Visit} (hv : v.IsSound) (h : ∀ e, v.checked? = some e → Due m kept e) :
    Keeps m kept (v.check m) (v.report m) v.checked? := by
  cases v with
  | entry e => exact keeps_checkEntry (h e)
  | expansion e => exact keeps_checkExpansion hv (h e rfl)
  | primitive g i b => exact keeps_pure _
  | package p => exact keeps_pure _
  | scope s types => exact keeps_pure _
  | field e f => exact keeps_pure _
  | method e x => exact keeps_pure _
  | enumerator e x => exact keeps_pure _
  | reference e r l => exact keeps_pure _

end

/-! ## all checks -/

namespace Entry

theorem lastVisits_eq (e : Entry) : e.lastVisits = if e.inherits then [] else [.expansion e] := by
  unfold Entry.lastVisits Entry.inherits
  cases e.type <;> rfl

/-- the visits of a declaration follow a chain from no other -/
theorem visits_sound (e : Entry) {v : Visit} (hv : v ∈ e.visits) :
    v.IsSound ∧ ∀ x, v.checked? = some x → x = e := by
  obtain ⟨vs, hvs, hvisits⟩ := e.visits_eq
  rw [hvisits] at hv
  rcases List.mem_cons.mp hv with rfl | hv
  · refine ⟨trivial, fun x hx => ?_⟩
    change (if e.inherits then some e else none) = some x at hx
    split at hx
    · exact (Option.some.inj hx).symm
    · cases hx
  rcases List.mem_append.mp hv with hv | hv
  · obtain ⟨hsound, hnone⟩ := Visit.checked?_of_isMember (hvs v hv)
    refine ⟨hsound, fun x hx => ?_⟩
    rw [hnone] at hx
    cases hx
  · rw [lastVisits_eq] at hv
    cases hi : e.inherits with
    | true =>
      rw [if_pos hi] at hv
      cases hv
    | false =>
      rw [if_neg (ne_true_of_eq_false hi)] at hv
      rw [List.mem_singleton.mp hv]
      exact ⟨hi, fun x hx => (Option.some.inj hx).symm⟩

end Entry

namespace Model
variable {m : Model}

/-- each declaration follows one chain, in the order of the walk -/
theorem checked_eq_walk (m : Model) : m.visits.filterMap Visit.checked? = m.walk := by
  have hone : ∀ e : Entry, (e.visits.flatMap fun v => v.checked?.toList) = [e] := by
    intro e
    obtain ⟨vs, hvs, hvisits⟩ := e.visits_eq
    have hmembers : (vs.flatMap fun v => v.checked?.toList) = [] := by
      rw [List.flatMap_eq_nil_iff]
      intro v hv
      rw [(Visit.checked?_of_isMember (hvs v hv)).2]
      rfl
    rw [hvisits, List.flatMap_cons, List.flatMap_append, hmembers, List.nil_append, Entry.lastVisits_eq]
    show (if e.inherits then some e else none).toList ++ _ = _
    cases e.inherits <;> rfl
  rw [List.filterMap_eq_flatMap_toList, m.flatMap_visits (fun _ _ _ => rfl) (fun _ => rfl)
    (fun _ _ => rfl)]
  simp only [hone, List.flatMap_singleton']

theorem isSound_of_mem_visits : ∀ v ∈ m.visits, v.IsSound := by
  refine (forall_visits m Visit.IsSound).mpr ⟨?_, trivial, fun _ _ => ⟨trivial, trivial⟩, ?_⟩
  · intro v hv
    obtain ⟨g, _, hv⟩ := List.mem_flatMap.mp hv
    obtain ⟨i, b, _, rfl⟩ := mem_mapIdx_iff.mp hv
    trivial
  · refine forall_declared_visits.mpr ⟨fun _ _ _ _ _ => trivial, fun e _ v hv => ?_⟩
    exact (e.visits_sound hv).1

open Validation in
/-- from the declarations passed so far on, each check reports what it should -/
theorem run_mapM_check (vs : List Visit) (passed : List Entry) (kept : Reported)
    (hwalk : m.walk = passed ++ vs.filterMap Visit.checked?) (hsound : ∀ v ∈ vs, v.IsSound)
    (hkept : Kept m passed kept) :
    ((vs.mapM (Visit.check m)).run kept).1 = vs.map (Visit.report m) := by
  induction vs generalizing passed kept with
  | nil => rfl
  | cons v vs ih =>
    have hdue : ∀ e, v.checked? = some e → Due m kept e := by
      intro e he members hring
      rw [List.filterMap_cons, he] at hwalk
      exact kept_iff_passed hwalk hkept hring
    obtain ⟨kept', hrun, hkeys⟩ := keeps_check (hsound v List.mem_cons_self) hdue
    have hwalk' : m.walk = (passed ++ v.checked?.toList) ++ vs.filterMap Visit.checked? := by
      rw [hwalk, List.append_assoc, List.filterMap_cons]
      cases v.checked? <;> rfl
    have hkept' : Kept m (passed ++ v.checked?.toList) kept' := by
      intro key
      rw [hkeys, hkept, Option.bind_eq_some_iff]
      simp only [List.mem_append, Option.mem_toList, or_and_right, exists_or]
    have hrest := ih _ kept' hwalk' (fun w hw => hsound w (List.mem_cons_of_mem v hw)) hkept'
    rw [List.mapM_cons, List.map_cons, ← hrest]
    show ((v.check m).run kept).1 :: ((vs.mapM (Visit.check m)).run ((v.check m).run kept).2).1 = _
    rw [hrun]

open Validation in
/-- the checks of a declaration that finds no cycle report the same whatever was kept -/
theorem run_mapM_check_visits {e : Entry} (he : e.ring? m = none) (kept : Reported) :
    ((e.visits.mapM (Visit.check m)).run kept).1 = e.visits.map (Visit.report m) := by
  have hall : ∀ vs : List Visit, (∀ v ∈ vs, v ∈ e.visits) → ∀ kept,
      ((vs.mapM (Visit.check m)).run kept).1 = vs.map (Visit.report m) := by
    intro vs
    induction vs with
    | nil => exact fun _ _ => rfl
    | cons v vs ih =>
      intro hvs kept
      obtain ⟨hsound, hchecked⟩ := e.visits_sound (hvs v List.mem_cons_self)
      have hdue : ∀ x, v.checked? = some x → Due m kept x := by
        intro x hx members hring
        rw [hchecked x hx, he] at hring
        cases hring
      obtain ⟨kept', hrun, _⟩ := keeps_check hsound hdue
      have hrest := ih (fun w hw => hvs w (List.mem_cons_of_mem v hw)) kept'
      rw [List.mapM_cons, List.map_cons, ← hrest]
      show ((v.check m).run kept).1 :: ((vs.mapM (Visit.check m)).run ((v.check m).run kept).2).1
        = _
      rw [hrun]
  exact hall e.visits (fun _ hv => hv) kept

/-- validation reports, visit after visit, what there is to report, and cycles at the members that
the walk visits first -/
theorem validate_eq (m : Model) : m.validate = m.visits.flatMap (Visit.report m) := by
  unfold validate
  rw [run_mapM_check m.visits [] [] m.checked_eq_walk.symm isSound_of_mem_visits kept_nil,
    List.flatMap_def]

end Model

end TypeModel
