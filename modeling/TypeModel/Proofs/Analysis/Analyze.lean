import TypeModel.Proofs.Analysis.Visits
import TypeModel.Proofs.Model.Sites

/-!
# Analysis succeeds on well-formed models and on no others

* `clean_resolutionDiagnostics`   resolution reports no error if and only if every name has a
                                  meaning;
* `clean_validate_bind`           what validation of the bound model says of the model as written;
* `analyze_ok_iff`                the result.

The checks run on the bound model, and the rules of `Model.WellFormed` are about the model as it
is written, so each part is carried back along `Model.bind`.
-/

namespace TypeModel

/-! ## reports of resolution -/

namespace Namespace

theorem severity_noBase (ns : Namespace) (n : Name) (kind : TypeKind) (referrer : TypeId)
    (all : List Candidate) : (ns.noBase n kind referrer all).severity = .error := by
  unfold noBase
  split
  · rfl
  · split
    · rfl
    · split <;> rfl

/-- an error is reported exactly where no declaration is found -/
theorem resolve_error_iff (ns : Namespace) (n : Name) :
    (∀ i, (ns.resolve n).2 = some i → i.severity ≠ .error) ↔ (ns.resolve n).1 ≠ .unresolved := by
  unfold resolve
  split
  · exact iff_of_true nofun nofun
  · exact iff_of_true nofun nofun
  · exact iff_of_false (fun h => h _ rfl rfl) (fun h => h rfl)
  · exact iff_of_true nofun nofun
  · refine iff_of_true ?_ nofun
    rintro _ ⟨⟩
    exact nofun

theorem resolveBase_error_iff (ns : Namespace) (n : Name) (kind : TypeKind) (referrer : TypeId) :
    (∀ i, (ns.resolveBase n kind referrer).2 = some i → i.severity ≠ .error) ↔
      (ns.resolveBase n kind referrer).1 ≠ .unresolved := by
  unfold resolveBase
  dsimp only
  split
  · exact iff_of_false (fun h => h _ rfl (ns.severity_noBase ..)) (fun h => h rfl)
  · exact iff_of_true nofun nofun
  · split
    · exact iff_of_true nofun nofun
    · refine iff_of_true ?_ nofun
      rintro _ ⟨⟩
      exact nofun

theorem clean_reports (m : Model) (e : Entry) :
    Clean ((ofModel m).reports e) ↔ ∀ s ∈ e.sites, m.siteMeaning e s ≠ .unresolved := by
  have hsite : ∀ s : Site,
      (∀ i, ((ofModel m).resolveSite e.id e.type.kind s.role s.ref.name).2 = some i →
        i.severity ≠ .error) ↔ m.siteMeaning e s ≠ .unresolved := by
    intro s
    rw [← resolveSite_fst]
    unfold resolveSite
    split
    · exact resolveBase_error_iff _ _ _ _
    · exact resolve_error_iff _ _
  unfold reports
  constructor
  · intro h s hs
    refine (hsite s).mp fun i hi => ?_
    exact h _ (List.mem_filterMap.mpr ⟨s, hs, Option.map_eq_some_iff.mpr ⟨i, hi, rfl⟩⟩)
  · intro h d hd
    obtain ⟨s, hs, hd⟩ := List.mem_filterMap.mp hd
    obtain ⟨i, hi, rfl⟩ := Option.map_eq_some_iff.mp hd
    exact (hsite s).mpr (h s hs) i hi

end Namespace

theorem Model.clean_resolutionDiagnostics (m : Model) :
    Clean m.resolutionDiagnostics ↔
      ∀ e ∈ m.allTypes, ∀ s ∈ e.sites, m.siteMeaning e s ≠ .unresolved := by
  unfold resolutionDiagnostics
  rw [clean_flatMap]
  constructor
  · exact fun h e he => (Namespace.clean_reports m e).mp (h e (mem_walk_iff.mpr he))
  · exact fun h e he => (Namespace.clean_reports m e).mpr (h e (mem_walk_iff.mp he))

/-! ## back to the model as written -/

namespace Namespace

theorem name_bindWithInner (ns : Namespace) (id : TypeId) (t : TypeDef) :
    (ns.bindWithInner id t).name = t.name :=
  (ns.bindWithInner_eq id t TypeDef.name fun _ _ _ => rfl).trans (ns.name_bindType id t)

theorem innerNames_bindEntry (ns : Namespace) (e : Entry) :
    (ns.bindEntry e).type.innerTypes.map TypeDef.name = e.type.innerTypes.map TypeDef.name := by
  show (if e.id.isInner then ns.bindType e.id e.type
    else ns.bindWithInner e.id e.type).innerTypes.map TypeDef.name = _
  split
  · cases e.type <;> rfl
  · cases e.type with
    | struct s inner => exact map_mapIdx_of_eq (fun i x => ns.name_bindType _ x) inner
    | enumeration x => rfl
    | array a => rfl
    | «alias» a => rfl

theorem mem_fields_bindStruct {ns : Namespace} {id : TypeId} {s : StructType} {f' : Field} :
    f' ∈ (ns.bindStruct id s).fields ↔ ∃ f ∈ s.fields, f.mapRefs ns.bindRef = f' := List.mem_map

end Namespace

namespace Model
variable {m : Model}

theorem topLevelNames_bind (m : Model) :
    m.bind.types.map TypeDef.name = m.types.map TypeDef.name :=
  map_mapIdx_of_eq (fun _ t => Namespace.name_bindWithInner _ _ t) m.types

theorem packageNames_bind (m : Model) :
    (∀ p ∈ m.bind.packages, p.name ≠ "" ∧ (p.types.map TypeDef.name).Nodup) ↔
      ∀ p ∈ m.packages, p.name ≠ "" ∧ (p.types.map TypeDef.name).Nodup := by
  have hnames : ∀ i (p : Package), ((Namespace.ofModel m).bindPackage i p).types.map TypeDef.name =
      p.types.map TypeDef.name := fun i p =>
    map_mapIdx_of_eq (fun _ t => Namespace.name_bindWithInner _ _ t) p.types
  rw [packages_bind]
  constructor
  · intro h p hp
    obtain ⟨i, hi⟩ := List.mem_iff_getElem?.mp hp
    have hb := h _ (mem_mapIdx_iff.mpr ⟨i, p, hi, rfl⟩)
    rw [hnames] at hb
    exact hb
  · intro h p' hp'
    obtain ⟨i, p, hi, rfl⟩ := mem_mapIdx_iff.mp hp'
    rw [hnames]
    exact h p (List.mem_of_getElem? hi)

theorem inheritedNames_bind (hends : ∀ a, ¬ Relation.TransGen m.Extends a a) (id : TypeId)
    (s : StructType) :
    (∀ b ∈ m.bind.baseStructs id, ∀ f ∈ ((Namespace.ofModel m).bindStruct id s).fields,
        ∀ g ∈ b.fields, f.name ≠ g.name) ↔
      ∀ d ∈ m.allTypes, ∀ b, d.type.struct? = some b → Relation.TransGen m.Extends id d.id →
        ∀ f ∈ s.fields, ∀ g ∈ b.fields, f.name ≠ g.name := by
  constructor
  · intro h d hd b hb hr f hf g hg
    have hmem : (Namespace.ofModel m).bindStruct d.id b ∈ m.bind.baseStructs id := by
      refine mem_baseStructs.mpr ⟨_, mem_allTypes_bind.mpr ⟨d, hd, rfl⟩, ?_, ?_, ?_⟩
      · rw [Namespace.struct?_bindEntry, hb]
        rfl
      · rw [reaches_baseOf_bind]
        exact hr
      · rintro rfl
        exact hends _ hr
    exact h _ hmem (f.mapRefs _) (Namespace.mem_fields_bindStruct.mpr ⟨f, hf, rfl⟩) (g.mapRefs _)
      (Namespace.mem_fields_bindStruct.mpr ⟨g, hg, rfl⟩)
  · intro h b' hb' f' hf' g' hg'
    obtain ⟨d', hd', hs, hr, _⟩ := mem_baseStructs.mp hb'
    obtain ⟨d, hd, rfl⟩ := mem_allTypes_bind.mp hd'
    rw [Namespace.struct?_bindEntry] at hs
    obtain ⟨b, hb, rfl⟩ := Option.map_eq_some_iff.mp hs
    obtain ⟨f, hf, rfl⟩ := Namespace.mem_fields_bindStruct.mp hf'
    obtain ⟨g, hg, rfl⟩ := Namespace.mem_fields_bindStruct.mp hg'
    rw [reaches_baseOf_bind] at hr
    exact h d hd b hb hr f hf g hg

theorem mapKeys_bind
    (href : ∀ e ∈ m.allTypes, ∀ s ∈ e.sites, s.role ≠ .base → m.Declares s.ref.name)
    (hsound : ∀ e ∈ m.allTypes, e.type.Sound)
    (hends : ∀ a, ¬ Relation.TransGen m.StandsFor a a) {e : Entry} (he : e ∈ m.allTypes)
    {s : StructType} (hs : e.type.struct? = some s) :
    (∀ f ∈ ((Namespace.ofModel m).bindStruct e.id s).fields, ∀ key, f.key = some key →
        Validation.mapKeyAllowed m.bind key) ↔
      ∀ f ∈ s.fields, ∀ key, f.key = some key → m.AllowedKey key.name := by
  have hmention : ∀ d ∈ m.allTypes, ∀ r, d.type.Mentions r → m.Declares r.name := by
    rintro d hd r ⟨x, hx, hb, rfl⟩
    exact href d hd x hx hb
  have hgiven : ∀ d ∈ m.allTypes, d.type.kind = .alias → d.type.expands? ≠ none := by
    intro d hd hk hn
    obtain ⟨a, ha⟩ := TypeDef.exists_of_kind_alias hk
    have hd' := hsound d hd
    rw [ha] at hd' hn
    obtain ⟨r, hr, _⟩ := hd'
    exact Option.some_ne_none r (hr.symm.trans hn)
  have hkey : ∀ f ∈ s.fields, ∀ key, f.key = some key →
      (Validation.mapKeyAllowed m.bind ((Namespace.ofModel m).bindRef key) = true ↔
        m.AllowedKey key.name) := by
    intro f hf key hk
    have hexpands : ∀ d ∈ m.allTypes, ∀ r, d.type.expands? = some r → m.Declares r.name :=
      fun d hd r hr => hmention d hd r (TypeDef.mentions_expands? hr)
    refine Validation.mapKeyAllowed_iff hexpands hgiven hends (m.binding_bindRef key)
      (hmention e he key ?_)
    obtain ⟨inner, ht⟩ := TypeDef.struct?_eq_some.mp hs
    rw [ht]
    exact TypeDef.mentions_key hf hk
  constructor
  · intro h f hf key hk
    refine (hkey f hf key hk).mp (h _ (Namespace.mem_fields_bindStruct.mpr ⟨f, hf, rfl⟩) _ ?_)
    exact Option.map_eq_some_iff.mpr ⟨key, hk, rfl⟩
  · intro h f' hf' key' hk'
    obtain ⟨f, hf, rfl⟩ := Namespace.mem_fields_bindStruct.mp hf'
    obtain ⟨key, hk, rfl⟩ := Option.map_eq_some_iff.mp hk'
    exact (hkey f hf key hk).mpr (h f hf key hk)

/-! ## names of references -/

theorem firstTopLevel?_of_nodup (hn : (m.types.map TypeDef.name).Nodup) {d : Entry}
    (hd : d ∈ m.topLevelTypes) : m.firstTopLevel? d.name = some d := by
  unfold firstTopLevel?
  cases hf : m.topLevelTypes.find? fun e => e.name = d.name with
  | none => exact absurd rfl (not_found hf d hd)
  | some x =>
    obtain ⟨hx, hxn⟩ := found hf
    obtain ⟨i, t, hi, rfl⟩ := mem_topLevelTypes.mp hx
    obtain ⟨j, u, hj, rfl⟩ := mem_topLevelTypes.mp hd
    obtain rfl := index_eq_of_nodup hn hi hj hxn
    rw [hi] at hj
    obtain rfl := Option.some.inj hj
    rfl

/-- where top-level names are different, a base has a meaning as soon as one declaration fits -/
theorem baseMeaning_ne_unresolved_iff (hn : (m.types.map TypeDef.name).Nodup) (n : Name)
    (kind : TypeKind) (referrer : TypeId) :
    m.baseMeaning n kind referrer ≠ .unresolved ↔
      ∃ d ∈ m.allTypes, d.Carries n ∧ d.type.kind = kind ∧ d.id ≠ referrer := by
  rcases m.baseMeaning_cases n kind referrer with ⟨d, hd, hk, hr, hm⟩ | ⟨hno, hm⟩
  · obtain ⟨hd, hc⟩ := mem_baseCandidates hd
    rw [hm]
    exact iff_of_true nofun ⟨d, hd, hc, hk, hr⟩
  · rw [hm]
    refine iff_of_false (fun h => h rfl) ?_
    rintro ⟨d, hd, hc, hk, hr⟩
    refine hno d (List.mem_append.mpr ?_) ⟨hk, hr⟩
    rcases mem_allTypes_split.mp hd with ht | ho
    · left
      rw [(Entry.carries_of_mem_topLevelTypes ht n).mp hc, firstTopLevel?_of_nodup hn ht]
      exact List.mem_singleton.mpr rfl
    · exact Or.inr (List.mem_filter.mpr ⟨ho, decide_eq_true hc⟩)

theorem siteMeaning_ne_unresolved_iff (m : Model) :
    (∀ e ∈ m.allTypes, ∀ s ∈ e.sites, m.siteMeaning e s ≠ .unresolved) ↔
      (∀ e ∈ m.allTypes, ∀ s ∈ e.sites, s.role ≠ .base → m.Declares s.ref.name) ∧
      ∀ e ∈ m.allTypes, ∀ r, e.type.base? = some r →
        m.baseMeaning r.name e.type.kind e.id ≠ .unresolved := by
  unfold siteMeaning
  constructor
  · intro h
    constructor
    · intro e he s hs hb
      have hm := h e he s hs
      rw [if_neg hb] at hm
      exact (m.declares_iff _).mpr hm
    · intro e he r hr
      have hm := h e he _ (TypeDef.mem_sites_of_base? hr)
      rw [if_pos rfl] at hm
      exact hm
  · rintro ⟨href, hbase⟩ e he s hs
    by_cases hb : s.role = .base
    · rw [if_pos hb]
      exact hbase e he s.ref (TypeDef.base?_of_mem_sites hs hb)
    · rw [if_neg hb]
      exact (m.declares_iff _).mp (href e he s hs hb)

/-! ## the result -/

theorem exists_finish_eq_ok (ds : Diagnostics) : (∃ out, ds.finish = .ok out) ↔ Clean ds := by
  rw [Clean, ← Diagnostics.finish_eq_ok_iff]
  constructor
  · rintro ⟨out, h⟩
    unfold Diagnostics.finish at h ⊢
    split at h
    · cases h
    case isFalse hc => rw [if_neg hc]
  · exact fun h => ⟨ds, h⟩

theorem forall_allTypes_bind {P : Entry → Prop} :
    (∀ e ∈ m.bind.allTypes, P e) ↔ ∀ e ∈ m.allTypes, P ((Namespace.ofModel m).bindEntry e) := by
  rw [allTypes_bind]
  exact List.forall_mem_map

/-- what validation of the bound model says of the model as written -/
theorem clean_validate_bind (m : Model) :
    Clean m.bind.validate ↔
      (∀ g ∈ m.primitives, (g.dataTypes.map BasicType.name).Nodup) ∧
      (m.types.map TypeDef.name).Nodup ∧
      (∀ p ∈ m.packages, p.name ≠ "" ∧ (p.types.map TypeDef.name).Nodup) ∧
      (∀ e ∈ m.declaredTypes, (e.type.innerTypes.map TypeDef.name).Nodup) ∧
      (∀ e ∈ m.allTypes, e.type.Sound) ∧
      (∀ a, ¬ Relation.TransGen m.Extends a a) ∧ (∀ a, ¬ Relation.TransGen m.StandsFor a a) ∧
      ∀ e ∈ m.allTypes, ∀ s, e.type.struct? = some s →
        Entry.StructClean m.bind ((Namespace.ofModel m).bindEntry e)
          ((Namespace.ofModel m).bindStruct e.id s) := by
  have hinner : (∀ e ∈ m.bind.declaredTypes, (e.type.innerTypes.map TypeDef.name).Nodup) ↔
      ∀ e ∈ m.declaredTypes, (e.type.innerTypes.map TypeDef.name).Nodup := by
    rw [declaredTypes_bind, List.forall_mem_map]
    simp only [Namespace.innerNames_bindEntry]
  have hentry : (∀ e ∈ m.bind.allTypes, e.type.Sound ∧
        (∀ s, e.type.struct? = some s → e.StructClean m.bind s) ∧ Clean (e.cycleReport m.bind)) ↔
      (∀ e ∈ m.allTypes, e.type.Sound) ∧
      ((∀ a, ¬ Relation.TransGen m.Extends a a) ∧ ∀ a, ¬ Relation.TransGen m.StandsFor a a) ∧
      ∀ e ∈ m.allTypes, ∀ s, e.type.struct? = some s →
        Entry.StructClean m.bind ((Namespace.ofModel m).bindEntry e)
          ((Namespace.ofModel m).bindStruct e.id s) := by
    rw [← reaches_baseOf_bind, ← reaches_expansionOf_bind, ← clean_cycleReports,
      forall_allTypes_bind, forall_allTypes_bind]
    simp only [Namespace.sound_bindEntry, Namespace.struct?_bindEntry]
    constructor
    · intro h
      exact ⟨fun e he => (h e he).1, fun e he => (h e he).2.2,
        fun e he s hs => (h e he).2.1 _ (by rw [hs]; rfl)⟩
    · rintro ⟨hs, hc, hk⟩ e he
      refine ⟨hs e he, fun s' hs' => ?_, hc e he⟩
      obtain ⟨s, hs, rfl⟩ := Option.map_eq_some_iff.mp hs'
      exact hk e he s hs
  rw [clean_validate, topLevelNames_bind, packageNames_bind, hinner, hentry, and_assoc]
  rfl

/-- analysis binds the references and reports what resolution and validation find -/
theorem analyze_eq (m : Model) :
    m.analyze = (m.bind, (m.resolutionDiagnostics ++ m.bind.validate).finish) := by
  unfold Model.analyze
  rw [m.resolve_eq]

theorem analyze_ok_iff_clean (m : Model) :
    (∃ ds, m.analyze.2 = .ok ds) ↔ Clean m.resolutionDiagnostics ∧ Clean m.bind.validate := by
  rw [m.analyze_eq, exists_finish_eq_ok, clean_append]

theorem clean_of_analyze {ds : Diagnostics} (h : m.analyze.2 = .ok ds) :
    Clean m.resolutionDiagnostics ∧ Clean m.bind.validate :=
  m.analyze_ok_iff_clean.mp ⟨ds, h⟩

theorem WellFormed.of_analyze {ds : Diagnostics} (h : m.analyze.2 = .ok ds) : m.WellFormed := by
  obtain ⟨hres, hval⟩ := clean_of_analyze h
  obtain ⟨href, hbase⟩ :=
    m.siteMeaning_ne_unresolved_iff.mp (m.clean_resolutionDiagnostics.mp hres)
  obtain ⟨hprim, htop, hpack, hin, hsound, hbends, hxends, hstruct⟩ :=
    m.clean_validate_bind.mp hval
  exact
    { references := href
      bases := fun e he r hr => (baseMeaning_ne_unresolved_iff htop _ _ _).mp (hbase e he r hr)
      primitiveNames := hprim
      topLevelNames := htop
      packageNames := hpack
      innerNames := hin
      sound := hsound
      basesEnd := hbends
      expansionsEnd := hxends
      inheritedNames := fun e he s hs =>
        (inheritedNames_bind hbends e.id s).mp (hstruct e he s hs).inherited
      mapKeys := fun e he s hs =>
        (mapKeys_bind href hsound hxends he hs).mp (hstruct e he s hs).keys }

theorem sound_of_analyze {ds : Diagnostics} (h : m.analyze.2 = .ok ds) :
    ∀ e ∈ m.analyze.1.allTypes, e.type.Sound := by
  rw [m.analyze_eq]
  exact forall_allTypes_bind.mpr fun e he =>
    (Namespace.sound_bindEntry _ e).mpr ((WellFormed.of_analyze h).sound e he)

theorem WellFormed.analyze (h : m.WellFormed) : ∃ ds, m.analyze.2 = .ok ds := by
  refine m.analyze_ok_iff_clean.mpr ⟨?_, ?_⟩
  · refine m.clean_resolutionDiagnostics.mpr (m.siteMeaning_ne_unresolved_iff.mpr
      ⟨h.references, fun e he r hr => ?_⟩)
    exact (baseMeaning_ne_unresolved_iff h.topLevelNames _ _ _).mpr (h.bases e he r hr)
  · refine m.clean_validate_bind.mpr ⟨h.primitiveNames, h.topLevelNames, h.packageNames,
      h.innerNames, h.sound, h.basesEnd, h.expansionsEnd, fun e he s hs => ?_⟩
    exact ⟨(inheritedNames_bind h.basesEnd e.id s).mpr (h.inheritedNames e he s hs),
      (mapKeys_bind h.references h.sound h.expansionsEnd he hs).mpr (h.mapKeys e he s hs)⟩

/-- analysis succeeds exactly on well-formed models -/
theorem analyze_ok_iff (m : Model) : (∃ ds, m.analyze.2 = .ok ds) ↔ m.WellFormed := by
  constructor
  · rintro ⟨ds, h⟩
    exact .of_analyze h
  · exact WellFormed.analyze

end Model

end TypeModel
