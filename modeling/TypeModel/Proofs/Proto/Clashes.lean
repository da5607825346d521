import TypeModel.Proofs.Analysis.Names
import TypeModel.Proofs.Proto.Places

/-!
# When the declarations of a scope clash

Analysis compares the names in each list of types, and a scope of a schema holds the types of one
such list, or the top-level ones together with those of the only package.  The messages around
packages stand in the file as well, and nobody compares their names.

* `schemaNames ts`           the names of the structs and enumerations among some types;
* `names_roots`              the names in the file;
* `WrappersApart m`          the messages around packages have names of their own;
* `declarations_nodup_iff`   inside messages all names are different, and in the file they are if
                             and only if the wrappers are apart;
* `not_nodup_homonym`        a top-level struct is called like the message around a package.
-/

namespace TypeModel.Proto

/-! ## the names of a list of declarations -/

def schemaNames (ts : List TypeDef) : List Name := (ts.filter isDeclared).map TypeDef.name

theorem schemaNames_append (ts us : List TypeDef) :
    schemaNames (ts ++ us) = schemaNames ts ++ schemaNames us := by
  rw [schemaNames, List.filter_append, List.map_append]
  rfl

theorem nodup_schemaNames {ts : List TypeDef} (h : (ts.map TypeDef.name).Nodup) :
    (schemaNames ts).Nodup :=
  h.sublist (List.filter_sublist.map _)

theorem names_of_declare {m : Model} {id : TypeId} {t : TypeDef} {ds : List Declaration}
    (h : declare m id t = .ok ds) :
    ds.map Declaration.name = if isDeclared t then [t.name] else [] := by
  obtain ⟨hyes, hno⟩ := declare_shape h
  cases ht : isDeclared t with
  | true =>
    obtain ⟨d, rfl, hname⟩ := hyes ht
    exact congrArg (fun n => [n]) hname
  | false => rw [hno ht]; rfl

theorem names_of_forall₂ {m : Model} {ts : List (TypeId × TypeDef)} {dss : List (List Declaration)}
    (h : List.Forall₂ (fun x ds => declare m x.1 x.2 = .ok ds) ts dss) :
    dss.flatten.map Declaration.name = schemaNames (ts.map Prod.snd) := by
  rw [schemaNames, map_filter_eq_flatMap, List.flatMap_map, List.map_flatten, ← List.flatMap_def]
  exact flatMap_of_forall₂ (fun x ds hx => names_of_declare hx) h

theorem names_of_declareEntries {m : Model} {es : List Entry} {ds : List Declaration}
    (h : declareEntries m es = .ok ds) :
    ds.map Declaration.name = schemaNames (es.map (·.type)) := by
  obtain ⟨dss, rfl, hdss⟩ := forall₂_of_declareEntries h
  rw [names_of_forall₂ hdss, List.map_map]
  rfl

theorem names_of_declareAll {m : Model} {id : TypeId} {ts : List TypeDef} {ds : List Declaration}
    (h : declareAll m id 0 ts = .ok ds) : ds.map Declaration.name = schemaNames ts := by
  obtain ⟨dss, rfl, hdss⟩ := forall₂_of_declareAll ts 0 h
  rw [names_of_forall₂ hdss, List.map_map]
  exact congrArg schemaNames (List.zipIdx_map_fst 0 ts)

/-! ## inside messages -/

theorem scopeAt_eq_nested (q : List Nat) : ∀ {ds : List Declaration} {d : Declaration},
    declarationAt? ds q = some d → scopeAt ds q = d.nested := by
  induction q with
  | nil =>
    intro ds d h
    cases h
  | cons i is ih =>
    intro ds d h
    rw [scopeAt]
    by_cases his : is = []
    · obtain rfl := his
      rw [show ds[i]? = some d from h]
      rfl
    · rw [declarationAt?_cons ds i his] at h
      obtain ⟨x, hx, hd⟩ := Option.bind_eq_some_iff.mp h
      rw [hx]
      exact ih hd

section
variable {m : Model} {c : ProtoConfig} {schema : Schema}

/-- the scope inside the message around a package -/
theorem nodup_names_wrapper (hm : m.DistinctNames) (h : Schema.ofModel m c = .ok schema)
    (hw : wrapsPackages m = true) {p : Nat} {package : Package}
    (hp : m.packages[p]? = some package) :
    ((scopeAt schema.roots [m.types.countP isDeclared + p]).map Declaration.name).Nodup := by
  obtain ⟨w, hwrapper, hroot⟩ := getElem?_roots_wrapper h hw hp
  rw [scopeAt_eq_nested [m.types.countP isDeclared + p] hroot]
  show (w.declarations.map Declaration.name).Nodup
  rw [names_of_declareEntries (wrapper_declarations hwrapper).2, map_type_typesOfPackage]
  exact nodup_schemaNames (hm.packaged package (List.mem_of_getElem? hp))

/-- the scope inside the message of a struct -/
theorem nodup_names_struct (hm : m.DistinctNames) (h : Schema.ofModel m c = .ok schema)
    {o : Entry} (ho : o ∈ m.declaredTypes) {s : StructType} {inner : List TypeDef}
    (hs : o.type = .struct s inner) :
    ((scopeAt schema.roots (placeOf m o.id)).map Declaration.name).Nodup := by
  obtain ⟨d, hd, hstands⟩ :=
    standsAt_placeOf h (List.mem_append_left _ ho) (by rw [hs]; rfl)
  rw [hs] at hd
  rw [scopeAt_eq_nested _ hstands.declaration, names_of_declareAll (declare_struct hd).1]
  have hinner := hm.inner o ho
  rw [hs] at hinner
  exact nodup_schemaNames hinner

/-- the scope that the declaration of a type stands in, unless it is the file -/
theorem nodup_names_around (hm : m.DistinctNames) (h : Schema.ofModel m c = .ok schema)
    {e : Entry} (he : e ∈ m.allTypes) {p : List Nat} {i : Nat}
    (hplace : placeOf m e.id = p ++ [i]) (hp : p ≠ []) :
    ((scopeAt schema.roots p).map Declaration.name).Nodup := by
  rcases List.mem_append.mp he with he | he
  · rw [placeOf_of_mem_declaredTypes he] at hplace
    rcases List.mem_append.mp he with he | he
    · obtain ⟨j, t, _, rfl⟩ := Model.mem_topLevelTypes.mp he
      replace hplace : [] ++ [rank m.types j] = p ++ [i] := hplace
      exact absurd (List.append_inj_left' hplace rfl).symm hp
    · obtain ⟨q, package, j, t, hq, _, rfl⟩ := Model.mem_packagedTypes.mp he
      replace hplace : (if wrapsPackages m then [m.types.countP isDeclared + q] ++ [_]
        else [] ++ [_]) = p ++ [i] := hplace
      by_cases hw : wrapsPackages m = true
      · rw [if_pos hw] at hplace
        obtain rfl := List.append_inj_left' hplace rfl
        exact nodup_names_wrapper hm h hw hq
      · rw [if_neg hw] at hplace
        exact absurd (List.append_inj_left' hplace rfl).symm hp
  · obtain ⟨o, ho, he⟩ := List.mem_flatMap.mp he
    obtain ⟨s, inner, j, t, hs, _, rfl⟩ := Entry.mem_inners.mp he
    rw [placeOf_innerEntry ho hs, ← placeOf_of_mem_declaredTypes ho] at hplace
    obtain rfl := List.append_inj_left' hplace rfl
    exact nodup_names_struct hm h ho hs

/-- the declaration of a type stands in a scope -/
theorem exists_scope (h : Schema.ofModel m c = .ok schema) {e : Entry} (he : e ∈ m.allTypes)
    (ht : isDeclared e.type = true) :
    ∃ p i d, placeOf m e.id = p ++ [i] ∧ declarationAt? schema.roots (p ++ [i]) = some d ∧
      d.name = e.name := by
  obtain ⟨d, hd, hstands⟩ := standsAt_placeOf h he ht
  rcases List.eq_nil_or_concat' (placeOf m e.id) with hplace | ⟨p, i, hplace⟩
  · rw [hplace] at hstands
    cases hstands.declaration
  · exact ⟨p, i, d, hplace, hplace ▸ hstands.declaration, name_of_declare hd⟩

/-! ## in the file -/

theorem names_of_wrappers {ws : List Wrapper}
    (h : List.Forall₂ (fun x w => wrapper m x.2 x.1 = .ok w) m.packages.zipIdx ws) :
    ws.map Wrapper.name = m.packages.map fun p => wrapperName p.name := by
  have hname : ∀ (x : Package × Nat) (w : Wrapper), wrapper m x.2 x.1 = .ok w →
      [w.name] = [wrapperName x.1.name] := by
    intro x w hw
    exact congrArg (fun n => [wrapperName n]) (wrapper_declarations hw).1
  rw [List.map_eq_flatMap, flatMap_of_forall₂ hname h, ← List.map_eq_flatMap]
  nth_rewrite 2 [← List.zipIdx_map_fst 0 m.packages]
  rw [List.map_map]
  rfl

/-- the names in the file: those of the top-level types, and behind them those of the messages
around packages or those of the types of the only package -/
theorem names_roots (h : Schema.ofModel m c = .ok schema) :
    schema.roots.map Declaration.name = schemaNames m.types ++
      if wrapsPackages m then m.packages.map fun p => wrapperName p.name
      else schemaNames (m.packagedTypes.map (·.type)) := by
  rw [Schema.roots, List.map_append, List.map_map]
  rcases ofModel_cases h with ⟨hw, hd, hws⟩ | ⟨hw, hd, hws⟩
  · rw [if_pos hw, names_of_declareEntries hd, map_type_topLevelTypes, ← names_of_wrappers hws]
    rfl
  · rw [if_neg (hw ▸ Bool.false_ne_true), names_of_declareEntries hd, hws, Model.declaredTypes,
      List.map_append, schemaNames_append, map_type_topLevelTypes]
    exact List.append_nil _

/-- the names of the only package are compared with the top-level ones -/
theorem nodup_names_unwrapped (hm : m.DistinctNames) (hw : wrapsPackages m = false) :
    (schemaNames m.types ++ schemaNames (m.packagedTypes.map (·.type))).Nodup := by
  have htop := nodup_schemaNames hm.topLevel
  rcases hps : m.packages with _ | ⟨p, _ | ⟨q, ps⟩⟩
  · rw [Model.packagedTypes, hps]
    exact (List.append_nil _).symm ▸ htop
  · have hp : m.packages[0]? = some p := by rw [hps]; rfl
    rw [(packages_of_not_wraps hw hp).2, map_type_typesOfPackage]
    refine List.nodup_append.mpr
      ⟨htop, nodup_schemaNames (hm.packaged p (List.mem_of_getElem? hp)), ?_⟩
    rintro n hn _ hn' rfl
    obtain ⟨t, ht, rfl⟩ := List.mem_map.mp hn'
    rw [wrapsPackages, hps] at hw
    exact Bool.false_ne_true
      (hw.symm.trans (List.any_eq_true.mpr ⟨t, ht, List.contains_iff_mem.mpr hn⟩))
  · rw [wrapsPackages, hps] at hw
    cases hw

def WrappersApart (m : Model) : Prop :=
  wrapsPackages m = true →
    (m.packages.map fun p => wrapperName p.name).Nodup ∧
      ∀ n ∈ schemaNames m.types, ∀ p ∈ m.packages, n ≠ wrapperName p.name

theorem nodup_names_file (hm : m.DistinctNames) (h : Schema.ofModel m c = .ok schema) :
    (schema.roots.map Declaration.name).Nodup ↔ WrappersApart m := by
  rw [names_roots h, WrappersApart]
  cases hw : wrapsPackages m with
  | true =>
    rw [if_pos rfl, List.nodup_append]
    constructor
    · rintro ⟨_, hwrappers, hdisjoint⟩ _
      exact ⟨hwrappers, fun n hn p hp => hdisjoint n hn _ (List.mem_map_of_mem hp)⟩
    · intro hapart
      obtain ⟨hwrappers, hdisjoint⟩ := hapart rfl
      refine ⟨nodup_schemaNames hm.topLevel, hwrappers, fun n hn x hx => ?_⟩
      obtain ⟨p, hp, rfl⟩ := List.mem_map.mp hx
      exact hdisjoint n hn p hp
  | false =>
    rw [if_neg Bool.false_ne_true]
    exact ⟨fun _ h => absurd h Bool.false_ne_true, fun _ => nodup_names_unwrapped hm hw⟩

/-- after analysis, the declaration of a type stands in the file or in a scope where all names are
different, and so are those in the file if and only if the messages around packages are apart -/
theorem declarations_nodup_iff (m : Model) {r : Model} {ds : Diagnostics}
    (h : m.analyze = (r, .ok ds)) {c : ProtoConfig} {schema : Schema}
    (hschema : Schema.ofModel r c = .ok schema) :
    (∀ e ∈ r.allTypes, isDeclared e.type = true →
      ∃ p i d, placeOf r e.id = p ++ [i] ∧ declarationAt? schema.roots (p ++ [i]) = some d ∧
        d.name = e.name ∧ (p ≠ [] → ((scopeAt schema.roots p).map Declaration.name).Nodup)) ∧
    (((scopeAt schema.roots []).map Declaration.name).Nodup ↔ WrappersApart r) := by
  have hr : m.analyze.1 = r := congrArg Prod.fst h
  have hok : m.analyze.2 = .ok ds := congrArg Prod.snd h
  have hm : r.DistinctNames := hr ▸ Model.distinctNames_of_analyze hok
  refine ⟨fun e he ht => ?_, nodup_names_file hm hschema⟩
  obtain ⟨p, i, d, hplace, hd, hname⟩ := exists_scope hschema he ht
  exact ⟨p, i, d, hplace, hd, hname, nodup_names_around hm hschema he hplace⟩

end

/-- a top-level struct `Shop`, and a package `shop` that becomes a message of that name -/
def homonym : Model :=
  { types := [.struct { name := "Shop" } []]
    packages :=
      [{ name := "shop", types := [.struct { name := "Order" } []] },
        { name := "billing", types := [.struct { name := "Invoice" } []] }] }

def homonymSchema : Schema :=
  { package := none
    declarations := [.message "Shop" [] [] []]
    wrappers :=
      [⟨"shop", [.message "Order" [] [] []]⟩, ⟨"billing", [.message "Invoice" [] [] []]⟩] }

theorem ofModel_homonym : Schema.ofModel homonym.analyze.1 {} = .ok homonymSchema := rfl

theorem declarations_nodup_iff_homonym :
    homonym.analyze = (homonym.analyze.1, .ok []) ∧
      Schema.ofModel homonym.analyze.1 {} = .ok homonymSchema ∧
      ((scopeAt homonymSchema.roots [1]).map Declaration.name).Nodup ∧
      ¬ WrappersApart homonym.analyze.1 := by
  have hanalyze : homonym.analyze = (homonym.analyze.1, .ok []) :=
    Prod.ext rfl (by decide +kernel)
  obtain ⟨hinside, hfile⟩ := declarations_nodup_iff homonym hanalyze ofModel_homonym
  obtain ⟨e, he, ht, hplace⟩ : ∃ e ∈ homonym.analyze.1.allTypes, isDeclared e.type = true ∧
      placeOf homonym.analyze.1 e.id = [1] ++ [0] :=
    ⟨_, List.mem_of_getElem? (i := 1) rfl, rfl, by decide +kernel⟩
  obtain ⟨p, i, d, hplace', _, _, hnodup⟩ := hinside e he ht
  obtain rfl := List.append_inj_left' (hplace.symm.trans hplace') rfl
  exact ⟨hanalyze, ofModel_homonym, hnodup (List.cons_ne_nil _ _), mt hfile.mpr (by decide +kernel)⟩

/-- the file has the message `Shop` twice -/
theorem not_nodup_homonym :
    homonym.analyze.2 = .ok [] ∧
      Schema.ofModel homonym.analyze.1 {} = .ok homonymSchema ∧
      ¬ ((scopeAt homonymSchema.roots []).map Declaration.name).Nodup :=
  ⟨by decide +kernel, ofModel_homonym, by decide +kernel⟩

end TypeModel.Proto
