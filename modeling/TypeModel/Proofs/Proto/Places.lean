import Mathlib.Data.List.Forall2
import TypeModel.Proofs.Generation.Depth
import TypeModel.Proofs.Proto.Scope

/-!
# Where declarations stand in a schema

A schema lists the declarations of a model in order and leaves out arrays and aliases, so the
position of a declaration is the number of structs and enumerations in front of it (`rank`).

* `StandsAt ds q ns d`   the declaration `d` is at the place `q`, behind the names `ns`;
* `placeOf m id`         the place of the type at a handle;
* `standsAt_placeOf`     the declaration of a type stands there, behind the names of its
                         `declarationPath`.
-/

namespace TypeModel

section
variable {ε α β : Type} {f : α → Except ε β}

theorem getElem?_of_forall₂ {R : α → β → Prop} {l : List α} {bs : List β}
    (h : List.Forall₂ R l bs) {i : Nat} {a : α} (hi : l[i]? = some a) :
    ∃ b, R a b ∧ bs[i]? = some b := by
  obtain ⟨hlt, rfl⟩ := List.getElem?_eq_some_iff.mp hi
  have hlt' : i < bs.length := h.length_eq ▸ hlt
  exact ⟨bs.get ⟨i, hlt'⟩, h.get hlt hlt', List.getElem?_eq_getElem hlt'⟩

theorem forall₂_of_mapM {l : List α} : ∀ {bs : List β}, l.mapM f = .ok bs →
    List.Forall₂ (fun a b => f a = .ok b) l bs := by
  induction l with
  | nil =>
    rintro _ ⟨⟩
    exact .nil
  | cons a l ih =>
    intro bs h
    rw [List.mapM_cons] at h
    obtain ⟨b, ha, h⟩ := bind_eq_ok.mp h
    obtain ⟨bs', hl, h⟩ := bind_eq_ok.mp h
    cases h
    exact .cons ha (ih hl)

/-- what `k` reads off the one list is what `g` reads off the other -/
theorem flatMap_of_forall₂ {γ : Type} {R : α → β → Prop} {g : α → List γ} {k : β → List γ}
    (hR : ∀ a b, R a b → k b = g a) {l : List α} {bs : List β} (h : List.Forall₂ R l bs) :
    bs.flatMap k = l.flatMap g := by
  induction h with
  | nil => rfl
  | cons hab _ ih => rw [List.flatMap_cons, List.flatMap_cons, hR _ _ hab, ih]

end

namespace Proto

/-! ## one declaration for each struct and enumeration -/

theorem declare_shape {m : Model} {id : TypeId} {t : TypeDef} {ds : List Declaration}
    (h : declare m id t = .ok ds) :
    (isDeclared t = true → ∃ d, ds = [d] ∧ d.name = t.name) ∧ (isDeclared t = false → ds = []) := by
  cases t with
  | struct s inner =>
    rw [declare] at h
    obtain ⟨nested, _, h⟩ := bind_eq_ok.mp h
    obtain ⟨fields, _, h⟩ := bind_eq_ok.mp h
    cases h
    exact ⟨fun _ => ⟨_, rfl, rfl⟩, fun hno => absurd hno.symm Bool.false_ne_true⟩
  | enumeration e =>
    rw [declare] at h
    cases h
    exact ⟨fun _ => ⟨_, rfl, rfl⟩, fun hno => absurd hno.symm Bool.false_ne_true⟩
  | array a =>
    rw [declare] at h
    cases h
    exact ⟨fun hyes => absurd hyes Bool.false_ne_true, fun _ => rfl⟩
  | «alias» a =>
    rw [declare] at h
    cases h
    exact ⟨fun hyes => absurd hyes Bool.false_ne_true, fun _ => rfl⟩

theorem name_of_declare {m : Model} {id : TypeId} {t : TypeDef} {d : Declaration}
    (h : declare m id t = .ok [d]) : d.name = t.name := by
  obtain ⟨hyes, hno⟩ := declare_shape h
  cases ht : isDeclared t with
  | true =>
    obtain ⟨d', hd, hname⟩ := hyes ht
    cases hd
    exact hname
  | false => cases hno ht

/-- the declaration of a struct, taken apart -/
theorem declare_struct {m : Model} {id : TypeId} {s : StructType} {inner : List TypeDef}
    {d : Declaration} (h : declare m id (.struct s inner) = .ok [d]) :
    declareAll m id 0 inner = .ok d.nested ∧
      messageFieldsFrom m 1 (m.flattenedFields id s) = .ok d.fields := by
  rw [declare] at h
  obtain ⟨nested, hn, h⟩ := bind_eq_ok.mp h
  obtain ⟨fields, hf, h⟩ := bind_eq_ok.mp h
  cases h
  exact ⟨hn, hf⟩

/-- only the declaration of a struct has anything inside -/
theorem declare_cases {m : Model} {id : TypeId} {t : TypeDef} {d : Declaration}
    (h : declare m id t = .ok [d]) :
    (∃ s inner, t = .struct s inner) ∨ (d.nested = [] ∧ d.fields = []) := by
  cases t with
  | struct s inner => exact Or.inl ⟨s, inner, rfl⟩
  | enumeration e =>
    rw [declare] at h
    cases h
    exact Or.inr ⟨rfl, rfl⟩
  | array a => rw [declare] at h; cases h
  | «alias» a => rw [declare] at h; cases h

/-- in a list of handles and types each with its declarations, the declaration of a type stands
behind those of the types in front of it -/
theorem getElem?_flatten {m : Model} {ts : List (TypeId × TypeDef)} {dss : List (List Declaration)}
    (h : List.Forall₂ (fun x ds => declare m x.1 x.2 = .ok ds) ts dss) :
    ∀ (i : Nat) (x : TypeId × TypeDef), ts[i]? = some x → isDeclared x.2 = true →
      ∃ d, declare m x.1 x.2 = .ok [d] ∧
        dss.flatten[(ts.take i).countP fun y => isDeclared y.2]? = some d := by
  induction h with
  | nil =>
    intro i x hi
    cases hi
  | @cons y ds ts dss ha _ ih =>
    intro i x hi hx
    obtain ⟨hyes, hno⟩ := declare_shape ha
    cases i with
    | zero =>
      obtain rfl := Option.some.inj hi
      obtain ⟨d, rfl, _⟩ := hyes hx
      exact ⟨d, ha, rfl⟩
    | succ i =>
      obtain ⟨d, hd, hget⟩ := ih i x hi hx
      refine ⟨d, hd, ?_⟩
      rw [List.take_succ_cons, List.countP_cons, List.flatten_cons]
      cases hy : isDeclared y.2 with
      | true =>
        obtain ⟨d', rfl, _⟩ := hyes hy
        exact hget
      | false =>
        rw [hno hy]
        exact hget

theorem length_flatten {m : Model} {ts : List (TypeId × TypeDef)} {dss : List (List Declaration)}
    (h : List.Forall₂ (fun x ds => declare m x.1 x.2 = .ok ds) ts dss) :
    dss.flatten.length = ts.countP fun y => isDeclared y.2 := by
  induction h with
  | nil => rfl
  | @cons y ds ts dss ha _ ih =>
    obtain ⟨hyes, hno⟩ := declare_shape ha
    rw [List.flatten_cons, List.length_append, List.countP_cons, ih]
    cases hy : isDeclared y.2 with
    | true =>
      obtain ⟨d', rfl, _⟩ := hyes hy
      exact Nat.add_comm _ _
    | false =>
      rw [hno hy]
      exact Nat.zero_add _

theorem mem_flatten {m : Model} {ts : List (TypeId × TypeDef)} {dss : List (List Declaration)}
    (h : List.Forall₂ (fun x ds => declare m x.1 x.2 = .ok ds) ts dss) {d : Declaration}
    (hd : d ∈ dss.flatten) : ∃ x ∈ ts, declare m x.1 x.2 = .ok [d] := by
  induction h with
  | nil => cases hd
  | @cons y ds ts dss ha _ ih =>
    rw [List.flatten_cons, List.mem_append] at hd
    rcases hd with hd | hd
    · refine ⟨y, List.mem_cons_self, ?_⟩
      obtain ⟨hyes, hno⟩ := declare_shape ha
      cases hy : isDeclared y.2 with
      | true =>
        obtain ⟨d', rfl, _⟩ := hyes hy
        obtain rfl := List.mem_singleton.mp hd
        exact ha
      | false =>
        rw [hno hy] at hd
        cases hd
    · obtain ⟨x, hx, hxd⟩ := ih hd
      exact ⟨x, List.mem_cons_of_mem y hx, hxd⟩

/-- the types inside a struct, with their handles, and their declarations -/
theorem forall₂_of_declareAll {m : Model} {id : TypeId} :
    ∀ (ts : List TypeDef) (i : Nat) {ds : List Declaration}, declareAll m id i ts = .ok ds →
      ∃ dss, ds = dss.flatten ∧
        List.Forall₂ (fun x ds => declare m x.1 x.2 = .ok ds)
          ((ts.zipIdx i).map fun x => (id.withInner x.2, x.1)) dss := by
  intro ts
  induction ts with
  | nil =>
    intro i ds h
    rw [declareAll] at h
    cases h
    exact ⟨[], rfl, .nil⟩
  | cons t ts ih =>
    intro i ds h
    rw [declareAll] at h
    obtain ⟨first, ht, h⟩ := bind_eq_ok.mp h
    obtain ⟨rest, hr, h⟩ := bind_eq_ok.mp h
    cases h
    obtain ⟨dss, rfl, hf⟩ := ih (i + 1) hr
    exact ⟨first :: dss, rfl, .cons ht hf⟩

theorem forall₂_of_declareEntries {m : Model} {es : List Entry} {ds : List Declaration}
    (h : declareEntries m es = .ok ds) :
    ∃ dss, ds = dss.flatten ∧
      List.Forall₂ (fun x ds => declare m x.1 x.2 = .ok ds)
        (es.map fun e => (e.id, e.type)) dss := by
  unfold declareEntries at h
  obtain ⟨dss, hm, h⟩ := bind_eq_ok.mp h
  cases h
  exact ⟨dss, rfl, List.forall₂_map_left_iff.mpr (forall₂_of_mapM hm)⟩

/-! ## positions -/

/-- the number of structs and enumerations in front of a position -/
def rank (ts : List TypeDef) (i : Nat) : Nat := (ts.take i).countP isDeclared

theorem rank_append (ts us : List TypeDef) (i : Nat) :
    rank (ts ++ us) (ts.length + i) = ts.countP isDeclared + rank us i := by
  unfold rank
  rw [List.take_length_add_append, List.countP_append]

theorem rank_append_left {ts us : List TypeDef} {i : Nat} (h : i < ts.length) :
    rank (ts ++ us) i = rank ts i := by
  unfold rank
  rw [List.take_append_of_le_length (Nat.le_of_lt h)]

theorem getElem?_of_declareEntries {m : Model} {es : List Entry} {ds : List Declaration}
    (h : declareEntries m es = .ok ds) {i : Nat} {e : Entry} (hi : es[i]? = some e)
    (he : isDeclared e.type = true) :
    ∃ d, declare m e.id e.type = .ok [d] ∧ ds[rank (es.map (·.type)) i]? = some d := by
  obtain ⟨dss, rfl, hf⟩ := forall₂_of_declareEntries h
  have hget : (es.map fun e => (e.id, e.type))[i]? = some (e.id, e.type) := by
    rw [List.getElem?_map, hi]
    rfl
  obtain ⟨d, hd, hrank⟩ := getElem?_flatten hf i _ hget he
  refine ⟨d, hd, ?_⟩
  rw [← List.map_take, List.countP_map] at hrank
  unfold rank
  rw [← List.map_take, List.countP_map]
  exact hrank

theorem length_of_declareEntries {m : Model} {es : List Entry} {ds : List Declaration}
    (h : declareEntries m es = .ok ds) : ds.length = (es.map (·.type)).countP isDeclared := by
  obtain ⟨dss, rfl, hf⟩ := forall₂_of_declareEntries h
  rw [length_flatten hf, List.countP_map, List.countP_map]
  rfl

theorem getElem?_of_declareAll {m : Model} {id : TypeId} {ts : List TypeDef}
    {ds : List Declaration} (h : declareAll m id 0 ts = .ok ds) {i : Nat} {t : TypeDef}
    (hi : ts[i]? = some t) (ht : isDeclared t = true) :
    ∃ d, declare m (id.withInner i) t = .ok [d] ∧ ds[rank ts i]? = some d := by
  obtain ⟨dss, rfl, hf⟩ := forall₂_of_declareAll ts 0 h
  have hget : ((ts.zipIdx 0).map fun x => (id.withInner x.2, x.1))[i]? =
      some (id.withInner i, t) := by
    rw [List.getElem?_map, List.getElem?_zipIdx, hi]
    simp
  obtain ⟨d, hd, hrank⟩ := getElem?_flatten hf i _ hget ht
  refine ⟨d, hd, ?_⟩
  have hcount : rank ts i = (((ts.zipIdx 0).map fun x => (id.withInner x.2, x.1)).take i).countP
      fun y => isDeclared y.2 := by
    unfold rank
    rw [← List.map_take, List.countP_map]
    nth_rewrite 1 [← List.zipIdx_map_fst 0 ts]
    rw [← List.map_take, List.countP_map]
    rfl
  rw [hcount]
  exact hrank

/-- the declaration `d` stands at the place `q`, behind the names `ns` -/
structure StandsAt (ds : List Declaration) (q : List Nat) (ns : List Name) (d : Declaration) :
    Prop where
  declaration : declarationAt? ds q = some d
  names : namesAt? ds q = some ns

theorem standsAt_root {ds : List Declaration} {i : Nat} {d : Declaration} (h : ds[i]? = some d) :
    StandsAt ds [i] [d.name] d := by
  refine ⟨h, ?_⟩
  show (ds[i]?.bind fun d => (some []).map (d.name :: ·)) = some [d.name]
  rw [h]
  rfl

theorem declarationAt?_cons (ds : List Declaration) (i : Nat) {is : List Nat} (h : is ≠ []) :
    declarationAt? ds (i :: is) = ds[i]?.bind fun d => declarationAt? d.nested is := by
  cases is with
  | nil => exact absurd rfl h
  | cons j is => rfl

theorem StandsAt.nested {q : List Nat} : ∀ {ds : List Declaration} {ns : List Name}
    {d d' : Declaration} {i : Nat}, StandsAt ds q ns d → d.nested[i]? = some d' →
      StandsAt ds (q ++ [i]) (ns ++ [d'.name]) d' := by
  induction q with
  | nil =>
    intro ds ns d d' i h
    cases h.declaration
  | cons j js ih =>
    intro ds ns d d' i h hi
    obtain ⟨hd, hn⟩ := h
    obtain ⟨x, hx, hxn⟩ := Option.bind_eq_some_iff.mp hn
    obtain ⟨ns', hns, rfl⟩ := Option.map_eq_some_iff.mp hxn
    have hne : js ++ [i] ≠ [] := List.append_ne_nil_of_right_ne_nil _ (List.cons_ne_nil _ _)
    have hstep : StandsAt x.nested (js ++ [i]) (ns' ++ [d'.name]) d' := by
      cases js with
      | nil =>
        cases hns
        have hxd : x = d := Option.some.inj (hx.symm.trans hd)
        exact standsAt_root (hxd ▸ hi)
      | cons j' js =>
        rw [declarationAt?_cons ds j (List.cons_ne_nil _ _), hx] at hd
        exact ih ⟨hd, hns⟩ hi
    constructor
    · rw [List.cons_append, declarationAt?_cons ds j hne, hx]
      exact hstep.declaration
    · show (ds[j]?.bind fun d => (namesAt? d.nested (js ++ [i])).map (d.name :: ·)) = _
      rw [hx, Option.bind_some, hstep.names]
      rfl

/-! ## the places of a model -/

/-- the place of a type outside structs -/
def outerPlace (m : Model) (package : Option Nat) (index : Nat) : List Nat :=
  match package with
  | none => [rank m.types index]
  | some p =>
    let position := rank ((m.packages[p]?.map (·.types)).getD []) index
    if wrapsPackages m then [m.types.countP isDeclared + p, position]
    else [m.types.countP isDeclared + position]

def placeOf (m : Model) (id : TypeId) : List Nat :=
  outerPlace m id.package id.index ++
    (id.inner.map (rank (((m.type? id.outer).map TypeDef.innerTypes).getD []))).toList

theorem declarationPath_topLevelEntry (m : Model) (i : Nat) (t : TypeDef) :
    declarationPath m (Model.topLevelEntry i t) = [t.name] := by
  unfold declarationPath
  cases wrapsPackages m with
  | true => rfl
  | false => rfl

theorem declarationPath_packagedEntry (m : Model) (p : Nat) (package : Package) (i : Nat)
    (t : TypeDef) :
    declarationPath m (Model.packagedEntry p package i t) =
      if wrapsPackages m then [wrapperName package.name, t.name] else [t.name] := by
  unfold declarationPath
  cases wrapsPackages m with
  | true => rfl
  | false => rfl

theorem declarationPath_innerEntry {m : Model} {o : Entry} (ho : o ∈ m.declaredTypes)
    {s : StructType} {inner : List TypeDef} (hs : o.type = .struct s inner) (i : Nat)
    (t : TypeDef) :
    declarationPath m (o.innerEntry s i t) = declarationPath m o ++ [t.name] := by
  unfold declarationPath
  rw [Model.outer_eq_none_of_mem_declaredTypes ho, Entry.name, Entry.name, hs]
  exact congrArg (· ++ [t.name]) (congrArg (· ++ [s.name]) (List.append_nil _).symm)

theorem placeOf_of_mem_declaredTypes {m : Model} {e : Entry} (he : e ∈ m.declaredTypes) :
    placeOf m e.id = outerPlace m e.id.package e.id.index := by
  rw [placeOf, (Model.mem_declaredTypes_iff.mp he).2]
  exact List.append_nil _

theorem placeOf_innerEntry {m : Model} {o : Entry} (ho : o ∈ m.declaredTypes) {s : StructType}
    {inner : List TypeDef} (hs : o.type = .struct s inner) (i : Nat) (t : TypeDef) :
    placeOf m (o.innerEntry s i t).id =
      outerPlace m o.id.package o.id.index ++ [rank inner i] := by
  obtain ⟨he, hin⟩ := Model.mem_declaredTypes_iff.mp ho
  have hout : o.id.outer = o.id := by rw [TypeId.outer, ← hin]
  show outerPlace m o.id.package o.id.index ++
    [rank (((m.type? o.id.outer).map TypeDef.innerTypes).getD []) i] = _
  rw [hout, (Model.entry?_eq_some_iff.mp he).1, hs]
  rfl

/-- the parts of a schema: with wrappers, or all in one list -/
theorem ofModel_cases {m : Model} {c : ProtoConfig} {schema : Schema}
    (h : Schema.ofModel m c = .ok schema) :
    (wrapsPackages m = true ∧ declareEntries m m.topLevelTypes = .ok schema.declarations ∧
      List.Forall₂ (fun x w => wrapper m x.2 x.1 = .ok w) m.packages.zipIdx schema.wrappers) ∨
    (wrapsPackages m = false ∧ declareEntries m m.declaredTypes = .ok schema.declarations ∧
      schema.wrappers = []) := by
  unfold Schema.ofModel at h
  dsimp only at h
  cases hw : wrapsPackages m with
  | true =>
    simp only [hw, if_true] at h
    obtain ⟨ds, hd, h⟩ := bind_eq_ok.mp h
    obtain ⟨ws, hws, h⟩ := bind_eq_ok.mp h
    cases h
    exact Or.inl ⟨rfl, hd, forall₂_of_mapM hws⟩
  | false =>
    simp only [hw, Bool.false_eq_true, if_false] at h
    obtain ⟨ds, hd, h⟩ := bind_eq_ok.mp h
    cases h
    exact Or.inr ⟨rfl, hd, rfl⟩

theorem wrapper_declarations {m : Model} {p : Nat} {package : Package} {w : Wrapper}
    (h : wrapper m p package = .ok w) : w.package = package.name ∧
      declareEntries m (Model.typesOfPackage p package) = .ok w.declarations := by
  unfold wrapper at h
  obtain ⟨ds, hd, h⟩ := bind_eq_ok.mp h
  cases h
  exact ⟨rfl, hd⟩

theorem map_type_topLevelTypes (m : Model) : m.topLevelTypes.map (·.type) = m.types := by
  unfold Model.topLevelTypes
  refine (map_mapIdx_of_eq ?_ _).trans (List.map_id _)
  exact fun _ _ => rfl

theorem map_type_typesOfPackage (p : Nat) (package : Package) :
    (Model.typesOfPackage p package).map (·.type) = package.types := by
  unfold Model.typesOfPackage
  refine (map_mapIdx_of_eq ?_ _).trans (List.map_id _)
  exact fun _ _ => rfl

theorem getElem?_topLevelTypes {m : Model} {i : Nat} {t : TypeDef} (h : m.types[i]? = some t) :
    m.topLevelTypes[i]? = some (Model.topLevelEntry i t) := by
  unfold Model.topLevelTypes
  rw [List.getElem?_mapIdx, h]
  rfl

theorem getElem?_typesOfPackage {p : Nat} {package : Package} {i : Nat} {t : TypeDef}
    (h : package.types[i]? = some t) :
    (Model.typesOfPackage p package)[i]? = some (Model.packagedEntry p package i t) := by
  unfold Model.typesOfPackage
  rw [List.getElem?_mapIdx, h]
  rfl

/-- a file without wrappers has at most one package -/
theorem packages_of_not_wraps {m : Model} (h : wrapsPackages m = false) {p : Nat}
    {package : Package} (hp : m.packages[p]? = some package) :
    p = 0 ∧ m.packagedTypes = Model.typesOfPackage 0 package := by
  unfold wrapsPackages at h
  unfold Model.packagedTypes
  cases hps : m.packages with
  | nil => rw [hps] at hp; cases hp
  | cons a as =>
    cases as with
    | nil =>
      rw [hps] at hp
      cases p with
      | zero =>
        cases hp
        exact ⟨rfl, List.append_nil _⟩
      | succ p => cases hp
    | cons b bs => rw [hps] at h; cases h

section
variable {m : Model} {c : ProtoConfig} {schema : Schema}

theorem getElem?_roots {i : Nat} {d : Declaration} (h : schema.declarations[i]? = some d) :
    schema.roots[i]? = some d := by
  rw [Schema.roots, List.getElem?_append_left (List.getElem?_eq_some_iff.mp h).1]
  exact h

theorem standsAt_topLevel (h : Schema.ofModel m c = .ok schema) {i : Nat} {t : TypeDef}
    (hi : m.types[i]? = some t) (ht : isDeclared t = true) :
    ∃ d, declare m (.topLevel i) t = .ok [d] ∧
      StandsAt schema.roots [rank m.types i] [t.name] d := by
  -- with or without wrappers, the declarations of the file start with the top-level ones
  obtain ⟨es, hes⟩ : ∃ es, declareEntries m (m.topLevelTypes ++ es) = .ok schema.declarations := by
    rcases ofModel_cases h with ⟨_, hd, _⟩ | ⟨_, hd, _⟩
    · exact ⟨[], by rw [List.append_nil]; exact hd⟩
    · exact ⟨m.packagedTypes, hd⟩
  have hlt : i < m.topLevelTypes.length := by
    rw [Model.topLevelTypes, List.length_mapIdx]
    exact (List.getElem?_eq_some_iff.mp hi).1
  have hget : (m.topLevelTypes ++ es)[i]? = some (Model.topLevelEntry i t) := by
    rw [List.getElem?_append_left hlt]
    exact getElem?_topLevelTypes hi
  obtain ⟨d, hd, hroot⟩ := getElem?_of_declareEntries hes hget ht
  rw [List.map_append, map_type_topLevelTypes,
    rank_append_left (List.getElem?_eq_some_iff.mp hi).1] at hroot
  refine ⟨d, hd, ?_⟩
  have hname : d.name = t.name := name_of_declare hd
  rw [← hname]
  exact standsAt_root (getElem?_roots hroot)

theorem length_declarations (h : Schema.ofModel m c = .ok schema) (hw : wrapsPackages m = true) :
    schema.declarations.length = m.types.countP isDeclared := by
  rcases ofModel_cases h with ⟨_, hd, _⟩ | ⟨hw', _⟩
  · rw [length_of_declareEntries hd, map_type_topLevelTypes]
  · rw [hw] at hw'
    cases hw'

/-- the wrappers of packages stand behind the top-level declarations -/
theorem getElem?_roots_wrapper (h : Schema.ofModel m c = .ok schema)
    (hw : wrapsPackages m = true) {p : Nat} {package : Package}
    (hp : m.packages[p]? = some package) :
    ∃ w, wrapper m p package = .ok w ∧ schema.roots[m.types.countP isDeclared + p]? =
      some (.message w.name [] w.declarations []) := by
  rcases ofModel_cases h with ⟨_, _, hws⟩ | ⟨hw', _⟩
  · have hz : m.packages.zipIdx[p]? = some (package, p) := by
      rw [List.getElem?_zipIdx, hp, Nat.zero_add]
      rfl
    obtain ⟨w, hwd, hwget⟩ := getElem?_of_forall₂ hws hz
    refine ⟨w, hwd, ?_⟩
    rw [Schema.roots, ← length_declarations h hw,
      List.getElem?_append_right (Nat.le_add_right _ _), Nat.add_sub_cancel_left,
      List.getElem?_map, hwget]
    rfl
  · rw [hw] at hw'
    cases hw'

theorem standsAt_packaged (h : Schema.ofModel m c = .ok schema) {p i : Nat} {package : Package}
    {t : TypeDef} (hp : m.packages[p]? = some package) (hi : package.types[i]? = some t)
    (ht : isDeclared t = true) :
    ∃ d, declare m (.packaged p i) t = .ok [d] ∧
      StandsAt schema.roots (outerPlace m (some p) i)
        (declarationPath m (Model.packagedEntry p package i t)) d := by
  rw [declarationPath_packagedEntry]
  unfold outerPlace
  dsimp only
  rw [hp]
  rcases ofModel_cases h with ⟨hw, _, _⟩ | ⟨hw, hd, _⟩
  · -- the declaration stands inside the wrapper of the package
    obtain ⟨w, hwd, hroot⟩ := getElem?_roots_wrapper h hw hp
    obtain ⟨hwname, hwdecl⟩ := wrapper_declarations hwd
    obtain ⟨d, hd, hget⟩ := getElem?_of_declareEntries hwdecl (getElem?_typesOfPackage hi) ht
    rw [map_type_typesOfPackage] at hget
    have hstands := (standsAt_root hroot).nested hget
    rw [name_of_declare hd] at hstands
    refine ⟨d, hd, ?_⟩
    rw [if_pos hw, if_pos hw, ← hwname]
    exact hstands
  · -- the types of the only package are declared behind the top-level ones
    obtain ⟨rfl, hpt⟩ := packages_of_not_wraps hw hp
    have hget : m.declaredTypes[m.topLevelTypes.length + i]? =
        some (Model.packagedEntry 0 package i t) := by
      rw [Model.declaredTypes, hpt, List.getElem?_append_right (Nat.le_add_right _ _),
        Nat.add_sub_cancel_left]
      exact getElem?_typesOfPackage hi
    obtain ⟨d, hdd, hdecl⟩ := getElem?_of_declareEntries hd hget ht
    have hlen : m.topLevelTypes.length = m.types.length := by
      rw [Model.topLevelTypes, List.length_mapIdx]
    rw [Model.declaredTypes, hpt, List.map_append, map_type_topLevelTypes,
      map_type_typesOfPackage, hlen, rank_append] at hdecl
    have hname : d.name = t.name := name_of_declare hdd
    refine ⟨d, hdd, ?_⟩
    rw [if_neg (hw ▸ Bool.false_ne_true), if_neg (hw ▸ Bool.false_ne_true), ← hname]
    exact standsAt_root (getElem?_roots hdecl)

/-- the declaration of a type stands at its place, behind the names of its path -/
theorem standsAt_placeOf (h : Schema.ofModel m c = .ok schema) {e : Entry} (he : e ∈ m.allTypes)
    (ht : isDeclared e.type = true) :
    ∃ d, declare m e.id e.type = .ok [d] ∧
      StandsAt schema.roots (placeOf m e.id) (declarationPath m e) d := by
  have hdeclared : ∀ {e : Entry}, e ∈ m.declaredTypes → isDeclared e.type = true →
      ∃ d, declare m e.id e.type = .ok [d] ∧
        StandsAt schema.roots (outerPlace m e.id.package e.id.index) (declarationPath m e) d := by
    intro e he ht
    rcases List.mem_append.mp he with he | he
    · obtain ⟨i, t, hi, rfl⟩ := Model.mem_topLevelTypes.mp he
      rw [declarationPath_topLevelEntry]
      exact standsAt_topLevel h hi ht
    · obtain ⟨p, package, i, t, hp, hi, rfl⟩ := Model.mem_packagedTypes.mp he
      exact standsAt_packaged h hp hi ht
  rcases List.mem_append.mp he with he | he
  · rw [placeOf_of_mem_declaredTypes he]
    exact hdeclared he ht
  · obtain ⟨o, ho, he⟩ := List.mem_flatMap.mp he
    obtain ⟨s, inner, i, t, hs, hi, rfl⟩ := Entry.mem_inners.mp he
    obtain ⟨d, hd, hstands⟩ := hdeclared ho (by rw [hs]; rfl)
    rw [hs] at hd
    obtain ⟨d', hd', hget⟩ := getElem?_of_declareAll (declare_struct hd).1 hi ht
    refine ⟨d', hd', ?_⟩
    rw [declarationPath_innerEntry ho hs, placeOf_innerEntry ho hs]
    have hname : d'.name = t.name := name_of_declare hd'
    rw [← hname]
    exact hstands.nested hget

end

end Proto

end TypeModel
