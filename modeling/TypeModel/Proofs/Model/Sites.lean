import TypeModel.Model.Site
import TypeModel.Proofs.Model.Entries

/-!
# Which references a declaration has

* `base?_of_mem_sites`, `mem_sites_of_base?`   a site is the base exactly where the type has one;
* `TypeDef.Mentions t r`                       `r` stands in `t` and is no base;
* `TypeDef.mapRefs_congr`                      only these references matter to a change.

A type mentions the value and key types of its fields, the results and parameters of its methods,
the parameters of its constructors, and what it stands for.
-/

namespace TypeModel

/-! ## bases -/

theorem mem_toList_map {α β : Type} {o : Option α} {f : α → β} {y : β} :
    y ∈ (o.map f).toList ↔ ∃ x, o = some x ∧ y = f x := by
  cases o <;> simp

theorem StructType.mem_sites {s : StructType} {x : Site} :
    x ∈ s.sites ↔
      (∃ base, s.base = some base ∧ x = { role := .base, ref := base }) ∨
      (∃ i f, s.fields[i]? = some f ∧ x ∈ Field.sites i f) ∨
      (∃ i f, s.methods[i]? = some f ∧ x ∈ Method.sites i f) ∨
      (∃ i c, s.constructors[i]? = some c ∧ x ∈ Constructor.sites s.name i c) := by
  unfold StructType.sites
  rw [List.mem_append, List.mem_append, List.mem_append, mem_toList_map, mem_mapIdx_flatten_iff,
    mem_mapIdx_flatten_iff, mem_mapIdx_flatten_iff, or_assoc, or_assoc]

theorem Field.mem_sites {i : Nat} {f : Field} {x : Site} :
    x ∈ Field.sites i f ↔
      x = { role := .field i, ref := f.typeRef, member := some (f.name, f.line) } ∨
      ∃ key, f.key = some key ∧
        x = { role := .fieldKey i, ref := key, member := some (f.name, f.line) } := by
  unfold Field.sites
  rw [List.mem_cons, mem_toList_map]

theorem Method.mem_sites {i : Nat} {f : Method} {x : Site} :
    x ∈ Method.sites i f ↔
      (∃ r, f.returns = some r ∧
        x = { role := .returns i, ref := r, member := some (f.name, f.line) }) ∨
      ∃ j p, f.parameters[j]? = some p ∧
        x = { role := .methodParameter i j, ref := p.typeRef,
              member := some (f.name, f.line) } := by
  unfold Method.sites
  rw [List.mem_append, mem_toList_map, mem_mapIdx_iff]

theorem Constructor.mem_sites {owner : Name} {i : Nat} {c : Constructor} {x : Site} :
    x ∈ Constructor.sites owner i c ↔ ∃ j p, c.parameters[j]? = some p ∧
      x = { role := .constructorParameter i j, ref := p.typeRef, member := some (owner, c.line) } :=
  mem_mapIdx_iff

theorem StructType.base_of_mem_sites {s : StructType} {x : Site} (hx : x ∈ s.sites)
    (hr : x.role = .base) : s.base = some x.ref := by
  rcases StructType.mem_sites.mp hx with ⟨base, hb, rfl⟩ | ⟨i, f, _, hx⟩ | ⟨i, f, _, hx⟩ |
    ⟨i, c, _, hx⟩
  · exact hb
  · rcases Field.mem_sites.mp hx with rfl | ⟨_, _, rfl⟩ <;> cases hr
  · rcases Method.mem_sites.mp hx with ⟨_, _, rfl⟩ | ⟨_, _, _, rfl⟩ <;> cases hr
  · obtain ⟨_, _, _, rfl⟩ := Constructor.mem_sites.mp hx
    cases hr

namespace TypeDef

theorem base?_of_mem_sites {t : TypeDef} {x : Site} (hx : x ∈ t.sites) (hr : x.role = .base) :
    t.base? = some x.ref := by
  cases t with
  | struct s inner => exact StructType.base_of_mem_sites hx hr
  | enumeration e =>
    obtain ⟨base, hb, rfl⟩ := mem_toList_map.mp hx
    exact hb
  | array a =>
    obtain ⟨r, _, rfl⟩ := mem_toList_map.mp hx
    cases hr
  | «alias» a =>
    obtain ⟨r, _, rfl⟩ := mem_toList_map.mp hx
    cases hr

theorem mem_sites_of_base? {t : TypeDef} {r : TypeRef} (h : t.base? = some r) :
    { role := .base, ref := r } ∈ t.sites := by
  cases t with
  | struct s inner => exact StructType.mem_sites.mpr (Or.inl ⟨r, h, rfl⟩)
  | enumeration e => exact mem_toList_map.mpr ⟨r, h, rfl⟩
  | array a => cases h
  | «alias» a => cases h

/-! ## other references -/

def Mentions (t : TypeDef) (r : TypeRef) : Prop := ∃ x ∈ t.sites, x.role ≠ .base ∧ x.ref = r

theorem mentions_expands? {t : TypeDef} {r : TypeRef} (h : t.expands? = some r) : t.Mentions r := by
  cases t with
  | struct s inner => cases h
  | enumeration e => cases h
  | array a => exact ⟨_, mem_toList_map.mpr ⟨r, h, rfl⟩, nofun, rfl⟩
  | «alias» a => exact ⟨_, mem_toList_map.mpr ⟨r, h, rfl⟩, nofun, rfl⟩

section
variable {s : StructType} {inner : List TypeDef}

theorem mentions_field {f : Field} (hf : f ∈ s.fields) :
    (TypeDef.struct s inner).Mentions f.typeRef := by
  obtain ⟨i, hi⟩ := List.mem_iff_getElem?.mp hf
  exact ⟨_, StructType.mem_sites.mpr (Or.inr (Or.inl ⟨i, f, hi, Field.mem_sites.mpr
    (Or.inl rfl)⟩)), nofun, rfl⟩

theorem mentions_key {f : Field} {key : TypeRef} (hf : f ∈ s.fields) (hk : f.key = some key) :
    (TypeDef.struct s inner).Mentions key := by
  obtain ⟨i, hi⟩ := List.mem_iff_getElem?.mp hf
  exact ⟨_, StructType.mem_sites.mpr (Or.inr (Or.inl ⟨i, f, hi, Field.mem_sites.mpr
    (Or.inr ⟨key, hk, rfl⟩)⟩)), nofun, rfl⟩

theorem mentions_returns {f : Method} {r : TypeRef} (hf : f ∈ s.methods)
    (hr : f.returns = some r) : (TypeDef.struct s inner).Mentions r := by
  obtain ⟨i, hi⟩ := List.mem_iff_getElem?.mp hf
  exact ⟨_, StructType.mem_sites.mpr (Or.inr (Or.inr (Or.inl ⟨i, f, hi, Method.mem_sites.mpr
    (Or.inl ⟨r, hr, rfl⟩)⟩))), nofun, rfl⟩

theorem mentions_methodParameter {f : Method} {p : Parameter} (hf : f ∈ s.methods)
    (hp : p ∈ f.parameters) : (TypeDef.struct s inner).Mentions p.typeRef := by
  obtain ⟨i, hi⟩ := List.mem_iff_getElem?.mp hf
  obtain ⟨j, hj⟩ := List.mem_iff_getElem?.mp hp
  exact ⟨_, StructType.mem_sites.mpr (Or.inr (Or.inr (Or.inl ⟨i, f, hi, Method.mem_sites.mpr
    (Or.inr ⟨j, p, hj, rfl⟩)⟩))), nofun, rfl⟩

theorem mentions_constructorParameter {c : Constructor} {p : Parameter} (hc : c ∈ s.constructors)
    (hp : p ∈ c.parameters) : (TypeDef.struct s inner).Mentions p.typeRef := by
  obtain ⟨i, hi⟩ := List.mem_iff_getElem?.mp hc
  obtain ⟨j, hj⟩ := List.mem_iff_getElem?.mp hp
  exact ⟨_, StructType.mem_sites.mpr (Or.inr (Or.inr (Or.inr ⟨i, c, hi,
    Constructor.mem_sites.mpr ⟨j, p, hj, rfl⟩⟩))), nofun, rfl⟩

end

/-! ## changed references -/

/-- a change of references depends on what it does to those of the type -/
theorem mapRefs_congr {t : TypeDef} {fb gb f g : TypeRef → TypeRef}
    (hb : ∀ r, t.base? = some r → fb r = gb r) (h : ∀ r, t.Mentions r → f r = g r) :
    t.mapRefs fb f = t.mapRefs gb g := by
  cases t with
  | struct s inner =>
    have hparameters : ∀ ps : List Parameter,
        (∀ p ∈ ps, (TypeDef.struct s inner).Mentions p.typeRef) →
        ps.map (Parameter.mapRef f) = ps.map (Parameter.mapRef g) := by
      intro ps hps
      refine List.map_congr_left fun p hp => ?_
      unfold Parameter.mapRef
      rw [h _ (hps p hp)]
    have hfields : s.fields.map (Field.mapRefs f) = s.fields.map (Field.mapRefs g) := by
      refine List.map_congr_left fun x hx => ?_
      unfold Field.mapRefs
      rw [h _ (mentions_field hx), Option.map_congr fun key hk => h _ (mentions_key hx hk)]
    have hmethods : s.methods.map (Method.mapRefs f) = s.methods.map (Method.mapRefs g) := by
      refine List.map_congr_left fun x hx => ?_
      unfold Method.mapRefs
      rw [Option.map_congr fun r hr => h _ (mentions_returns hx hr),
        hparameters _ fun p hp => mentions_methodParameter hx hp]
    have hconstructors :
        s.constructors.map (Constructor.mapRefs f) = s.constructors.map (Constructor.mapRefs g) := by
      refine List.map_congr_left fun x hx => ?_
      unfold Constructor.mapRefs
      rw [hparameters _ fun p hp => mentions_constructorParameter hx hp]
    have hbase : s.base.map fb = s.base.map gb := Option.map_congr fun r hr => hb r hr
    show TypeDef.struct (s.mapRefs fb f) inner = .struct (s.mapRefs gb g) inner
    unfold StructType.mapRefs
    rw [hbase, hfields, hmethods, hconstructors]
  | enumeration e =>
    have hbase : e.base.map fb = e.base.map gb := Option.map_congr fun r hr => hb r hr
    simp only [mapRefs, hbase]
  | array a =>
    have helement : a.elementType.map f = a.elementType.map g :=
      Option.map_congr fun r hr => h r (mentions_expands? hr)
    simp only [mapRefs, helement]
  | «alias» a =>
    have hactual : a.actualType.map f = a.actualType.map g :=
      Option.map_congr fun r hr => h r (mentions_expands? hr)
    simp only [mapRefs, hactual]

end TypeDef

end TypeModel
