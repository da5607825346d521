import Mathlib.Data.List.Basic
import TypeModel.Model.Site
import TypeModel.Proofs.Model.Entries

/-!
# Changing the references of a model

A change of references gives every reference of a listed type a new form: `fb id kind` at the base
of the declaration `id`, and `f` at every other site.  Everything else stays, and so do the types
nested deeper than one level.

* `Model.mapRefs fb f m`        the changed model;
* `Entry.mapRefs fb f e`        an entry of it;
* `declaredTypes_mapRefs`       its entries, in order, and the same for its other lists;
* `Entry.sites_mapRefs`         the sites of an entry, each with its reference changed;
* `Entry.innerTypes_mapRefs`    what is nested deeper stays;
* `Model.mapRefs_mapRefs`       two changes in a row are one.
-/

namespace TypeModel

/-! ## sites after a change of references -/

/-- a site with `fb` applied to its reference if it is a base, and `f` otherwise -/
def Site.mapRef (fb f : TypeRef → TypeRef) (s : Site) : Site :=
  { s with ref := if s.role = .base then fb s.ref else f s.ref }

theorem Field.sites_mapRefs (fb f : TypeRef → TypeRef) (i : Nat) (x : Field) :
    Field.sites i (x.mapRefs f) = (Field.sites i x).map (Site.mapRef fb f) := by
  unfold Field.sites Field.mapRefs
  cases x.key <;> simp [Site.mapRef]

theorem Method.sites_mapRefs (fb f : TypeRef → TypeRef) (i : Nat) (x : Method) :
    Method.sites i (x.mapRefs f) = (Method.sites i x).map (Site.mapRef fb f) := by
  unfold Method.sites Method.mapRefs Parameter.mapRef
  cases x.returns <;> simp [Site.mapRef, List.mapIdx_eq_zipIdx_map, List.zipIdx_map]

theorem Constructor.sites_mapRefs (fb f : TypeRef → TypeRef) (owner : Name) (i : Nat)
    (c : Constructor) :
    Constructor.sites owner i (c.mapRefs f) =
      (Constructor.sites owner i c).map (Site.mapRef fb f) := by
  unfold Constructor.sites Constructor.mapRefs Parameter.mapRef
  simp [Site.mapRef, List.mapIdx_eq_zipIdx_map, List.zipIdx_map]

/-- a list of members whose sites change one by one -/
theorem flatten_mapIdx_map {α : Type} (sites : Nat → α → List Site) (change : α → α)
    (g : Site → Site) (h : ∀ i x, sites i (change x) = (sites i x).map g) (xs : List α) :
    ((xs.map change).mapIdx sites).flatten = ((xs.mapIdx sites).flatten).map g := by
  rw [List.map_flatten]
  congr 1
  apply List.ext_getElem?
  intro i
  rw [List.getElem?_mapIdx, List.getElem?_map, List.getElem?_map, List.getElem?_mapIdx]
  cases xs[i]? with
  | none => rfl
  | some x => exact congrArg some (h i x)

theorem StructType.sites_mapRefs (fb f : TypeRef → TypeRef) (s : StructType) :
    (s.mapRefs fb f).sites = s.sites.map (Site.mapRef fb f) := by
  unfold StructType.sites StructType.mapRefs
  rw [List.map_append, List.map_append, List.map_append,
    flatten_mapIdx_map _ _ _ (Field.sites_mapRefs fb f),
    flatten_mapIdx_map _ _ _ (Method.sites_mapRefs fb f),
    flatten_mapIdx_map _ _ _ (Constructor.sites_mapRefs fb f s.name)]
  cases s.base <;> rfl

theorem TypeDef.sites_mapRefs (fb f : TypeRef → TypeRef) (t : TypeDef) :
    (t.mapRefs fb f).sites = t.sites.map (Site.mapRef fb f) := by
  cases t with
  | struct s inner => exact StructType.sites_mapRefs fb f s
  | enumeration e =>
    cases h : e.base <;> simp [TypeDef.mapRefs, TypeDef.sites, Site.mapRef, h]
  | array a =>
    cases h : a.elementType <;> simp [TypeDef.mapRefs, TypeDef.sites, Site.mapRef, h]
  | «alias» a =>
    cases h : a.actualType <;> simp [TypeDef.mapRefs, TypeDef.sites, Site.mapRef, h]

/-! ## changed declarations -/

section
variable (fb : TypeId → TypeKind → TypeRef → TypeRef) (f : TypeRef → TypeRef)

def TypeDef.mapRefsAt (id : TypeId) (t : TypeDef) : TypeDef := t.mapRefs (fb id t.kind) f

/-- a type outside structs, changed with the types inside it -/
def TypeDef.mapRefsWithInner (id : TypeId) (t : TypeDef) : TypeDef :=
  match t.mapRefsAt fb f id with
  | .struct s inner => .struct s (inner.mapIdx fun i x => x.mapRefsAt fb f (id.withInner i))
  | t' => t'

def Package.mapRefs (p : Nat) (package : Package) : Package :=
  { package with
    types := package.types.mapIdx fun i t => t.mapRefsWithInner fb f (.packaged p i) }

/-- an entry of the changed model -/
def Entry.mapRefs (e : Entry) : Entry :=
  { id := e.id
    package := e.package.map (Package.mapRefs fb f (e.id.package.getD 0))
    outer := e.outer.map (StructType.mapRefs (fb e.id.outer .struct) f)
    type := if e.id.isInner then e.type.mapRefsAt fb f e.id
      else e.type.mapRefsWithInner fb f e.id }

def Model.mapRefs (m : Model) : Model := m.mapTypes (TypeDef.mapRefsAt fb f)

end

section
variable {fb : TypeId → TypeKind → TypeRef → TypeRef} {f : TypeRef → TypeRef}

theorem TypeDef.name_mapRefsAt (id : TypeId) (t : TypeDef) :
    (t.mapRefsAt fb f id).name = t.name := by cases t <;> rfl

theorem TypeDef.kind_mapRefsAt (id : TypeId) (t : TypeDef) :
    (t.mapRefsAt fb f id).kind = t.kind := by cases t <;> rfl

theorem TypeDef.line_mapRefsAt (id : TypeId) (t : TypeDef) :
    (t.mapRefsAt fb f id).line = t.line := by cases t <;> rfl

/-- a fact about a type that does not depend on the types inside it holds whether those are changed
or not -/
theorem TypeDef.mapRefsWithInner_eq {α : Type} (id : TypeId) (t : TypeDef) (g : TypeDef → α)
    (hg : ∀ s inner inner', g (.struct s inner) = g (.struct s inner')) :
    g (t.mapRefsWithInner fb f id) = g (t.mapRefsAt fb f id) := by
  cases t with
  | struct s inner => exact hg _ _ _
  | enumeration e => rfl
  | array a => rfl
  | «alias» a => rfl

namespace Entry

theorem type_mapRefs {α : Type} (e : Entry) (g : TypeDef → α)
    (hg : ∀ s inner inner', g (.struct s inner) = g (.struct s inner')) :
    g (e.mapRefs fb f).type = g (e.type.mapRefsAt fb f e.id) := by
  show g (if e.id.isInner then _ else _) = _
  split
  · rfl
  · exact e.type.mapRefsWithInner_eq e.id g hg

theorem name_mapRefs (e : Entry) : (e.mapRefs fb f).name = e.name :=
  (e.type_mapRefs TypeDef.name fun _ _ _ => rfl).trans (e.type.name_mapRefsAt e.id)

theorem kind_mapRefs (e : Entry) : (e.mapRefs fb f).type.kind = e.type.kind :=
  (e.type_mapRefs TypeDef.kind fun _ _ _ => rfl).trans (e.type.kind_mapRefsAt e.id)

theorem sites_mapRefs (e : Entry) :
    (e.mapRefs fb f).sites = e.sites.map (Site.mapRef (fb e.id e.type.kind) f) :=
  (e.type_mapRefs TypeDef.sites fun _ _ _ => rfl).trans (TypeDef.sites_mapRefs _ _ _)

theorem scopes_mapRefs (e : Entry) : (e.mapRefs fb f).scopes = e.scopes := by
  unfold Entry.scopes Entry.mapRefs
  cases e.package <;> cases e.outer <;> rfl

theorem qualifiedName_mapRefs (e : Entry) : (e.mapRefs fb f).qualifiedName = e.qualifiedName := by
  unfold Entry.qualifiedName
  rw [scopes_mapRefs, name_mapRefs]

theorem location_mapRefs (e : Entry) : (e.mapRefs fb f).location = e.location := by
  have hline : (e.mapRefs fb f).type.line = e.type.line :=
    (e.type_mapRefs TypeDef.line fun _ _ _ => rfl).trans (e.type.line_mapRefsAt e.id)
  unfold Entry.location
  rw [qualifiedName_mapRefs, hline]

/-- the types inside an inner type stay -/
theorem innerTypes_mapRefs {e : Entry} (h : e.id.isInner = true) :
    (e.mapRefs fb f).type.innerTypes = e.type.innerTypes := by
  show (if e.id.isInner then e.type.mapRefsAt fb f e.id else _).innerTypes = _
  rw [if_pos h]
  cases e.type <;> rfl

theorem inners_mapRefs (e : Entry) (h : e.id.inner = none) :
    (e.mapRefs fb f).inners = e.inners.map (Entry.mapRefs fb f) := by
  have hid : e.id.outer = e.id := by rw [TypeId.outer, ← h]
  have hin : e.id.isInner = false := by rw [TypeId.isInner, h]; rfl
  obtain ⟨id, package, outer, t⟩ := e
  replace hid : id.outer = id := hid
  replace hin : id.isInner = false := hin
  cases t with
  | struct s inner =>
    have ht : (Entry.mapRefs fb f ⟨id, package, outer, .struct s inner⟩).type =
        .struct (s.mapRefs (fb id .struct) f)
          (inner.mapIdx fun i x => x.mapRefsAt fb f (id.withInner i)) := by
      unfold Entry.mapRefs
      simp only [hin]
      rfl
    unfold Entry.inners
    rw [ht]
    show List.mapIdx _ (List.mapIdx _ inner) = List.map _ (List.mapIdx _ inner)
    rw [List.mapIdx_mapIdx]
    apply List.ext_getElem?
    intro i
    rw [List.getElem?_mapIdx, List.getElem?_map, List.getElem?_mapIdx]
    cases inner[i]? with
    | none => rfl
    | some x =>
      refine congrArg some ?_
      have ho : s.mapRefs (fb (id.withInner i).outer .struct) f = s.mapRefs (fb id .struct) f := by
        rw [TypeId.outer_withInner, hid]
      unfold Entry.innerEntry Entry.mapRefs
      simp only [Option.map_some, ho]
      rfl
  | enumeration x =>
    simp [Entry.inners, Entry.mapRefs, hin, TypeDef.mapRefsWithInner, TypeDef.mapRefsAt,
      TypeDef.mapRefs]
  | array a =>
    simp [Entry.inners, Entry.mapRefs, hin, TypeDef.mapRefsWithInner, TypeDef.mapRefsAt,
      TypeDef.mapRefs]
  | «alias» a =>
    simp [Entry.inners, Entry.mapRefs, hin, TypeDef.mapRefsWithInner, TypeDef.mapRefsAt,
      TypeDef.mapRefs]

end Entry

/-! ## lists of a changed model -/

/-- a list of entries whose types are changed one by one -/
theorem mapIdx_mapIdx_map {α β γ : Type} {change : Nat → α → α} {build : Nat → α → β}
    {build' : Nat → α → γ} {g : γ → β} (h : ∀ i x, build i (change i x) = g (build' i x))
    (xs : List α) : (xs.mapIdx change).mapIdx build = (xs.mapIdx build').map g := by
  rw [List.mapIdx_mapIdx]
  apply List.ext_getElem?
  intro i
  rw [List.getElem?_mapIdx, List.getElem?_map, List.getElem?_mapIdx]
  cases xs[i]? with
  | none => rfl
  | some x => exact congrArg some (h i x)

namespace Model

theorem topLevelTypes_mapRefs (m : Model) :
    (m.mapRefs fb f).topLevelTypes = m.topLevelTypes.map (Entry.mapRefs fb f) := by
  have hentry : ∀ i t, topLevelEntry i (t.mapRefsWithInner fb f (.topLevel i)) =
      (topLevelEntry i t).mapRefs fb f := fun _ _ => rfl
  exact mapIdx_mapIdx_map hentry m.types

theorem typesOfPackage_mapRefs (p : Nat) (package : Package) :
    typesOfPackage p (package.mapRefs fb f p) =
      (typesOfPackage p package).map (Entry.mapRefs fb f) := by
  have hentry : ∀ i t, packagedEntry p (package.mapRefs fb f p) i
      (t.mapRefsWithInner fb f (.packaged p i)) = (packagedEntry p package i t).mapRefs fb f :=
    fun _ _ => rfl
  exact mapIdx_mapIdx_map hentry package.types

theorem packages_mapRefs (m : Model) :
    (m.mapRefs fb f).packages = m.packages.mapIdx (Package.mapRefs fb f) := rfl

theorem packagedTypes_mapRefs (m : Model) :
    (m.mapRefs fb f).packagedTypes = m.packagedTypes.map (Entry.mapRefs fb f) := by
  unfold packagedTypes
  rw [packages_mapRefs, List.map_flatten]
  exact congrArg List.flatten (mapIdx_mapIdx_map typesOfPackage_mapRefs m.packages)

theorem declaredTypes_mapRefs (m : Model) :
    (m.mapRefs fb f).declaredTypes = m.declaredTypes.map (Entry.mapRefs fb f) := by
  unfold declaredTypes
  rw [topLevelTypes_mapRefs, packagedTypes_mapRefs, List.map_append]

theorem inner_eq_none_of_mem_declaredTypes {m : Model} {e : Entry} (he : e ∈ m.declaredTypes) :
    e.id.inner = none := (mem_declaredTypes_iff.mp he).2

theorem innerTypes_mapRefs (m : Model) :
    (m.mapRefs fb f).innerTypes = m.innerTypes.map (Entry.mapRefs fb f) := by
  unfold innerTypes
  rw [declaredTypes_mapRefs, List.flatMap_map, List.map_flatMap]
  exact List.flatMap_congr fun e he => e.inners_mapRefs (inner_eq_none_of_mem_declaredTypes he)

theorem allTypes_mapRefs (m : Model) :
    (m.mapRefs fb f).allTypes = m.allTypes.map (Entry.mapRefs fb f) := by
  unfold allTypes
  rw [declaredTypes_mapRefs, innerTypes_mapRefs, List.map_append]

theorem walk_mapRefs (m : Model) :
    (m.mapRefs fb f).walk = m.walk.map (Entry.mapRefs fb f) := by
  unfold walk
  rw [declaredTypes_mapRefs, List.flatMap_map, List.map_flatMap]
  refine List.flatMap_congr fun e he => ?_
  rw [e.inners_mapRefs (inner_eq_none_of_mem_declaredTypes he)]
  rfl

end Model

end

/-! ## two changes in a row -/

section
variable {fb gb : TypeId → TypeKind → TypeRef → TypeRef} {f g : TypeRef → TypeRef}

theorem Field.mapRefs_mapRefs (x : Field) : (x.mapRefs g).mapRefs f = x.mapRefs (f ∘ g) := by
  unfold Field.mapRefs
  simp

theorem Method.mapRefs_mapRefs (x : Method) : (x.mapRefs g).mapRefs f = x.mapRefs (f ∘ g) := by
  unfold Method.mapRefs Parameter.mapRef
  simp

theorem Constructor.mapRefs_mapRefs (x : Constructor) :
    (x.mapRefs g).mapRefs f = x.mapRefs (f ∘ g) := by
  unfold Constructor.mapRefs Parameter.mapRef
  simp

theorem StructType.mapRefs_mapRefs {fb gb : TypeRef → TypeRef} (s : StructType) :
    (s.mapRefs gb g).mapRefs fb f = s.mapRefs (fb ∘ gb) (f ∘ g) := by
  unfold StructType.mapRefs
  simp [Function.comp_def, Field.mapRefs_mapRefs, Method.mapRefs_mapRefs,
    Constructor.mapRefs_mapRefs]

theorem TypeDef.mapRefs_mapRefs {fb gb : TypeRef → TypeRef} (t : TypeDef) :
    (t.mapRefs gb g).mapRefs fb f = t.mapRefs (fb ∘ gb) (f ∘ g) := by
  cases t with
  | struct s inner => exact congrArg (TypeDef.struct · inner) s.mapRefs_mapRefs
  | enumeration e => simp [TypeDef.mapRefs]
  | array a => simp [TypeDef.mapRefs]
  | «alias» a => simp [TypeDef.mapRefs]

theorem TypeDef.mapRefsAt_mapRefsAt (id : TypeId) (t : TypeDef) :
    (t.mapRefsAt gb g id).mapRefsAt fb f id =
      t.mapRefsAt (fun id kind => fb id kind ∘ gb id kind) (f ∘ g) id := by
  have hkind := @TypeDef.kind_mapRefsAt gb g id t
  unfold TypeDef.mapRefsAt at hkind ⊢
  rw [hkind, TypeDef.mapRefs_mapRefs]

theorem TypeDef.mapRefsWithInner_mapRefsWithInner (id : TypeId) (t : TypeDef) :
    (t.mapRefsWithInner gb g id).mapRefsWithInner fb f id =
      t.mapRefsWithInner (fun id kind => fb id kind ∘ gb id kind) (f ∘ g) id := by
  cases t with
  | struct s inner =>
    show TypeDef.struct _ (List.mapIdx _ (List.mapIdx _ inner)) = TypeDef.struct _ _
    rw [List.mapIdx_mapIdx, StructType.mapRefs_mapRefs]
    refine congrArg _ (congrArg (inner.mapIdx ·) (funext₂ fun i x => ?_))
    exact x.mapRefsAt_mapRefsAt (id.withInner i)
  | enumeration e => exact TypeDef.mapRefsAt_mapRefsAt id (.enumeration e)
  | array a => exact TypeDef.mapRefsAt_mapRefsAt id (.array a)
  | «alias» a => exact TypeDef.mapRefsAt_mapRefsAt id (.alias a)

theorem Package.mapRefs_mapRefs (p : Nat) (package : Package) :
    (package.mapRefs gb g p).mapRefs fb f p =
      package.mapRefs (fun id kind => fb id kind ∘ gb id kind) (f ∘ g) p := by
  unfold Package.mapRefs
  simp only [List.mapIdx_mapIdx, Function.comp_def]
  simp only [TypeDef.mapRefsWithInner_mapRefsWithInner, Function.comp_def]

theorem Model.mapRefs_mapRefs (m : Model) :
    (m.mapRefs gb g).mapRefs fb f =
      m.mapRefs (fun id kind => fb id kind ∘ gb id kind) (f ∘ g) := by
  have htypes : ∀ i, ∀ t : TypeDef,
      (t.mapRefsWithInner gb g (.topLevel i)).mapRefsWithInner fb f (.topLevel i) =
        t.mapRefsWithInner (fun id kind => fb id kind ∘ gb id kind) (f ∘ g) (.topLevel i) :=
    fun i t => t.mapRefsWithInner_mapRefsWithInner (.topLevel i)
  have hpackages : ∀ p, ∀ package : Package, (package.mapRefs gb g p).mapRefs fb f p = _ :=
    fun p package => package.mapRefs_mapRefs p
  show Model.mk m.name m.primitives (List.mapIdx _ (List.mapIdx _ m.types))
      (List.mapIdx _ (List.mapIdx _ m.packages)) = _
  rw [List.mapIdx_mapIdx, List.mapIdx_mapIdx]
  exact congrArg₂ (Model.mk m.name m.primitives)
    (congrArg (m.types.mapIdx ·) (funext₂ htypes))
    (congrArg (m.packages.mapIdx ·) (funext₂ hpackages))

end

end TypeModel
