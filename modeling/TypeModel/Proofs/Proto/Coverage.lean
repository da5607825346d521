import TypeModel.Proofs.Proto.References

/-!
# What a schema declares

A schema is written in two passes: the declarations of the file, and those of each package inside
a message, where packages are wrapped.  A type name in a line is spelled by a function of its own.

* `Declaration.paths d`     the paths of a declaration and of all inside it, outermost first;
* `Schema.paths s`          those of a schema, the messages around packages left out;
* `TypeDef.paths t`         the paths of the structs and enumerations in a type;
* `schemaPaths m`           those of a model, behind the message around the package if there is one;
* `paths_of_ofModel`        a schema declares the paths of its model, each as often, in order;
* `declarationPath_mem`     the path of a reference is among them.
-/

namespace TypeModel

/-! ## paths -/

namespace Proto

mutual

def Declaration.paths : Declaration → List (List Name)
  | .message name _ nested _ => [name] :: (Declaration.pathsOfAll nested).map (name :: ·)
  | .enumeration name _ _ => [[name]]

def Declaration.pathsOfAll : List Declaration → List (List Name)
  | [] => []
  | d :: ds => d.paths ++ Declaration.pathsOfAll ds

end

/-- the messages around packages only lead the paths of what is inside -/
def Schema.paths (s : Schema) : List (List Name) :=
  Declaration.pathsOfAll s.declarations ++
    s.wrappers.flatMap fun w => (Declaration.pathsOfAll w.declarations).map (w.name :: ·)

end Proto

namespace TypeDef

mutual

def paths : TypeDef → List (List Name)
  | .struct s inner => [s.name] :: (pathsOfAll inner).map (s.name :: ·)
  | .enumeration e => [[e.name]]
  | .array _ | .alias _ => []

def pathsOfAll : List TypeDef → List (List Name)
  | [] => []
  | t :: ts => t.paths ++ pathsOfAll ts

end

theorem pathsOfAll_eq_flatMap (ts : List TypeDef) : pathsOfAll ts = ts.flatMap paths := by
  induction ts with
  | nil => rfl
  | cons t ts ih => rw [pathsOfAll, List.flatMap_cons, ih]

theorem name_mem_paths {t : TypeDef} (h : Proto.isDeclared t = true) : [t.name] ∈ t.paths := by
  cases t with
  | struct s inner => exact List.mem_cons_self
  | enumeration e => exact List.mem_cons_self
  | array a => cases h
  | «alias» a => cases h

/-- the paths of an inner type go through its struct -/
theorem cons_mem_paths {s : StructType} {inner : List TypeDef} {t : TypeDef} {path : List Name}
    (ht : t ∈ inner) (h : path ∈ t.paths) : s.name :: path ∈ (TypeDef.struct s inner).paths := by
  refine List.mem_cons_of_mem _ (List.mem_map_of_mem ?_)
  rw [pathsOfAll_eq_flatMap]
  exact List.mem_flatMap.mpr ⟨t, ht, h⟩

end TypeDef

namespace Proto

/-- the message around the types of the package of an entry -/
def wrapperOf (m : Model) (e : Entry) : List Name :=
  if wrapsPackages m then (e.package.map fun p => wrapperName p.name).toList else []

def schemaPaths (m : Model) : List (List Name) :=
  m.declaredTypes.flatMap fun e => e.type.paths.map (wrapperOf m e ++ ·)

/-! ## from the schema to the model -/

namespace Declaration

theorem pathsOfAll_append (as bs : List Declaration) :
    pathsOfAll (as ++ bs) = pathsOfAll as ++ pathsOfAll bs := by
  induction as with
  | nil => rfl
  | cons a as ih => rw [List.cons_append, pathsOfAll, pathsOfAll, ih, List.append_assoc]

theorem pathsOfAll_flatten (dss : List (List Declaration)) :
    pathsOfAll dss.flatten = dss.flatMap pathsOfAll := by
  induction dss with
  | nil => rfl
  | cons ds dss ih => rw [List.flatten_cons, pathsOfAll_append, ih, List.flatMap_cons]

end Declaration

section
variable {m : Model}

mutual

/-- the handle decides what a declaration inherits, not what it is called -/
theorem paths_of_declare (m : Model) : ∀ (id : TypeId) (t : TypeDef) {ds : List Declaration},
    declare m id t = .ok ds → Declaration.pathsOfAll ds = t.paths
  | id, .struct s inner, ds, h => by
    rw [declare] at h
    obtain ⟨nested, hnested, h⟩ := bind_eq_ok.mp h
    obtain ⟨fields, _, h⟩ := bind_eq_ok.mp h
    cases h
    rw [TypeDef.paths, ← paths_of_declareAll m id 0 inner hnested]
    exact List.append_nil _
  | id, .enumeration e, ds, h => by
    rw [declare] at h
    cases h
    rfl
  | id, .array a, ds, h => by
    rw [declare] at h
    cases h
    rfl
  | id, .alias a, ds, h => by
    rw [declare] at h
    cases h
    rfl

theorem paths_of_declareAll (m : Model) (id : TypeId) :
    ∀ (i : Nat) (ts : List TypeDef) {ds : List Declaration}, declareAll m id i ts = .ok ds →
      Declaration.pathsOfAll ds = TypeDef.pathsOfAll ts
  | i, [], ds, h => by
    rw [declareAll] at h
    cases h
    rfl
  | i, t :: ts, ds, h => by
    rw [declareAll] at h
    obtain ⟨first, hfirst, h⟩ := bind_eq_ok.mp h
    obtain ⟨rest, hrest, h⟩ := bind_eq_ok.mp h
    cases h
    rw [Declaration.pathsOfAll_append, paths_of_declare m (id.withInner i) t hfirst,
      paths_of_declareAll m id (i + 1) ts hrest, TypeDef.pathsOfAll]

end

theorem paths_of_declareEntries {es : List Entry} {ds : List Declaration}
    (h : declareEntries m es = .ok ds) :
    Declaration.pathsOfAll ds = es.flatMap fun e => e.type.paths := by
  obtain ⟨dss, hdss, h⟩ := bind_eq_ok.mp h
  cases h
  rw [Declaration.pathsOfAll_flatten]
  exact flatMap_of_mapM (fun e ds hds => paths_of_declare m e.id e.type hds) hdss

/-- the same list behind a lead that all entries have -/
theorem map_append_paths {lead : List Name} {es : List Entry}
    (h : ∀ e ∈ es, wrapperOf m e = lead) :
    (es.flatMap fun e => e.type.paths).map (lead ++ ·) =
      es.flatMap fun e => e.type.paths.map (wrapperOf m e ++ ·) := by
  rw [List.map_flatMap]
  exact List.flatMap_congr fun e he => by rw [h e he]

theorem wrapperOf_of_not_wraps (h : wrapsPackages m = false) (e : Entry) : wrapperOf m e = [] := by
  rw [wrapperOf, h]
  rfl

theorem wrapperOf_topLevel {e : Entry} (he : e ∈ m.topLevelTypes) : wrapperOf m e = [] := by
  obtain ⟨i, t, _, rfl⟩ := Model.mem_topLevelTypes.mp he
  exact ite_self _

theorem wrapperOf_packaged (h : wrapsPackages m = true) {p : Nat} {package : Package} {e : Entry}
    (he : e ∈ Model.typesOfPackage p package) : wrapperOf m e = [wrapperName package.name] := by
  obtain ⟨i, t, _, rfl⟩ := mem_mapIdx_iff.mp he
  exact if_pos h

theorem paths_of_wrapper (hw : wrapsPackages m = true) {p : Nat} {package : Package} {w : Wrapper}
    (h : wrapper m p package = .ok w) :
    (Declaration.pathsOfAll w.declarations).map (w.name :: ·) =
      (Model.typesOfPackage p package).flatMap fun e => e.type.paths.map (wrapperOf m e ++ ·) := by
  obtain ⟨hname, hdeclare⟩ := wrapper_declarations h
  rw [paths_of_declareEntries hdeclare, ← map_append_paths fun e he => wrapperOf_packaged hw he,
    Wrapper.name, hname]
  rfl

/-- the two passes over the model together meet each declaration once -/
theorem paths_of_ofModel {c : ProtoConfig} {schema : Schema} (h : Schema.ofModel m c = .ok schema) :
    schema.paths = schemaPaths m := by
  unfold Schema.paths schemaPaths
  rcases ofModel_cases h with ⟨hw, hd, hws⟩ | ⟨hw, hd, hws⟩
  · have htop : Declaration.pathsOfAll schema.declarations =
        m.topLevelTypes.flatMap fun e => e.type.paths.map (wrapperOf m e ++ ·) := by
      rw [paths_of_declareEntries hd, ← map_append_paths fun e he => wrapperOf_topLevel he]
      exact (List.map_id _).symm
    have hpackaged : (schema.wrappers.flatMap fun w =>
          (Declaration.pathsOfAll w.declarations).map (w.name :: ·)) =
        m.packagedTypes.flatMap fun e => e.type.paths.map (wrapperOf m e ++ ·) := by
      rw [flatMap_of_forall₂ (fun x w hx => paths_of_wrapper hw hx) hws, Model.packagedTypes,
        List.mapIdx_eq_zipIdx_map, ← List.flatMap_def, List.flatMap_assoc]
    rw [htop, hpackaged, Model.declaredTypes, List.flatMap_append]
  · rw [hws, paths_of_declareEntries hd,
      ← map_append_paths fun e _ => wrapperOf_of_not_wraps hw e, List.flatMap_nil, List.append_nil]
    exact (List.map_id _).symm

/-! ## references -/

theorem declarationPath_eq (m : Model) (e : Entry) :
    declarationPath m e = wrapperOf m e ++ (e.outer.map (·.name)).toList ++ [e.name] := rfl

/-- the function that spells references agrees with the passes that write declarations -/
theorem declarationPath_mem {e : Entry} (he : e ∈ m.allTypes) (ht : isDeclared e.type = true) :
    declarationPath m e ∈ schemaPaths m := by
  rcases List.mem_append.mp he with he | he
  · refine List.mem_flatMap.mpr ⟨e, he, List.mem_map.mpr ⟨_, TypeDef.name_mem_paths ht, ?_⟩⟩
    rw [declarationPath_eq, Model.outer_eq_none_of_mem_declaredTypes he]
    exact congrArg (· ++ [e.name]) (List.append_nil _).symm
  · obtain ⟨o, ho, he⟩ := List.mem_flatMap.mp he
    obtain ⟨s, inner, i, t, hs, hi, rfl⟩ := Entry.mem_inners.mp he
    refine List.mem_flatMap.mpr ⟨o, ho, List.mem_map.mpr ⟨[s.name, t.name], ?_, ?_⟩⟩
    · rw [hs]
      exact TypeDef.cons_mem_paths (List.mem_of_getElem? hi) (TypeDef.name_mem_paths ht)
    · rw [declarationPath_eq, List.append_assoc]
      rfl

/-- a type name is that of a primitive type, or the path of a declaration -/
theorem scalar_or_path_of_fieldType {r : TypeRef} {n : TypeName} {b : Bool}
    (h : fieldType m r = .ok (n, b)) :
    (∃ kind : PrimitiveKind, n = .scalar kind.protoName) ∨
      ∃ path ∈ schemaPaths m, n.text = Text.joinWith "." path := by
  cases n with
  | scalar name =>
    left
    unfold fieldType at h
    obtain ⟨⟨t, repeated⟩, _, h⟩ := bind_eq_ok.mp h
    cases t with
    | basic x =>
      cases h
      exact ⟨x.kind, rfl⟩
    | declared e => cases h
  | declared id path =>
    right
    obtain ⟨e, _, _, hleads, _, rfl⟩ := leads_of_fieldType h
    obtain ⟨he, hkind⟩ := declared_of_leads hleads rfl
    exact ⟨_, declarationPath_mem he (isDeclared_of_kind hkind), rfl⟩

end

end Proto

end TypeModel
