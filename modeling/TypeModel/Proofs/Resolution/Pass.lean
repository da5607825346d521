import TypeModel.Analysis.Resolution
import TypeModel.Proofs.Model.Entries

/-!
# The pass of resolution, said without its state

Resolution goes through the declarations once, with what it has come to and reported so far as its
state.  No step reads that state, so what the pass gives can be said declaration by declaration:

* `bindRef ns`, `bindBase ns`     a reference with the binding of its name;
* `bindType ns id t`              a declaration with its references bound, those inside it apart;
* `reports ns e`                  what there is to report about the sites of an entry, in order;
* `ComesTo x a es ds`             the step `x` gives `a`, comes to `es` and reports `ds`, whatever was
                                  before it;
* `location_innerEntry`           the place of an inner type is inside that of the struct around it;
* `Model.resolve_eq`              resolution binds every declaration of the walk and reports what
                                  there is to report about each;
* `run_pass`                      the pass comes to the entries of the walk in their order.
-/

namespace TypeModel

namespace Namespace

/-! ## what is bound and reported -/

/-- binding and report for a site of the declaration `id` -/
def resolveSite (ns : Namespace) (id : TypeId) (kind : TypeKind) (role : Role) (n : Name) :
    Binding × Option Issue :=
  if role = .base then ns.resolveBase n kind id else ns.resolve n

def bindBase (ns : Namespace) (id : TypeId) (kind : TypeKind) (r : TypeRef) : TypeRef :=
  { r with binding := (ns.resolveBase r.name kind id).1 }

def bindRef (ns : Namespace) (r : TypeRef) : TypeRef :=
  { r with binding := (ns.resolve r.name).1 }

def bindType (ns : Namespace) (id : TypeId) (t : TypeDef) : TypeDef :=
  t.mapRefs (ns.bindBase id t.kind) ns.bindRef

def bindStruct (ns : Namespace) (id : TypeId) (s : StructType) : StructType :=
  s.mapRefs (ns.bindBase id .struct) ns.bindRef

/-- the type at a handle outside structs, with the types inside it -/
def bindWithInner (ns : Namespace) (id : TypeId) (t : TypeDef) : TypeDef :=
  match ns.bindType id t with
  | .struct s inner => .struct s (inner.mapIdx fun i x => ns.bindType (id.withInner i) x)
  | t' => t'

def bindPackage (ns : Namespace) (p : Nat) (package : Package) : Package :=
  { package with types := package.types.mapIdx fun i t => ns.bindWithInner (.packaged p i) t }

/-- what there is to report about the sites of an entry -/
def reports (ns : Namespace) (e : Entry) : Diagnostics :=
  e.sites.filterMap fun s =>
    (ns.resolveSite e.id e.type.kind s.role s.ref.name).2.map (·.toDiagnostic (s.location e))

end Namespace

namespace Model

def bind (m : Model) : Model := m.mapTypes (Namespace.ofModel m).bindType

def resolutionDiagnostics (m : Model) : Diagnostics :=
  m.walk.flatMap (Namespace.ofModel m).reports

end Model

/-! ## steps -/

/-- the step gives `a`, comes to `es` and reports `ds`, whatever was before it -/
def ComesTo {α : Type} (x : StateM Pass α) (a : α) (es : List Entry) (ds : Diagnostics) : Prop :=
  ∀ p : Pass, x.run p = (a, { visited := p.visited ++ es, diagnostics := p.diagnostics ++ ds })

section
variable {α β : Type}

theorem comesTo_pure (a : α) : ComesTo (pure a) a [] [] := by
  intro p
  show (a, p) = _
  rw [List.append_nil, List.append_nil]

theorem ComesTo.bind {x : StateM Pass α} {f : α → StateM Pass β} {a : α} {b : β}
    {es es' : List Entry} {ds ds' : Diagnostics} (hx : ComesTo x a es ds)
    (hf : ComesTo (f a) b es' ds') : ComesTo (x >>= f) b (es ++ es') (ds ++ ds') := by
  intro p
  show (f (x.run p).1).run (x.run p).2 = _
  rw [hx p, hf, List.append_assoc, List.append_assoc]

theorem ComesTo.bind_pure {x : StateM Pass α} {a : α} {es : List Entry} {ds : Diagnostics}
    (hx : ComesTo x a es ds) (f : α → β) :
    ComesTo (do let y ← x; return f y) (f a) es ds := by
  have h := hx.bind (f := fun y => pure (f y)) (comesTo_pure (f a))
  rw [List.append_nil, List.append_nil] at h
  exact h

theorem comesTo_comeTo (e : Entry) : ComesTo (Pass.comeTo e) () [e] [] := by
  intro p
  rw [List.append_nil]
  rfl

theorem comesTo_emit (location : Location) (issue : Option Issue) :
    ComesTo (Pass.emit location issue) () []
      (issue.map (·.toDiagnostic location)).toList := by
  intro p
  rw [List.append_nil]
  rfl

/-! ## loops -/

theorem comesTo_forEachFrom {step : Nat → α → StateM Pass β} {g : Nat → α → β}
    {v : Nat → α → List Entry} {d : Nat → α → Diagnostics}
    (h : ∀ i x, ComesTo (step i x) (g i x) (v i x) (d i x)) (i : Nat) (xs : List α) :
    ComesTo (forEachFrom step i xs) (xs.mapIdx fun j => g (i + j))
      (xs.mapIdx fun j => v (i + j)).flatten (xs.mapIdx fun j => d (i + j)).flatten := by
  induction xs generalizing i with
  | nil => exact comesTo_pure []
  | cons x xs ih =>
    have hshift : ∀ j, i + 1 + j = i + (j + 1) := fun j => by omega
    have hrest := ih (i + 1)
    simp only [hshift] at hrest
    simp only [List.mapIdx_cons, List.flatten_cons]
    exact (h i x).bind (hrest.bind_pure (g i x :: ·))

theorem comesTo_forEach {step : Nat → α → StateM Pass β} {g : Nat → α → β}
    {v : Nat → α → List Entry} {d : Nat → α → Diagnostics}
    (h : ∀ i x, ComesTo (step i x) (g i x) (v i x) (d i x)) (xs : List α) :
    ComesTo (forEachFrom step 0 xs) (xs.mapIdx g) (xs.mapIdx v).flatten
      (xs.mapIdx d).flatten := by
  have hall := comesTo_forEachFrom h 0 xs
  simp only [Nat.zero_add] at hall
  exact hall

/-- what positions of a list come to, from what its entries come to -/
theorem flatten_mapIdx_comp {γ δ : Type} (f : γ → List δ) (entry : Nat → α → γ) (xs : List α) :
    (xs.mapIdx fun i x => f (entry i x)).flatten = (xs.mapIdx entry).flatMap f := by
  rw [List.mapIdx_eq_zipIdx_map, List.mapIdx_eq_zipIdx_map, List.flatMap_map, List.flatMap_def]

/-! ## members

A member is bound where it stands and reported as its sites are, by its position. -/

section
variable {sites : Nat → α → List Site} {report : Site → Diagnostics}

theorem comesTo_mapM_from {f : α → StateM Pass β} {g : α → β}
    (h : ∀ i x, ComesTo (f x) (g x) [] ((sites i x).flatMap report)) (i : Nat) (xs : List α) :
    ComesTo (xs.mapM f) (xs.map g) []
      ((xs.mapIdx fun j => sites (i + j)).flatten.flatMap report) := by
  induction xs generalizing i with
  | nil => exact comesTo_pure []
  | cons x xs ih =>
    have hshift : ∀ j, i + 1 + j = i + (j + 1) := fun j => by omega
    have hrest := ih (i + 1)
    simp only [hshift] at hrest
    rw [List.mapM_cons, List.mapIdx_cons, List.flatten_cons, List.flatMap_append]
    exact (h i x).bind (hrest.bind_pure (g x :: ·))

theorem comesTo_mapM {f : α → StateM Pass β} {g : α → β}
    (h : ∀ i x, ComesTo (f x) (g x) [] ((sites i x).flatMap report)) (xs : List α) :
    ComesTo (xs.mapM f) (xs.map g) [] ((xs.mapIdx sites).flatten.flatMap report) := by
  have hall := comesTo_mapM_from h 0 xs
  simp only [Nat.zero_add] at hall
  exact hall

/-- members with one reference each -/
theorem comesTo_mapM_single {f : α → StateM Pass β} {g : α → β} {site : Nat → α → Site}
    (h : ∀ i x, ComesTo (f x) (g x) [] (report (site i x))) (xs : List α) :
    ComesTo (xs.mapM f) (xs.map g) [] ((xs.mapIdx site).flatMap report) := by
  have hone : ∀ i x, ComesTo (f x) (g x) [] ([site i x].flatMap report) := by
    intro i x
    rw [List.flatMap_singleton]
    exact h i x
  have hall := comesTo_mapM hone xs
  rw [flatten_mapIdx_comp (fun s => [s]), List.flatMap_singleton'] at hall
  exact hall

/-- a reference that may be missing -/
theorem comesTo_option {f : α → StateM Pass β} {g : α → β} {site : α → Site}
    (h : ∀ x, ComesTo (f x) (g x) [] (report (site x))) (o : Option α) :
    ComesTo (o.mapM f) (o.map g) [] ((o.map site).toList.flatMap report) := by
  cases o with
  | none => exact comesTo_pure none
  | some x =>
    rw [Option.map_some, Option.map_some, Option.toList_some, List.flatMap_singleton]
    exact (h x).bind_pure some

end

/-! ## declarations -/

namespace Namespace

/-- what there is to report about a site of an entry -/
def siteReports (ns : Namespace) (e : Entry) (s : Site) : Diagnostics :=
  ((ns.resolveSite e.id e.type.kind s.role s.ref.name).2.map
    (·.toDiagnostic (s.location e))).toList

theorem reports_eq_flatMap (ns : Namespace) (e : Entry) :
    ns.reports e = e.sites.flatMap (ns.siteReports e) := List.filterMap_eq_flatMap_toList _ _

variable (ns : Namespace) (e : Entry)

/-- a reference that is no base, at the place of its site -/
theorem comesTo_visitRef {s : Site} (hr : s.role ≠ .base) :
    ComesTo (ns.visitRef (s.location e) s.ref) (ns.bindRef s.ref) [] (ns.siteReports e s) := by
  unfold siteReports resolveSite
  rw [if_neg hr]
  exact (comesTo_emit _ _).bind_pure fun _ => ns.bindRef s.ref

theorem comesTo_visitBase (r : TypeRef) :
    ComesTo (ns.visitBase e.type.kind e.id e.location r) (ns.bindBase e.id e.type.kind r) []
      (ns.siteReports e { role := .base, ref := r }) :=
  (comesTo_emit _ _).bind_pure fun _ => ns.bindBase e.id e.type.kind r

theorem comesTo_visitOwn (role : Role) (hr : role ≠ .base) (r : TypeRef) :
    ComesTo (ns.visitRef e.location r) (ns.bindRef r) []
      (ns.siteReports e { role := role, ref := r }) :=
  ns.comesTo_visitRef e (s := { role := role, ref := r }) hr

theorem comesTo_visitMember (role : Role) (hr : role ≠ .base) (name : Name) (line : Option Nat)
    (r : TypeRef) :
    ComesTo (ns.visitRef (e.memberLocation name line) r) (ns.bindRef r) []
      (ns.siteReports e { role := role, ref := r, member := some (name, line) }) :=
  ns.comesTo_visitRef e (s := { role := role, ref := r, member := some (name, line) }) hr

theorem comesTo_visitField (i : Nat) (f : Field) :
    ComesTo (ns.visitField e.location f) (f.mapRefs ns.bindRef) []
      ((f.sites i).flatMap (ns.siteReports e)) := by
  have hvalue := ns.comesTo_visitMember e (.field i) nofun f.name f.line f.typeRef
  have hkey := comesTo_option
    (ns.comesTo_visitMember e (.fieldKey i) nofun f.name f.line) f.key
  have hrest := hkey.bind_pure fun key : Option TypeRef =>
    ({ f with typeRef := ns.bindRef f.typeRef, key := key } : Field)
  exact hvalue.bind hrest

theorem comesTo_visitParameter (role : Role) (hr : role ≠ .base) (name : Name)
    (line : Option Nat) (p : Parameter) :
    ComesTo (ns.visitParameter (e.memberLocation name line) p) (p.mapRef ns.bindRef) []
      (ns.siteReports e { role := role, ref := p.typeRef, member := some (name, line) }) :=
  (ns.comesTo_visitMember e role hr name line p.typeRef).bind_pure fun typeRef : TypeRef =>
    ({ p with typeRef := typeRef } : Parameter)

theorem comesTo_visitMethod (i : Nat) (x : Method) :
    ComesTo (ns.visitMethod e.location x) (x.mapRefs ns.bindRef) []
      ((x.sites i).flatMap (ns.siteReports e)) := by
  have hreturns := comesTo_option
    (ns.comesTo_visitMember e (.returns i) nofun x.name x.line) x.returns
  have hparameters := comesTo_mapM_single
    (fun j => ns.comesTo_visitParameter e (.methodParameter i j) nofun x.name x.line)
    x.parameters
  unfold Method.sites
  rw [List.flatMap_append]
  exact hreturns.bind (hparameters.bind_pure fun parameters : List Parameter =>
    ({ x with returns := x.returns.map ns.bindRef, parameters := parameters } : Method))

theorem comesTo_visitConstructor (owner : Name) (i : Nat) (c : Constructor) :
    ComesTo (ns.visitConstructor e.location owner c) (c.mapRefs ns.bindRef) []
      ((c.sites owner i).flatMap (ns.siteReports e)) := by
  have hparameters := comesTo_mapM_single
    (fun j => ns.comesTo_visitParameter e (.constructorParameter i j) nofun owner c.line)
    c.parameters
  exact hparameters.bind_pure fun parameters : List Parameter =>
    ({ c with parameters := parameters } : Constructor)

variable {e}

theorem comesTo_visitStruct {s : StructType} {inner : List TypeDef}
    (ht : e.type = .struct s inner) :
    ComesTo (ns.visitStruct e.id e.location s) (ns.bindStruct e.id s) [] (ns.reports e) := by
  have hbase := comesTo_option (ns.comesTo_visitBase e) s.base
  have hfields := comesTo_mapM (ns.comesTo_visitField e) s.fields
  have hmethods := comesTo_mapM (ns.comesTo_visitMethod e) s.methods
  have hconstructors := comesTo_mapM (ns.comesTo_visitConstructor e s.name) s.constructors
  have hsites : e.sites = s.sites := by
    unfold Entry.sites
    rw [ht]
    rfl
  rw [ns.reports_eq_flatMap, hsites]
  rw [show e.type.kind = .struct by rw [ht]; rfl] at hbase
  unfold StructType.sites
  simp only [List.flatMap_append, List.append_assoc]
  exact hbase.bind (hfields.bind (hmethods.bind (hconstructors.bind_pure
    fun constructors : List Constructor =>
      ({ ns.bindStruct e.id s with constructors := constructors } : StructType))))

variable (e)

/-- a declaration is come to once, and its references are bound and reported -/
theorem comesTo_visit :
    ComesTo (ns.visit e e.location) (ns.bindType e.id e.type) [e] (ns.reports e) := by
  have hcome := comesTo_comeTo e
  unfold visit bindType
  cases ht : e.type with
  | struct s inner =>
    exact hcome.bind ((ns.comesTo_visitStruct ht).bind_pure fun bound : StructType =>
      TypeDef.struct bound inner)
  | enumeration x =>
    have hbase := comesTo_option (ns.comesTo_visitBase e) x.base
    rw [show e.type.kind = .enumeration by rw [ht]; rfl] at hbase
    have hrest := hbase.bind_pure fun base : Option TypeRef =>
      TypeDef.enumeration { x with base := base }
    rw [ns.reports_eq_flatMap, Entry.sites, ht]
    exact hcome.bind hrest
  | array a =>
    have helement := comesTo_option (ns.comesTo_visitOwn e .element nofun) a.elementType
    have hrest := helement.bind_pure fun elementType : Option TypeRef =>
      TypeDef.array { a with elementType := elementType }
    rw [ns.reports_eq_flatMap, Entry.sites, ht]
    exact hcome.bind hrest
  | «alias» a =>
    have hactual := comesTo_option (ns.comesTo_visitOwn e .actual nofun) a.actualType
    have hrest := hactual.bind_pure fun actualType : Option TypeRef =>
      TypeDef.alias { a with actualType := actualType }
    rw [ns.reports_eq_flatMap, Entry.sites, ht]
    exact hcome.bind hrest

/-- the place of a type inside a struct is inside that of the struct -/
theorem location_innerEntry {e : Entry} {s : StructType} {inner : List TypeDef}
    (ht : e.type = .struct s inner) (houter : e.outer = none) (i : Nat) (t : TypeDef) :
    (e.innerEntry s i t).location = (e.location.child t.name).withLine t.line := by
  have hname : e.name = s.name := by
    unfold Entry.name
    rw [ht]
    rfl
  unfold Entry.location Entry.qualifiedName Entry.scopes Entry.innerEntry
  rw [houter, hname]
  cases e.package <;> rfl

/-- a type outside structs is followed by the types inside it -/
theorem comesTo_visitWithInner (houter : e.outer = none) :
    ComesTo (ns.visitWithInner e e.location) (ns.bindWithInner e.id e.type) (e :: e.inners)
      ((e :: e.inners).flatMap ns.reports) := by
  have hfirst := ns.comesTo_visit e
  unfold visitWithInner Entry.inners
  rw [List.flatMap_cons]
  show ComesTo _ _ ([e] ++ _) _
  refine hfirst.bind ?_
  cases ht : e.type with
  | struct s inner =>
    have hinner := comesTo_forEach (fun i x => ns.comesTo_visit (e.innerEntry s i x)) inner
    rw [flatten_mapIdx_comp (fun x => [x]), List.flatMap_singleton',
      flatten_mapIdx_comp ns.reports] at hinner
    simp only [location_innerEntry ht houter] at hinner
    exact hinner.bind_pure (TypeDef.struct (ns.bindStruct e.id s))
  | enumeration x => exact comesTo_pure _
  | array a => exact comesTo_pure _
  | «alias» a => exact comesTo_pure _

/-! ## a model -/

/-- the entries that a pass comes to behind one another -/
theorem comesTo_types {step : Nat → TypeDef → StateM Pass TypeDef} {entry : Nat → TypeDef → Entry}
    {g : Nat → TypeDef → TypeDef}
    (h : ∀ i t, ComesTo (step i t) (g i t) (entry i t :: (entry i t).inners)
      ((entry i t :: (entry i t).inners).flatMap ns.reports)) (types : List TypeDef) :
    ComesTo (forEachFrom step 0 types) (types.mapIdx g)
      ((types.mapIdx entry).flatMap fun e => e :: e.inners)
      (((types.mapIdx entry).flatMap fun e => e :: e.inners).flatMap ns.reports) := by
  have hall := comesTo_forEach h types
  rw [flatten_mapIdx_comp fun e : Entry => e :: e.inners,
    flatten_mapIdx_comp fun e : Entry => (e :: e.inners).flatMap ns.reports,
    ← List.flatMap_assoc] at hall
  exact hall

theorem comesTo_visitTopLevel (i : Nat) (t : TypeDef) :
    ComesTo (ns.visitTopLevel i t) (ns.bindWithInner (.topLevel i) t)
      (Model.topLevelEntry i t :: (Model.topLevelEntry i t).inners)
      ((Model.topLevelEntry i t :: (Model.topLevelEntry i t).inners).flatMap ns.reports) :=
  ns.comesTo_visitWithInner (Model.topLevelEntry i t) rfl

theorem comesTo_visitPackaged (p : Nat) (package : Package) (i : Nat) (t : TypeDef) :
    ComesTo (ns.visitPackaged p package i t) (ns.bindWithInner (.packaged p i) t)
      (Model.packagedEntry p package i t :: (Model.packagedEntry p package i t).inners)
      ((Model.packagedEntry p package i t ::
        (Model.packagedEntry p package i t).inners).flatMap ns.reports) :=
  ns.comesTo_visitWithInner (Model.packagedEntry p package i t) rfl

theorem comesTo_visitPackage (p : Nat) (package : Package) :
    ComesTo (ns.visitPackage p package) (ns.bindPackage p package)
      ((Model.typesOfPackage p package).flatMap fun e => e :: e.inners)
      (((Model.typesOfPackage p package).flatMap fun e => e :: e.inners).flatMap ns.reports) :=
  (ns.comesTo_types (ns.comesTo_visitPackaged p package) package.types).bind_pure
    fun types : List TypeDef => ({ package with types := types } : Package)

theorem comesTo_pass (m : Model) :
    ComesTo (ns.pass m) (m.mapTypes ns.bindType) m.walk (m.walk.flatMap ns.reports) := by
  have htypes := ns.comesTo_types ns.comesTo_visitTopLevel m.types
  have hpackages := comesTo_forEach ns.comesTo_visitPackage m.packages
  rw [flatten_mapIdx_comp fun es : List Entry => es.flatMap fun e => e :: e.inners,
    flatten_mapIdx_comp fun es : List Entry =>
      (es.flatMap fun e => e :: e.inners).flatMap ns.reports] at hpackages
  have hwalk : m.walk = (m.topLevelTypes.flatMap fun e => e :: e.inners) ++
      ((m.packages.mapIdx Model.typesOfPackage).flatMap fun es =>
        es.flatMap fun e => e :: e.inners) := by
    unfold Model.walk Model.declaredTypes Model.packagedTypes
    rw [List.flatMap_append, ← List.flatMap_id (L := m.packages.mapIdx _), List.flatMap_assoc]
    rfl
  rw [hwalk, List.flatMap_append, List.flatMap_assoc (l := m.packages.mapIdx _)]
  exact htypes.bind (hpackages.bind_pure fun packages : List Package =>
    ({ m with
      types := m.types.mapIdx fun i => ns.bindWithInner (.topLevel i), packages := packages } : Model))

end Namespace

end

/-! ## the result -/

namespace Model

/-- resolution binds every declaration and reports, in the order of the walk, what there is to
report about each -/
theorem resolve_eq (m : Model) :
    m.resolve = { model := m.bind, diagnostics := m.resolutionDiagnostics } := by
  unfold resolve
  rw [(Namespace.ofModel m).comesTo_pass m]
  rfl

theorem model_resolve_eq (m : Model) : m.resolve.model = m.bind := by rw [m.resolve_eq]

theorem diagnostics_resolve_eq (m : Model) :
    m.resolve.diagnostics = m.resolutionDiagnostics := by
  rw [m.resolve_eq]

end Model

/-- the pass gives what resolution gives, and comes to the entries of the walk in their order -/
theorem run_pass (m : Model) :
    ((Namespace.ofModel m).pass m).run {} =
      (m.resolve.model, { visited := m.walk, diagnostics := m.resolve.diagnostics }) := by
  rw [m.resolve_eq, (Namespace.ofModel m).comesTo_pass m]
  rfl

end TypeModel
