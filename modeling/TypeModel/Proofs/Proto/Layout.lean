import TypeModel.Proofs.Analysis.Analyze
import TypeModel.Proofs.Model.Bases
import TypeModel.Proofs.Proto.Places

/-!
# The fields of a message and those of its base

A message lists the fields of all extended structs before its own, so a message that is read as
one of its base finds every field of the base where the base has it.

* `Model.SoundBases m`         bases are of the same kind, lead back to no declaration, and no
                               struct repeats a field name that it inherits;
* `soundBases_of_analyze`      analysis gives that;
* `struct_induction`           from a base to the structs that extend it;
* `nodup_flattenedFields`      the fields of a message have different names;
* `Numbered m k fs ls`         the lines `ls` write the fields `fs` in order, numbered from `k` on;
* `messages_keep_layout`       the result: names, numbers, and the base as a beginning.

Names are only compared between a struct and each struct that it extends.  That is enough,
because each extended struct is compared with those that it extends in turn.
-/

namespace TypeModel

namespace Model
variable {m : Model}

structure SoundBases (m : Model) : Prop where
  ends : m.BasesEnd
  bound : ∀ e ∈ m.allTypes, ∀ ref, e.type.base? = some ref →
    ∃ d ∈ m.allTypes, ref.binding = .type d.id ∧ d.type.kind = e.type.kind
  names : ∀ e ∈ m.allTypes, ∀ s, e.type.struct? = some s → (s.fields.map Field.name).Nodup
  inherited : ∀ e ∈ m.allTypes, ∀ s, e.type.struct? = some s →
    ∀ b ∈ m.baseStructs e.id, ∀ f ∈ s.fields, ∀ g ∈ b.fields, f.name ≠ g.name

/-- where every name has a meaning, every base is bound to a declaration of its kind -/
theorem bound_bind (h : Clean m.resolutionDiagnostics) :
    ∀ e ∈ m.bind.allTypes, ∀ ref, e.type.base? = some ref →
      ∃ d ∈ m.bind.allTypes, ref.binding = .type d.id ∧ d.type.kind = e.type.kind := by
  intro e' he' ref' href'
  obtain ⟨e, he, rfl⟩ := mem_allTypes_bind.mp he'
  rw [Namespace.base?_bindEntry] at href'
  obtain ⟨ref, href, rfl⟩ := Option.map_eq_some_iff.mp href'
  have hmeaning : m.baseMeaning ref.name e.type.kind e.id ≠ .unresolved :=
    (m.siteMeaning_ne_unresolved_iff.mp (m.clean_resolutionDiagnostics.mp h)).2 e he ref href
  rcases m.baseMeaning_cases ref.name e.type.kind e.id with ⟨d, hd, hk, _, hm⟩ | ⟨_, hm⟩
  · refine ⟨_, mem_allTypes_bind.mpr ⟨d, (mem_baseCandidates hd).1, rfl⟩, ?_, ?_⟩
    · show ((Namespace.ofModel m).resolveBase ref.name e.type.kind e.id).1 = _
      rw [Namespace.resolveBase_fst, hm, Namespace.id_bindEntry]
    · rw [Namespace.kind_bindEntry, Namespace.kind_bindEntry, hk]
  · exact absurd hm hmeaning

theorem soundBases_of_analyze {ds : Diagnostics} (h : m.analyze.2 = .ok ds) :
    m.analyze.1.SoundBases := by
  obtain ⟨hresolved, hvalid⟩ := clean_of_analyze h
  obtain ⟨_, _, _, _, hentries⟩ := (clean_validate m.bind).mp hvalid
  have hcycles : ∀ e ∈ m.bind.allTypes, Clean (e.cycleReport m.bind) :=
    fun e he => (hentries e he).2.2
  rw [m.analyze_eq]
  refine ⟨(m.bind.clean_cycleReports.mp hcycles).1, bound_bind hresolved, ?_, ?_⟩
  · intro e he s hs
    have hsound := (hentries e he).1
    obtain ⟨inner, ht⟩ := TypeDef.struct?_eq_some.mp hs
    rw [ht] at hsound
    exact hsound.names
  · intro e he s hs
    exact ((hentries e he).2.1 s hs).inherited

/-! ## structs along a chain of bases -/

/-- the base of a declaration is a declaration of its kind -/
theorem SoundBases.exists_base (hm : m.SoundBases) {e : Entry} (he : e ∈ m.allTypes) {b : TypeId}
    (h : m.baseOf e.id = some b) : ∃ d ∈ m.allTypes, d.id = b ∧ d.type.kind = e.type.kind := by
  rw [baseOf_of_mem he] at h
  obtain ⟨ref, href, hb⟩ := Option.bind_eq_some_iff.mp h
  obtain ⟨d, hd, hbind, hk⟩ := hm.bound e he ref href
  rw [typeRef_type?_eq_some.mp hb] at hbind
  injection hbind with hid
  exact ⟨d, hd, hid.symm, hk⟩

theorem SoundBases.exists_struct (hm : m.SoundBases) {e : Entry} (he : e ∈ m.allTypes)
    {s : StructType} {inner : List TypeDef} (ht : e.type = .struct s inner) {b : TypeId}
    (h : m.baseOf e.id = some b) :
    ∃ d ∈ m.allTypes, d.id = b ∧ ∃ sb innerb, d.type = .struct sb innerb := by
  obtain ⟨d, hd, hid, hk⟩ := hm.exists_base he h
  refine ⟨d, hd, hid, ?_⟩
  rw [ht] at hk
  cases hdt : d.type with
  | struct sb innerb => exact ⟨sb, innerb, rfl⟩
  | enumeration x => rw [hdt] at hk; cases hk
  | array a => rw [hdt] at hk; cases hk
  | «alias» a => rw [hdt] at hk; cases hk

/-- the fields of a struct are those of its base and then its own -/
theorem SoundBases.flattenedFields_eq (hm : m.SoundBases) {e d : Entry}
    (hd : d ∈ m.allTypes) (h : m.baseOf e.id = some d.id) {sb : StructType}
    {innerb : List TypeDef} (hdt : d.type = .struct sb innerb) (s : StructType) :
    m.flattenedFields e.id s = m.flattenedFields d.id sb ++ s.instanceFields :=
  hm.ends.flattenedFields_cons h ((type?_id_of_mem hd).trans (congrArg some hdt)) s

/-- the fields of a struct start with those of every struct that it extends, near or far -/
theorem SoundBases.flattenedFields_prefix (hm : m.SoundBases) {e : Entry} (he : e ∈ m.allTypes)
    {s : StructType} {inner : List TypeDef} (ht : e.type = .struct s inner) {b : TypeId}
    (h : Reaches m.baseOf e.id b) :
    ∃ d ∈ m.allTypes, d.id = b ∧ ∃ sb innerb, d.type = .struct sb innerb ∧
      m.flattenedFields d.id sb <+: m.flattenedFields e.id s := by
  induction h with
  | single hstep =>
    obtain ⟨d, hd, rfl, sb, innerb, hdt⟩ := hm.exists_struct he ht hstep
    refine ⟨d, hd, rfl, sb, innerb, hdt, ?_⟩
    rw [hm.flattenedFields_eq hd hstep hdt]
    exact List.prefix_append _ _
  | tail _ hstep ih =>
    obtain ⟨x, hx, rfl, sx, innerx, hxt, hfront⟩ := ih
    obtain ⟨d, hd, rfl, sb, innerb, hdt⟩ := hm.exists_struct hx hxt hstep
    refine ⟨d, hd, rfl, sb, innerb, hdt, ?_⟩
    have hnear : m.flattenedFields d.id sb <+: m.flattenedFields x.id sx := by
      rw [hm.flattenedFields_eq hd hstep hdt]
      exact List.prefix_append _ _
    exact hnear.trans hfront

theorem nodup_instanceFields {s : StructType} (h : (s.fields.map Field.name).Nodup) :
    (s.instanceFields.map Field.name).Nodup :=
  h.sublist (List.Sublist.map Field.name List.filter_sublist)

theorem mem_fields_of_mem_instanceFields {s : StructType} {f : Field} (h : f ∈ s.instanceFields) :
    f ∈ s.fields := (List.mem_filter.mp h).1

/-- chains of bases end, so what holds of the structs without a base, and of a struct if it holds
of its base, holds of all structs -/
theorem SoundBases.struct_induction (hm : m.SoundBases) {P : Entry → StructType → Prop}
    (root : ∀ e ∈ m.allTypes, ∀ s inner, e.type = .struct s inner → m.baseOf e.id = none → P e s)
    (step : ∀ e ∈ m.allTypes, ∀ s inner, e.type = .struct s inner →
      ∀ d ∈ m.allTypes, ∀ sb innerb, d.type = .struct sb innerb → m.baseOf e.id = some d.id →
        P d sb → P e s) :
    ∀ e ∈ m.allTypes, ∀ s inner, e.type = .struct s inner → P e s := by
  have hall : ∀ id, ∀ e ∈ m.allTypes, e.id = id → ∀ s inner, e.type = .struct s inner → P e s := by
    refine hm.ends.induction ?_ ?_
    · rintro _ hb e he rfl s inner ht
      exact root e he s inner ht hb
    · rintro _ b hb ih e he rfl s inner ht
      obtain ⟨d, hd, rfl, sb, innerb, hdt⟩ := hm.exists_struct he ht hb
      exact step e he s inner ht d hd sb innerb hdt hb (ih d hd rfl sb innerb hdt)
  exact fun e he s inner ht => hall e.id e he rfl s inner ht

/-- what is inherited has different names by the hypothesis for the base, and the own names are
compared with all of them -/
theorem SoundBases.nodup_flattenedFields (hm : m.SoundBases) {e : Entry} (he : e ∈ m.allTypes)
    {s : StructType} {inner : List TypeDef} (ht : e.type = .struct s inner) :
    ((m.flattenedFields e.id s).map Field.name).Nodup := by
  have hown : ∀ e ∈ m.allTypes, ∀ s inner, e.type = .struct s inner →
      (s.instanceFields.map Field.name).Nodup :=
    fun e he s inner ht => nodup_instanceFields (hm.names e he s (by rw [ht]; rfl))
  refine hm.struct_induction (P := fun e s => ((m.flattenedFields e.id s).map Field.name).Nodup)
    ?_ ?_ e he s inner ht
  · intro e he s inner ht hb
    unfold flattenedFields
    rw [baseStructs_of_none hb]
    exact hown e he s inner ht
  · intro e he s inner ht d hd sb innerb hdt hb ih
    have hstructs : m.baseStructs e.id = sb :: m.baseStructs d.id :=
      hm.ends.baseStructs_cons hb ((type?_id_of_mem hd).trans (congrArg some hdt))
    rw [hm.flattenedFields_eq hd hb hdt, List.map_append, List.nodup_append]
    refine ⟨ih, hown e he s inner ht, ?_⟩
    intro x hx y hy
    obtain ⟨g, hg, rfl⟩ := List.mem_map.mp hx
    obtain ⟨f, hf, rfl⟩ := List.mem_map.mp hy
    obtain ⟨sg, hsg, hgs⟩ : ∃ sg ∈ m.baseStructs e.id, g ∈ sg.fields := by
      rcases mem_flattenedFields.mp hg with ⟨sg, hsg, hg⟩ | hg
      · exact ⟨sg, hstructs ▸ List.mem_cons_of_mem sb hsg, mem_fields_of_mem_instanceFields hg⟩
      · exact ⟨sb, hstructs ▸ List.mem_cons_self, mem_fields_of_mem_instanceFields hg⟩
    have hne : f.name ≠ g.name := hm.inherited e he s (by rw [ht]; rfl) sg hsg f
      (mem_fields_of_mem_instanceFields hf) g hgs
    exact fun heq => hne heq.symm

end Model

namespace Proto

/-! ## lines of a message -/

structure Numbered (m : Model) (k : Nat) (fs : List Field) (ls : List MessageField) : Prop where
  lines : List.Forall₂ (fun f l => messageField m f l.number = .ok l) fs ls
  numbers : ls.map (·.number) = List.range' k fs.length

section
variable {m : Model}

theorem name_of_messageField {f : Field} {k : Nat} {l : MessageField}
    (h : messageField m f k = .ok l) : l.name = f.name ∧ l.number = k := by
  unfold messageField at h
  obtain ⟨shape, _, h⟩ := bind_eq_ok.mp h
  cases h
  exact ⟨rfl, rfl⟩

theorem numbered_of_messageFieldsFrom : ∀ (fs : List Field) (k : Nat) {ls : List MessageField},
    messageFieldsFrom m k fs = .ok ls → Numbered m k fs ls := by
  intro fs
  induction fs with
  | nil =>
    intro k ls h
    cases h
    exact ⟨.nil, rfl⟩
  | cons f fs ih =>
    intro k ls h
    rw [messageFieldsFrom] at h
    obtain ⟨l, hl, h⟩ := bind_eq_ok.mp h
    obtain ⟨rest, hrest, h⟩ := bind_eq_ok.mp h
    cases h
    have hnumber : l.number = k := (name_of_messageField hl).2
    have htail := ih (k + 1) hrest
    constructor
    · exact .cons (hnumber.symm ▸ hl) htail.lines
    · rw [List.map_cons, List.length_cons, List.range'_succ, hnumber, htail.numbers]

theorem Numbered.names {k : Nat} {fs : List Field} {ls : List MessageField}
    (h : Numbered m k fs ls) : ls.map (·.name) = fs.map Field.name := by
  have hlines := h.lines
  clear h
  induction hlines with
  | nil => rfl
  | cons hl _ ih => rw [List.map_cons, List.map_cons, (name_of_messageField hl).1, ih]

theorem messageFieldsFrom_append : ∀ (fs gs : List Field) (k : Nat) {ls : List MessageField},
    messageFieldsFrom m k (fs ++ gs) = .ok ls →
      ∃ front rest, messageFieldsFrom m k fs = .ok front ∧ ls = front ++ rest := by
  intro fs gs
  induction fs with
  | nil =>
    intro k ls _
    exact ⟨[], ls, rfl, rfl⟩
  | cons f fs ih =>
    intro k ls h
    rw [List.cons_append, messageFieldsFrom] at h
    obtain ⟨l, hl, h⟩ := bind_eq_ok.mp h
    obtain ⟨ls', hls', h⟩ := bind_eq_ok.mp h
    cases h
    obtain ⟨front, rest, hfront, rfl⟩ := ih (k + 1) hls'
    refine ⟨l :: front, rest, ?_, rfl⟩
    rw [messageFieldsFrom, hl, ok_bind, hfront]
    rfl

theorem prefix_of_messageFieldsFrom {k : Nat} {fs gs : List Field} {ls ls' : List MessageField}
    (hfront : fs <+: gs) (hfs : messageFieldsFrom m k fs = .ok ls)
    (hgs : messageFieldsFrom m k gs = .ok ls') : ls <+: ls' := by
  obtain ⟨rest, rfl⟩ := hfront
  obtain ⟨front, more, hfront, rfl⟩ := messageFieldsFrom_append fs rest k hgs
  rw [hfs] at hfront
  obtain rfl := Except.ok.inj hfront
  exact List.prefix_append _ _

/-- the message of a struct, where it stands in a schema -/
theorem exists_message {c : ProtoConfig} {schema : Schema} (h : Schema.ofModel m c = .ok schema)
    {e : Entry} (he : e ∈ m.allTypes) {s : StructType} {inner : List TypeDef}
    (ht : e.type = .struct s inner) :
    ∃ d, declarationAt? schema.roots (placeOf m e.id) = some d ∧ d.name = s.name ∧
      messageFieldsFrom m 1 (m.flattenedFields e.id s) = .ok d.fields := by
  obtain ⟨d, hd, hstands⟩ := standsAt_placeOf h he (by rw [ht]; rfl)
  rw [ht] at hd
  exact ⟨d, hstands.declaration, name_of_declare hd, (declare_struct hd).2⟩

end

/-- after analysis the fields of a message have different names and are numbered from one on, and
the message of each extended struct is a beginning of it -/
theorem messages_keep_layout (m : Model) {r : Model} {ds : Diagnostics}
    (h : m.analyze = (r, .ok ds)) {e : Entry} (he : e ∈ r.allTypes) {s : StructType}
    {inner : List TypeDef} (ht : e.type = .struct s inner) :
    ((r.flattenedFields e.id s).map Field.name).Nodup ∧
    (∀ ref, s.base = some ref → ∃ b ∈ r.allTypes, ∃ sb innerb,
      ref.binding = .type b.id ∧ b.type = .struct sb innerb ∧
        r.flattenedFields e.id s = r.flattenedFields b.id sb ++ s.instanceFields) ∧
    ∀ c schema, Schema.ofModel r c = .ok schema →
      ∃ d, declarationAt? schema.roots (placeOf r e.id) = some d ∧ d.name = s.name ∧
        (d.fields.map (·.name)).Nodup ∧ Numbered r 1 (r.flattenedFields e.id s) d.fields ∧
        ∀ b, Reaches r.baseOf e.id b →
          ∃ d', declarationAt? schema.roots (placeOf r b) = some d' ∧ d'.fields <+: d.fields := by
  have hr : m.analyze.1 = r := congrArg Prod.fst h
  have hok : m.analyze.2 = .ok ds := congrArg Prod.snd h
  have hm : r.SoundBases := hr ▸ Model.soundBases_of_analyze hok
  have hnodup := hm.nodup_flattenedFields he ht
  refine ⟨hnodup, ?_, ?_⟩
  · intro ref href
    have hbase? : e.type.base? = some ref := by
      rw [ht]
      exact href
    obtain ⟨b, hb, hbind, _⟩ := hm.bound e he ref hbase?
    have hbase : r.baseOf e.id = some b.id := by
      rw [Model.baseOf_of_mem he, hbase?]
      exact Model.typeRef_type?_eq_some.mpr hbind
    obtain ⟨d, hd, hid, sb, innerb, hdt⟩ := hm.exists_struct he ht hbase
    obtain rfl := Model.eq_of_id_eq hd hb hid
    exact ⟨d, hd, sb, innerb, hbind, hdt, hm.flattenedFields_eq hd hbase hdt s⟩
  · intro c schema hschema
    obtain ⟨d, hd, hname, hfields⟩ := exists_message hschema he ht
    have hnumbered := numbered_of_messageFieldsFrom _ 1 hfields
    refine ⟨d, hd, hname, hnumbered.names ▸ hnodup, hnumbered, ?_⟩
    intro b hb
    obtain ⟨x, hx, rfl, sb, innerb, hxt, hfront⟩ := hm.flattenedFields_prefix he ht hb
    obtain ⟨d', hd', _, hfields'⟩ := exists_message hschema hx hxt
    exact ⟨d', hd', prefix_of_messageFieldsFrom hfront hfields' hfields⟩

/-- `Admin` extends `User`, which extends `Entity` and has a field that is not written -/
def layered : Model :=
  { primitives := [{ name := "Builtins", dataTypes := [{ name := "int64", bitLength := some 64 }] }]
    types :=
      [.struct { name := "Entity", fields := [{ name := "id", typeRef := { name := "int64" } }] }
          [],
        .struct
          { name := "User", base := some { name := "Entity" },
            fields :=
              [{ name := "count", typeRef := { name := "int64" }, isStatic := true },
                { name := "age", typeRef := { name := "int64" } }] } [],
        .struct
          { name := "Admin", base := some { name := "User" },
            fields := [{ name := "level", typeRef := { name := "int64" } }] } []] }

theorem messages_keep_layout_layered :
    layered.analyze = (layered.analyze.1, .ok []) ∧
    ∃ schema d d', Schema.ofModel layered.analyze.1 {} = .ok schema ∧
      declarationAt? schema.roots (placeOf layered.analyze.1 (.topLevel 2)) = some d ∧
      declarationAt? schema.roots (placeOf layered.analyze.1 (.topLevel 0)) = some d' ∧
      d.fields.map (·.name) = ["id", "age", "level"] ∧ d'.fields <+: d.fields := by
  have hanalyze : layered.analyze = (layered.analyze.1, .ok []) :=
    Prod.ext rfl (by decide +kernel)
  obtain ⟨schema, hschema⟩ : Succeeds (Schema.ofModel layered.analyze.1 {}) :=
    succeeds_iff_isOk.mpr (by decide +kernel)
  obtain ⟨e, he, s, inner, ht, hid, hnames⟩ : ∃ e ∈ layered.analyze.1.allTypes,
      ∃ s inner, e.type = .struct s inner ∧ e.id = .topLevel 2 ∧
        (layered.analyze.1.flattenedFields e.id s).map Field.name = ["id", "age", "level"] :=
    ⟨_, List.mem_of_getElem? (i := 2) rfl, _, _, rfl, rfl, by decide +kernel⟩
  obtain ⟨_, _, hlayout⟩ := messages_keep_layout layered hanalyze he ht
  obtain ⟨d, hd, _, _, hnumbered, hbases⟩ := hlayout {} schema hschema
  rw [hid] at hd hbases
  obtain ⟨d', hd', hfront⟩ := hbases (.topLevel 0)
    (Reaches.cons (b := .topLevel 1) (by decide +kernel) (Reaches.single (by decide +kernel)))
  refine ⟨hanalyze, schema, d, d', hschema, hd, hd', hnumbered.names.trans hnames, hfront⟩

end Proto

end TypeModel
