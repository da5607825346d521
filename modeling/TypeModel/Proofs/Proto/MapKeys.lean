import TypeModel.Proofs.Analysis.Analyze
import TypeModel.Proofs.Proto.Layout
import TypeModel.Proofs.Proto.References

/-!
# Keys of maps in a schema

Validation follows the aliases of a key as far as they lead, once, in the struct that declares the
field.  The generator expands the key again for every message that has the field, and gives up after
`maxExpansion` references.  Both come to the same primitive type.

* `keyNames`                    the scalar types that the keys of an analysed model are written as;
* `Leads.expandWithin_alias`    expanding a reference that leads over aliases alone passes no array;
* `AllowedKey.leads_bind`       what validation finds behind a key, in the bound model;
* `keyType_of_analyze`          every key of an instance field, inherited or not;
* `mapKeys_legal`               the line of a map field.
-/

namespace TypeModel

namespace Model
variable {m : Model}

/-- behind the aliases of `r` is the primitive type `b`, and it is no floating-point one -/
structure KeyType (m : Model) (r : TypeRef) (b : BasicType) : Prop where
  leads : ∃ n, m.Leads [.alias] r n (.basic b)
  integral : b.kind.isFloat = false

/-- the expansion, if it does not run out, ends at the same primitive type and passes no array -/
theorem Leads.expandWithin_alias {r : TypeRef} {n : Nat} {t : Target} (h : m.Leads [.alias] r n t)
    (origin : Name) : ∀ {b : BasicType}, t = .basic b → ∀ {fuel : Nat} {repeated : Bool}
      {x : Target × Bool}, m.expandWithin origin fuel repeated r = .ok x →
        x = (.basic b, repeated) := by
  induction h with
  | basic hr hb =>
    rintro _ ⟨⟩ fuel repeated x hx
    cases fuel with
    | zero => cases hx
    | succ fuel =>
      rw [expandWithin, target_eq_basic.mpr ⟨_, hr, hb⟩, ok_bind] at hx
      exact (Except.ok.inj hx).symm
  | declared _ _ _ => rintro _ ⟨⟩
  | step hr he hk hexp _ ih =>
    intro b ht fuel repeated x hx
    obtain ⟨a, ha⟩ := TypeDef.exists_of_kind_alias (List.mem_singleton.mp hk)
    rw [ha] at hexp
    cases fuel with
    | zero => cases hx
    | succ fuel =>
      rw [expandWithin, target_eq_declared.mpr ⟨_, hr, he⟩, ok_bind] at hx
      dsimp only at hx
      rw [ha] at hx
      dsimp only at hx
      rw [show a.actualType = some _ from hexp] at hx
      exact ih ht hx

theorem KeyType.expand_eq {r : TypeRef} {b : BasicType} (h : m.KeyType r b) {x : Target × Bool}
    (hx : m.expand r = .ok x) : x = (.basic b, false) := by
  obtain ⟨n, hleads⟩ := h.leads
  exact hleads.expandWithin_alias r.name rfl hx

/-- the steps from an allowed key are steps of the bound model -/
theorem AllowedKey.leads_bind {n : Name} (h : m.AllowedKey n) :
    ∀ {r : TypeRef}, r.binding = m.meaning n → ∃ b, m.bind.KeyType r b := by
  induction h with
  | @primitive n id b hm hb hf =>
    intro r hr
    exact ⟨b, ⟨0, .basic (hr.trans hm) hb⟩, hf⟩
  | @«alias» n id a r' hm ht ha _ ih =>
    intro r hr
    obtain ⟨b, ⟨k, hleads⟩, hf⟩ := ih (m.binding_bindRef r')
    obtain ⟨e, _, he, _, hte⟩ := exists_entry_of_type? ht
    have hentry : m.bind.entry? id = some ((Namespace.ofModel m).bindEntry e) := by
      rw [entry?_bind, he]
      rfl
    have hkind : ((Namespace.ofModel m).bindEntry e).type.kind ∈ [TypeKind.alias] := by
      rw [Namespace.kind_bindEntry, hte]
      exact List.mem_singleton_self _
    have hexp : ((Namespace.ofModel m).bindEntry e).type.expands? =
        some ((Namespace.ofModel m).bindRef r') := by
      rw [Namespace.expands?_bindEntry, hte]
      exact congrArg (Option.map (Namespace.ofModel m).bindRef) ha
    exact ⟨b, ⟨k + 1, .step (hr.trans hm) hentry hkind hexp hleads⟩, hf⟩

/-- a field that a struct has or inherits is declared in a struct of the model -/
theorem exists_declares_of_mem_flattenedFields {e : Entry} (he : e ∈ m.allTypes) {s : StructType}
    (hs : e.type.struct? = some s) {f : Field} (hf : f ∈ m.flattenedFields e.id s) :
    ∃ d ∈ m.allTypes, ∃ b, d.type.struct? = some b ∧ f ∈ b.fields := by
  rcases mem_flattenedFields.mp hf with ⟨b, hb, hfb⟩ | hfs
  · obtain ⟨d, hd, hdb, _⟩ := mem_baseStructs.mp hb
    exact ⟨d, hd, b, hdb, mem_fields_of_mem_instanceFields hfb⟩
  · exact ⟨e, he, s, hs, mem_fields_of_mem_instanceFields hfs⟩

/-- analysis leaves no key without a type -/
theorem keyType_of_analyze {ds : Diagnostics} (h : m.analyze.2 = .ok ds) {d : Entry}
    (hd : d ∈ m.analyze.1.allTypes) {b : StructType} (hb : d.type.struct? = some b) {f : Field}
    (hf : f ∈ b.fields) {key : TypeRef} (hk : f.key = some key) :
    ∃ x, m.analyze.1.KeyType key x := by
  rw [m.analyze_eq] at hd ⊢
  obtain ⟨e, he, rfl⟩ := mem_allTypes_bind.mp hd
  rw [Namespace.struct?_bindEntry] at hb
  obtain ⟨s, hs, rfl⟩ := Option.map_eq_some_iff.mp hb
  obtain ⟨g, hg, rfl⟩ := Namespace.mem_fields_bindStruct.mp hf
  obtain ⟨k, hgk, rfl⟩ := Option.map_eq_some_iff.mp hk
  exact ((WellFormed.of_analyze h).mapKeys e he s hs g hg k hgk).leads_bind (m.binding_bindRef k)

end Model

namespace Proto
variable {m : Model}

def keyNames : List String := ["bool", "int32", "int64", "string"]

theorem protoName_mem_keyNames {k : PrimitiveKind} (h : k.isFloat = false) :
    k.protoName ∈ keyNames := by
  cases k with
  | boolean => decide
  | text => decide
  | float bits => cases h
  | integer bits signed =>
    by_cases hbits : bits ≤ 32
    · rw [PrimitiveKind.protoName, if_pos hbits]
      decide
    · rw [PrimitiveKind.protoName, if_neg hbits]
      decide

theorem fieldType_of_keyType {r : TypeRef} {b : BasicType} (h : m.KeyType r b)
    {x : TypeName × Bool} (hx : fieldType m r = .ok x) : x = (.scalar b.kind.protoName, false) := by
  unfold fieldType at hx
  obtain ⟨y, hy, hx⟩ := bind_eq_ok.mp hx
  rw [h.expand_eq hy] at hx
  exact (Except.ok.inj hx).symm

/-- the line of a field with a key is that of a map, and both types in it are expansions -/
theorem map_of_messageField {f : Field} {key : TypeRef} (hk : f.key = some key) {n : Nat}
    {l : MessageField} (h : messageField m f n = .ok l) :
    ∃ name value b, fieldType m key = .ok (name, b) ∧ l.shape = .map name value ∧
      l.text = "map<" ++ name.text ++ ", " ++ value.text ++ ">" ++ " " ++ f.name ++ " = " ++
        Nat.repr n ++ ";" := by
  unfold messageField at h
  obtain ⟨⟨shape, repeated⟩, hshape, h⟩ := bind_eq_ok.mp h
  cases h
  unfold fieldShape at hshape
  obtain ⟨⟨value, _⟩, _, hshape⟩ := bind_eq_ok.mp hshape
  rw [hk] at hshape
  obtain ⟨⟨name, b⟩, hname, hshape⟩ := bind_eq_ok.mp hshape
  cases hshape
  exact ⟨name, value, b, hname, rfl, rfl⟩

/-- after analysis, the key of every map field that a message has, inherited or not, leads over
aliases alone to a primitive type that is no floating-point one, and where the field can be written
its key is that type and not repeated -/
theorem mapKeys_legal {r : Model} {ds : Diagnostics} (h : m.analyze = (r, .ok ds)) {e : Entry}
    (he : e ∈ r.allTypes) {s : StructType} {inner : List TypeDef} (ht : e.type = .struct s inner)
    {f : Field} (hf : f ∈ r.flattenedFields e.id s) {key : TypeRef} (hk : f.key = some key) :
    ∃ b, r.KeyType key b ∧ ∀ n l, messageField r f n = .ok l →
      ∃ name ∈ keyNames, ∃ value : TypeName, name = b.kind.protoName ∧
        fieldType r key = .ok (.scalar name, false) ∧ l.shape = .map (.scalar name) value ∧
        l.text = "map<" ++ name ++ ", " ++ value.text ++ ">" ++ " " ++ f.name ++ " = " ++
          Nat.repr n ++ ";" := by
  obtain rfl : m.analyze.1 = r := congrArg Prod.fst h
  obtain ⟨d, hd, c, hc, hfc⟩ :=
    Model.exists_declares_of_mem_flattenedFields he (by rw [ht]; rfl) hf
  obtain ⟨b, hb⟩ := Model.keyType_of_analyze (congrArg Prod.snd h) hd hc hfc hk
  refine ⟨b, hb, fun n l hl => ?_⟩
  obtain ⟨name, value, repeated, hname, hshape, htext⟩ := map_of_messageField hk hl
  obtain ⟨rfl, rfl⟩ := Prod.mk.inj (fieldType_of_keyType hb hname)
  exact ⟨_, protoName_mem_keyNames hb.integral, value, rfl, hname, hshape, htext⟩

/-- `Derived` inherits a map, whose key is a second name of `int64` -/
def keyed : Model :=
  { primitives :=
      [{ name := "Builtins"
         dataTypes :=
          [{ name := "int64", bitLength := some 64 },
            { name := "double", bitLength := some 64, encoding := .ieee754 }] }]
    types :=
      [.struct
          { name := "Base",
            fields :=
              [{ name := "prices", key := some { name := "Id" }, typeRef := { name := "double" } }] }
          [],
        .struct { name := "Derived", base := some { name := "Base" } } [],
        .alias { name := "Id", actualType := some { name := "int64" } }] }

theorem mapKeys_legal_keyed :
    keyed.analyze = (keyed.analyze.1, .ok []) ∧
      ∃ e ∈ keyed.analyze.1.allTypes, e.name = "Derived" ∧ ∃ s inner, e.type = .struct s inner ∧
        ∃ f ∈ keyed.analyze.1.flattenedFields e.id s, f.name = "prices" ∧
          ∃ l, messageField keyed.analyze.1 f 1 = .ok l ∧
            ∃ name ∈ keyNames, ∃ value : TypeName, l.shape = .map (.scalar name) value := by
  have hanalyze : keyed.analyze = (keyed.analyze.1, .ok []) :=
    Prod.ext rfl (by decide +kernel)
  obtain ⟨e, he, hid, s, inner, ht, f, hf, hname, key, hk, l, hl⟩ :
      ∃ e ∈ keyed.analyze.1.allTypes, e.name = "Derived" ∧ ∃ s inner, e.type = .struct s inner ∧
        ∃ f ∈ keyed.analyze.1.flattenedFields e.id s, f.name = "prices" ∧ ∃ key,
          f.key = some key ∧ ∃ l, messageField keyed.analyze.1 f 1 = .ok l :=
    ⟨_, List.mem_of_getElem? (i := 1) rfl, rfl, _, _, rfl, _, List.mem_of_getElem? (i := 0) rfl,
      rfl, _, rfl, _, rfl⟩
  obtain ⟨b, _, hlines⟩ := mapKeys_legal hanalyze he ht hf hk
  obtain ⟨name, hkey, value, _, _, hshape, _⟩ := hlines 1 l hl
  exact ⟨hanalyze, e, he, hid, s, inner, ht, f, hf, hname, l, hl, name, hkey, value, hshape⟩

end Proto

end TypeModel
