import TypeModel.Proofs.Analysis.Analyze
import TypeModel.Proofs.Cpp.Linkage

/-!
# The fields that take part in serialization

Serialization looks at the type that a field names, and aliases are not followed.

* `Source.Writes x f`, `Source.Reads x f`   the line for `f` in the generated `serialize`, and the
                                            branch for `f` in the generated `deserialize`;
* `Model.Serializable m f`                  `f` is a single value of a primitive type or an
                                            enumeration, aliases followed;
* `serialized_iff`                          `f` is written, and read, if and only if it is such a
                                            value and its type is not named by an alias;
* `not_serialized_accounts`                 a field of an alias of an integer is left out.

Lines are compared as texts, so a field that is left out must not share the line of another one
(`name_of_writeLine_eq`, `name_of_branchLine_eq`).
-/

namespace TypeModel

/-- a primitive type or an enumeration -/
def Target.isPlain : Target → Bool
  | .basic _ => true
  | .declared e => e.type.kind = .enumeration

namespace Model

def Serializable (m : Model) (f : Field) : Prop :=
  f.isSingleValued = true ∧ ∃ n t, m.Leads [.alias] f.typeRef n t ∧ t.isPlain = true

def NamesAlias (m : Model) (r : TypeRef) : Prop :=
  ∃ e, m.target r = .ok (.declared e) ∧ e.type.kind = .alias

end Model

namespace Cpp

/-! ## the encoded fields -/

section
variable {m : Model} {ns : Option String} {s : StructType} {f : Field}

theorem isSome_fieldEncoding_iff {o : Option FieldEncoding} (h : fieldEncoding m f = .ok o) :
    o.isSome = true ↔ m.Serializable f ∧ ¬ m.NamesAlias f.typeRef := by
  unfold fieldEncoding at h
  unfold Model.Serializable Model.NamesAlias
  cases hsingle : f.isSingleValued with
  | false =>
    rw [hsingle] at h
    cases h
    exact iff_of_false Bool.false_ne_true fun h => absurd h.1.1 Bool.false_ne_true
  | true =>
    rw [hsingle] at h
    obtain ⟨t, ht, h⟩ := bind_eq_ok.mp h
    cases t with
    | basic b =>
      cases h
      refine iff_of_true rfl ⟨⟨rfl, 0, .basic b, ?_, rfl⟩, ?_⟩
      · exact (Model.leads_of_target_basic ht 0 (.basic b)).mpr ⟨rfl, rfl⟩
      · rintro ⟨e, he, _⟩
        rw [ht] at he
        cases he
    | declared e =>
      cases h
      by_cases hk : e.type.kind = .enumeration
      · rw [if_pos hk]
        refine iff_of_true rfl ⟨⟨rfl, 0, .declared e, ?_, decide_eq_true hk⟩, ?_⟩
        · refine (Model.leads_of_target_declared ht 0 (.declared e)).mpr (Or.inl ⟨?_, rfl, rfl⟩)
          rw [hk]
          decide
        · rintro ⟨e', he', hk'⟩
          rw [ht] at he'
          cases he'
          rw [hk] at hk'
          cases hk'
      · rw [if_neg hk]
        refine iff_of_false Bool.false_ne_true ?_
        rintro ⟨⟨_, n, t, hleads, hplain⟩, halias⟩
        rcases (Model.leads_of_target_declared ht n t).mp hleads with ⟨_, _, rfl⟩ | ⟨hk', _⟩
        · exact hk (of_decide_eq_true hplain)
        · exact halias ⟨e, ht, List.mem_singleton.mp hk'⟩

/-- the field has an encoding -/
def isEncoded (m : Model) (f : Field) : Bool :=
  match fieldEncoding m f with
  | .ok (some _) => true
  | _ => false

theorem map_field_encodedFields {fields : List EncodedField}
    (h : encodedFields m ns s = .ok fields) :
    fields.map (·.field) = s.instanceFields.filter (isEncoded m) := by
  obtain ⟨found, hfound, h⟩ := bind_eq_ok.mp h
  cases h
  have hkept : (found.flatMap fun o => (o.map EncodedField.field).toList) =
      s.instanceFields.flatMap fun f => if isEncoded m f then [f] else [] := by
    refine flatMap_of_mapM (fun f o ho => ?_) hfound
    unfold isEncoded
    obtain ⟨o', ho', ho⟩ := bind_eq_ok.mp ho
    rw [ho']
    cases o' with
    | none =>
      cases ho
      rfl
    | some encoding =>
      obtain ⟨type, _, ho⟩ := bind_eq_ok.mp ho
      cases ho
      rfl
  have hall := map_filter_eq_flatMap (isEncoded m) id s.instanceFields
  rw [List.map_id] at hall
  rw [hall, List.map_filterMap, List.filterMap_eq_flatMap_toList]
  exact hkept

theorem isEncoded_iff {fields : List EncodedField} (h : encodedFields m ns s = .ok fields)
    (hf : f ∈ s.instanceFields) :
    isEncoded m f = true ↔ m.Serializable f ∧ ¬ m.NamesAlias f.typeRef := by
  obtain ⟨found, hfound, _⟩ := bind_eq_ok.mp h
  obtain ⟨o, ho⟩ := succeeds_mapM.mp ⟨found, hfound⟩ f hf
  obtain ⟨encoding, hencoding, _⟩ := bind_eq_ok.mp ho
  rw [← isSome_fieldEncoding_iff hencoding]
  unfold isEncoded
  rw [hencoding]
  cases encoding <;> rfl

/-- where names are different, a field is encoded if one of its name is -/
theorem exists_encoded_iff (hnames : (s.fields.map Field.name).Nodup)
    {fields : List EncodedField} (h : encodedFields m ns s = .ok fields)
    (hf : f ∈ s.instanceFields) :
    (∃ y ∈ fields, y.field.name = f.name) ↔ ∃ y ∈ fields, y.field = f := by
  constructor
  · rintro ⟨y, hy, hname⟩
    have hmem : y.field ∈ s.instanceFields := by
      have hy' : y.field ∈ fields.map (·.field) := List.mem_map_of_mem hy
      rw [map_field_encodedFields h] at hy'
      exact List.mem_of_mem_filter hy'
    exact ⟨y, hy, List.inj_on_of_nodup_map hnames (List.mem_of_mem_filter hmem)
      (List.mem_of_mem_filter hf) hname⟩
  · rintro ⟨y, hy, rfl⟩
    exact ⟨y, hy, rfl⟩

theorem mem_encodedFields_iff {fields : List EncodedField} (h : encodedFields m ns s = .ok fields)
    (hf : f ∈ s.instanceFields) :
    (∃ y ∈ fields, y.field = f) ↔ m.Serializable f ∧ ¬ m.NamesAlias f.typeRef := by
  rw [← isEncoded_iff h hf, ← List.mem_map (f := EncodedField.field), map_field_encodedFields h,
    List.mem_filter, and_iff_right hf]

end

/-! ## lines -/

/-- what stands around the member in the value that is written -/
def FieldEncoding.around : FieldEncoding → String × String
  | .integer => ("+", "")
  | .enumeration => ("static_cast<long long>(", ")")
  | .text | .boolean | .float => ("", "")

theorem FieldEncoding.around_cases (x : FieldEncoding) :
    x.around = ("", "") ∨ x.around = ("+", "") ∨ x.around = ("static_cast<long long>(", ")") := by
  cases x <;> decide

/-- the rest of a written line, from the name of the field on -/
def writtenRest (around : String × String) (n : List Char) : List Char :=
  n ++ ("=\" << ".toList ++ around.1.toList ++ "this->".toList ++ n ++ around.2.toList ++
    " << ';';".toList)

theorem toList_writeLine (x : EncodedField) :
    x.writeLine.toList =
      "out << \"".toList ++ writtenRest x.encoding.around x.field.name.toList := by
  unfold EncodedField.writeLine FieldEncoding.around EncodedField.member writtenRest
  cases x.encoding <;> simp

theorem length_writtenRest (around : String × String) (n : List Char) :
    (writtenRest around n).length =
      2 * n.length + (around.1.toList.length + around.2.toList.length) + 20 := by
  have hlengths : "=\" << ".toList.length = 6 ∧ "this->".toList.length = 6 ∧
      " << ';';".toList.length = 8 := by decide
  unfold writtenRest
  simp only [List.length_append, hlengths]
  omega

/-- a line with a cast that is as long as one without differs from it behind the shorter name -/
theorem writtenRest_cast_ne {n k : List Char} (hlength : n.length = k.length + 12) :
    writtenRest ("", "") n ≠ writtenRest ("static_cast<long long>(", ")") k := by
  intro h
  have hdrop := congrArg (List.drop n.length) h
  unfold writtenRest at hdrop
  rw [List.drop_left, hlength, List.drop_length_add_append] at hdrop
  simp at hdrop

theorem eq_of_writtenRest_eq {x y : FieldEncoding} {n k : List Char}
    (h : writtenRest x.around n = writtenRest y.around k) : n = k := by
  have hlength := congrArg List.length h
  rw [length_writtenRest, length_writtenRest] at hlength
  have hparts : ("" : String).toList.length = 0 ∧ "+".toList.length = 1 ∧ ")".toList.length = 1 ∧
      "static_cast<long long>(".toList.length = 23 := by decide
  -- a name stands in its line twice, so what is around it is of the same parity in both
  have hcases : n.length = k.length ∨
      (x.around = ("", "") ∧ y.around = ("static_cast<long long>(", ")") ∧
        n.length = k.length + 12) ∨
      (x.around = ("static_cast<long long>(", ")") ∧ y.around = ("", "") ∧
        k.length = n.length + 12) := by
    rcases x.around_cases with hx | hx | hx <;> rcases y.around_cases with hy | hy | hy <;>
      rw [hx, hy] at hlength ⊢ <;> simp only [hparts] at hlength <;> simp <;> omega
  rcases hcases with heq | ⟨hx, hy, hlonger⟩ | ⟨hx, hy, hlonger⟩
  · exact List.append_inj_left h heq
  · rw [hx, hy] at h
    exact absurd h (writtenRest_cast_ne hlonger)
  · rw [hx, hy] at h
    exact absurd h.symm (writtenRest_cast_ne hlonger)

theorem name_of_writeLine_eq {x y : EncodedField} (h : x.writeLine = y.writeLine) :
    x.field.name = y.field.name := by
  have hlist := congrArg String.toList h
  rw [toList_writeLine, toList_writeLine, List.append_cancel_left_eq] at hlist
  exact String.toList_injective (eq_of_writtenRest_eq hlist)

theorem writeLine_mem_serializeBody_iff {s : StructType} {fields : List EncodedField}
    {y : EncodedField} :
    y.writeLine ∈ serializeBody s fields ↔ ∃ x ∈ fields, x.writeLine = y.writeLine := by
  have hhead : y.writeLine.toList.head? = some 'o' := by
    rw [toList_writeLine]
    rfl
  have hother {ls : List String} (hls : ∀ l ∈ ls, l.toList.head? ≠ some 'o') :
      y.writeLine ∉ ls := fun hmem => hls _ hmem hhead
  unfold serializeBody lockLines
  rw [List.mem_append, List.mem_append, List.mem_append, List.mem_map]
  constructor
  · rintro (((h | h) | h) | h)
    · refine absurd h (hother ?_)
      cases s.options.threading <;> decide
    · exact absurd h (hother (by decide))
    · exact h
    · exact absurd h (hother (by decide))
  · exact fun h => Or.inl (Or.inr h)

/-- the condition of a branch -/
def EncodedField.branchLine (x : EncodedField) (isFirst : Bool) : String :=
  indent ++ (if isFirst then "if" else "\x7d else if") ++
    " (key == \"" ++ x.field.name ++ "\") \x7b"

def EncodedField.branch (x : EncodedField) (isFirst : Bool) : List String :=
  x.branchLine isFirst :: x.readLines.map (indent ++ indent ++ ·)

theorem readBranches_cons (isFirst : Bool) (x : EncodedField) (xs : List EncodedField) :
    readBranches isFirst (x :: xs) = x.branch isFirst ++ readBranches false xs := rfl

theorem name_of_branchLine_eq {x y : EncodedField} {i j : Bool}
    (h : x.branchLine i = y.branchLine j) : x.field.name = y.field.name := by
  have hlist := congrArg String.toList h
  unfold EncodedField.branchLine at hlist
  cases i <;> cases j <;> simp [indent] at hlist
  · exact String.toList_injective hlist
  · exact String.toList_injective hlist

/-- the line begins like the condition of a branch -/
def opensBranch (line : String) : Bool :=
  "    if (key".toList.isPrefixOf line.toList || "    \x7d else".toList.isPrefixOf line.toList

theorem opensBranch_branchLine (x : EncodedField) (i : Bool) :
    opensBranch (x.branchLine i) = true := by
  unfold opensBranch EncodedField.branchLine
  cases i <;> simp [indent]

theorem not_opensBranch_indented (l : String) : opensBranch (indent ++ indent ++ l) = false := by
  unfold opensBranch
  simp [indent, List.isPrefixOf]

theorem exists_of_branchLine_mem {y : EncodedField} {i : Bool} {fields : List EncodedField} :
    ∀ {isFirst : Bool}, y.branchLine i ∈ readBranches isFirst fields →
      ∃ x ∈ fields, x.field.name = y.field.name := by
  induction fields with
  | nil => exact fun h => absurd h List.not_mem_nil
  | cons x xs ih =>
    intro isFirst h
    rw [readBranches_cons] at h
    rcases List.mem_append.mp h with h | h
    · rcases List.mem_cons.mp h with h | h
      · exact ⟨x, List.mem_cons_self, (name_of_branchLine_eq h).symm⟩
      · obtain ⟨l, _, hl⟩ := List.mem_map.mp h
        have hopens := opensBranch_branchLine y i
        rw [← hl, not_opensBranch_indented] at hopens
        cases hopens
    · obtain ⟨x', hx', hname⟩ := ih h
      exact ⟨x', List.mem_cons_of_mem x hx', hname⟩

theorem exists_of_branchLine_mem_body {s : StructType} {y : EncodedField} {i : Bool}
    {fields : List EncodedField} (h : y.branchLine i ∈ deserializeBody s fields) :
    ∃ x ∈ fields, x.field.name = y.field.name := by
  have hopens := opensBranch_branchLine y i
  have hother {ls : List String} (hls : ∀ l ∈ ls, opensBranch l = false) :
      y.branchLine i ∉ ls := fun hmem => absurd (hls _ hmem) (by rw [hopens]; nofun)
  unfold deserializeBody lockLines at h
  rcases List.mem_append.mp h with h | h
  · rcases List.mem_append.mp h with h | h
    · rcases List.mem_append.mp h with h | h
      · refine absurd h (hother ?_)
        cases s.options.threading <;> decide
      · exact exists_of_branchLine_mem h
    · refine absurd h (hother ?_)
      cases fields.isEmpty <;> decide
  · exact absurd h (hother (by decide))

theorem exists_branch_infix {x : EncodedField} {fields : List EncodedField} (hx : x ∈ fields) :
    ∀ isFirst : Bool, ∃ i, x.branch i <:+: readBranches isFirst fields := by
  induction fields with
  | nil => cases hx
  | cons y ys ih =>
    intro isFirst
    rw [readBranches_cons]
    rcases List.mem_cons.mp hx with rfl | hx
    · exact ⟨isFirst, (List.prefix_append _ _).isInfix⟩
    · obtain ⟨i, hi⟩ := ih hx false
      exact ⟨i, hi.trans (List.suffix_append _ _).isInfix⟩

theorem exists_branch_infix_body (s : StructType) {x : EncodedField} {fields : List EncodedField}
    (hx : x ∈ fields) : ∃ i, x.branch i <:+: deserializeBody s fields := by
  obtain ⟨i, hi⟩ := exists_branch_infix hx true
  refine ⟨i, hi.trans ?_⟩
  unfold deserializeBody
  exact ((List.suffix_append _ _).isInfix.trans (List.prefix_append _ _).isInfix).trans
    (List.prefix_append _ _).isInfix

/-! ## the two functions -/

namespace Source

/-- a generated function, which is defined behind all that are written by hand -/
def generated? (x : Source) (g : Heading) : Option Definition :=
  x.definitions.reverse.find? (·.heading = g)

/-- `serialize` has a line for the field -/
def Writes (x : Source) (f : Field) : Prop :=
  ∃ d, x.generated? Heading.serialize = some d ∧
    ∃ y : EncodedField, y.field = f ∧ y.writeLine ∈ d.body

/-- `deserialize` has a branch for the field -/
def Reads (x : Source) (f : Field) : Prop :=
  ∃ d, x.generated? Heading.deserialize = some d ∧
    ∃ y : EncodedField, y.field = f ∧ ∃ i, y.branch i <:+: d.body

end Source

theorem generated_of_source {m : Model} {e : Entry} {s : StructType} {x : Source}
    (hs : s.options.serialization = true) (h : Source.ofStruct m e s = .ok x) :
    ∃ fields, encodedFields m (namespaceOf e) s = .ok fields ∧
      x.generated? Heading.serialize =
        some { heading := Heading.serialize, body := serializeBody s fields } ∧
      x.generated? Heading.deserialize =
        some { heading := Heading.deserialize, body := deserializeBody s fields } := by
  obtain ⟨_, _, _, _, _, serialization, -, -, -, -, -, hserialization, hall⟩ :=
    (sourceParts_of_ofStruct h).definitions
  unfold serializationDefinitions at hserialization
  rw [if_pos hs] at hserialization
  obtain ⟨fields, hfields, hserialization⟩ := bind_eq_ok.mp hserialization
  cases hserialization
  unfold Source.generated?
  rw [hall, List.reverse_append]
  exact ⟨fields, hfields, rfl, rfl⟩

section
variable {m : Model} {e : Entry} {s : StructType} {x : Source} {f : Field}

theorem writes_iff (hnames : (s.fields.map Field.name).Nodup)
    (hs : s.options.serialization = true) (hx : Source.ofStruct m e s = .ok x)
    (hf : f ∈ s.instanceFields) :
    x.Writes f ↔ m.Serializable f ∧ ¬ m.NamesAlias f.typeRef := by
  obtain ⟨fields, hfields, hwrite, _⟩ := generated_of_source hs hx
  rw [← mem_encodedFields_iff hfields hf]
  unfold Source.Writes
  rw [hwrite]
  constructor
  · rintro ⟨d, ⟨⟩, y, rfl, hy⟩
    obtain ⟨z, hz, hline⟩ := writeLine_mem_serializeBody_iff.mp hy
    exact (exists_encoded_iff hnames hfields hf).mp ⟨z, hz, name_of_writeLine_eq hline⟩
  · rintro ⟨y, hy, hfield⟩
    exact ⟨_, rfl, y, hfield, writeLine_mem_serializeBody_iff.mpr ⟨y, hy, rfl⟩⟩

theorem reads_iff (hnames : (s.fields.map Field.name).Nodup)
    (hs : s.options.serialization = true) (hx : Source.ofStruct m e s = .ok x)
    (hf : f ∈ s.instanceFields) :
    x.Reads f ↔ m.Serializable f ∧ ¬ m.NamesAlias f.typeRef := by
  obtain ⟨fields, hfields, _, hread⟩ := generated_of_source hs hx
  rw [← mem_encodedFields_iff hfields hf]
  unfold Source.Reads
  rw [hread]
  constructor
  · rintro ⟨d, ⟨⟩, y, rfl, i, hi⟩
    exact (exists_encoded_iff hnames hfields hf).mp
      (exists_of_branchLine_mem_body (hi.subset List.mem_cons_self))
  · rintro ⟨y, hy, hfield⟩
    exact ⟨_, rfl, y, hfield, exists_branch_infix_body s hy⟩

end

/-- after analysis, a field is written, and read, if and only if it is a single value of a primitive
type or an enumeration and its type is not named by an alias -/
theorem serialized_iff {m r : Model} {ds : Diagnostics} (h : m.analyze = (r, .ok ds)) {e : Entry}
    (he : e ∈ r.declaredTypes) {s : StructType} {inner : List TypeDef}
    (ht : e.type = .struct s inner) (hs : s.options.serialization = true) {x : Source}
    (hx : Source.ofStruct r e s = .ok x) {f : Field} (hf : f ∈ s.instanceFields) :
    (x.Writes f ↔ r.Serializable f ∧ ¬ r.NamesAlias f.typeRef) ∧
      (x.Reads f ↔ r.Serializable f ∧ ¬ r.NamesAlias f.typeRef) := by
  have hr : m.analyze.1 = r := congrArg Prod.fst h
  have hsound : ∀ e ∈ r.allTypes, e.type.Sound :=
    hr ▸ Model.sound_of_analyze (congrArg Prod.snd h)
  have hnames : (s.fields.map Field.name).Nodup := by
    have hstruct := hsound e (List.mem_append_left _ he)
    rw [ht] at hstruct
    exact hstruct.names
  exact ⟨writes_iff hnames hs hx hf, reads_iff hnames hs hx hf⟩

/-- the type of `id` is another name for the type of `balance` -/
def accounts : Model :=
  { primitives :=
      [{ name := "Builtins",
         dataTypes := [{ name := "int64", bitLength := some 64, encoding := .signed }] }]
    types :=
      [.alias { name := "UserId", actualType := some { name := "int64" } },
        .struct
          { name := "Account",
            fields :=
              [{ name := "id", typeRef := { name := "UserId" } },
                { name := "balance", typeRef := { name := "int64" } }],
            options := { serialization := true } }
          []] }

theorem analyze_accounts : accounts.analyze = (accounts.analyze.1, .ok []) :=
  Prod.ext rfl (by decide +kernel)

theorem serialized_iff_accounts :
    accounts.analyze = (accounts.analyze.1, .ok []) ∧
      ∃ e ∈ accounts.analyze.1.declaredTypes, ∃ s x f, e.type = .struct s [] ∧
        s.options.serialization = true ∧ Source.ofStruct accounts.analyze.1 e s = .ok x ∧
        f ∈ s.instanceFields ∧ f.name = "balance" ∧ x.Writes f ∧ x.Reads f := by
  obtain ⟨e, he, s, ht, hs, hx, f, hf, hname, hserializable, halias⟩ :
      ∃ e ∈ accounts.analyze.1.declaredTypes, ∃ s, e.type = .struct s [] ∧
        s.options.serialization = true ∧ (Source.ofStruct accounts.analyze.1 e s).isOk = true ∧
        ∃ f ∈ s.instanceFields, f.name = "balance" ∧ accounts.analyze.1.Serializable f ∧
          ¬ accounts.analyze.1.NamesAlias f.typeRef :=
    ⟨_, List.mem_of_getElem? (i := 1) rfl, _, rfl, rfl, by decide +kernel, _,
      List.mem_of_getElem? (i := 1) rfl, rfl, ⟨rfl, 0, _, .basic rfl rfl, rfl⟩,
      by rintro ⟨e, he, _⟩; cases he⟩
  obtain ⟨x, hx⟩ := succeeds_iff_isOk.mpr hx
  obtain ⟨hwrites, hreads⟩ := serialized_iff analyze_accounts he ht hs hx hf
  exact ⟨analyze_accounts, e, he, s, x, f, ht, hs, hx, hf, hname,
    hwrites.mpr ⟨hserializable, halias⟩, hreads.mpr ⟨hserializable, halias⟩⟩

/-- `id` is a single value of an integer type, and neither written nor read -/
theorem not_serialized_accounts :
    accounts.analyze.2 = .ok [] ∧
      ∃ e ∈ accounts.analyze.1.declaredTypes, ∃ s x f, e.type = .struct s [] ∧
        s.options.serialization = true ∧ Source.ofStruct accounts.analyze.1 e s = .ok x ∧
        f ∈ s.instanceFields ∧ f.name = "id" ∧ accounts.analyze.1.Serializable f ∧
        ¬ x.Writes f ∧ ¬ x.Reads f := by
  obtain ⟨e, he, s, ht, hs, hx, hnames, f, hf, hname, hserializable, halias⟩ :
      ∃ e ∈ accounts.analyze.1.declaredTypes, ∃ s, e.type = .struct s [] ∧
        s.options.serialization = true ∧ (Source.ofStruct accounts.analyze.1 e s).isOk = true ∧
        (s.fields.map Field.name).Nodup ∧ ∃ f ∈ s.instanceFields, f.name = "id" ∧
          accounts.analyze.1.Serializable f ∧ accounts.analyze.1.NamesAlias f.typeRef :=
    ⟨_, List.mem_of_getElem? (i := 1) rfl, _, rfl, rfl, by decide +kernel, by decide +kernel, _,
      List.mem_of_getElem? (i := 0) rfl, rfl,
      ⟨rfl, 1, _, .step rfl rfl (by decide) rfl (.basic rfl rfl), rfl⟩, _, rfl, rfl⟩
  obtain ⟨x, hx⟩ := succeeds_iff_isOk.mpr hx
  exact ⟨congrArg Prod.snd analyze_accounts, e, he, s, x, f, ht, hs, hx, hf, hname,
    hserializable, fun h => ((writes_iff hnames hs hx hf).mp h).2 halias,
    fun h => ((reads_iff hnames hs hx hf).mp h).2 halias⟩

end Cpp

end TypeModel
