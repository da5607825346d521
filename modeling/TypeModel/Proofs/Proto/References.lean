import TypeModel.Analysis.Validation
import TypeModel.Proofs.Generation.Proto
import TypeModel.Proofs.Proto.Nesting

/-!
# What the type names in a schema mean

A line of a message names the type of a field by its path from the file, but names are looked up
from the message outwards.

* `Writes m l n f r`                 the line `l` is that of the field `f`, and its type name `n`
                                     stands for the reference `r`;
* `declare_struct_of_declarationAt?` a message with lines is that of a struct of the model;
* `typeName_denotes_iff`             the name means the declaration that the reference leads to, and
                                     nothing else, if and only if its path is findable there;
* `not_denotes_shadowed`             an inner type hides a top-level type of the same name.
-/

namespace TypeModel

namespace Proto

/-! ## messages come from structs -/

theorem mem_structs_of_at? {s : StructType} {inner : List TypeDef} (path : List Nat) :
    ∀ {t : TypeDef}, t.at? path = some (.struct s inner) → s ∈ t.structs := by
  induction path with
  | nil =>
    intro t h
    obtain rfl := Option.some.inj h
    exact List.mem_cons_self
  | cons i path ih =>
    intro t h
    obtain ⟨u, hu, hs⟩ := Option.bind_eq_some_iff.mp h
    cases t with
    | struct s' inner' =>
      refine List.mem_cons_of_mem s' (TypeDef.mem_structsOfAll.mpr ⟨u, ?_, ih hs⟩)
      exact List.mem_of_getElem? hu
    | enumeration x => cases hu
    | array a => cases hu
    | «alias» a => cases hu

section
variable {m : Model}

/-- a declaration with fields is that of a struct of the model -/
theorem declare_struct_of_declarationAt? {c : ProtoConfig} {schema : Schema}
    (h : Schema.ofModel m c = .ok schema) {p : List Nat} {d : Declaration}
    (hd : declarationAt? schema.roots p = some d) (hfields : d.fields ≠ []) :
    ∃ id s inner, (∃ e ∈ m.declaredTypes, s ∈ e.type.structs) ∧
      declare m id (.struct s inner) = .ok [d] := by
  rcases origin_of_mem_scopeAt h (mem_scopeAt_of_declarationAt? p hd) with
    ⟨e, he, path, t, ht, hdt⟩ | ⟨w, rfl⟩
  · rcases declare_cases hdt with ⟨s, inner, rfl⟩ | ⟨_, hnone⟩
    · exact ⟨_, s, inner, ⟨e, he, mem_structs_of_at? path ht⟩, hdt⟩
    · exact absurd hnone hfields
  · exact absurd rfl hfields

theorem exists_of_mem_messageFieldsFrom {l : MessageField} : ∀ (fs : List Field) {k : Nat}
    {ls : List MessageField}, messageFieldsFrom m k fs = .ok ls → l ∈ ls →
      ∃ f ∈ fs, messageField m f l.number = .ok l := by
  intro fs
  induction fs with
  | nil =>
    rintro k _ ⟨⟩ hl
    cases hl
  | cons f fs ih =>
    intro k ls h hl
    rw [messageFieldsFrom] at h
    obtain ⟨first, hfirst, h⟩ := bind_eq_ok.mp h
    obtain ⟨rest, hrest, h⟩ := bind_eq_ok.mp h
    cases h
    rcases List.mem_cons.mp hl with rfl | hl
    · refine ⟨f, List.mem_cons_self, ?_⟩
      have hnumber : l.number = k := by
        unfold messageField at hfirst
        obtain ⟨shape, _, h⟩ := bind_eq_ok.mp hfirst
        cases h
        rfl
      rw [hnumber]
      exact hfirst
    · obtain ⟨f', hf', hline⟩ := ih hrest hl
      exact ⟨f', List.mem_cons_of_mem f hf', hline⟩

end

/-! ## type names and references -/

/-- the type name of the values in a field -/
def Shape.value : Shape → TypeName
  | .single value | .repeated value | .map _ value => value

def Shape.key? : Shape → Option TypeName
  | .map key _ => some key
  | .single _ | .repeated _ => none

structure Writes (m : Model) (l : MessageField) (n : TypeName) (f : Field) (r : TypeRef) :
    Prop where
  line : messageField m f l.number = .ok l
  name : (n = l.shape.value ∧ r = f.typeRef) ∨ (l.shape.key? = some n ∧ f.key = some r)

section
variable {m : Model}

theorem fieldType_of_fieldShape {f : Field} {shape : Shape} {repeated : Bool}
    (h : fieldShape m f = .ok (shape, repeated)) :
    (∃ b, fieldType m f.typeRef = .ok (shape.value, b)) ∧
      ∀ n, shape.key? = some n → ∃ key b, f.key = some key ∧ fieldType m key = .ok (n, b) := by
  unfold fieldShape at h
  obtain ⟨⟨value, b⟩, hvalue, h⟩ := bind_eq_ok.mp h
  dsimp only at h
  cases hk : f.key with
  | none =>
    rw [hk] at h
    by_cases hb : (b || f.arraySize.isSome) = true
    · rw [if_pos hb] at h
      cases h
      exact ⟨⟨b, hvalue⟩, fun n hn => nomatch hn⟩
    · rw [if_neg hb] at h
      cases h
      exact ⟨⟨b, hvalue⟩, fun n hn => nomatch hn⟩
  | some key =>
    rw [hk] at h
    obtain ⟨⟨keyName, b'⟩, hkey, h⟩ := bind_eq_ok.mp h
    cases h
    refine ⟨⟨b, hvalue⟩, ?_⟩
    rintro _ ⟨⟩
    exact ⟨key, b', rfl, hkey⟩

/-- behind each type name of a line is a reference of its field -/
theorem exists_writes {f : Field} {l : MessageField} (h : messageField m f l.number = .ok l)
    {n : TypeName} (hn : n = l.shape.value ∨ l.shape.key? = some n) :
    ∃ r b, Writes m l n f r ∧ fieldType m r = .ok (n, b) := by
  have hline := h
  unfold messageField at h
  obtain ⟨⟨shape, repeated⟩, hshape, h⟩ := bind_eq_ok.mp h
  obtain rfl : shape = l.shape := congrArg MessageField.shape (Except.ok.inj h)
  obtain ⟨⟨b, hvalue⟩, hkey⟩ := fieldType_of_fieldShape hshape
  rcases hn with rfl | hn
  · exact ⟨f.typeRef, b, ⟨hline, Or.inl ⟨rfl, rfl⟩⟩, hvalue⟩
  · obtain ⟨key, b', hk, hname⟩ := hkey n hn
    exact ⟨key, b', ⟨hline, Or.inr ⟨hn, hk⟩⟩, hname⟩

/-- the declaration behind a type name is the one that the reference leads to -/
theorem leads_of_fieldType {r : TypeRef} {id : TypeId} {path : List Name} {b : Bool}
    (h : fieldType m r = .ok (.declared id path, b)) :
    ∃ e k, k < maxExpansion ∧ m.Leads [.alias, .array] r k (.declared e) ∧
      e.id = id ∧ declarationPath m e = path := by
  unfold fieldType at h
  obtain ⟨⟨t, repeated⟩, hexpand, h⟩ := bind_eq_ok.mp h
  cases t with
  | basic x => cases h
  | declared e =>
    cases h
    obtain ⟨k, hk, hleads⟩ := Model.expand_ok_iff.mp ⟨b, hexpand⟩
    exact ⟨e, k, hk, hleads, rfl, rfl⟩

theorem declared_of_leads {ks : List TypeKind} {r : TypeRef} {k : Nat} {t : Target}
    (h : m.Leads ks r k t) : ∀ {e : Entry}, t = .declared e →
      e ∈ m.allTypes ∧ e.type.kind ∉ ks := by
  induction h with
  | basic _ _ => rintro e ⟨⟩
  | declared _ he hk =>
    rintro _ ⟨⟩
    exact ⟨(Model.entry?_eq_some_iff_mem.mp he).1, hk⟩
  | step _ _ _ _ _ ih => exact ih

theorem isDeclared_of_kind {t : TypeDef} (h : t.kind ∉ [TypeKind.alias, .array]) :
    isDeclared t = true := by
  cases t with
  | struct s inner => rfl
  | enumeration e => rfl
  | array a => exact absurd (by simp [TypeDef.kind]) h
  | «alias» a => exact absurd (by simp [TypeDef.kind]) h

/-- what a type name means, written in a line of a schema -/
theorem typeName_denotes_iff (m : Model) (c : ProtoConfig) {schema : Schema}
    (h : Schema.ofModel m c = .ok schema) {p : List Nat} {d : Declaration}
    (hd : declarationAt? schema.roots p = some d) {l : MessageField} (hl : l ∈ d.fields)
    {id : TypeId} {path : List Name}
    (hn : .declared id path = l.shape.value ∨ l.shape.key? = some (.declared id path)) :
    ∃ own s inner f r e k d',
      (∃ x ∈ m.declaredTypes, s ∈ x.type.structs) ∧ declare m own (.struct s inner) = .ok [d] ∧
      f ∈ m.flattenedFields own s ∧ Writes m l (.declared id path) f r ∧
      k < maxExpansion ∧ m.Leads [.alias, .array] r k (.declared e) ∧ e.id = id ∧
      declare m id e.type = .ok [d'] ∧ declarationAt? schema.roots (placeOf m id) = some d' ∧
      ((∀ q, Denotes schema.roots p (TypeName.declared id path).text q ↔ q = placeOf m id) ↔
        Findable schema.roots p path (placeOf m id)) := by
  obtain ⟨own, s, inner, hs, hown⟩ :=
    declare_struct_of_declarationAt? h hd (List.ne_nil_of_mem hl)
  obtain ⟨f, hf, hline⟩ := exists_of_mem_messageFieldsFrom _ (declare_struct hown).2 hl
  obtain ⟨r, b, hwrites, hr⟩ := exists_writes hline hn
  obtain ⟨e, k, hk, hleads, rfl, rfl⟩ := leads_of_fieldType hr
  obtain ⟨he, hkind⟩ := declared_of_leads hleads rfl
  obtain ⟨d', hd', hstands⟩ := standsAt_placeOf h he (isDeclared_of_kind hkind)
  refine ⟨own, s, inner, f, r, e, k, d', hs, hown, hf, hwrites, hk, hleads, rfl, hd',
    hstands.declaration, ?_⟩
  obtain ⟨n, ns, hpath⟩ : ∃ n ns, declarationPath m e = n :: ns :=
    List.exists_cons_of_ne_nil (List.append_ne_nil_of_right_ne_nil _ (List.cons_ne_nil _ _))
  have hnames := hstands.names
  rw [hpath] at hnames ⊢
  exact denotes_only_iff hnames

end

/-- the struct `Outer` has a field of the top-level type `Leaf` and an inner type of that name -/
def shadowed : Model :=
  { types :=
      [.struct { name := "Leaf" } [],
        .struct { name := "Outer", fields := [{ name := "x", typeRef := { name := "Leaf" } }] }
          [.struct { name := "Leaf" } []]] }

def shadowedSchema : Schema :=
  { package := none
    declarations :=
      [.message "Leaf" [] [] [],
        .message "Outer" [] [.message "Leaf" [] [] []]
          [⟨[], .single (.declared (.topLevel 0) ["Leaf"]), "x", 1⟩]]
    wrappers := [] }

theorem ofModel_shadowed : Schema.ofModel shadowed.analyze.1 {} = .ok shadowedSchema := rfl

theorem declaredIn_shadowed : DeclaredIn shadowedSchema.roots [1] "Leaf" :=
  ⟨.message "Leaf" [] [] [], List.mem_singleton.mpr rfl, rfl⟩

theorem typeName_denotes_iff_shadowed :
    Schema.ofModel shadowed.analyze.1 {} = .ok shadowedSchema ∧
      ¬ ∀ q, Denotes shadowedSchema.roots [1] "Leaf" q ↔
        q = placeOf shadowed.analyze.1 (.topLevel 0) := by
  refine ⟨ofModel_shadowed, fun hq => ?_⟩
  obtain ⟨_, _, _, _, _, _, _, _, _, _, _, _, _, _, _, _, _, hiff⟩ :=
    typeName_denotes_iff shadowed.analyze.1 {} ofModel_shadowed (p := [1]) rfl
      (List.mem_singleton.mpr rfl) (Or.inl rfl)
  exact (hiff.mp hq).unhidden "Leaf" rfl 1 Nat.one_pos (Nat.le_refl 1) declaredIn_shadowed

/-- the field of `Outer` has the top-level type, but its line means the inner one -/
theorem not_denotes_shadowed :
    shadowed.analyze.2.isOk = true ∧
      ((shadowed.analyze.1.type? (.topLevel 1)).bind TypeDef.struct?).map
        (·.fields.map (·.typeRef.binding)) = some [.type (.topLevel 0)] ∧
      Schema.ofModel shadowed.analyze.1 {} = .ok shadowedSchema ∧
      Denotes shadowedSchema.roots [1] "Leaf" [1, 0] ∧
      ¬ Denotes shadowedSchema.roots [1] "Leaf" (placeOf shadowed.analyze.1 (.topLevel 0)) := by
  refine ⟨by decide +kernel, by decide +kernel, ofModel_shadowed, ?_, ?_⟩
  · refine ⟨"Leaf", [], rfl, 1, ⟨Nat.le_refl 1, declaredIn_shadowed, ?_⟩, [0], rfl, rfl⟩
    intro j hlt hle
    exact absurd hle (Nat.not_le_of_lt hlt)
  · rintro ⟨n, ns, hsplit, k, hk, r, _, hq⟩
    obtain ⟨rfl, rfl⟩ := List.cons.inj (show ["Leaf"] = n :: ns from hsplit)
    have hinner : ¬ k < 1 := fun hlt => hk.innermost 1 hlt (Nat.le_refl 1) declaredIn_shadowed
    have hle : k ≤ 1 := hk.around
    obtain rfl : k = 1 := by omega
    cases hq

end Proto

end TypeModel
