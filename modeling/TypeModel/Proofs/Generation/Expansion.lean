import Mathlib.Data.List.Perm.Subperm
import TypeModel.Proofs.Generation.Gate

/-!
# What references expand to

Generators follow a reference through declarations of some kinds: aliases and arrays to expand it,
aliases only to classify it.  They give up after `maxExpansion` references.  Here this is compared
with following without a bound.

* `Model.Follows m ks r es r'`    from `r`, through the declarations `es` of the kinds `ks`, the
                                  reference `r'` is reached;
* `Model.Arrives m ks r es t`     and it is one to the target `t`, which is not of the kinds `ks`;
* `Model.Unbroken m ks r`         no reference on the way lacks a target, and no declaration a type;
* `Model.Circular m ks r`         a declaration is passed twice;
* `Linked.unbroken`               after analysis every way is unbroken;
* `Unbroken.arrives_or_circular`  what is not broken arrives or is circular;
* `Model.IsWalk m ks ..`          a function follows references from one to the next;
* `Model.FindsWithin m ks r ..`   what such a function finds from `r`, and when;
* `expansion_exact`               the two that generators use.
-/

namespace TypeModel

/-- not a declaration of the kinds `ks` -/
def Target.IsFinal (ks : List TypeKind) : Target → Prop
  | .basic _ => True
  | .declared e => e.type.kind ∉ ks

/-- values of the type are booleans, numbers or enumerators -/
def Target.isScalar : Target → Bool
  | .basic b => b.kind ≠ .text
  | .declared e => e.type.kind = .enumeration

namespace Model

inductive Follows (m : Model) (ks : List TypeKind) : TypeRef → List Entry → TypeRef → Prop
  | here (r : TypeRef) : Follows m ks r [] r
  | through {r r' r'' : TypeRef} {e : Entry} {es : List Entry} :
      m.target r = .ok (.declared e) → e.type.kind ∈ ks → e.type.expands? = some r' →
        Follows m ks r' es r'' → Follows m ks r (e :: es) r''

def Arrives (m : Model) (ks : List TypeKind) (r : TypeRef) (es : List Entry) (t : Target) : Prop :=
  ∃ r', m.Follows ks r es r' ∧ m.target r' = .ok t ∧ t.IsFinal ks

def Unbroken (m : Model) (ks : List TypeKind) (r : TypeRef) : Prop :=
  ∀ es r', m.Follows ks r es r' →
    ∃ t, m.target r' = .ok t ∧ ∀ e, t = .declared e → e.type.kind ∈ ks → e.type.expands? ≠ none

def Circular (m : Model) (ks : List TypeKind) (r : TypeRef) : Prop :=
  ∃ es r', m.Follows ks r es r' ∧ ¬ es.Nodup

section
variable {m : Model} {ks : List TypeKind} {r r' r'' : TypeRef} {e : Entry} {es es' : List Entry}
  {t : Target}

/-! ## ways -/

theorem Follows.concat (h : m.Follows ks r es r') (ht : m.target r' = .ok (.declared e))
    (hk : e.type.kind ∈ ks) (hx : e.type.expands? = some r'') :
    m.Follows ks r (es ++ [e]) r'' := by
  induction h with
  | here r => exact .through ht hk hx (.here r'')
  | through ht' hk' hx' _ ih => exact .through ht' hk' hx' (ih ht)

/-- a way that goes on after `e` goes on from the type of `e` -/
theorem Follows.after (h : m.Follows ks r (es ++ e :: es') r') :
    ∃ r'', e.type.expands? = some r'' ∧ m.Follows ks r'' es' r' := by
  induction es generalizing r with
  | nil =>
    cases h with
    | through _ _ hx h => exact ⟨_, hx, h⟩
  | cons d es ih =>
    cases h with
    | through _ _ _ h => exact ih h

/-- there is one way on from each reference, so of two ways one continues the other -/
theorem Follows.isPrefix (h : m.Follows ks r es r') (ha : m.Arrives ks r es' t) : es <+: es' := by
  induction h generalizing es' with
  | here r => exact List.nil_prefix
  | @through r r₁ r₂ e es ht hk hx h ih =>
    obtain ⟨r₃, h', ht', hfinal⟩ := ha
    cases h' with
    | here _ =>
      rw [ht] at ht'
      cases ht'
      exact absurd hk hfinal
    | through ht₂ _ hx₂ h' =>
      rw [ht] at ht₂
      cases ht₂
      rw [hx] at hx₂
      cases hx₂
      exact List.prefix_cons_inj e |>.mpr (ih ⟨r₃, h', ht', hfinal⟩)

theorem Arrives.length_eq (h : m.Arrives ks r es t) {t' : Target} (h' : m.Arrives ks r es' t') :
    es.length = es'.length := by
  obtain ⟨r₁, hf, _⟩ := id h
  obtain ⟨r₂, hf', _⟩ := id h'
  exact Nat.le_antisymm (hf.isPrefix h').length_le (hf'.isPrefix h).length_le

/-- a way that arrives passes nothing twice: the second time it would be as far from its end as the
first time -/
theorem Arrives.nodup (h : m.Arrives ks r es t) : es.Nodup := by
  obtain ⟨r', h, ht, hfinal⟩ := h
  induction h with
  | here r => exact List.nodup_nil
  | @through r r₁ r₂ e es _ _ hx h ih =>
    refine List.nodup_cons.mpr ⟨fun hmem => ?_, ih ht⟩
    obtain ⟨before, behind, rfl⟩ := List.append_of_mem hmem
    obtain ⟨r₃, hx', hbehind⟩ := h.after
    rw [hx] at hx'
    cases hx'
    have hlen := Arrives.length_eq ⟨_, h, ht, hfinal⟩ ⟨_, hbehind, ht, hfinal⟩
    rw [List.length_append, List.length_cons] at hlen
    omega

theorem Circular.not_arrives (h : m.Circular ks r) : ¬ ∃ es t, m.Arrives ks r es t := by
  rintro ⟨es, t, ha⟩
  obtain ⟨es', r', hf, hdup⟩ := h
  exact hdup (ha.nodup.sublist (hf.isPrefix ha).sublist)

theorem Follows.mem_allTypes (h : m.Follows ks r es r') : ∀ e ∈ es, e ∈ m.allTypes := by
  induction h with
  | here r => exact fun _ h => absurd h List.not_mem_nil
  | through ht _ _ _ ih =>
    obtain ⟨id, _, he⟩ := target_eq_declared.mp ht
    exact List.forall_mem_cons.mpr ⟨(entry?_eq_some_iff_mem.mp he).1, ih⟩

/-- what is not broken and does not arrive goes on and on -/
theorem Unbroken.exists_follows (h : m.Unbroken ks r) (hne : ¬ ∃ es t, m.Arrives ks r es t)
    (n : Nat) : ∃ es r', m.Follows ks r es r' ∧ es.length = n := by
  induction n with
  | zero => exact ⟨[], r, .here r, rfl⟩
  | succ n ih =>
    obtain ⟨es, r', hf, rfl⟩ := ih
    obtain ⟨t, ht, hexpands⟩ := h es r' hf
    have hfinal : ¬ t.IsFinal ks := fun hfinal => hne ⟨es, t, r', hf, ht, hfinal⟩
    cases t with
    | basic b => exact absurd trivial hfinal
    | declared e =>
      have hk : e.type.kind ∈ ks := not_not.mp hfinal
      obtain ⟨r'', hx⟩ := Option.ne_none_iff_exists'.mp (hexpands e rfl hk)
      exact ⟨es ++ [e], r'', hf.concat ht hk hx, List.length_append⟩

/-- a model has finitely many declarations, so what goes on and on is circular -/
theorem Unbroken.arrives_or_circular (h : m.Unbroken ks r) :
    (∃ es t, m.Arrives ks r es t) ∨ m.Circular ks r := by
  by_cases hne : ∃ es t, m.Arrives ks r es t
  · exact Or.inl hne
  · obtain ⟨es, r', hf, hlen⟩ := h.exists_follows hne (m.allTypes.length + 1)
    refine Or.inr ⟨es, r', hf, fun hnodup => ?_⟩
    have hle := (hnodup.subperm fun e he => hf.mem_allTypes e he).length_le
    omega

/-! ## ways in an analyzed model -/

/-- behind an array or alias stands a reference that has a target too -/
theorem Linked.exists_target (hm : m.Linked) (h : m.target r = .ok (.declared e))
    (hk : e.type.kind = .array ∨ e.type.kind = .alias) :
    ∃ r', e.type.expands? = some r' ∧ Succeeds (m.target r') := by
  obtain ⟨id, _, he⟩ := target_eq_declared.mp h
  have hl := hm e (entry?_eq_some_iff_mem.mp he).1
  obtain ⟨r', hr'⟩ := Option.ne_none_iff_exists'.mp (hl.expands hk)
  exact ⟨r', hr', hl.of_mentions (TypeDef.mentions_expands? hr')⟩

theorem Linked.unbroken (hm : m.Linked) (hks : ∀ k ∈ ks, k = .array ∨ k = .alias)
    (hr : Succeeds (m.target r)) : m.Unbroken ks r := by
  intro es r' hf
  induction hf with
  | here r =>
    obtain ⟨t, ht⟩ := hr
    refine ⟨t, ht, ?_⟩
    rintro e rfl hk
    obtain ⟨r', hx, _⟩ := hm.exists_target ht (hks _ hk)
    rw [hx]
    exact Option.some_ne_none r'
  | through ht hk hx _ ih =>
    obtain ⟨r', hx', hr'⟩ := hm.exists_target ht (hks _ hk)
    rw [hx] at hx'
    cases hx'
    exact ih hr'

end

/-! ## following with a bound -/

/-- `f` follows references from one to the next, at most `n` of them: `next` is kept of each
declaration on the way, and `result` is made of it in the end -/
structure IsWalk {σ α : Type} (m : Model) (ks : List TypeKind) (origin : Name)
    (next : σ → Entry → σ) (result : σ → Target → α)
    (f : (n : Nat) → σ → TypeRef → Except GenerationError α) : Prop where
  stop : ∀ s r, f 0 s r = .error (.unresolved origin)
  step : ∀ n s r e r', m.target r = .ok (.declared e) → e.type.kind ∈ ks →
    e.type.expands? = some r' → f (n + 1) s r = f n (next s e) r'
  final : ∀ n s r t, m.target r = .ok t → t.IsFinal ks → f (n + 1) s r = .ok (result s t)

/-- what is found from `r`: `value es t` where `t` is reached through `es` before the bound, else
nothing, with an error that names `r` -/
structure FindsWithin {α : Type} (m : Model) (ks : List TypeKind) (r : TypeRef)
    (value : List Entry → Target → α) (found : Except GenerationError α) : Prop where
  arrives_or_circular : (∃ es t, m.Arrives ks r es t) ∨ m.Circular ks r
  ok_iff : Succeeds found ↔ ∃ es t, m.Arrives ks r es t ∧ es.length ≤ maxExpansion - 1
  ok : ∀ es t, m.Arrives ks r es t → es.length ≤ maxExpansion - 1 → found = .ok (value es t)
  tooFar : ∀ es t, m.Arrives ks r es t → maxExpansion ≤ es.length →
    found = .error (.unresolved r.name)
  circular : m.Circular ks r → found = .error (.unresolved r.name)

section
variable {m : Model} {ks : List TypeKind} {r r' : TypeRef} {es : List Entry} {t : Target}
  {σ α : Type} {next : σ → Entry → σ} {result : σ → Target → α} {origin : Name}
  {f : Nat → σ → TypeRef → Except GenerationError α}

/-- a walk through `es` goes on from the reference that is reached then -/
theorem IsWalk.follows (hw : m.IsWalk ks origin next result f) (h : m.Follows ks r es r') (n : Nat) :
    ∀ s, f (n + es.length) s r = f n (es.foldl next s) r' := by
  induction h with
  | here r => exact fun s => rfl
  | through ht hk hx _ ih =>
    intro s
    rw [List.length_cons, ← Nat.add_assoc, hw.step _ s _ _ _ ht hk hx, ih, List.foldl_cons]

theorem IsWalk.exhausted (hw : m.IsWalk ks origin next result f) (h : m.Follows ks r es r') :
    ∀ n ≤ es.length, ∀ s, f n s r = .error (.unresolved origin) := by
  induction h with
  | here r =>
    intro n hn s
    obtain rfl : n = 0 := Nat.le_zero.mp hn
    exact hw.stop s r
  | through ht hk hx _ ih =>
    intro n hn s
    cases n with
    | zero => exact hw.stop s _
    | succ n =>
      rw [hw.step n s _ _ _ ht hk hx]
      exact ih n (Nat.le_of_succ_le_succ hn) _

theorem IsWalk.arrives (hw : m.IsWalk ks origin next result f) (h : m.Arrives ks r es t) {n : Nat}
    (hn : es.length < n) (s : σ) : f n s r = .ok (result (es.foldl next s) t) := by
  obtain ⟨r', hf, ht, hfinal⟩ := h
  obtain ⟨k, rfl⟩ := Nat.exists_eq_add_of_lt hn
  have hn : es.length + k + 1 = (k + 1) + es.length := by omega
  rw [hn, hw.follows hf, hw.final k _ r' t ht hfinal]

theorem IsWalk.findsWithin (hw : m.IsWalk ks r.name next result f) (h : m.Unbroken ks r) (s : σ) :
    m.FindsWithin ks r (fun es t => result (es.foldl next s) t) (f maxExpansion s r) := by
  have hok : ∀ es t, m.Arrives ks r es t → es.length ≤ maxExpansion - 1 →
      f maxExpansion s r = .ok (result (es.foldl next s) t) := by
    intro es t ha hle
    exact hw.arrives ha (by unfold maxExpansion at hle ⊢; omega) s
  have hfar : ∀ es r', m.Follows ks r es r' → maxExpansion ≤ es.length →
      f maxExpansion s r = .error (.unresolved r.name) :=
    fun es r' hf hle => hw.exhausted hf maxExpansion hle s
  have hendless : ¬ (∃ es t, m.Arrives ks r es t) →
      f maxExpansion s r = .error (.unresolved r.name) := by
    intro hne
    obtain ⟨es, r', hf, hlen⟩ := h.exists_follows hne maxExpansion
    exact hfar es r' hf (Nat.le_of_eq hlen.symm)
  refine ⟨h.arrives_or_circular, ⟨fun hsucceeds => ?_, ?_⟩, hok, ?_, ?_⟩
  · by_contra hshort
    have herror : f maxExpansion s r = .error (.unresolved r.name) := by
      by_cases ha : ∃ es t, m.Arrives ks r es t
      · obtain ⟨es, t, ha⟩ := ha
        obtain ⟨r', hf, _⟩ := id ha
        refine hfar es r' hf ?_
        by_contra hlt
        exact hshort ⟨es, t, ha, by omega⟩
      · exact hendless ha
    rw [herror] at hsucceeds
    exact not_succeeds_error _ hsucceeds
  · rintro ⟨es, t, ha, hle⟩
    exact ⟨_, hok es t ha hle⟩
  · rintro es t ⟨r', hf, _⟩ hle
    exact hfar es r' hf hle
  · exact fun hcircular => hendless hcircular.not_arrives

theorem FindsWithin.map {β : Type} {value : List Entry → Target → α}
    {found : Except GenerationError α} (h : m.FindsWithin ks r value found) (g : α → β) :
    m.FindsWithin ks r (fun es t => g (value es t)) (found.map g) := by
  refine ⟨h.arrives_or_circular, succeeds_map.trans h.ok_iff, fun es t ha hle => ?_,
    fun es t ha hle => ?_, fun hcircular => ?_⟩
  · rw [h.ok es t ha hle]
    rfl
  · rw [h.tooFar es t ha hle]
    rfl
  · rw [h.circular hcircular]
    rfl

theorem FindsWithin.eq_of_error {value : List Entry → Target → α}
    {found : Except GenerationError α} (h : m.FindsWithin ks r value found) {err : GenerationError}
    (herr : found = .error err) : err = .unresolved r.name := by
  have hsame : ∀ {err'}, found = .error err' → err = err' := fun h' =>
    Except.error.inj (herr.symm.trans h')
  rcases h.arrives_or_circular with ⟨es, t, ha⟩ | hcircular
  · by_cases hle : es.length ≤ maxExpansion - 1
    · have hok := h.ok es t ha hle
      rw [herr] at hok
      cases hok
    · exact hsame (h.tooFar es t ha (by omega))
  · exact hsame (h.circular hcircular)

end

/-! ## the generators -/

/-- an array is among the declarations -/
def passesArray (es : List Entry) : Bool := es.any (·.type.kind = .array)

theorem isWalk_expandWithin (m : Model) (origin : Name) :
    m.IsWalk [.alias, .array] origin (fun repeated e => repeated || e.type.kind = .array)
      (fun repeated t => (t, repeated)) (m.expandWithin origin) := by
  refine ⟨fun _ _ => rfl, fun n repeated r e r' ht hk hx => ?_, fun n repeated r t ht hfinal => ?_⟩
  · rw [expandWithin, ht, ok_bind]
    dsimp only
    cases hte : e.type with
    | struct s inner => rw [hte] at hx; cases hx
    | enumeration x => rw [hte] at hx; cases hx
    | array a =>
      rw [hte] at hx
      replace hx : a.elementType = some r' := hx
      simp [hx, TypeDef.kind]
    | «alias» a =>
      rw [hte] at hx
      replace hx : a.actualType = some r' := hx
      simp [hx, TypeDef.kind]
  · rw [expandWithin, ht, ok_bind]
    cases t with
    | basic b => rfl
    | declared e =>
      dsimp only [Target.IsFinal] at hfinal ⊢
      cases hte : e.type with
      | struct s inner => rfl
      | enumeration x => rfl
      | array a => simp [hte, TypeDef.kind] at hfinal
      | «alias» a => simp [hte, TypeDef.kind] at hfinal

theorem isWalk_isScalarWithin (m : Model) (origin : Name) :
    m.IsWalk [.alias] origin (fun _ _ => ()) (fun _ t => t.isScalar)
      fun n _ r => m.isScalarWithin origin n r := by
  refine ⟨fun _ _ => rfl, fun n _ r e r' ht hk hx => ?_, fun n _ r t ht hfinal => ?_⟩
  · rw [isScalarWithin, ht, ok_bind]
    dsimp only
    cases hte : e.type with
    | struct s inner => rw [hte] at hx; cases hx
    | enumeration x => rw [hte] at hx; cases hx
    | array a => simp [hte, TypeDef.kind] at hk
    | «alias» a =>
      rw [hte] at hx
      replace hx : a.actualType = some r' := hx
      simp [hx]
  · rw [isScalarWithin, ht, ok_bind]
    cases t with
    | basic b => rfl
    | declared e =>
      dsimp only [Target.IsFinal, Target.isScalar] at hfinal ⊢
      cases hte : e.type with
      | struct s inner => rfl
      | enumeration x => rfl
      | array a => rfl
      | «alias» a => simp [hte, TypeDef.kind] at hfinal

theorem foldl_repeated (es : List Entry) (repeated : Bool) :
    es.foldl (fun repeated e => repeated || e.type.kind = .array) repeated =
      (repeated || passesArray es) := by
  induction es generalizing repeated with
  | nil => exact (Bool.or_false _).symm
  | cons e es ih => rw [List.foldl_cons, ih, passesArray, passesArray, List.any_cons, Bool.or_assoc]

theorem findsWithin_expand {m : Model} {r : TypeRef} (h : m.Unbroken [.alias, .array] r) :
    m.FindsWithin [.alias, .array] r (fun es t => (t, passesArray es)) (m.expand r) := by
  have hfinds := (m.isWalk_expandWithin r.name).findsWithin h false
  simp only [foldl_repeated, Bool.false_or] at hfinds
  exact hfinds

theorem findsWithin_isScalar {m : Model} {r : TypeRef} (h : m.Unbroken [.alias] r) :
    m.FindsWithin [.alias] r (fun _ t => t.isScalar) (m.isScalar r) :=
  (m.isWalk_isScalarWithin r.name).findsWithin h ()

end Model

namespace Proto

/-- the name of what a reference expands to -/
def typeNameOf (m : Model) : Target → TypeName
  | .basic b => .scalar b.kind.protoName
  | .declared e => .declared e.id (declarationPath m e)

theorem fieldType_eq (m : Model) (r : TypeRef) :
    fieldType m r = (m.expand r).map fun found => (typeNameOf m found.1, found.2) := by
  unfold fieldType
  cases m.expand r with
  | error err => rfl
  | ok found => rcases found with ⟨b | e, repeated⟩ <;> rfl

end Proto

open Proto in
/-- where nothing on the way is broken, a field type is found if and only if a primitive type, a struct
or an enumeration is reached before the bound, and is repeated if an array is passed; values are
classified by what is reached through aliases -/
theorem expansion_exact (m : Model) (r : TypeRef) :
    (m.Unbroken [.alias, .array] r → m.FindsWithin [.alias, .array] r
      (fun es t => (typeNameOf m t, Model.passesArray es)) (fieldType m r)) ∧
    (m.Unbroken [.alias] r → m.FindsWithin [.alias] r (fun _ t => t.isScalar) (m.isScalar r)) := by
  refine ⟨fun h => ?_, Model.findsWithin_isScalar⟩
  rw [fieldType_eq]
  exact (Model.findsWithin_expand h).map fun found => (typeNameOf m found.1, found.2)

def boundTo (name : Name) (i : Nat) : TypeRef := { name, binding := .type (.topLevel i) }

def ping : TypeDef := .alias { name := "Ping", actualType := some (boundTo "Pong" 4) }

def pong : TypeDef := .alias { name := "Pong", actualType := some (boundTo "Ping" 3) }

/-- `Books` leads to `Book` through an array, and `Ping` to itself -/
def library : Model :=
  { types :=
      [.struct { name := "Book" } [],
        .array { name := "BookList", elementType := some (boundTo "Book" 0) },
        .alias { name := "Books", actualType := some (boundTo "BookList" 1) },
        ping, pong] }

theorem linked_library : library.Linked := by
  have htargets : ∀ e ∈ library.allTypes, ∀ x ∈ e.type.sites,
      (library.target x.ref).isOk = true := by decide +kernel
  have hexpands : ∀ e ∈ library.allTypes,
      e.type.kind = .array ∨ e.type.kind = .alias → e.type.expands? ≠ none := by decide +kernel
  exact fun e he => ⟨fun x hx => succeeds_iff_isOk.mpr (htargets e he x hx), hexpands e he⟩

open Proto in
theorem expansion_exact_library :
    library.Unbroken [.alias, .array] (boundTo "Books" 2) ∧
    (∃ es t, library.Arrives [.alias, .array] (boundTo "Books" 2) es t ∧
      es.length ≤ maxExpansion - 1 ∧ Model.passesArray es = true) ∧
    library.Unbroken [.alias, .array] (boundTo "Ping" 3) ∧
    library.Circular [.alias, .array] (boundTo "Ping" 3) ∧
    fieldType library (boundTo "Ping" 3) = .error (.unresolved "Ping") := by
  have hbooks : library.Unbroken [.alias, .array] (boundTo "Books" 2) :=
    linked_library.unbroken (by decide) ⟨_, rfl⟩
  have hping : library.Unbroken [.alias, .array] (boundTo "Ping" 3) :=
    linked_library.unbroken (by decide) ⟨_, rfl⟩
  have hfound := (expansion_exact library (boundTo "Books" 2)).1 hbooks
  have htype : fieldType library (boundTo "Books" 2) =
      .ok (.declared (.topLevel 0) ["Book"], true) := by decide +kernel
  obtain ⟨es, t, ha, hle⟩ := hfound.ok_iff.mp ⟨_, htype⟩
  have harray : Model.passesArray es = true := by
    have hsame := (hfound.ok es t ha hle).symm.trans htype
    exact congrArg Prod.snd (Except.ok.inj hsame)
  have hcircular : library.Circular [.alias, .array] (boundTo "Ping" 3) := by
    let e₃ := Model.topLevelEntry 3 ping
    let e₄ := Model.topLevelEntry 4 pong
    have h₃ : library.Follows [.alias, .array] (boundTo "Ping" 3) [e₃] (boundTo "Pong" 4) :=
      .through rfl (by decide) rfl (.here _)
    have h₄ : library.Follows [.alias, .array] (boundTo "Pong" 4) [e₄, e₃] (boundTo "Pong" 4) :=
      .through rfl (by decide) rfl h₃
    exact ⟨[e₃, e₄, e₃], _, .through rfl (by decide) rfl h₄, by simp⟩
  exact ⟨hbooks, ⟨es, t, ha, hle, harray⟩, hping, hcircular,
    ((expansion_exact library (boundTo "Ping" 3)).1 hping).circular hcircular⟩

end TypeModel
