import TypeModel.Proofs.Text.Split
import TypeModel.Proto.Schema

/-!
# Names in scopes of a schema

A schema is a tree of named declarations: those of the file, and inside each message its own.  A
place is a path of positions in that tree, `[]` the file itself.

* `namesAt? ds q`         the names on the way to the place `q`;
* `scopeAt ds p`          the declarations directly inside the place `p`;
* `Denotes ds p text q`   the dotted name `text`, written in the message at `p`, means the
                          declaration at `q`: among the scopes around `p` the innermost that
                          declares the first component decides, and the others are looked up
                          inside it;
* `Findable ds p path q`  no message around `p` declares the first name of the path, no name on it
                          has a dot, and only `q` has this path.

A full path from the file means its declaration and nothing else if and only if it is findable
(`denotes_only_iff`).
-/

namespace TypeModel

/-! ## places -/

namespace Proto

def Declaration.name : Declaration → Name
  | .message name _ _ _ => name
  | .enumeration name _ _ => name

/-- the declarations inside a declaration -/
def Declaration.nested : Declaration → List Declaration
  | .message _ _ nested _ => nested
  | .enumeration _ _ _ => []

def Declaration.fields : Declaration → List MessageField
  | .message _ _ _ fields => fields
  | .enumeration _ _ _ => []

/-- the declarations of the file, with the messages around packages -/
def Schema.roots (s : Schema) : List Declaration :=
  s.declarations ++ s.wrappers.map fun w => .message w.name [] w.declarations []

def declarationAt? (ds : List Declaration) : List Nat → Option Declaration
  | [] => none
  | [i] => ds[i]?
  | i :: is => ds[i]?.bind fun d => declarationAt? d.nested is

def namesAt? (ds : List Declaration) : List Nat → Option (List Name)
  | [] => some []
  | i :: is => ds[i]?.bind fun d => (namesAt? d.nested is).map (d.name :: ·)

def scopeAt (ds : List Declaration) : List Nat → List Declaration
  | [] => ds
  | i :: is => (ds[i]?.map fun d => scopeAt d.nested is).getD []

/-- a name is declared directly inside a place -/
def DeclaredIn (ds : List Declaration) (p : List Nat) (n : Name) : Prop :=
  ∃ d ∈ scopeAt ds p, d.name = n

/-- of the scopes around the place `p`, the one of the first `k` positions is the innermost that
declares `n` -/
structure Decides (ds : List Declaration) (p : List Nat) (n : Name) (k : Nat) : Prop where
  around : k ≤ p.length
  declares : DeclaredIn ds (p.take k) n
  innermost : ∀ j, k < j → j ≤ p.length → ¬ DeclaredIn ds (p.take j) n

def Denotes (ds : List Declaration) (p : List Nat) (text : String) (q : List Nat) : Prop :=
  ∃ n ns, Text.split '.' text = n :: ns ∧
    ∃ k, Decides ds p n k ∧
      ∃ r, namesAt? (scopeAt ds (p.take k)) r = some (n :: ns) ∧ q = p.take k ++ r

/-- nothing keeps the path from the file to the declaration at `q` from being found at `p` -/
structure Findable (ds : List Declaration) (p : List Nat) (path : List Name) (q : List Nat) :
    Prop where
  unhidden : ∀ n ∈ path.head?, ∀ j, 0 < j → j ≤ p.length → ¬ DeclaredIn ds (p.take j) n
  undotted : ∀ n ∈ path, '.' ∉ n.toList
  unique : ∀ q', namesAt? ds q' = some path → q' = q

section
variable {ds : List Declaration} {p q : List Nat}

theorem length_namesAt? : ∀ (ds : List Declaration) (q : List Nat) {ns : List Name},
    namesAt? ds q = some ns → q.length = ns.length := by
  intro ds q
  induction q generalizing ds with
  | nil =>
    rintro _ ⟨⟩
    rfl
  | cons i is ih =>
    intro ns h
    obtain ⟨d, _, hd⟩ := Option.bind_eq_some_iff.mp h
    obtain ⟨ns', hns, rfl⟩ := Option.map_eq_some_iff.mp hd
    rw [List.length_cons, List.length_cons, ih d.nested hns]

/-- the first name on the way to a place is declared in the scope the way starts from -/
theorem declaredIn_of_namesAt? {n : Name} {ns : List Name} {r : List Nat}
    (h : namesAt? (scopeAt ds p) r = some (n :: ns)) : DeclaredIn ds p n := by
  cases r with
  | nil => cases h
  | cons i is =>
    obtain ⟨d, hd, hn⟩ := Option.bind_eq_some_iff.mp h
    obtain ⟨ns', _, hns⟩ := Option.map_eq_some_iff.mp hn
    injection hns with hname _
    exact ⟨d, List.mem_of_getElem? hd, hname⟩

/-- what a full path from the file means, written at the place `p` -/
theorem denotes_only_iff {n : Name} {ns : List Name} (hq : namesAt? ds q = some (n :: ns)) :
    (∀ q', Denotes ds p (Text.joinWith "." (n :: ns)) q' ↔ q' = q) ↔ Findable ds p (n :: ns) q := by
  have hdot : ".".toList = ['.'] := rfl
  have hne : n :: ns ≠ [] := List.cons_ne_nil n ns
  have hroot : ∀ {q'}, namesAt? ds q' = some (n :: ns) → (∀ x ∈ n :: ns, '.' ∉ x.toList) →
      (∀ j, 0 < j → j ≤ p.length → ¬ DeclaredIn ds (p.take j) n) →
      Denotes ds p (Text.joinWith "." (n :: ns)) q' := fun {q'} hq' hdots hfree =>
    ⟨n, ns, Text.split_joinWith_of_notMem hdot hne hdots, 0,
      ⟨Nat.zero_le _, declaredIn_of_namesAt? hq', hfree⟩, q', hq', rfl⟩
  constructor
  · intro h
    obtain ⟨n', ns', hsplit, k, hk, r, hr, hqr⟩ := (h q).mpr rfl
    obtain ⟨hle, heq⟩ := Text.length_split_joinWith hdot hne
    -- the place found lies as deep as the deciding scope and the components together
    have hdepth : (n :: ns).length = k + (n' :: ns').length := by
      rw [← length_namesAt? _ _ hr, ← length_namesAt? ds q hq, hqr, List.length_append,
        List.length_take, Nat.min_eq_left hk.around]
    rw [hsplit] at hle heq
    have hdots := heq (by omega)
    have hsame := hsplit.symm.trans (Text.split_joinWith_of_notMem hdot hne hdots)
    obtain rfl : k = 0 := by omega
    obtain ⟨rfl, rfl⟩ := List.cons.inj hsame
    refine ⟨?_, hdots, fun q' hq' => (h q').mp (hroot hq' hdots hk.innermost)⟩
    rintro _ ⟨⟩
    exact hk.innermost
  · rintro ⟨hfree, hdots, hunique⟩ q'
    replace hfree := hfree n rfl
    constructor
    · rintro ⟨n', ns', hsplit, k, hk, r, hr, rfl⟩
      obtain ⟨rfl, rfl⟩ :=
        List.cons.inj (hsplit.symm.trans (Text.split_joinWith_of_notMem hdot hne hdots))
      cases k with
      | zero => exact hunique _ hr
      | succ k => exact absurd hk.declares (hfree (k + 1) (Nat.succ_pos k) hk.around)
    · rintro rfl
      exact hroot hq hdots hfree

end

end Proto

end TypeModel
