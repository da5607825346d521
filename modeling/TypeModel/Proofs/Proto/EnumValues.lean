import TypeModel.Cpp.Header
import TypeModel.Proofs.Proto.Nesting

/-!
# One enumeration in both languages

The enumerators of an enumeration and of those that it extends are numbered in one run.  The C++
enum lists them in that order.  The enum of a schema has the same values, except that a zero comes
first, as the format asks, and that equal values have to be allowed by an option.

* `LedByZero zero all values`   `values` is `all` with its first zero in front, or with `zero` in
                                front where there is none;
* `ledByZero_zeroFirst`         `zeroFirst` gives that;
* `hasAliases_iff`              two enumerators have one value;
* `mem_enumBody_option_iff`     the option is written exactly then;
* `enumValues_agree`            the enum of an enumeration against its C++ enum.
-/

namespace TypeModel

namespace Proto
variable {zero : String} {all values : List (String × Int64)}

/-! ## a zero in front -/

inductive LedByZero (zero : String) : List (String × Int64) → List (String × Int64) → Prop
  /-- the first zero is moved, and all others keep their order -/
  | moved (before : List (String × Int64)) (name : String) (after : List (String × Int64))
      (hbefore : ∀ v ∈ before, v.2 ≠ 0) :
      LedByZero zero (before ++ (name, 0) :: after) ((name, 0) :: (before ++ after))
  | added (all : List (String × Int64)) (hall : ∀ v ∈ all, v.2 ≠ 0) :
      LedByZero zero all ((zero, 0) :: all)

theorem zeroFirst_of_split {before after : List (String × Int64)} {name : String}
    (h : ∀ v ∈ before, v.2 ≠ 0) :
    zeroFirst zero (before ++ (name, 0) :: after) = (name, 0) :: (before ++ after) := by
  have hfind : (before ++ (name, 0) :: after).findIdx? (fun v => v.2 = 0) =
      some before.length := by
    have hnone : before.findIdx? (fun v => v.2 = 0) = none :=
      List.findIdx?_eq_none_iff.mpr fun v hv => decide_eq_false (h v hv)
    rw [List.findIdx?_append, hnone]
    simp [List.findIdx?_cons]
  have hget : (before ++ (name, (0 : Int64)) :: after)[before.length]? = some (name, 0) := by
    simp
  have herase : (before ++ (name, (0 : Int64)) :: after).eraseIdx before.length =
      before ++ after := by
    rw [List.eraseIdx_append_of_length_le (Nat.le_refl _), Nat.sub_self, List.eraseIdx_cons_zero]
  unfold zeroFirst
  rw [hfind]
  dsimp only
  rw [hget, herase]
  rfl

theorem exists_split_of_zero (h : ∃ v ∈ all, v.2 = 0) :
    ∃ before name after, all = before ++ (name, 0) :: after ∧ ∀ v ∈ before, v.2 ≠ 0 := by
  induction all with
  | nil =>
    obtain ⟨v, hv, _⟩ := h
    cases hv
  | cons a rest ih =>
    by_cases ha : a.2 = 0
    · exact ⟨[], a.1, rest, by rw [← ha]; rfl, fun v hv => absurd hv List.not_mem_nil⟩
    · obtain ⟨v, hv, hzero⟩ := h
      have hrest : ∃ v ∈ rest, v.2 = 0 := by
        rcases List.mem_cons.mp hv with rfl | hv
        · exact absurd hzero ha
        · exact ⟨v, hv, hzero⟩
      obtain ⟨before, name, after, rfl, hbefore⟩ := ih hrest
      exact ⟨a :: before, name, after, rfl, List.forall_mem_cons.mpr ⟨ha, hbefore⟩⟩

theorem ledByZero_zeroFirst (zero : String) (all : List (String × Int64)) :
    LedByZero zero all (zeroFirst zero all) := by
  by_cases h : ∃ v ∈ all, v.2 = 0
  · obtain ⟨before, name, after, rfl, hbefore⟩ := exists_split_of_zero h
    rw [zeroFirst_of_split hbefore]
    exact .moved before name after hbefore
  · have hne : ∀ v ∈ all, v.2 ≠ 0 := fun v hv hzero => h ⟨v, hv, hzero⟩
    rw [zeroFirst_of_ne_zero hne]
    exact .added all hne

/-- nothing is lost or doubled, and a zero is added only where there is none -/
theorem LedByZero.perm (h : LedByZero zero all values) :
    values.Perm ((if ∃ v ∈ all, v.2 = 0 then [] else [(zero, 0)]) ++ all) := by
  cases h with
  | moved before name after hbefore =>
    have hzero : ∃ v ∈ before ++ (name, (0 : Int64)) :: after, v.2 = 0 := ⟨(name, 0), by simp, rfl⟩
    rw [if_pos hzero, List.nil_append]
    exact List.perm_middle.symm
  | added _ hall =>
    have hzero : ¬ ∃ v ∈ all, v.2 = 0 := fun ⟨v, hv, hv0⟩ => hall v hv hv0
    rw [if_neg hzero]
    rfl

theorem LedByZero.starts (h : LedByZero zero all values) :
    ∃ name rest, values = (name, 0) :: rest := by
  cases h with
  | moved before name after _ => exact ⟨name, _, rfl⟩
  | added _ _ => exact ⟨zero, _, rfl⟩

/-! ## equal values -/

theorem hasAliases_iff (values : List (String × Int64)) :
    hasAliases values = true ↔ ¬ (values.map Prod.snd).Nodup := by
  induction values with
  | nil => exact iff_of_false Bool.false_ne_true fun h => h List.nodup_nil
  | cons v rest ih =>
    have hmem : rest.any (fun w => w.2 = v.2) = true ↔ v.2 ∈ rest.map Prod.snd := by
      rw [List.any_eq_true, List.mem_map]
      simp only [decide_eq_true_eq]
    rw [hasAliases, Bool.or_eq_true, ih, hmem, List.map_cons, List.nodup_cons]
    tauto

/-- allows equal values in an enum -/
def aliasOption : Text.Step := .line "option allow_alias = true;"

/-- the lines between the braces of an enum -/
def enumBody (values : List (String × Int64)) : Text.Script :=
  (if hasAliases values then [aliasOption] else []) ++
    values.map fun v => .line (v.1 ++ " = " ++ Int.repr v.2.toInt ++ ";")

theorem exists_last_digit (n : Int) :
    ∃ front c, (Int.repr n).toList = front ++ [c] ∧ c.isDigit = true := by
  have hnat : ∀ k : Nat, ∃ front c, (Nat.repr k).toList = front ++ [c] ∧ c.isDigit = true := by
    intro k
    have hne := Text.repr_ne_nil k
    exact ⟨_, _, (List.dropLast_append_getLast hne).symm,
      Text.isDigit_of_mem_repr (List.getLast_mem hne)⟩
  cases n with
  | ofNat k => exact hnat k
  | negSucc k =>
    obtain ⟨front, c, hk, hc⟩ := hnat k.succ
    refine ⟨'-' :: front, c, ?_, hc⟩
    show ("-" ++ Nat.repr k.succ).toList = _
    rw [String.toList_append, hk]
    rfl

/-- no enumerator is written like the option, since its line ends with a digit -/
theorem enumeratorLine_ne_option (name : String) (n : Int) :
    name ++ " = " ++ Int.repr n ++ ";" ≠ "option allow_alias = true;" := by
  intro h
  obtain ⟨front, c, hn, hc⟩ := exists_last_digit n
  have hlist := congrArg String.toList h
  rw [String.toList_append, String.toList_append, hn] at hlist
  have hsplit : ((name ++ " = ").toList ++ front) ++ [c, ';'] =
      "option allow_alias = tru".toList ++ ['e', ';'] := by
    simpa [List.append_assoc] using hlist
  have hlast := (List.append_inj' hsplit rfl).2
  rw [(List.cons.inj hlast).1] at hc
  exact absurd hc (by decide)

theorem mem_enumBody_option_iff (values : List (String × Int64)) :
    aliasOption ∈ enumBody values ↔ ¬ (values.map Prod.snd).Nodup := by
  rw [← hasAliases_iff, enumBody, List.mem_append]
  have hline : aliasOption ∉ values.map
      fun v => Text.Step.line (v.1 ++ " = " ++ Int.repr v.2.toInt ++ ";") := by
    intro hmem
    obtain ⟨v, _, hv⟩ := List.mem_map.mp hmem
    exact enumeratorLine_ne_option v.1 v.2.toInt (Text.Step.line.inj hv)
  rw [or_iff_left hline]
  cases hasAliases values <;> simp

/-! ## both languages -/

/-- the enum of an enumeration in C++ lists the enumerators in the order of their numbers, in a
header of its own and inside a class alike -/
structure CppEnum (m : Model) (e : Entry) (x : EnumerationType) (c : Cpp.EnumDeclaration) : Prop where
  values : c.values = m.foldedEnumerators e.id x
  header : (Cpp.Header.ofEntry m e).map Cpp.Header.body = .ok (.enumeration x.comment c)
  nested : ∀ ns, (Cpp.nestedOf m ns e).map Cpp.Nested.declaration = .ok (.enumeration c)

theorem cppEnum_enumDeclaration {m : Model} {e : Entry} {x : EnumerationType}
    (ht : e.type = .enumeration x) : CppEnum m e x (Cpp.enumDeclaration m e.id x) := by
  refine ⟨rfl, ?_, fun ns => ?_⟩
  · unfold Cpp.Header.ofEntry
    rw [ht]
    rfl
  · unfold Cpp.nestedOf
    rw [ht]
    rfl

/-- the enum of a schema has the enumerators of the C++ enum behind their lead, each once and with
its value, the first zero in front or one added where there is none; an option allows equal values
exactly where two are equal -/
theorem enumValues_agree (m : Model) {e : Entry} {x : EnumerationType}
    (ht : e.type = .enumeration x) :
    ∃ c values, CppEnum m e x c ∧
      declare m e.id e.type = .ok [.enumeration x.name x.comment values] ∧
      LedByZero (unspecifiedName x.name) (written x c.values) values ∧
      (∃ name rest, values = (name, 0) :: rest) ∧
      values.Perm ((if ∃ v ∈ c.values, v.2 = 0 then [] else [(unspecifiedName x.name, 0)]) ++
        written x c.values) ∧
      (Declaration.enumeration x.name x.comment values).script =
        [.comment "//" x.comment, .line ("enum " ++ x.name ++ " \x7b"),
          .indented (enumBody values), .line "\x7d"] ∧
      (aliasOption ∈ enumBody values ↔ ¬ (values.map Prod.snd).Nodup) := by
  have hc := cppEnum_enumDeclaration (m := m) ht
  have hled : LedByZero (unspecifiedName x.name)
      (written x (Cpp.enumDeclaration m e.id x).values) (enumValues m e.id x) :=
    ledByZero_zeroFirst _ _
  refine ⟨_, enumValues m e.id x, hc, ?_, hled, hled.starts, ?_, rfl, mem_enumBody_option_iff _⟩
  · rw [ht]
    rfl
  · have hzero : (∃ v ∈ written x (Cpp.enumDeclaration m e.id x).values, v.2 = 0) ↔
        ∃ v ∈ (Cpp.enumDeclaration m e.id x).values, v.2 = 0 := by
      simp [written]
    have hperm := hled.perm
    simp only [hzero] at hperm
    exact hperm

/-- an enumeration that goes on from its base, with a repeated value and two zeros that do not come
first -/
def wrapped : Model :=
  { types :=
      [.enumeration
          { name := "Base",
            enumerators := [{ name := "HIGH", value := some (.literal (.integer 7)) },
              { name := "LOW", value := some (.literal (.integer (-1))) }] },
        .enumeration
          { name := "Derived", base := some { name := "Base", binding := .type (.topLevel 0) },
            enumerators := [{ name := "NONE" }, { name := "ONE" },
              { name := "NIL", value := some (.literal (.integer 0)) }] }] }

theorem enumValues_agree_wrapped :
    ∃ e ∈ wrapped.allTypes, ∃ x c values, e.type = .enumeration x ∧ CppEnum wrapped e x c ∧
      c.values = [("HIGH", 7), ("LOW", -1), ("NONE", 0), ("ONE", 1), ("NIL", 0)] ∧
      declare wrapped e.id e.type = .ok [.enumeration x.name x.comment values] ∧
      values = [("DERIVED_NONE", 0), ("DERIVED_HIGH", 7), ("DERIVED_LOW", -1),
        ("DERIVED_ONE", 1), ("DERIVED_NIL", 0)] ∧
      aliasOption ∈ enumBody values := by
  obtain ⟨c, values, hc, hdeclare, _, _, _, _, haliases⟩ :=
    enumValues_agree wrapped (e := wrapped.declaredTypes[1]) rfl
  have hvalues : values = [("DERIVED_NONE", 0), ("DERIVED_HIGH", 7), ("DERIVED_LOW", -1),
      ("DERIVED_ONE", 1), ("DERIVED_NIL", 0)] := by
    cases hdeclare
    rfl
  refine ⟨_, List.mem_of_getElem? (i := 1) rfl, _, c, values, rfl, hc, hc.values, hdeclare,
    hvalues, haliases.mpr ?_⟩
  rw [hvalues]
  decide

end Proto

end TypeModel
