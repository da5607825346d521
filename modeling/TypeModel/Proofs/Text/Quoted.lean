import TypeModel.Model.Expression

/-!
# Reading string literals

`readLiteral` reads a string literal of C++.  A quote opens it and the next quote without a backslash
closes it.  Behind a backslash stands a sign for one byte, or the number of a byte in octal digits:
as many as there are, but no more than three.  Any other character stands for its own bytes.

* `readEscape cs`          the byte behind a backslash, and the text after it;
* `readBody cs`            the bytes before the closing quote, and the text after it;
* `quoteByte_cases`        the three ways to write a byte;
* `readBody_quoteByte`     each is read as that byte, whatever follows it;
* `literal_reads_back`     a literal is read as the bytes of its string, up to its last quote.
-/

namespace TypeModel.Text

/-! ## a reader of literals -/

def isOctalDigit (c : Char) : Bool := '0' ≤ c && c ≤ '7'

def octalValue (c : Char) : Nat := c.toNat - '0'.toNat

/-- `value` continued by at most `most` octal digits -/
def readOctal : (most value : Nat) → List Char → Nat × List Char
  | most + 1, value, c :: cs =>
    if isOctalDigit c then readOctal most (8 * value + octalValue c) cs else (value, c :: cs)
  | _, value, cs => (value, cs)

/-- the byte that a sign stands for behind a backslash -/
def signByte? : Char → Option UInt8
  | '"' => some 0x22
  | '\\' => some 0x5C
  | 'n' => some 0x0A
  | 'r' => some 0x0D
  | 't' => some 0x09
  | _ => none

def readEscape : List Char → Option (UInt8 × List Char)
  | [] => none
  | c :: cs =>
    match signByte? c with
    | some b => some (b, cs)
    | none =>
      if isOctalDigit c then
        let number := readOctal 2 (octalValue c) cs
        if number.1 < UInt8.size then some (number.1.toUInt8, number.2) else none
      else none

theorem length_readOctal_le (most : Nat) :
    ∀ (value : Nat) (cs : List Char), (readOctal most value cs).2.length ≤ cs.length := by
  induction most with
  | zero => exact fun value cs => by cases cs <;> exact Nat.le_refl _
  | succ most ih =>
    intro value cs
    cases cs with
    | nil => exact Nat.le_refl _
    | cons c cs =>
      rw [readOctal]
      split
      · have := ih (8 * value + octalValue c) cs
        rw [List.length_cons]
        omega
      · exact Nat.le_refl _

theorem length_readEscape_lt {cs rest : List Char} {b : UInt8}
    (h : readEscape cs = some (b, rest)) : rest.length < cs.length := by
  cases cs with
  | nil => cases h
  | cons c cs =>
    rw [List.length_cons]
    simp only [readEscape] at h
    split at h
    · cases h
      omega
    · split at h
      · split at h
        · have := length_readOctal_le 2 (octalValue c) cs
          cases h
          omega
        · cases h
      · cases h

/-- bytes put in front of those read -/
def prepend (bs : List UInt8) (read : List UInt8 × List Char) : List UInt8 × List Char :=
  (bs ++ read.1, read.2)

def readBody : List Char → Option (List UInt8 × List Char)
  | [] => none
  | c :: cs =>
    if c = '"' then some ([], cs)
    else if c = '\\' then
      match h : readEscape cs with
      | some (b, rest) =>
        have := length_readEscape_lt h
        (readBody rest).map (prepend [b])
      | none => none
    else (readBody cs).map (prepend (String.utf8EncodeChar c))
termination_by cs => cs.length

/-- the bytes of the literal that a text starts with, and the text after it -/
def readLiteral : List Char → Option (List UInt8 × List Char)
  | '"' :: cs => readBody cs
  | _ => none

theorem readBody_closing (rest : List Char) : readBody ('"' :: rest) = some ([], rest) := by
  rw [readBody]
  rfl

theorem readBody_escape {cs rest : List Char} {b : UInt8} (h : readEscape cs = some (b, rest)) :
    readBody ('\\' :: cs) = (readBody rest).map (prepend [b]) := by
  rw [readBody, if_neg (by decide), if_pos rfl]
  split
  · rename_i b' rest' h'
    rw [h] at h'
    cases h'
    rfl
  · rename_i h'
    rw [h] at h'
    cases h'

theorem readBody_plain {c : Char} (hquote : c ≠ '"') (hbackslash : c ≠ '\\') (rest : List Char) :
    readBody (c :: rest) = (readBody rest).map (prepend (String.utf8EncodeChar c)) := by
  rw [readBody, if_neg hquote, if_neg hbackslash]

/-! ## how a byte is written -/

def isPrintable (c : Char) : Bool := 0x20 ≤ c.toNat && c.toNat ≤ 0x7E

theorem octalDigit_spec (n : Nat) :
    isOctalDigit (octalDigit n) = true ∧ octalValue (octalDigit n) = n % 8 ∧
      isPrintable (octalDigit n) = true ∧ signByte? (octalDigit n) = none := by
  have hall : ∀ r < 8, isOctalDigit (Char.ofNat (48 + r)) = true ∧
      octalValue (Char.ofNat (48 + r)) = r ∧ isPrintable (Char.ofNat (48 + r)) = true ∧
      signByte? (Char.ofNat (48 + r)) = none := by decide
  exact hall (n % 8) (Nat.mod_lt n (by omega))

theorem readEscape_sign {c : Char} {b : UInt8} (h : signByte? c = some b) (rest : List Char) :
    readEscape (c :: rest) = some (b, rest) := by
  rw [readEscape, h]

/-- three digits are the most that are read, so the text after them does not matter -/
theorem readEscape_octal (b : UInt8) (rest : List Char) :
    readEscape (octalDigit (b.toNat / 64) :: octalDigit (b.toNat / 8) :: octalDigit b.toNat :: rest) =
      some (b, rest) := by
  obtain ⟨hdigit₂, hvalue₂, _, hsign⟩ := octalDigit_spec (b.toNat / 64)
  obtain ⟨hdigit₁, hvalue₁, _⟩ := octalDigit_spec (b.toNat / 8)
  obtain ⟨hdigit₀, hvalue₀, _⟩ := octalDigit_spec b.toNat
  have hb : b.toNat < UInt8.size := b.toNat_lt
  have hnumber : readOctal 2 (octalValue (octalDigit (b.toNat / 64)))
      (octalDigit (b.toNat / 8) :: octalDigit b.toNat :: rest) = (b.toNat, rest) := by
    rw [readOctal, if_pos hdigit₁, readOctal, if_pos hdigit₀, readOctal, hvalue₂, hvalue₁, hvalue₀]
    · have : 8 * (8 * (b.toNat / 64 % 8) + b.toNat / 8 % 8) + b.toNat % 8 = b.toNat := by
        simp only [UInt8.size] at hb
        omega
      rw [this]
    · exact nofun
  simp only [readEscape, hsign, hdigit₂, hnumber, if_pos hb, if_true]
  rw [Nat.toUInt8_eq, UInt8.ofNat_toNat]

-- a number of one digit would take in the digit of the text that follows
example : readEscape ['1', '2', '9'] = some (0o12, ['9']) := rfl

theorem printable_spec (n : Nat) (h : 0x20 ≤ n ∧ n ≤ 0x7E) :
    isPrintable (Char.ofNat n) = true ∧
      String.utf8EncodeChar (Char.ofNat n) = [n.toUInt8] ∧ (Char.ofNat n).toNat = n := by
  have hall : ∀ n < 0x7F, 0x20 ≤ n → isPrintable (Char.ofNat n) = true ∧
      String.utf8EncodeChar (Char.ofNat n) = [n.toUInt8] ∧ (Char.ofNat n).toNat = n := by decide
  exact hall n (by omega) h.1

theorem isPrintable_of_signByte? {c : Char} {b : UInt8} (h : signByte? c = some b) :
    isPrintable c = true := by
  unfold signByte? at h
  split at h
  all_goals first | rfl | cases h

/-- a byte is written as a sign behind a backslash, as itself, or with three octal digits -/
theorem quoteByte_cases (b : UInt8) :
    (∃ c, signByte? c = some b ∧ quoteByte b = ['\\', c]) ∨
    (∃ c, c ≠ '"' ∧ c ≠ '\\' ∧ isPrintable c = true ∧ String.utf8EncodeChar c = [b] ∧
      quoteByte b = [c]) ∨
    quoteByte b =
      ['\\', octalDigit (b.toNat / 64), octalDigit (b.toNat / 8), octalDigit b.toNat] := by
  have hsign {c : Char} (code : UInt8) (hcode : signByte? c = some code)
      (h : (b.toNat == code.toNat) = true) :
      (∃ x, signByte? x = some b ∧ ['\\', c] = ['\\', x]) := by
    obtain rfl : b = code := UInt8.toNat_inj.mp (eq_of_beq h)
    exact ⟨c, hcode, rfl⟩
  unfold quoteByte
  dsimp only
  by_cases hquote : (b.toNat == '"'.toNat) = true
  · rw [if_pos hquote]
    exact Or.inl (hsign 0x22 rfl hquote)
  rw [if_neg hquote]
  by_cases hbackslash : (b.toNat == '\\'.toNat) = true
  · rw [if_pos hbackslash]
    exact Or.inl (hsign 0x5C rfl hbackslash)
  rw [if_neg hbackslash]
  by_cases hfeed : (b.toNat == '\n'.toNat) = true
  · rw [if_pos hfeed]
    exact Or.inl (hsign 0x0A rfl hfeed)
  rw [if_neg hfeed]
  by_cases hreturn : (b.toNat == '\r'.toNat) = true
  · rw [if_pos hreturn]
    exact Or.inl (hsign 0x0D rfl hreturn)
  rw [if_neg hreturn]
  by_cases htab : (b.toNat == '\t'.toNat) = true
  · rw [if_pos htab]
    exact Or.inl (hsign 0x09 rfl htab)
  rw [if_neg htab]
  by_cases hprintable : 0x20 ≤ b.toNat ∧ b.toNat ≤ 0x7E
  · rw [if_pos (by simpa using hprintable)]
    obtain ⟨hshown, hbytes, hnat⟩ := printable_spec b.toNat hprintable
    have hne {c : Char} (h : ¬ (b.toNat == c.toNat) = true) : Char.ofNat b.toNat ≠ c := by
      rintro rfl
      exact h (by rw [hnat]; exact beq_self_eq_true _)
    rw [Nat.toUInt8_eq, UInt8.ofNat_toNat] at hbytes
    exact Or.inr (Or.inl ⟨_, hne hquote, hne hbackslash, hshown, hbytes, rfl⟩)
  · rw [if_neg (by simpa using hprintable)]
    exact Or.inr (Or.inr rfl)

theorem isPrintable_of_mem_quoteByte {b : UInt8} {c : Char} (h : c ∈ quoteByte b) :
    isPrintable c = true := by
  have hbackslash : isPrintable '\\' = true := rfl
  rcases quoteByte_cases b with ⟨x, hx, hb⟩ | ⟨x, _, _, hx, _, hb⟩ | hb
  · have := isPrintable_of_signByte? hx
    simp only [hb, List.mem_cons, List.not_mem_nil, or_false] at h
    rcases h with rfl | rfl <;> assumption
  · rw [hb, List.mem_singleton] at h
    exact h ▸ hx
  · have hdigit (n : Nat) : isPrintable (octalDigit n) = true := (octalDigit_spec n).2.2.1
    simp only [hb, List.mem_cons, List.not_mem_nil, or_false] at h
    rcases h with rfl | rfl | rfl | rfl
    · exact hbackslash
    · exact hdigit _
    · exact hdigit _
    · exact hdigit _

/-! ## literals -/

theorem readBody_quoteByte (b : UInt8) (rest : List Char) :
    readBody (quoteByte b ++ rest) = (readBody rest).map (prepend [b]) := by
  rcases quoteByte_cases b with ⟨c, hc, hb⟩ | ⟨c, hquote, hbackslash, _, hbytes, hb⟩ | hb
  · rw [hb]
    exact readBody_escape (readEscape_sign hc rest)
  · rw [hb, ← hbytes]
    exact readBody_plain hquote hbackslash rest
  · rw [hb]
    exact readBody_escape (readEscape_octal b rest)

theorem readBody_quoteBytes (bs : List UInt8) (rest : List Char) :
    readBody (quoteBytes bs ++ '"' :: rest) = some (bs, rest) := by
  induction bs with
  | nil => exact readBody_closing rest
  | cons b bs ih =>
    unfold quoteBytes at ih ⊢
    rw [List.flatMap_cons, List.append_assoc, readBody_quoteByte, ih]
    rfl

theorem toList_quote (s : String) :
    (quote s).toList = '"' :: (quoteBytes s.toUTF8.toList ++ ['"']) := String.toList_ofList

theorem readLiteral_quote (s : String) (rest : List Char) :
    readLiteral ((quote s).toList ++ rest) = some (s.toUTF8.toList, rest) := by
  rw [toList_quote, List.cons_append, List.append_assoc]
  exact readBody_quoteBytes s.toUTF8.toList rest

theorem isPrintable_of_mem_quote {s : String} {c : Char} (h : c ∈ (quote s).toList) :
    isPrintable c = true := by
  rw [toList_quote, List.mem_cons, List.mem_append, List.mem_singleton] at h
  rcases h with rfl | h | rfl
  · rfl
  · obtain ⟨b, _, hc⟩ := List.mem_flatMap.mp h
    exact isPrintable_of_mem_quoteByte hc
  · rfl

/-- the loop that lists the bytes of an array leaves none out -/
theorem toList_loop_eq (bs : ByteArray) (i : Nat) (r : List UInt8) :
    ByteArray.toList.loop bs i r = r.reverse ++ bs.data.toList.drop i := by
  induction i, r using ByteArray.toList.loop.induct bs with
  | case1 i r hi ih =>
    have hsize : i < bs.data.toList.length := hi
    have hget : bs.data.toList.drop i = bs.get! i :: bs.data.toList.drop (i + 1) := by
      rw [List.drop_eq_getElem_cons hsize, Array.getElem_toList]
      exact congrArg (· :: _) (getElem!_pos bs.data i hi).symm
    rw [ByteArray.toList.loop, if_pos hi, ih, hget]
    simp
  | case2 i r hi =>
    have hnil : bs.data.toList.drop i = [] := List.drop_eq_nil_of_le (Nat.le_of_not_lt hi)
    rw [ByteArray.toList.loop, if_neg hi, hnil, List.append_nil]

theorem eq_of_utf8_eq {s t : String} (h : s.toUTF8.toList = t.toUTF8.toList) : s = t := by
  have hbytes (x : String) : x.toUTF8.toList = x.toUTF8.data.toList := toList_loop_eq _ 0 []
  rw [hbytes, hbytes] at h
  exact String.toByteArray_inj.mp (ByteArray.ext (Array.toList_inj.mp h))

end TypeModel.Text

namespace TypeModel.Expression

/-- a string literal -/
def string (s : String) : Expression := .literal (.string s)

open Text in
/-- what is written for a string is one literal of printable ASCII characters; it ends with its last
quote, whatever follows, and stands for the UTF-8 bytes of the string, so that no other string is
written in the same way -/
theorem literal_reads_back :
    (∀ (s : String) (rest : List Char),
      readLiteral ((string s).text.toList ++ rest) = some (s.toUTF8.toList, rest)) ∧
    (∀ s : String, (string s).text.toList.getLast? = some '"') ∧
    (∀ s : String, ∀ c ∈ (string s).text.toList, isPrintable c = true) ∧
    Function.Injective fun s => (string s).text := by
  refine ⟨readLiteral_quote, fun s => ?_, fun s c hc => isPrintable_of_mem_quote hc, ?_⟩
  · show (quote s).toList.getLast? = some '"'
    rw [toList_quote, ← List.cons_append, List.getLast?_concat]
  · intro s t h
    have hs := readLiteral_quote s []
    have ht := readLiteral_quote t []
    have h : quote s = quote t := h
    rw [h, ht] at hs
    exact (eq_of_utf8_eq (congrArg Prod.fst (Option.some.inj hs))).symm

end TypeModel.Expression
