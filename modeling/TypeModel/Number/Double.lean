/-!
# Double precision numbers as text

* `Double.decode x`   what the bits of `x` say: not a number, infinite, or
                      `± significand * 2 ^ exponent`;
* `Double.text x`     the number without an exponent: an integral value exactly and with one
                      decimal, any other value with the fewest decimals that read back as `x`;
* `Double.parse? cs`  the double nearest to a decimal, or a special value.

A value `s / 2 ^ k` owns the decimals that round to it: an interval around it whose ends belong
to it when `s` is even (`Fraction.owns`).  With `k` decimals the value itself is on the grid, so
the search for the coarsest grid with an owned point ends.
-/

namespace TypeModel.Number

/-- a double taken apart -/
inductive Double where
  | nan
  | infinite (negative : Bool)
  | finite (negative : Bool) (significand : Nat) (exponent : Int)
  deriving DecidableEq, Repr

/-- the least significand of a normal number -/
def normalSignificand : Nat := Nat.pow 2 52

/-- the exponent of the subnormal numbers -/
def leastExponent : Int := -1074

def Double.ofBits (bits : Nat) : Double :=
  let negative := bits / Nat.pow 2 63 % 2 == 1
  let biased := bits / normalSignificand % 2048
  let fraction := bits % normalSignificand
  if biased == 2047 then
    if fraction == 0 then .infinite negative else .nan
  else if biased == 0 then .finite negative fraction leastExponent
  else .finite negative (normalSignificand + fraction) (Int.ofNat biased - 1075)

def Double.decode (x : Float) : Double := .ofBits x.toBits.toNat

/-- the positive value `significand / 2 ^ scale` -/
structure Fraction where
  significand : Nat
  scale : Nat

namespace Fraction

/-- the interval of a value in units of `1 / 2 ^ (scale + 2)`: its lower end, the value, its upper
end.  Below the least significand of a binade the doubles lie twice as dense. -/
def interval (v : Fraction) : Nat × Nat × Nat :=
  let s := v.significand
  let gap := if s == normalSignificand && leastExponent < -(Int.ofNat v.scale) then 1 else 2
  (4 * s - gap, 4 * s, 4 * s + 2)

/-- whether `digits / 10 ^ places` rounds to the value -/
def owns (v : Fraction) (places digits : Nat) : Bool :=
  let (low, _, high) := v.interval
  let grid := Nat.pow 10 places
  let point := digits * Nat.pow 2 (v.scale + 2)
  if v.significand % 2 == 0 then low * grid ≤ point && point ≤ high * grid
  else low * grid < point && point < high * grid

/-- the owned decimal with the given number of places nearest to the value, if there is one -/
def nearest? (v : Fraction) (places : Nat) : Option Nat :=
  let exact := v.significand * Nat.pow 10 places
  let unit := Nat.pow 2 v.scale
  let below := exact / unit
  match v.owns places below, v.owns places (below + 1) with
  | true, true => some (if 2 * (exact % unit) < unit then below else below + 1)
  | true, false => some below
  | false, true => some (below + 1)
  | false, false => none

/-- the fewest places with an owned decimal, and that decimal -/
def shortest (v : Fraction) : Nat × Nat :=
  ((List.range (v.scale + 1)).findSome? fun places => (v.nearest? places).map (places, ·)).getD
    (v.scale, v.significand * Nat.pow 5 v.scale)

/-- `digits / 10 ^ places` written out -/
def decimalText (places digits : Nat) : String :=
  let ds := (Nat.repr digits).toList
  let ds := List.replicate (places + 1 - ds.length) '0' ++ ds
  let whole := ds.take (ds.length - places)
  let part := ds.drop (ds.length - places)
  String.ofList (whole ++ '.' :: part)

def text (v : Fraction) : String :=
  let (places, digits) := v.shortest
  decimalText places digits

end Fraction

def signText (negative : Bool) : String := if negative then "-" else ""

def Double.render : Double → String
  | .nan => "NaN"
  | .infinite negative => signText negative ++ "inf"
  | .finite negative s (.ofNat e) => signText negative ++ Nat.repr (s * Nat.pow 2 e) ++ ".0"
  | .finite negative s (.negSucc e) =>
    let unit := Nat.pow 2 (e + 1)
    if s % unit == 0 then signText negative ++ Nat.repr (s / unit) ++ ".0"
    else signText negative ++ Fraction.text ⟨s, e + 1⟩

def Double.text (x : Float) : String := (Double.decode x).render

/-- the value of a string of decimal digits -/
def digitsValue (ds : List Char) : Nat :=
  ds.foldl (fun n d => 10 * n + (d.toNat - '0'.toNat)) 0

/-- a text split behind its leading digits -/
def spanDigits (cs : List Char) : List Char × List Char :=
  (cs.takeWhile Char.isDigit, cs.dropWhile Char.isDigit)

/-- a text split behind its sign -/
def splitSign : List Char → Bool × List Char
  | '-' :: cs => (true, cs)
  | '+' :: cs => (false, cs)
  | cs => (false, cs)

/-- `mantissa * 10 ^ exponent`, rounded; values beyond the range of doubles are settled without
computing the power -/
def ofScientific (mantissa : Nat) (exponent : Int) : Float :=
  let size := Int.ofNat (Nat.repr mantissa).length + exponent
  if mantissa == 0 || size < -400 then 0.0
  else if size > 400 then Float.ofBits 0x7FF0000000000000
  else Float.ofScientific mantissa (exponent < 0) exponent.natAbs

/-- the decimal exponent behind the digits of a number; none written is zero -/
def parseExponent? : List Char → Option Int
  | [] => some 0
  | c :: cs =>
    if c == 'e' || c == 'E' then
      let (negative, cs) := splitSign cs
      let (ds, rest) := spanDigits cs
      if ds.isEmpty || !rest.isEmpty then none
      else some (if negative then -(Int.ofNat (digitsValue ds)) else Int.ofNat (digitsValue ds))
    else none

/-- digits, an optional point and digits, an optional exponent -/
def parseMagnitude? (cs : List Char) : Option Float :=
  let (whole, rest) := spanDigits cs
  let (part, rest) :=
    match rest with
    | '.' :: rest => spanDigits rest
    | rest => ([], rest)
  if whole.isEmpty && part.isEmpty then none
  else
    (parseExponent? rest).map fun e =>
      ofScientific (digitsValue (whole ++ part)) (e - Int.ofNat part.length)

def parseSpecial? (cs : List Char) : Option Float :=
  let word := String.ofList (cs.map Char.toLower)
  if word == "inf" || word == "infinity" then some (Float.ofBits 0x7FF0000000000000)
  else if word == "nan" then some (Float.ofBits 0x7FF8000000000000)
  else none

def Double.parse? (s : String) : Option Float :=
  let (negative, cs) := splitSign s.toList
  let value := (parseSpecial? cs).orElse fun _ => parseMagnitude? cs
  value.map fun x => if negative then -x else x

end TypeModel.Number
