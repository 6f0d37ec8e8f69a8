/-!
# Decimals

Doubles are written as decimals and read from them. Writing takes the fewest digits that read back
to the same double; reading takes the double nearest to the decimal.
-/

namespace TaintRules.Decimal

/-! ### Shortest decimals

A double is written with as few digits as read back to the same double, and among decimals of
that length with the one nearest to it. All tests are made in exact integer arithmetic on
`m · 2 ^ q`: a decimal reads back when it lies between the midpoints to the two neighbouring
doubles, the midpoints included when `m` is even. -/

/-- What a double is made of. -/
inductive Parts where
  | nan
  | infinite (negative : Bool)
  /-- The value `m · 2 ^ q`; `narrow` says that the double below is only half as far away as the
  double above. -/
  | finite (negative : Bool) (m : Nat) (q : Int) (narrow : Bool)
  deriving DecidableEq, Repr

/-- The parts of a double given by its bits. -/
def Parts.ofBits (bits : UInt64) : Parts :=
  let n := bits.toNat
  let negative := n / Nat.pow 2 63 = 1
  let exponent : Nat := n / Nat.pow 2 52 % Nat.pow 2 11
  let fraction : Nat := n % Nat.pow 2 52
  if exponent = 2047 then
    if fraction = 0 then .infinite negative else .nan
  else if exponent = 0 then .finite negative fraction (-1074) false
  else .finite negative (fraction + Nat.pow 2 52) ((exponent : Int) - 1075)
    (fraction = 0 && 1 < exponent)

/-- The decimal `0.d₁d₂… · 10 ^ point`, given by the number that its digits write. -/
structure Digits where
  value : Nat
  point : Int
  deriving DecidableEq, Repr

/-- The digits, the most significant first. -/
def Digits.chars (d : Digits) : List Char := Nat.toDigits 10 d.value

/-- `2 ^ e` or `10 ^ e` as a fraction: numerator and denominator. -/
def powFraction (base : Nat) (e : Int) : Nat × Nat :=
  (base.pow e.toNat, base.pow (-e).toNat)

/-- The least `k` with `num / den < 10 ^ k`, for a positive quotient. -/
def magnitude (num den : Nat) : Int :=
  if den ≤ num then ((Nat.toDigits 10 (num / den)).length : Int)
  else 1 - ((Nat.toDigits 10 ((den + num - 1) / num - 1)).length : Int)

/-- The decimal with `count` digits that reads back to `m · 2 ^ q`, if there is one: the nearest of
the two next to it, the even one if both are as near. -/
def withDigits? (m : Nat) (q : Int) (narrow : Bool) (point : Int) (count : Nat) : Option Digits :=
  let (twoNum, twoDen) := powFraction 2 (q - 2)
  let (tenNum, tenDen) := powFraction 10 (point - count)
  let scale := twoNum * tenDen
  let grid := tenNum * twoDen
  let exact := 4 * m * scale
  let low := (4 * m - if narrow then 1 else 2) * scale
  let high := (4 * m + 2) * scale
  let readsBack (c : Nat) : Bool :=
    if m % 2 = 0 then low ≤ c * grid && c * grid ≤ high else low < c * grid && c * grid < high
  let below := exact / grid
  let above := below + 1
  let belowDistance := exact - below * grid
  let aboveDistance := above * grid - exact
  let belowNearer := belowDistance < aboveDistance
    || (belowDistance = aboveDistance && below % 2 = 0)
  match readsBack below, readsBack above with
  | true, true => some ⟨if belowNearer then below else above, point⟩
  | true, false => some ⟨below, point⟩
  | false, true => some ⟨above, point⟩
  | false, false => none

/-- Removes trailing zeros, which do not change a decimal `0.d₁d₂…`. -/
def dropZeros : Nat → Nat → Nat
  | 0, n => n
  | fuel + 1, n => if n ≠ 0 ∧ n % 10 = 0 then dropZeros fuel (n / 10) else n

/-- The shortest decimal that reads back to the positive double `m · 2 ^ q`. -/
def shortest (m : Nat) (q : Int) (narrow : Bool) : Digits :=
  let (num, den) := powFraction 2 q
  let point := magnitude (m * num) den
  match (List.range 17).findSome? fun i ↦
      (withDigits? m q narrow point (i + 1)).map fun d ↦ (i + 1, d) with
  | some (count, d) =>
    let carried := (Nat.toDigits 10 d.value).length - count
    ⟨dropZeros 17 d.value, point + carried⟩
  | none => ⟨m, point⟩

/-! ### Writing numbers

Every place that shows a number takes its shortest decimal and lays it out by a few decisions:
how far positional notation goes, whether a whole number keeps `.0`, and the words for the
values that are no numbers. Explanations show two places instead, rounded from the exact value. -/

/-- The decisions of a way to write numbers. -/
structure Format where
  /-- The least and the greatest place of the point that are written positionally; without bounds
  every number is. -/
  positional : Option (Int × Int)
  /-- Whether a whole number is written with `.0`. -/
  keepsPoint : Bool
  /-- Whether a positive exponent has a sign. -/
  plusSign : Bool
  nan : String
  infinity : String
  negativeInfinity : String

/-- Numbers inside messages: positional, and whole numbers without a point. -/
def Format.message : Format := ⟨none, false, false, "NaN", "inf", "-inf"⟩

/-- Numbers quoted from a document: positional, and whole numbers keep their point. -/
def Format.quoted : Format := ⟨none, true, false, "NaN", "inf", "-inf"⟩

/-- Numbers in an exported configuration. -/
def Format.document : Format := ⟨some (-4, 16), true, false, ".nan", ".inf", "-.inf"⟩

/-- Numbers in a record; what is no number is written as the missing value. -/
def Format.record : Format := ⟨some (-4, 16), true, true, "null", "null", "null"⟩

/-- The digits with the point at the given place, filled up with zeros. -/
def positionalText (keepsPoint : Bool) (ds : List Char) (point : Int) : List Char :=
  if point ≤ 0 then
    '0' :: '.' :: (List.replicate (-point).toNat '0' ++ ds)
  else if (ds.length : Int) ≤ point then
    ds ++ List.replicate (point - ds.length).toNat '0' ++ (if keepsPoint then ['.', '0'] else [])
  else
    ds.take point.toNat ++ '.' :: ds.drop point.toNat

/-- The digits with one before the point, and an exponent. -/
def exponentText (plusSign : Bool) (ds : List Char) (point : Int) : List Char :=
  let mantissa := match ds with
    | first :: second :: rest => first :: '.' :: second :: rest
    | _ => ds
  let e := point - 1
  let sign := if e < 0 then ['-'] else if plusSign then ['+'] else []
  mantissa ++ 'e' :: sign ++ Nat.toDigits 10 e.natAbs

/-- The text of the digits. -/
def Format.digitsText (format : Format) (d : Digits) : List Char :=
  match format.positional with
  | none => positionalText format.keepsPoint d.chars d.point
  | some (least, greatest) =>
    if least ≤ d.point ∧ d.point ≤ greatest then
      positionalText format.keepsPoint d.chars d.point
    else exponentText format.plusSign d.chars d.point

/-- The text of a double. -/
def Format.text (format : Format) (x : Float) : String :=
  match Parts.ofBits x.toBits with
  | .nan => format.nan
  | .infinite negative => if negative then format.negativeInfinity else format.infinity
  | .finite negative m q narrow =>
    let body :=
      if m = 0 then '0' :: (if format.keepsPoint then ['.', '0'] else [])
      else format.digitsText (shortest m q narrow)
    String.ofList (if negative then '-' :: body else body)

/-- `num / den` rounded to the nearest whole number, a half to the even one. -/
def roundDiv (num den : Nat) : Nat :=
  let quotient := num / den
  let twice := 2 * (num % den)
  if twice < den then quotient
  else if den < twice then quotient + 1
  else quotient + quotient % 2

/-- A double with two places after the point. -/
def twoPlaces (x : Float) : String :=
  match Parts.ofBits x.toBits with
  | .nan => Format.message.nan
  | .infinite negative =>
    if negative then Format.message.negativeInfinity else Format.message.infinity
  | .finite negative m q _ =>
    let (num, den) := powFraction 2 q
    let hundredths := roundDiv (100 * m * num) den
    let ds := Nat.toDigits 10 hundredths
    let padded := List.replicate (3 - ds.length) '0' ++ ds
    let body := padded.take (padded.length - 2) ++ '.' :: padded.drop (padded.length - 2)
    String.ofList (if negative then '-' :: body else body)

/-! ### Reading decimals

The double nearest to a decimal. Decimals beyond the range of doubles are decided by their length,
so that no large power is ever formed. -/

/-- The number that decimal digits write. -/
def digitsValue (ds : List Char) : Nat := ds.foldl (fun n d ↦ 10 * n + (d.toNat - 48)) 0

/-- Splits off the digits in front. -/
def spanDigits (cs : List Char) : List Char × List Char :=
  (cs.takeWhile Char.isDigit, cs.dropWhile Char.isDigit)

/-- The double nearest to `± whole.fraction · 10 ^ exponent`, for digits before and after the
point. -/
def toFloat (negative : Bool) (whole fraction : List Char) (exponent : Int) : Float :=
  let digits := (whole ++ fraction).dropWhile (· = '0')
  let value := digitsValue digits
  let scale := exponent - fraction.length
  let magnitude : Int := digits.length + scale
  let x : Float :=
    if value = 0 ∨ magnitude < -400 then 0.0
    else if 400 < magnitude then 1.0 / 0.0
    else Float.ofScientific value (scale < 0) scale.natAbs
  if negative then -x else x

end TaintRules.Decimal
