import TaintRules.Decimal
import TaintRules.Text.Characters
import TaintRules.Yaml.Token
import TaintRules.Yaml.Value

/-!
# The values of scalars

What the text of a plain scalar says: the missing value, a truth value, a number, or else itself. A
whole number may be decimal, hexadecimal, octal or binary; leading zeros make a decimal one a text.
-/

namespace TaintRules.Yaml

/-- Whether a text writes the missing value. -/
def isNull (text : String) : Bool := ["null", "Null", "NULL", "~"].contains text

/-- The truth value that a text writes. -/
def truth? (text : String) : Option Bool :=
  if ["true", "True", "TRUE"].contains text then some true
  else if ["false", "False", "FALSE"].contains text then some false
  else none

/-- The value of a digit in a base of at most sixteen. -/
def digitIn? (base : Nat) (c : Char) : Option Nat := (Text.hexValue? c).filter (· < base)

/-- The number that some digits write in a base. -/
def digitsIn? (base : Nat) (cs : List Char) : Option Nat :=
  if cs.isEmpty then none
  else cs.foldlM (fun n c ↦ (digitIn? base c).map (base * n + ·)) 0

/-- Whether a number has more than one digit and starts with zero, as no whole number does. -/
def hasLeadingZero (cs : List Char) : Bool :=
  match cs with
  | '0' :: next :: rest => (next :: rest).all Char.isDigit
  | _ => false

/-- The sign in front of a number, and the characters after it. -/
def spanSign : List Char → Option Bool × List Char
  | '+' :: rest => (some false, rest)
  | '-' :: rest => (some true, rest)
  | cs => (none, cs)

/-- The number without a sign that a text writes in one of the bases. -/
def magnitude? (cs : List Char) : Option Nat :=
  let based := match cs with
    | '0' :: 'x' :: rest => digitsIn? 16 rest
    | '0' :: 'o' :: rest => digitsIn? 8 rest
    | '0' :: 'b' :: rest => digitsIn? 2 rest
    | _ => none
  based.orElse fun _ ↦ if hasLeadingZero cs then none else digitsIn? 10 cs

/-- The whole number that a text writes, if it has no more than 128 bits. -/
def whole? (text : String) : Option Int :=
  let (sign, cs) := spanSign text.toList
  match magnitude? cs with
  | some n =>
    if sign = some true then if n ≤ Nat.pow 2 127 then some (-n) else none
    else if n < Nat.pow 2 128 then some n else none
  | none => none

/-- The exponent that ends a number; zero if there is none. -/
def exponent? : List Char → Option Int
  | [] => some 0
  | e :: rest =>
    let (sign, ds) := spanSign rest
    if (e = 'e' || e = 'E') && !ds.isEmpty && ds.all Char.isDigit then
      some (if sign = some true then -Decimal.digitsValue ds else Decimal.digitsValue ds)
    else none

/-- The finite double that a text writes as a decimal. -/
def decimal? (text : String) : Option Float := do
  let (sign, cs) := spanSign text.toList
  let (whole, cs) := Decimal.spanDigits cs
  let (fraction, cs) := match cs with
    | '.' :: rest => Decimal.spanDigits rest
    | _ => ([], cs)
  if whole.isEmpty && fraction.isEmpty then none
  let value := Decimal.toFloat (sign = some true) whole fraction (← exponent? cs)
  if value.isFinite then some value else none

/-- The double that a text writes, also an infinite one or none. -/
def double? (text : String) : Option Float :=
  if [".inf", ".Inf", ".INF", "+.inf", "+.Inf", "+.INF"].contains text then some (1.0 / 0.0)
  else if ["-.inf", "-.Inf", "-.INF"].contains text then some (-1.0 / 0.0)
  else if [".nan", ".NaN", ".NAN"].contains text then some (Float.ofBits 0x7FF8000000000000)
  else decimal? text

/-- A whole number as a value, if it has no more than 64 bits. -/
def wholeValue? (n : Int) : Option Value :=
  if -Nat.pow 2 63 ≤ n ∧ n < UInt64.size then some (.int n) else none

/-- The value of a plain scalar without a tag. A whole number of more than 64 bits has none. -/
def plainValue? (text : String) : Option Value :=
  if text.isEmpty || isNull text then some .null
  else
    match truth? text with
    | some b => some (.bool b)
    | none =>
      match whole? text with
      | some n => wholeValue? n
      | none =>
        if hasLeadingZero (spanSign text.toList).2 then some (.text text)
        else some (((double? text).map .float).getD (.text text))

/-- The value of a scalar without a tag. -/
def untaggedValue? (style : Style) (text : String) : Option Value :=
  if style = .plain then plainValue? text else some (.text text)

/-- The value of a scalar with a tag that is not of the document's own, or that has no name. -/
def standardValue? (tag : Tag) (style : Style) (text : String) : Option Value :=
  if tag = .standard "bool" then (truth? text).map .bool
  else if tag = .standard "int" then (whole? text).bind wholeValue?
  else if tag = .standard "float" then (double? text).map .float
  else if tag = .standard "null" then if isNull text then some .null else none
  else if tag.isMarked then untaggedValue? style text
  else some (.text text)

/-- The value of a scalar; there is none if the text does not fit its tag. -/
def scalarValue? (tag : Option Tag) (style : Style) (text : String) : Option Value :=
  match tag with
  | none => untaggedValue? style text
  | some tag =>
    match tag.custom? with
    | some name => (untaggedValue? style text).map (.tagged name)
    | none => standardValue? tag style text

end TaintRules.Yaml
