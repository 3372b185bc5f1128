import AccessorLint.Text.Symbol
set_option autoImplicit false

/-!
Numbers with a fraction, in double precision: what a decimal numeral means, and how the number is written.

A finite number is `mantissa * 2 ^ exponent` in its one canonical form: the mantissa has exactly 53 bits, or the
exponent is the least one, -1074, and the mantissa has at most 53.  All arithmetic is on whole numbers.
-/

namespace AccessorLint

/-- A number in double precision. -/
inductive Double where
  | finite (negative : Bool) (mantissa : Nat) (exponent : Int)
  | infinite (negative : Bool)
  | undefined
deriving DecidableEq, Repr

namespace Double

/-! ### From decimals -/

/-- A quotient rounded to the nearest whole number, a half to the even one. -/
def roundedQuotient (numerator denominator : Nat) : Nat :=
  let quotient := numerator / denominator
  let twice := 2 * (numerator % denominator)
  if twice < denominator then quotient
  else if denominator < twice then quotient + 1
  else quotient + quotient % 2

/-- A positive quotient as a multiple of a power of two, rounded. -/
def scaled (numerator denominator : Nat) (exponent : Int) : Nat :=
  match exponent with
  | .ofNat power => roundedQuotient numerator (denominator * Nat.pow 2 power)
  | .negSucc power => roundedQuotient (numerator * Nat.pow 2 (power + 1)) denominator

/-- The number nearest to a quotient. -/
def ofQuotient (negative : Bool) (numerator denominator : Nat) : Double :=
  if numerator = 0 then .finite negative 0 (-1074)
  else
    let guess : Int := Nat.log2 numerator - Nat.log2 denominator - 52
    let fits := Nat.pow 2 52 ≤ scaled numerator denominator guess
    let exponent := max (if fits then guess else guess - 1) (-1074)
    let mantissa := scaled numerator denominator exponent
    let (mantissa, exponent) :=
      if mantissa = Nat.pow 2 53 then (Nat.pow 2 52, exponent + 1) else (mantissa, exponent)
    if 971 < exponent then .infinite negative else .finite negative mantissa exponent

/-- The number nearest to `digits * 10 ^ power`.  A power that is too large or too small for any number is not worked
out: what reaches `10 ^ 310` is infinite, and what lies far below the smallest number is zero. -/
def ofDecimal (negative : Bool) (digits : Nat) (power : Int) : Double :=
  if digits = 0 then .finite negative 0 (-1074)
  else
    match power with
    | .ofNat power =>
        if 310 ≤ power then .infinite negative else ofQuotient negative (digits * Nat.pow 10 power) 1
    | .negSucc power =>
        if Nat.log2 digits + 330 ≤ power then .finite negative 0 (-1074)
        else ofQuotient negative digits (Nat.pow 10 (power + 1))

/-! ### To decimals -/

/-- The end points of the decimals that are read as a finite number, and the number itself between them, as three
multiples of one fraction `1 / denominator`. -/
structure Interval where
  low : Nat
  value : Nat
  high : Nat
  denominator : Nat
  /-- Whether the end points are read as the number too. -/
  closed : Bool

/-- The interval of a positive number. -/
def interval (mantissa : Nat) (exponent : Int) : Interval :=
  let narrow := decide (mantissa = Nat.pow 2 52) && decide (-1074 < exponent)
  let low := if narrow then 4 * mantissa - 1 else 4 * mantissa - 2
  let closed := mantissa % 2 == 0
  match exponent with
  | .ofNat power =>
      let unit := Nat.pow 2 power
      ⟨low * unit, 4 * mantissa * unit, (4 * mantissa + 2) * unit, 4, closed⟩
  | .negSucc power => ⟨low, 4 * mantissa, 4 * mantissa + 2, 4 * Nat.pow 2 (power + 1), closed⟩

/-- Whether a decimal `digits * 10 ^ power` lies in the interval, and how far from the number. -/
def Interval.distance? (interval : Interval) (digits : Nat) (power : Int) : Option Nat :=
  let (point, scale) :=
    match power with
    | .ofNat power => (digits * Nat.pow 10 power * interval.denominator, 1)
    | .negSucc power => (digits * interval.denominator, Nat.pow 10 (power + 1))
  let inside :=
    if interval.closed then decide (interval.low * scale ≤ point) && decide (point ≤ interval.high * scale)
    else decide (interval.low * scale < point) && decide (point < interval.high * scale)
  if inside then some ((point - interval.value * scale) + (interval.value * scale - point)) else none

/-- The number of units `10 ^ power` in the number, without the rest. -/
def Interval.units (interval : Interval) : Int → Nat
  | .ofNat power => interval.value / (interval.denominator * Nat.pow 10 power)
  | .negSucc power => interval.value * Nat.pow 10 (power + 1) / interval.denominator

/-- The nearest of the decimals with a unit `10 ^ power` that are read as the number. -/
def Interval.nearest? (interval : Interval) (power : Int) : Option Nat :=
  let below := interval.units power
  match interval.distance? below power, interval.distance? (below + 1) power with
  | none, none => none
  | some _, none => some below
  | none, some _ => some (below + 1)
  | some left, some right =>
      if left < right || (left = right && below % 2 = 0) then some below else some (below + 1)

/-- The largest power, from the given one downwards, for which a decimal is read as the number. -/
def Interval.shortest (interval : Interval) : Nat → Int → Nat × Int
  | 0, power => (interval.units power, power)
  | steps + 1, power =>
      match interval.nearest? power with
      | some digits => (digits, power)
      | none => interval.shortest steps (power - 1)

/-- Whole digits without the zeros at their end, each of which raises the power. -/
def withoutZeros : Nat → Nat → Int → Nat × Int
  | 0, digits, power => (digits, power)
  | steps + 1, digits, power =>
      if digits % 10 = 0 && digits ≠ 0 then withoutZeros steps (digits / 10) (power + 1) else (digits, power)

/-- The decimal with the fewest digits that is read as the positive number, and of those the nearest. -/
def decimal (mantissa : Nat) (exponent : Int) : Nat × Int :=
  let bits : Int := Nat.log2 mantissa + exponent
  let top : Int := bits * 30103 / 100000 + 2
  let (digits, power) := (interval mantissa exponent).shortest 30 top
  withoutZeros 400 digits power

/-! ### As text -/

/-- The text of a positive decimal `digits * 10 ^ power`.  Numbers from `0.0001` up to `10 ^ 16` are written in
positional notation, all others with an exponent of at least two digits. -/
def decimalText (digits : Nat) (power : Int) : Text :=
  let numerals := Text.ofNat digits
  let point : Int := numerals.length + power
  if -4 < point && point ≤ 16 then
    match point with
    | .ofNat whole =>
        if numerals.length ≤ whole then numerals ++ Text.repeated (whole - numerals.length) '0' ++ ".0"
        else if whole = 0 then "0." ++ numerals
        else numerals.take whole ++ "." ++ numerals.drop whole
    | .negSucc zeros => "0." ++ Text.repeated (zeros + 1) '0' ++ numerals
  else
    let fraction := if numerals.length = 1 then [] else .glyph '.' :: numerals.drop 1
    let exponent := (point - 1).natAbs
    let sign : Text := if point - 1 < 0 then "-" else "+"
    let padding : Text := if exponent < 10 then "0" else []
    numerals.take 1 ++ fraction ++ "e" ++ sign ++ padding ++ Text.ofNat exponent

def text : Double → Text
  | finite negative mantissa exponent =>
      let sign : Text := if negative then "-" else []
      if mantissa = 0 then sign ++ "0.0"
      else
        let (digits, power) := decimal mantissa exponent
        sign ++ decimalText digits power
  | infinite negative => if negative then "-inf" else "inf"
  | undefined => "nan"

def isZero : Double → Bool
  | finite _ mantissa _ => mantissa == 0
  | _ => false

/-- The whole part of a finite number. -/
def truncated (negative : Bool) (mantissa : Nat) (exponent : Int) : Int :=
  let magnitude : Nat :=
    match exponent with
    | .ofNat power => mantissa * Nat.pow 2 power
    | .negSucc power => mantissa / Nat.pow 2 (power + 1)
  if negative then -magnitude else magnitude

/-- The whole number equal to the number, if there is one. -/
def whole? : Double → Option Int
  | finite negative mantissa exponent =>
      let fractional :=
        match exponent with
        | .ofNat _ => false
        | .negSucc power => mantissa % Nat.pow 2 (power + 1) != 0
      if fractional then none else some (truncated negative mantissa exponent)
  | _ => none

end Double

end AccessorLint
