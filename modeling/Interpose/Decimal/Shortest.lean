/-!
Binary floating-point numbers and the shortest decimal that reads back as one of them.

A finite number is `m · 2^q`. The reals that round to it form an interval around it, whose ends belong to it
exactly if `m` is even. For 1, 2, 3, … digits the two neighbours of the number on that decimal grid are
tested in exact arithmetic; the first grid with a hit gives the digits, of two hits the nearer, and the
upper one on a tie.
-/

namespace Interpose.Decimal

/-- A binary interchange format, by the width of its exponent and of its fraction. -/
structure Format where
  exponentBits : Nat
  fractionBits : Nat

def single : Format := ⟨8, 23⟩

def double : Format := ⟨11, 52⟩

/-- What a bit pattern stands for. -/
inductive Number where
  | nan
  | infinite (negative : Bool)
  /-- The number `±mantissa · 2^exponent`; `tight` says that the next number below is only half as far
  away as the next one above. -/
  | finite (negative : Bool) (mantissa : Nat) (exponent : Int) (tight : Bool)

def decode (format : Format) (bits : Nat) : Number :=
  let hidden := Nat.pow 2 format.fractionBits
  let fraction := bits % hidden
  let fields := Nat.pow 2 format.exponentBits
  let field := bits / hidden % fields
  let negative := bits / hidden / fields % 2 == 1
  let lowest : Int := 2 - (Nat.pow 2 (format.exponentBits - 1) : Nat) - format.fractionBits
  if field = fields - 1 then
    if fraction = 0 then .infinite negative else .nan
  else if field = 0 then .finite negative fraction lowest false
  else .finite negative (hidden + fraction) (lowest + field - 1) (fraction = 0 && field > 1)

def isNaN (format : Format) (bits : Nat) : Bool :=
  match decode format bits with
  | .nan => true
  | _ => false

def isZero (format : Format) (bits : Nat) : Bool :=
  bits % Nat.pow 2 (format.exponentBits + format.fractionBits) = 0

/-- Comparison of numbers: no number equals `nan`, and the two zeros are equal. -/
def equal (format : Format) (a b : Nat) : Bool :=
  !isNaN format a && !isNaN format b && (a == b || isZero format a && isZero format b)

/-- The positive rational `numerator / denominator`, or zero. -/
structure Ratio where
  numerator : Nat
  denominator : Nat

def Ratio.scaled (n : Nat) (e : Int) : Ratio :=
  ⟨n * Nat.pow 2 e.toNat, Nat.pow 2 (-e).toNat⟩

/-- Compares `digits · 10^exponent` with a rational. -/
def compareDecimal (digits : Nat) (exponent : Int) (r : Ratio) : Ordering :=
  compare (digits * Nat.pow 10 exponent.toNat * r.denominator) (r.numerator * Nat.pow 10 (-exponent).toNat)

/-- The least `e` with `r < 10^e`, found from `start` on within `fuel` steps down. -/
def magnitudeFrom (r : Ratio) : Nat → Int → Int
  | 0, e => e
  | fuel + 1, e =>
    if compareDecimal 1 (e - 1) r == .gt then magnitudeFrom r fuel (e - 1) else e

/-- The least `e` with `r < 10^e`, for `r` positive. -/
def magnitude (r : Ratio) : Int :=
  let high := (Nat.toDigits 10 (r.numerator / r.denominator)).length
  let low := (Nat.toDigits 10 r.denominator).length
  magnitudeFrom r (high + low) high

def neighbours (r : Ratio) (exponent : Int) : Nat × Nat :=
  let below := r.numerator * Nat.pow 10 (-exponent).toNat / (r.denominator * Nat.pow 10 exponent.toNat)
  (below, below + 1)

/-- The nearer of the two neighbours `low` and `low + 1`, the upper one on a tie. -/
def nearer (r : Ratio) (exponent : Int) (low : Nat) : Nat :=
  if compareDecimal (2 * low + 1) exponent ⟨2 * r.numerator, r.denominator⟩ == .gt then low else low + 1

/-- The digits and the exponent of ten of the shortest decimal within the interval of `m · 2^q`. -/
def shortest (mantissa : Nat) (exponent : Int) (tight : Bool) : Nat × Int :=
  let value := Ratio.scaled (4 * mantissa) (exponent - 2)
  let lower := Ratio.scaled (4 * mantissa - if tight then 1 else 2) (exponent - 2)
  let upper := Ratio.scaled (4 * mantissa + 2) (exponent - 2)
  let closed := mantissa % 2 = 0
  let inside (digits : Nat) (e : Int) : Bool :=
    (match compareDecimal digits e lower with
      | .gt => true
      | .eq => closed
      | .lt => false) &&
    (match compareDecimal digits e upper with
      | .lt => true
      | .eq => closed
      | .gt => false)
  let top := magnitude value
  let onGrid (count : Nat) : Option (Nat × Int) :=
    let e := top - (count : Int)
    let (low, high) := neighbours value e
    match inside low e, inside high e with
    | true, true => some (nearer value e low, e)
    | true, false => some (low, e)
    | false, true => some (high, e)
    | false, false => none
  ((List.range 18).findSome? fun i => onGrid (i + 1)).getD (neighbours value (top - 18) |>.1, top - 18)

/-- Positional notation: never an exponent, and no point in a whole number. -/
def positional (digits : Nat) (exponent : Int) : String :=
  let text := Nat.toDigits 10 digits
  if 0 ≤ exponent then String.ofList (text ++ List.replicate exponent.toNat '0')
  else
    let places := (-exponent).toNat
    let padded := List.replicate (places + 1 - text.length) '0' ++ text
    let whole := padded.take (padded.length - places)
    let fraction := padded.drop (padded.length - places)
    let kept := (fraction.reverse.dropWhile (· == '0')).reverse
    String.ofList (if kept.isEmpty then whole else whole ++ '.' :: kept)

/-- The text of a bit pattern: the fewest digits that read back, written positionally. -/
def text (format : Format) (bits : Nat) : String :=
  match decode format bits with
  | .nan => "NaN"
  | .infinite false => "inf"
  | .infinite true => "-inf"
  | .finite negative mantissa exponent tight =>
    let sign := if negative then "-" else ""
    if mantissa = 0 then sign ++ "0"
    else
      let (digits, e) := shortest mantissa exponent tight
      sign ++ positional digits e

end Interpose.Decimal
