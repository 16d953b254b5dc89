import Micromag.Instances

/-!
# Decimal numbers

Decimal texts that stand for binary numbers: the shortest ones, rounded ones, and their layouts.
-/

/-!
## Decimals and binary magnitudes

A finite double is a sign and a magnitude `mantissa · 2 ^ exponent` with integers in both places.
Everything that writes or reads a number compares such a magnitude with a decimal
`digits · 10 ^ exponent`, and the comparison is exact: both sides are brought to integers first.
-/

namespace Micromag

/-- The number `digits · 10 ^ exponent`. -/
structure Decimal where
  /-- The digits, read as one natural number. -/
  digits : Nat
  /-- The power of ten that multiplies them. -/
  exponent : Int
deriving DecidableEq, Repr

/-- The magnitude `mantissa · 2 ^ exponent` of a finite double. -/
structure Magnitude where
  /-- The significand as an integer. -/
  mantissa : Nat
  /-- The power of two that multiplies it. -/
  exponent : Int
  /-- The gap to the next smaller double is half of the gap to the next larger one. -/
  narrowBelow : Bool
deriving DecidableEq, Repr

/-- Order of `a · 10 ^ i` and `n · 2 ^ j`. -/
def compareScaled (a : Nat) (i : Int) (n : Nat) (j : Int) : Ordering :=
  compare (a * 10 ^ i.toNat * 2 ^ (-j).toNat) (n * 2 ^ j.toNat * 10 ^ (-i).toNat)

namespace Magnitude

/-- The magnitude that an encoding of a finite double stands for; the sign bit is ignored. -/
def ofBits (bits : UInt64) : Magnitude :=
  let biased := ((bits >>> 52) &&& 0x7FF).toNat
  let fraction := (bits &&& 0xFFFFFFFFFFFFF).toNat
  if biased = 0 then ⟨fraction, -1074, false⟩
  else ⟨2 ^ 52 + fraction, (biased : Int) - 1075, fraction = 0 && 1 < biased⟩

/-- The magnitude of a finite double. -/
def ofFloat (x : Float) : Magnitude := ofBits x.toBits

/-- Whether the magnitude is zero. -/
def isZero (x : Magnitude) : Bool := x.mantissa = 0

/-- The whole part of a magnitude. -/
def floor (x : Magnitude) : Nat := x.mantissa * 2 ^ x.exponent.toNat / 2 ^ (-x.exponent).toNat

/-- The nearest whole number, a half going away from zero. -/
def nearest (x : Magnitude) : Nat :=
  let unit := 2 ^ (-x.exponent).toNat
  (2 * (x.mantissa * 2 ^ x.exponent.toNat) + unit) / (2 * unit)

/-- The least whole number that is not smaller. -/
def ceiling (x : Magnitude) : Nat :=
  let unit := 2 ^ (-x.exponent).toNat
  (x.mantissa * 2 ^ x.exponent.toNat + (unit - 1)) / unit

end Magnitude

/-- Whether the sign bit of a double is set, as it is for the negative zero. -/
def isNegative (x : Float) : Bool := x.toBits >>> 63 != 0

/-- Whether two doubles have the same encoding. -/
def sameBits (x y : Float) : Bool := x.toBits == y.toBits

end Micromag

/-!
## The shortest decimal of a double

Of all decimals that round to a double, the shortest are those with the fewest digits, and of these
the nearest to the double is chosen. A decimal rounds to the double when it lies between the two
midpoints to the neighbouring doubles; a midpoint itself belongs to the double with the even
mantissa. The search goes through grids of one digit, two digits and so on up to seventeen, and on
each grid looks at the two points around the double.
-/

namespace Micromag

/-- Which of two equally near decimals is chosen. -/
inductive Tie where
  /-- The larger one. -/
  | up
  /-- The one whose last digit is even. -/
  | even
deriving DecidableEq, Repr

namespace Magnitude

/-- Four times the mantissa of the lower midpoint. -/
def lowerMidpoint (x : Magnitude) : Nat :=
  if x.narrowBelow then 4 * x.mantissa - 1 else 4 * x.mantissa - 2

/-- Four times the mantissa of the upper midpoint. -/
def upperMidpoint (x : Magnitude) : Nat := 4 * x.mantissa + 2

/-- Whether a decimal rounds to the magnitude: to nearest, ties to the even mantissa. -/
def readsBack (x : Magnitude) (d : Decimal) : Bool :=
  let closed := x.mantissa % 2 = 0
  let low := compareScaled d.digits d.exponent x.lowerMidpoint (x.exponent - 2)
  let high := compareScaled d.digits d.exponent x.upperMidpoint (x.exponent - 2)
  (low = .gt || closed && low = .eq) && (high = .lt || closed && high = .eq)

/-- The whole number of steps `10 ^ step` in the magnitude. -/
def steps (x : Magnitude) (step : Int) : Nat :=
  x.mantissa * 2 ^ x.exponent.toNat * 10 ^ (-step).toNat /
    (2 ^ (-x.exponent).toNat * 10 ^ step.toNat)

/-- The nearer of the two grid points around the magnitude that read back, if one does. -/
def onGrid? (x : Magnitude) (tie : Tie) (step : Int) : Option Decimal :=
  let below : Decimal := ⟨x.steps step, step⟩
  let above : Decimal := ⟨below.digits + 1, step⟩
  match x.readsBack below, x.readsBack above with
  | false, false => none
  | true, false => some below
  | false, true => some above
  | true, true =>
    match compareScaled (below.digits + above.digits) step (2 * x.mantissa) x.exponent with
    | .lt => some above
    | .gt => some below
    | .eq =>
      match tie with
      | .up => some above
      | .even => some (if below.digits % 2 = 0 then below else above)

/-- Raise a power of ten that is too small until it exceeds the magnitude. -/
def raiseScale (x : Magnitude) : Nat → Int → Int
  | 0, scale => scale
  | fuel + 1, scale =>
    if compareScaled 1 scale x.mantissa x.exponent = .gt then scale
    else raiseScale x fuel (scale + 1)

/-- The least power of ten above a positive magnitude. The start, from the binary logarithm and the
ratio `30102 / 100000` below that of two and ten, is never above it and at most three below. -/
def scale (x : Magnitude) : Int :=
  let bits : Int := x.mantissa.log2 + x.exponent
  x.raiseScale 4 (bits * 30102 / 100000 - 1)

/-- The magnitude written out in full. -/
def exact (x : Magnitude) : Decimal :=
  ⟨x.mantissa * 2 ^ x.exponent.toNat * 5 ^ (-x.exponent).toNat, min x.exponent 0⟩

end Magnitude

/-- Move trailing zeros of the digits into the exponent. The fuel bounds the zeros moved. -/
def Decimal.stripZeros : Nat → Decimal → Decimal
  | 0, d => d
  | fuel + 1, d =>
    if d.digits ≠ 0 && d.digits % 10 = 0 then stripZeros fuel ⟨d.digits / 10, d.exponent + 1⟩ else d

/-- The shortest decimal that reads back as the magnitude; of several the nearest. -/
def Magnitude.shortest (x : Magnitude) (tie : Tie) : Decimal :=
  if x.isZero then ⟨0, 0⟩
  else
    let scale := x.scale
    let found := (List.range 17).findSome? fun n => x.onGrid? tie (scale - (n + 1 : Nat))
    (found.getD x.exact).stripZeros 800

/-- A magnitude rounded to a number of significant digits, an exact half going to the even digit. -/
def Magnitude.significant (x : Magnitude) (count : Nat) : Decimal :=
  if x.isZero then ⟨0, 1 - (count : Int)⟩
  else
    let step := x.scale - count
    let unit := 2 ^ (-x.exponent).toNat * 10 ^ step.toNat
    let scaled := x.mantissa * 2 ^ x.exponent.toNat * 10 ^ (-step).toNat
    let below := scaled / unit
    let digits :=
      match compare (2 * (scaled % unit)) unit with
      | .lt => below
      | .gt => below + 1
      | .eq => if below % 2 = 0 then below else below + 1
    if digits = 10 ^ count then ⟨10 ^ (count - 1), step + 1⟩ else ⟨digits, step⟩

end Micromag

/-!
## Layouts of number text

A layout decides which decimals are written positionally and which with an exponent, and how the
special values look. The texts of this library use five layouts, each a value of `Layout` beside
the text that it belongs to or here when several texts share it.
-/

namespace Micromag

/-- The decisions of one number text. -/
structure Layout where
  /-- Exponents of the leading digit that are written positionally. -/
  positional : Int → Bool
  /-- Whole numbers keep a fraction of one zero in positional form. -/
  pointZero : Bool
  /-- A positive exponent is written with its sign. -/
  exponentSign : Bool
  /-- Which of two equally short and near decimals is written. -/
  tie : Tie
  /-- The sign of a negative zero is written. -/
  signedZero : Bool

/-- A decimal digit. -/
def digitChar (digit : Nat) : Char := Char.ofNat (48 + digit)

/-- The decimal digits of a natural number, most significant first, in front of further text. -/
def digitsOnto (fuel n : Nat) (rest : List Char) : List Char :=
  match fuel with
  | 0 => rest
  | fuel + 1 =>
    if n < 10 then digitChar n :: rest else digitsOnto fuel (n / 10) (digitChar (n % 10) :: rest)

/-- The decimal digits of a natural number; zero has the digit zero. -/
def naturalDigits (n : Nat) : List Char := digitsOnto (n.log2 + 1) n []

/-- The decimal text of an integer. -/
def integerDigits : Int → List Char
  | .ofNat n => naturalDigits n
  | .negSucc n => '-' :: naturalDigits (n + 1)

namespace Decimal

/-- The exponent of the leading digit. -/
def leading (d : Decimal) : Int := (naturalDigits d.digits).length + d.exponent - 1

/-- Positional text. -/
def positional (d : Decimal) (pointZero : Bool) : List Char :=
  let digits := naturalDigits d.digits
  if 0 ≤ d.exponent then
    digits ++ List.replicate d.exponent.toNat '0' ++ (if pointZero then ['.', '0'] else [])
  else
    let places := (-d.exponent).toNat
    if places < digits.length then
      digits.take (digits.length - places) ++ '.' :: digits.drop (digits.length - places)
    else '0' :: '.' :: (List.replicate (places - digits.length) '0' ++ digits)

/-- Text with one digit before the point and an exponent. -/
def scientific (d : Decimal) (exponentSign : Bool) : List Char :=
  let fraction := (naturalDigits d.digits).drop 1
  let exponent := d.leading
  (naturalDigits d.digits).take 1 ++ (if fraction.isEmpty then [] else '.' :: fraction) ++
    'e' :: ((if exponentSign && 0 ≤ exponent then ['+'] else []) ++ integerDigits exponent)

end Decimal

namespace Layout

/-- The text of a finite double without its sign. -/
def magnitudeText (layout : Layout) (x : Magnitude) : List Char :=
  let d := x.shortest layout.tie
  if layout.positional d.leading then d.positional layout.pointZero
  else d.scientific layout.exponentSign

/-- The text of a double. -/
def chars (layout : Layout) (x : Float) : List Char :=
  if x.isNaN then ['N', 'a', 'N']
  else
    let sign := if isNegative x && (layout.signedZero || x != 0) then ['-'] else []
    sign ++ if x.isFinite then layout.magnitudeText (.ofFloat x) else ['i', 'n', 'f']

/-- The text of a double. -/
def text (layout : Layout) (x : Float) : String := String.ofList (layout.chars x)

/-- Plain text for messages: always positional, whole numbers without a point. -/
def plain : Layout where
  positional _ := true
  pointZero := false
  exponentSign := false
  tie := .up
  signedZero := true

/-- List text for messages: positional from `1e-4` up to `1e16`, whole numbers with a fraction. -/
def listed : Layout where
  positional leading := -4 ≤ leading && leading < 16
  pointZero := true
  exponentSign := false
  tie := .up
  signedZero := true

/-- Always one digit, the further digits after a point, and an exponent. -/
def scientific : Layout where
  positional _ := false
  pointZero := false
  exponentSign := false
  tie := .up
  signedZero := true

end Layout

/-- Text with sixteen significant digits and an exponent, as written into text data blocks. -/
def sixteenDigits (x : Float) : String :=
  if x.isNaN then "NaN"
  else if !x.isFinite then if isNegative x then "-inf" else "inf"
  else
    let d := (Magnitude.ofFloat x).significant 16
    let digits := naturalDigits d.digits
    let padded := digits ++ List.replicate (16 - digits.length) '0'
    let sign := if isNegative x then ['-'] else []
    let exponent : Int := if (Magnitude.ofFloat x).isZero then 0 else d.leading
    String.ofList (sign ++ padded.take 1 ++ '.' :: padded.drop 1 ++ 'e' :: integerDigits exponent)

end Micromag

/-!
## Rounded decimals

A magnitude can be written with a given number of places or of digits. It is rounded exactly, a half
to the even neighbour.
-/

namespace Micromag

/-- A quotient rounded to the nearest whole number, a half to the even one. -/
def roundEven (a b : Nat) : Nat :=
  let q := a / b
  let rest := 2 * (a % b)
  if b < rest || (rest = b && q % 2 = 1) then q + 1 else q

/-- Text with zeros in front up to a length. -/
def zeroPadded (length : Nat) (text : List Char) : List Char :=
  List.replicate (length - text.length) '0' ++ text

/-- Digits with a point in front of the last of them, unless there are no places. -/
def withPoint (places : Nat) (keepPoint : Bool) (digits : List Char) : List Char :=
  let digits := zeroPadded (places + 1) digits
  let whole := digits.take (digits.length - places)
  if places = 0 && !keepPoint then whole
  else whole ++ '.' :: digits.drop (digits.length - places)

namespace Magnitude

/-- The magnitude as a quotient. -/
def quotient (x : Magnitude) : Nat × Nat :=
  (x.mantissa * 2 ^ x.exponent.toNat, 2 ^ (-x.exponent).toNat)

/-- A magnitude with a number of places. -/
def fixed (x : Magnitude) (places : Nat) (keepPoint : Bool) : List Char :=
  let (a, b) := quotient x
  withPoint places keepPoint (naturalDigits (roundEven (a * 10 ^ places) b))

/-- A magnitude rounded to a number of digits, and the exponent of the first one. -/
def rounded (x : Magnitude) (count : Nat) : Nat × Int :=
  let d := x.significant count
  (d.digits, d.exponent + count - 1)

/-- The text of an exponent: its sign and at least two digits. -/
def exponentText (letter : Char) (exponent : Int) : List Char :=
  letter :: (if exponent < 0 then '-' else '+') :: zeroPadded 2 (naturalDigits exponent.natAbs)

/-- A magnitude with one digit in front of the point and an exponent. -/
def scientific (x : Magnitude) (places : Nat) (keepPoint : Bool) (letter : Char) : List Char :=
  let (digits, exponent) := rounded x (places + 1)
  withPoint places keepPoint (naturalDigits digits) ++ exponentText letter exponent

/-- A text without the zeros at the end of its fraction. -/
def dropZeros (text : List Char) : List Char :=
  if text.contains '.' then
    let kept := (text.reverse.dropWhile (· = '0')).reverse
    if kept.getLast? = some '.' then kept.dropLast else kept
  else text

/-- A magnitude with a number of digits, in the shorter of the two forms. -/
def general (x : Magnitude) (digits : Nat) (keepZeros : Bool) (letter : Char) : List Char :=
  let digits := max digits 1
  let (size, exponent) := rounded x digits
  let tidy := if keepZeros then id else dropZeros
  if exponent < -4 || (digits : Int) ≤ exponent then
    tidy (withPoint (digits - 1) keepZeros (naturalDigits size)) ++ exponentText letter exponent
  else tidy (fixed x ((digits : Int) - 1 - exponent).toNat keepZeros)

end Magnitude

end Micromag
