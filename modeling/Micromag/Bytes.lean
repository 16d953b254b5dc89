import Micromag.Decimal.Basic
import Micromag.Instances

/-!
# Bytes

Numbers as bytes: words of a fixed width, and numbers in single and double precision.
-/

/-!
## Words of bytes

A word is a number written with a fixed count of base-256 digits, the least digit first or last.
-/

namespace Micromag

/-- Where the least digit of a word stands. -/
inductive ByteOrder where
  /-- The least digit comes first. -/
  | little
  /-- The least digit comes last. -/
  | big
deriving DecidableEq, Repr

namespace Bytes

/-- The lowest base-256 digits of a number, least first. -/
def littleDigits : Nat → Nat → List UInt8
  | 0, _ => []
  | count + 1, n => UInt8.ofNat (n % 256) :: littleDigits count (n / 256)

/-- The number of base-256 digits, least first. -/
def ofLittleDigits : List UInt8 → Nat
  | [] => 0
  | digit :: rest => digit.toNat + 256 * ofLittleDigits rest

/-- A number as a word. -/
def ofNat (order : ByteOrder) (count n : Nat) : List UInt8 :=
  match order with
  | .little => littleDigits count n
  | .big => (littleDigits count n).reverse

/-- The number of a word. -/
def toNat (order : ByteOrder) (bytes : List UInt8) : Nat :=
  match order with
  | .little => ofLittleDigits bytes
  | .big => ofLittleDigits bytes.reverse

/-- A word has as many digits as asked for. -/
theorem length_littleDigits (count n : Nat) : (littleDigits count n).length = count := by
  induction count generalizing n with
  | zero => rfl
  | succ count ih => simp [littleDigits, ih]

/-- The digits of a number that fits give back the number. -/
theorem ofLittleDigits_littleDigits {count n : Nat} (h : n < 256 ^ count) :
    ofLittleDigits (littleDigits count n) = n := by
  induction count generalizing n with
  | zero => simp at h; simp [littleDigits, ofLittleDigits, h]
  | succ count ih =>
    have small : n / 256 < 256 ^ count := by
      rw [Nat.pow_succ] at h
      exact Nat.div_lt_of_lt_mul (by rw [Nat.mul_comm]; exact h)
    simp only [littleDigits, ofLittleDigits, ih small]
    have digit : (UInt8.ofNat (n % 256)).toNat = n % 256 := by
      simp [UInt8.toNat_ofNat']
    rw [digit]
    exact Nat.mod_add_div n 256

/-- The word of a number that fits gives back the number, in either order. -/
theorem toNat_ofNat {order : ByteOrder} {count n : Nat} (h : n < 256 ^ count) :
    toNat order (ofNat order count n) = n := by
  cases order <;> simp [toNat, ofNat, ofLittleDigits_littleDigits h]

end Bytes

end Micromag

/-!
## Single precision

Four-byte numbers have 24 significant bits. A double is brought to the nearest of them, a tie going
to the even one; what is too large becomes infinite. The way back is exact.
-/

namespace Micromag.Single

/-- The encoding of infinity without its sign. -/
def infinity : Nat := 0x7F800000

/-- The encoding that stands for no number. -/
def noNumber : Nat := 0x7FC00000

/-- The nearest whole multiple of `2 ^ unit`, a tie going to the even one. -/
def roundTo (x : Magnitude) (unit : Int) : Nat :=
  let scaled := x.mantissa * 2 ^ (x.exponent - unit).toNat
  let parts := 2 ^ (unit - x.exponent).toNat
  let below := scaled / parts
  match compare (2 * (scaled % parts)) parts with
  | .lt => below
  | .gt => below + 1
  | .eq => if below % 2 = 0 then below else below + 1

/-- The encoding of a magnitude. A unit is the last of 24 bits, but no less than `2 ^ -149`;
counting units from the least one, the encoding is the same for small and for large numbers. -/
def ofMagnitude (x : Magnitude) : Nat :=
  if x.isZero then 0
  else
    let leading : Int := x.mantissa.log2 + x.exponent
    if 128 ≤ leading then infinity
    else
      let unit := max (leading - 23) (-149)
      min ((unit + 149).toNat * 2 ^ 23 + roundTo x unit) infinity

/-- The encoding of a double in single precision. -/
def ofDouble (x : Float) : Nat :=
  if x.isNaN then noNumber
  else
    let sign := if isNegative x then 2 ^ 31 else 0
    sign + if x.isFinite then ofMagnitude (.ofFloat x) else infinity

/-- The double with a biased exponent and the bits of a fraction, all without sign. -/
def doubleBits (biased fraction : Nat) : Nat := biased * 2 ^ 52 + fraction

/-- The encoding of the double that equals an encoded number without its sign. -/
def widen (encoding : Nat) : Nat :=
  let biased := encoding / 2 ^ 23
  let fraction := encoding % 2 ^ 23
  if biased = 255 then doubleBits 2047 (fraction * 2 ^ 29)
  else if biased ≠ 0 then doubleBits (biased + 896) (fraction * 2 ^ 29)
  else if fraction = 0 then 0
  else
    let leading := fraction.log2
    doubleBits (leading + 874) ((fraction - 2 ^ leading) * 2 ^ (52 - leading))

/-- The double that equals an encoded number. -/
def toDouble (encoding : Nat) : Float :=
  let sign := encoding / 2 ^ 31 % 2
  Float.ofBits (UInt64.ofNat (sign * 2 ^ 63 + widen (encoding % 2 ^ 31)))

end Micromag.Single
