/-!
The shortest decimal that reads back as a given double: the fewest digits of which some decimal
lies among the reals that round to the double, and of those decimals the one nearest to it.

All comparisons are between whole numbers of one unit, `1 / (2 ^ 1076 * 10 ^ 400)`, of which every
double, every midpoint between neighbours, and every decimal with digits down to the 400th place
is a multiple.
-/

namespace HostBindings

structure Decimal where
  digits : Nat
  exponent : Int

namespace Decimal

/-- A positive double in units, with the reals that round to it. -/
structure Rounding where
  low : Nat
  value : Nat
  high : Nat
  /-- Whether the ends themselves round to the double. -/
  closed : Bool

def binaryPlaces : Nat := 1076

def decimalPlaces : Nat := 400

/-- The rounding interval of the double with this pattern; its sign is ignored. -/
def Rounding.ofBits (bits : UInt64) : Rounding :=
  let raw := bits.toNat % Nat.pow 2 63
  let stored := raw % Nat.pow 2 52
  let biased := raw / Nat.pow 2 52
  let mantissa := if biased = 0 then stored else Nat.pow 2 52 + stored
  -- the double is `mantissa * 2 ^ (max biased 1 - 1075)`, and a quarter of its last place is
  let quarter := Nat.pow 2 (max biased 1 - 1 + (binaryPlaces - 1076)) * Nat.pow 10 decimalPlaces
  let below := if stored = 0 && biased > 1 then 1 else 2
  { low := (4 * mantissa - below) * quarter
    value := 4 * mantissa * quarter
    high := (4 * mantissa + 2) * quarter
    closed := mantissa % 2 = 0 }

namespace Rounding

def covers (r : Rounding) (n : Nat) : Bool :=
  if r.closed then r.low ≤ n && n ≤ r.high else r.low < n && n < r.high

/-- The place of the leading decimal digit, counted from the lowest decimal place of a unit. -/
def leadingPlace (r : Rounding) : Nat :=
  (Nat.toDigits 10 (r.value / Nat.pow 2 binaryPlaces)).length - 1

/-- Of the two neighbours of the value on the grid of multiples of `10 ^ place`, counted from the
lowest decimal place of a unit, the nearest one that rounds to the double; a tie goes to the even
one. -/
def onGrid? (r : Rounding) (place : Nat) : Option Nat :=
  let grid := Nat.pow 10 place * Nat.pow 2 binaryPlaces
  let c := r.value / grid
  let down := r.value - c * grid
  let up := (c + 1) * grid - r.value
  -- the nearer neighbour first, on a tie the even one
  let downFirst := down < up || (down == up && c % 2 == 0)
  let first := if downFirst then c else c + 1
  let second := if downFirst then c + 1 else c
  if r.covers (first * grid) then some first
  else if r.covers (second * grid) then some second
  else none

/-- The coarsest grid with a hit, tried from `place` down to the lowest one of `tries`. -/
def search (r : Rounding) (place : Nat) : Nat → Decimal
  | 0 => ⟨r.value / (Nat.pow 10 place * Nat.pow 2 binaryPlaces), (place : Int) - decimalPlaces⟩
  | tries + 1 =>
    match r.onGrid? place with
    | some c => ⟨c, (place : Int) - decimalPlaces⟩
    | none => r.search (place - 1) tries

end Rounding

/-- A decimal without trailing zeros; the first argument bounds their number. -/
def strip : Nat → Decimal → Decimal
  | 0, d => d
  | bound + 1, d =>
    if d.digits ≠ 0 ∧ d.digits % 10 = 0 then strip bound ⟨d.digits / 10, d.exponent + 1⟩ else d

/-- The shortest decimal that reads back as the positive double with this pattern. -/
def shortest (bits : UInt64) : Decimal :=
  let r := Rounding.ofBits bits
  (r.search r.leadingPlace 17).strip 17

end Decimal

end HostBindings
