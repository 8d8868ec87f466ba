/-!
Numerals of JSON texts: their grammar, and the number each one denotes.

A numeral without fraction and exponent that fits a signed or unsigned 64-bit integer denotes that
integer. Every other one denotes a double: the leading digits that fit 64 bits form the significand,
later digits only shift the exponent, and one power of ten scales the result. A numeral whose scaled
value overflows denotes nothing.
-/

namespace HostBindings.Json

/-- A numeral as written: `-12.50e+3` has the digits `12`, `50` and `3`. -/
structure Numeral where
  negative : Bool
  whole : List Char
  fraction : Option (List Char)
  /-- The exponent's digits, with whether a minus sign stands before them. -/
  exponent : Option (Bool × List Char)

/-- A number: an integer of at most 64 bits, or a double. -/
inductive Number where
  | int (n : Int)
  | double (x : Float)
  deriving Inhabited

namespace Numeral

def exponentOfChars? : List Char → Option (Option (Bool × List Char))
  | [] => some none
  | e :: rest =>
    if e != 'e' && e != 'E' then none
    else
      let (negative, digits) :=
        match rest with
        | '+' :: ds => (false, ds)
        | '-' :: ds => (true, ds)
        | ds => (false, ds)
      if digits.isEmpty || !digits.all Char.isDigit then none else some (some (negative, digits))

def fractionOfChars? : List Char → Option (Option (List Char) × Option (Bool × List Char))
  | '.' :: rest =>
    let digits := rest.takeWhile Char.isDigit
    if digits.isEmpty then none
    else (exponentOfChars? (rest.dropWhile Char.isDigit)).map (some digits, ·)
  | rest => (exponentOfChars? rest).map (none, ·)

/-- Reads a numeral: no leading zero, and digits on both sides of a point. -/
def ofChars? (word : List Char) : Option Numeral :=
  let (negative, rest) :=
    match word with
    | '-' :: rest => (true, rest)
    | rest => (false, rest)
  let whole := rest.takeWhile Char.isDigit
  let leadingZero := whole.length > 1 && whole.head? == some '0'
  if whole.isEmpty || leadingZero then none
  else
    (fractionOfChars? (rest.dropWhile Char.isDigit)).map fun (fraction, exponent) =>
      { negative, whole, fraction, exponent }

structure Significand where
  value : Nat
  /-- The digits that no longer fit. -/
  excess : List Char

/-- Appends digits to a significand as long as the result stays at most `limit`. -/
def gather (limit : Nat) (value : Nat) : List Char → Significand
  | [] => ⟨value, []⟩
  | c :: cs =>
    let next := value * 10 + (c.toNat - '0'.toNat)
    if next > limit then ⟨value, c :: cs⟩ else gather limit next cs

def wordMax : Nat := UInt64.size - 1

def exponentMax : Nat := 0x7FFFFFFF

def clampExponent (e : Int) : Int :=
  max (-(exponentMax : Int) - 1) (min e exponentMax)

def tenPow (n : Nat) : Float :=
  Float.ofScientific 1 false n

/-- Scales a double by a power of ten, in steps of at most 308 places; nothing on overflow.
The first argument bounds the steps: six steps reach zero from any double. -/
def scaleTen : Nat → Float → Int → Option Float
  | 0, x, _ => some x
  | steps + 1, x, e =>
    if e.natAbs ≤ 308 then
      if 0 ≤ e then
        let y := x * tenPow e.natAbs
        if y.isInf then none else some y
      else some (x / tenPow e.natAbs)
    -- zero needs no further steps, and a step up from anything else is beyond all doubles
    else if x == 0.0 then some x
    else if 0 ≤ e then none
    else scaleTen steps (x / tenPow 308) (e + 308)

def scaled (negative : Bool) (significand : Nat) (e : Int) : Option Number :=
  (scaleTen 6 significand.toUInt64.toFloat e).map fun x => .double (if negative then -x else x)

def number? (n : Numeral) : Option Number :=
  let whole := gather wordMax 0 n.whole
  let shift : Int := whole.excess.length
  let (significand, shift) :=
    match n.fraction with
    | none => (whole.value, shift)
    | some digits =>
      let all := gather wordMax whole.value digits
      (all.value, shift - (digits.length - all.excess.length))
  match n.exponent with
  | some (negativeExponent, digits) =>
    let e := gather exponentMax 0 digits
    if e.excess.isEmpty then
      let e : Int := if negativeExponent then -e.value else e.value
      scaled n.negative significand (clampExponent (shift + e))
    -- an exponent beyond 32 bits leaves an overflow or zero
    else if significand != 0 && !negativeExponent then none
    else some (.double (if n.negative then -0.0 else 0.0))
  | none =>
    if n.fraction.isSome || !whole.excess.isEmpty then scaled n.negative significand shift
    else if !n.negative then some (.int significand)
    -- zero with a minus sign has no integer, nor have numbers below the 64-bit range
    else if significand == 0 || significand > Nat.pow 2 63 then
      some (.double (-significand.toUInt64.toFloat))
    else some (.int (-significand))

end Numeral

end HostBindings.Json
