import HostBindings.Text.Hex

/-!
Scalars of TOML texts: strings, integers, floats, truth values, and moments, which are dates, times
of day or both. Integers have at most 128 bits, and a float that overflows is refused.
-/

namespace HostBindings.Toml

inductive Scalar where
  | text (s : String)
  | int (n : Int)
  | float (x : Float)
  | bool (b : Bool)
  /-- A date, a time of day or both, as written. -/
  | moment (s : String)

namespace Scalar

/-! ### Digits -/

/-- Digits with single underscores between them, without the underscores. -/
def plainDigits? (isDigit : Char → Bool) : List Char → Option (List Char)
  | [] => none
  | [c] => if isDigit c then some [c] else none
  | c :: '_' :: cs => if isDigit c then (plainDigits? isDigit cs).map (c :: ·) else none
  | c :: cs => if isDigit c then (plainDigits? isDigit cs).map (c :: ·) else none

def wholeDigits? (cs : List Char) : Option (List Char) :=
  match plainDigits? Char.isDigit cs with
  | some ('0' :: _ :: _) => none
  | ds => ds

def natOfDigits (radix : Nat) (digits : List Char) : Nat :=
  digits.foldl (fun n c => n * radix + (Text.hexDigit? c).getD 0) 0

/-! ### Integers -/

/-- The radix that a letter behind a leading zero announces. -/
def radix? : Char → Option Nat
  | 'x' => some 16
  | 'o' => some 8
  | 'b' => some 2
  | _ => none

def bounded? (n : Int) : Option Scalar :=
  if -Nat.pow 2 127 ≤ n && n < Nat.pow 2 128 then some (.int n) else none

/-- An integer; only a decimal one may have a sign. -/
def int? : List Char → Option Scalar
  | '+' :: cs => (wholeDigits? cs).bind fun ds => bounded? (natOfDigits 10 ds)
  | '-' :: cs => (wholeDigits? cs).bind fun ds => bounded? (-natOfDigits 10 ds)
  | '0' :: c :: cs => do
    let radix ← radix? c
    let ds ← plainDigits? (fun c => (Text.hexDigit? c).any (· < radix)) cs
    bounded? (natOfDigits radix ds)
  | cs => (wholeDigits? cs).bind fun ds => bounded? (natOfDigits 10 ds)

/-! ### Floats -/

/-- The digits of a fraction, if a point follows, and what stands behind them. -/
def fraction? : List Char → Option (Option (List Char) × List Char)
  | '.' :: cs =>
    let isRun := fun (c : Char) => c.isDigit || c == '_'
    (plainDigits? Char.isDigit (cs.takeWhile isRun)).map fun ds => (some ds, cs.dropWhile isRun)
  | cs => some (none, cs)

def exponent? : List Char → Option (Option Int)
  | [] => some none
  | e :: cs =>
    if e != 'e' && e != 'E' then none
    else
      match cs with
      | '+' :: cs => (plainDigits? Char.isDigit cs).map fun ds => some (natOfDigits 10 ds)
      | '-' :: cs => (plainDigits? Char.isDigit cs).map fun ds => some (-natOfDigits 10 ds)
      | cs => (plainDigits? Char.isDigit cs).map fun ds => some (natOfDigits 10 ds)

/-- The double nearest to a decimal, unless that is infinite. Decimals whose leading place is far
beyond the doubles are not evaluated. -/
def nearest? (digits : List Char) (exponent : Int) : Option Float :=
  let significant := digits.dropWhile (· == '0')
  let place : Int := significant.length + exponent
  if significant.isEmpty || place < -400 then some 0.0
  else if place > 400 then none
  else
    let x := Float.ofScientific (natOfDigits 10 significant) (exponent < 0) exponent.natAbs
    if x.isInf then none else some x

/-- A float without sign: a fraction, an exponent or both are needed. -/
def magnitude? (cs : List Char) : Option Float :=
  match cs with
  | ['i', 'n', 'f'] => some (1.0 / 0.0)
  | ['n', 'a', 'n'] => some (0.0 / 0.0)
  | cs => do
    let isRun := fun (c : Char) => c.isDigit || c == '_'
    let whole ← wholeDigits? (cs.takeWhile isRun)
    let (fraction, rest) ← fraction? (cs.dropWhile isRun)
    let exponent ← exponent? rest
    if fraction.isNone && exponent.isNone then none
    else
      let places := fraction.getD []
      nearest? (whole ++ places) (exponent.getD 0 - places.length)

def float? : List Char → Option Scalar
  | '+' :: cs => (magnitude? cs).map .float
  | '-' :: cs => (magnitude? cs).map fun x => .float (-x)
  | cs => (magnitude? cs).map .float

/-! ### Moments -/

def isPair (least greatest : Nat) (a b : Char) : Bool :=
  let n := natOfDigits 10 [a, b]
  a.isDigit && b.isDigit && least ≤ n && n ≤ greatest

def isLeapYear (year : Nat) : Bool :=
  year % 4 == 0 && (year % 100 != 0 || year % 400 == 0)

def daysOf (year month : Nat) : Nat :=
  if month = 2 then if isLeapYear year then 29 else 28
  else if month = 4 || month = 6 || month = 9 || month = 11 then 30
  else 31

def afterDate? : List Char → Option (List Char)
  | a :: b :: c :: d :: '-' :: m :: n :: '-' :: p :: q :: rest =>
    let days := daysOf (natOfDigits 10 [a, b, c, d]) (natOfDigits 10 [m, n])
    if [a, b, c, d].all Char.isDigit && isPair 1 12 m n && isPair 1 days p q then some rest
    else none
  | _ => none

def afterFraction? : List Char → Option (List Char)
  | '.' :: c :: rest => if c.isDigit then some (rest.dropWhile Char.isDigit) else none
  | rest => some rest

/-- What stands behind a time of day; its seconds may be left out. -/
def afterTime? : List Char → Option (List Char)
  | h :: i :: ':' :: m :: n :: ':' :: s :: t :: rest =>
    if isPair 0 23 h i && isPair 0 59 m n && isPair 0 60 s t then afterFraction? rest else none
  | h :: i :: ':' :: m :: n :: rest => if isPair 0 23 h i && isPair 0 59 m n then some rest else none
  | _ => none

def isOffset : List Char → Bool
  | [] => true
  | ['Z'] => true
  | ['z'] => true
  | [sign, h, i, ':', m, n] => (sign == '+' || sign == '-') && isPair 0 23 h i && isPair 0 59 m n
  | _ => false

def isMoment (cs : List Char) : Bool :=
  match afterDate? cs with
  | some [] => true
  | some (t :: rest) => (t == 'T' || t == 't' || t == ' ') && (afterTime? rest).any isOffset
  | none => afterTime? cs == some []

def ofChars? (cs : List Char) : Option Scalar :=
  if cs = ['t', 'r', 'u', 'e'] then some (.bool true)
  else if cs = ['f', 'a', 'l', 's', 'e'] then some (.bool false)
  else if isMoment cs then some (.moment (String.ofList cs))
  else
    match int? cs with
    | some s => some s
    | none => float? cs

end Scalar

end HostBindings.Toml
