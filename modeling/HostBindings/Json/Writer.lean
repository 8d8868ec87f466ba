import HostBindings.Decimal.Shortest
import HostBindings.Json.Value

/-!
Compact text of JSON values: no white space, fields in their order. A double is written with the
fewest digits that read back, positionally from `0.00001` up to sixteen places before the point,
and always with a point or an exponent; the exponent has a sign.
-/

namespace HostBindings.Json

def natChars (n : Nat) : List Char :=
  Nat.toDigits 10 n

def intText (n : Int) : String :=
  if n < 0 then "-" ++ String.ofList (natChars n.natAbs) else String.ofList (natChars n.natAbs)

/-- A decimal, positional or with an exponent by the place of its leading digit. -/
def decimalChars (d : Decimal) : List Char :=
  let digits := natChars d.digits
  let point : Int := digits.length + d.exponent
  -- the point behind the digits, among them, before them with zeros between, or an exponent
  if 0 ≤ d.exponent && point ≤ 16 then
    digits ++ List.replicate d.exponent.toNat '0' ++ ['.', '0']
  else if 0 < point && point ≤ 16 then
    digits.take point.toNat ++ '.' :: digits.drop point.toNat
  else if -5 < point && point ≤ 0 then
    '0' :: '.' :: List.replicate point.natAbs '0' ++ digits
  else
    let sign := if point ≤ 0 then '-' else '+'
    let exponent := 'e' :: sign :: natChars (point - 1).natAbs
    match digits with
    | [c] => c :: exponent
    | c :: cs => c :: '.' :: cs ++ exponent
    | [] => exponent

/-- A finite double in decimal; the other doubles have no numeral and are written `null`. -/
def doubleText (x : Float) : String :=
  if x.isNaN || x.isInf then "null"
  else
    let bits := x.toBits
    let sign := if bits.toNat ≥ Nat.pow 2 63 then "-" else ""
    if bits.toNat % Nat.pow 2 63 = 0 then sign ++ "0.0"
    else sign ++ String.ofList (decimalChars (Decimal.shortest bits))

def Number.text : Number → String
  | .int n => intText n
  | .double x => doubleText x

def hexChar (n : Nat) : Char :=
  Nat.digitChar n

def escapeChar (c : Char) : List Char :=
  if c = '"' then ['\\', '"']
  else if c = '\\' then ['\\', '\\']
  else if c = '\x08' then ['\\', 'b']
  else if c = '\x0c' then ['\\', 'f']
  else if c = '\n' then ['\\', 'n']
  else if c = '\r' then ['\\', 'r']
  else if c = '\t' then ['\\', 't']
  else if c.toNat < 0x20 then
    ['\\', 'u', '0', '0', hexChar (c.toNat / 16), hexChar (c.toNat % 16)]
  else [c]

def quote (s : String) : String :=
  String.ofList ('"' :: s.toList.flatMap escapeChar ++ ['"'])

namespace Value

mutual

def write : Value → String
  | .null => "null"
  | .bool b => if b then "true" else "false"
  | .number n => n.text
  | .text s => quote s
  | .list items => "[" ++ String.intercalate "," (itemTexts items) ++ "]"
  | .record fields => "\x7b" ++ String.intercalate "," (fieldTexts fields) ++ "\x7d"

def itemTexts : List Value → List String
  | [] => []
  | v :: vs => write v :: itemTexts vs

def fieldTexts : List (String × Value) → List String
  | [] => []
  | (key, v) :: fields => (quote key ++ ":" ++ write v) :: fieldTexts fields

end

end Value

end HostBindings.Json
