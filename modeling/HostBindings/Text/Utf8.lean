/-!
UTF-8. Octets are read as text if they are the encoding of some text; if not, the fault names the
first character that is broken: the octet at which it starts, and how many octets from there on
cannot belong to any text.
-/

namespace HostBindings.Text

namespace Utf8

structure Fault where
  index : Nat
  /-- How many octets are wrong; nothing if the octets end inside a character. -/
  length : Option Nat
  deriving DecidableEq, Repr

def Fault.message (f : Fault) : String :=
  match f.length with
  | some n => "invalid utf-8 sequence of " ++ toString n ++ " bytes from index " ++ toString f.index
  | none => "incomplete utf-8 byte sequence from index " ++ toString f.index

structure Bounds where
  least : UInt8
  greatest : UInt8
  deriving DecidableEq, Repr

def Bounds.tail : Bounds := ⟨0x80, 0xBF⟩

def Bounds.admits (b : Bounds) (octet : UInt8) : Bool :=
  b.least ≤ octet && octet ≤ b.greatest

/-- The octets that have to follow the first octet of a character; nothing if no character starts
with it. The bounds of the second octet leave out overlong forms, surrogates and code points beyond
the last one. -/
def owed? (first : UInt8) : Option (List Bounds) :=
  if first < 0x80 then some []
  else if first < 0xC2 then none
  else if first < 0xE0 then some [.tail]
  else if first = 0xE0 then some [⟨0xA0, 0xBF⟩, .tail]
  else if first = 0xED then some [⟨0x80, 0x9F⟩, .tail]
  else if first < 0xF0 then some [.tail, .tail]
  else if first = 0xF0 then some [⟨0x90, 0xBF⟩, .tail, .tail]
  else if first < 0xF4 then some [.tail, .tail, .tail]
  else if first = 0xF4 then some [⟨0x80, 0x8F⟩, .tail, .tail]
  else none

/-- Looks for a fault in a character of which `good` octets, from `start` on, are read and the
given ones are owed, and then in what follows. -/
def faultFrom (start good : Nat) : List Bounds → List UInt8 → Fault
  | _, [] => ⟨start, none⟩
  | b :: owed, octet :: octets =>
    if b.admits octet then faultFrom start (good + 1) owed octets else ⟨start, some good⟩
  | [], octet :: octets =>
    match owed? octet with
    | some owed => faultFrom (start + good) 1 owed octets
    | none => ⟨start + good, some 1⟩

def fault (octets : List UInt8) : Fault :=
  faultFrom 0 0 [] octets

end Utf8

def encodeUtf8 (s : String) : List UInt8 :=
  s.toUTF8.data.toList

def decodeUtf8 (octets : List UInt8) : Except Utf8.Fault String :=
  match String.fromUTF8? ⟨octets.toArray⟩ with
  | some s => .ok s
  | none => .error (Utf8.fault octets)

end HostBindings.Text
