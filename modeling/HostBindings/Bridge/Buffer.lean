import HostBindings.Bridge.Error

/-!
Buffers: how texts and lists of octets cross the boundary. A text crosses as its UTF-8 octets with a
zero at the end, so it must not hold the character zero; a list of octets crosses with its length.
A buffer is what it holds; where it stands in memory is left aside.
-/

namespace HostBindings.Bridge

def releaseTextSymbol : String := "rsbind_free_str"

def releaseBytesSymbol : String := "rsbind_free_bytes"

/-! ### Texts -/

/-- Octets that a zero can end, since none of them is one. -/
structure WireText where
  octets : List UInt8
  zero_notMem : 0 ∉ octets
  deriving DecidableEq, Repr

namespace WireText

/-- Takes over a text; refused if it holds a zero, with the octet at which the first one stands. -/
def ofText (s : String) : Except Error WireText :=
  if h : 0 ∈ Text.encodeUtf8 s then
    .error (.invalidText (.terminator ((Text.encodeUtf8 s).idxOf 0)))
  else .ok ⟨Text.encodeUtf8 s, h⟩

/-- The text that the octets encode. Octets from outside need not encode one, and then it is
empty. -/
def text (w : WireText) : String :=
  match Text.decodeUtf8 w.octets with
  | .ok s => s
  | .error _ => ""

def buffer (w : WireText) : List UInt8 :=
  w.octets ++ [0]

/-- Reads a text out of a buffer, up to the first zero; `none` stands for no buffer. -/
def borrow : Option (List UInt8) → Except Error String
  | none => .error (.invalidText .noBuffer)
  | some octets =>
    (Text.decodeUtf8 (octets.takeWhile (· != 0))).mapError fun f => .invalidText (.notUtf8 f)

theorem zero_notMem_takeWhile (octets : List UInt8) : 0 ∉ octets.takeWhile (· != 0) :=
  fun h => absurd (List.all_eq_true.mp List.all_takeWhile 0 h) (by decide)

/-- Takes the octets before the first zero back from a buffer, whatever they encode; a buffer that
no zero ends was not handed out. -/
def ofBuffer? (octets : List UInt8) : Option WireText :=
  if 0 ∈ octets then some ⟨octets.takeWhile (· != 0), zero_notMem_takeWhile octets⟩ else none

end WireText

/-! ### Octets -/

/-- A buffer of octets with a length; without a buffer, or with a length that is not positive, it
holds nothing. -/
structure WireBytes where
  buffer : Option (List UInt8)
  length : Int32

namespace WireBytes

def maxLength : Nat := 0x7FFFFFFF

def ofOctets (octets : List UInt8) : Except Error WireBytes :=
  if octets.length > maxLength then .error (.tooLarge octets.length)
  else .ok ⟨some octets, .ofNat octets.length⟩

def octets (w : WireBytes) : List UInt8 :=
  match w.buffer with
  | some octets => octets.take w.length.toInt.toNat
  | none => []

end WireBytes

end HostBindings.Bridge
