import HostBindings.Boundary

/-!
How a value is represented on the boundary and how it is converted there.

| type                   | wire    | host to wire  | wire to host  |
|------------------------|---------|---------------|---------------|
| `Boolean`              | integer | as integer    | as truth      |
| numbers                | same    | cast          | cast          |
| `String`               | text    | as it is      | copied        |
| list of bytes          | bytes   | into a buffer | copied        |
| other lists, records   | text    | encoded       | decoded       |
| callback, argument     | model   | registered    | not supported |
| callback, result       | handle  | not supported | wrapped       |
-/

namespace HostBindings

inductive WireType where
  | void
  | numeric (n : Numeric)
  /-- Text that ends at a zero byte, or a text object of the host. -/
  | str
  /-- Address and length of bytes, or an array object of the host. -/
  | bytes
  /-- A callback object that native code owns. -/
  | handle
  /-- The functions that make up a registered callback of the named interface. -/
  | model (callback : String)
  deriving DecidableEq, Repr

inductive Conversion where
  | none
  | passThrough
  | cast
  | boolToWire
  | wireToBool
  | jsonEncode
  | jsonDecode
  | copyString
  | bytesToWire
  | wireToBytes
  | registerCallback (callback : String)
  | wrapProxy (callback : String)
  deriving DecidableEq, Repr

/-- Which way a value is converted: from host to wire on entry, back on exit. -/
inductive Direction where
  | entry
  | exit
  deriving DecidableEq, Repr

/-- Where a value stands: in a call from the host into native code, or in a call by native code
of a host callback. -/
inductive Position where
  | argument
  | result
  | callbackArgument
  | callbackResult
  deriving DecidableEq, Repr

def Position.direction : Position → Direction
  | .argument => .entry
  | .callbackResult => .entry
  | .result => .exit
  | .callbackArgument => .exit

inductive Ownership where
  /-- They are raw memory, and the receiver of a result releases it. -/
  | nativeFreed
  /-- They are objects of the host, which nobody releases by hand. -/
  | managed
  deriving DecidableEq, Repr

structure Crossing where
  type : BoundaryType
  wire : WireType
  position : Position
  conversion : Conversion
  /-- The converted value is a copy, and the native buffer has to be released. -/
  freesBuffer : Bool
  /-- Native code gets a buffer that it will release itself. -/
  transfersOwnership : Bool
  deriving DecidableEq, Repr

namespace Crossing

def direction (c : Crossing) : Direction :=
  c.position.direction

def isVoid (c : Crossing) : Bool :=
  c.wire == .void

end Crossing

end HostBindings
