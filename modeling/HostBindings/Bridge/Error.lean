import HostBindings.Text.Utf8

/-!
Faults of calls across the boundary.
-/

namespace HostBindings.Bridge

inductive TextFault where
  /-- The text holds the character that ends a string, at this octet. -/
  | terminator (index : Nat)
  | noBuffer
  | notUtf8 (fault : Text.Utf8.Fault)
  | other (reason : String)
  deriving DecidableEq, Repr

def TextFault.message : TextFault → String
  | .terminator index => "nul byte found in provided data at position: " ++ toString index
  | .noBuffer => "null pointer"
  | .notUtf8 fault => fault.message
  | .other reason => reason

inductive Error where
  | unknownHandle (handle : UInt64)
  | notJson
  | invalidText (fault : TextFault)
  /-- More octets than the length of a buffer can say. -/
  | tooLarge (octets : Nat)
  deriving DecidableEq, Repr

def Error.message (json : String) : Error → String
  | .unknownHandle handle => "callback handle " ++ toString handle ++ " is not registered"
  | .notJson => "JSON error: " ++ json
  | .invalidText fault => "invalid string: " ++ fault.message
  | .tooLarge octets =>
    "byte buffer of " ++ toString octets ++ " bytes does not fit the wire length"

end HostBindings.Bridge
