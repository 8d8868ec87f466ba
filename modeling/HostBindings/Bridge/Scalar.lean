/-!
Scalars: values that cross the boundary as machine words. A truth value crosses as one or zero, and
a positive word comes back as true; numbers cross as they are, doubles and singles by their bits.
-/

namespace HostBindings.Bridge

class Scalar (α : Type) (ω : outParam Type) where
  toWire : α → ω
  ofWire : ω → α

/-- A number of single precision, by its bits. -/
structure Single where
  bits : UInt32
  deriving DecidableEq, Repr

structure Double where
  bits : UInt64
  deriving DecidableEq, Repr

instance : Scalar Bool Int32 where
  toWire b := if b then 1 else 0
  ofWire w := decide (0 < w)

instance : Scalar Int8 Int8 := ⟨id, id⟩

instance : Scalar Int16 Int16 := ⟨id, id⟩

instance : Scalar Int32 Int32 := ⟨id, id⟩

instance : Scalar Int64 Int64 := ⟨id, id⟩

instance : Scalar Single Single := ⟨id, id⟩

instance : Scalar Double Double := ⟨id, id⟩

end HostBindings.Bridge
