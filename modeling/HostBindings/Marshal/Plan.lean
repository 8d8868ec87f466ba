import HostBindings.Interface
import HostBindings.Marshal.Wire

/-!
Plans: the decision how each value of a call crosses the boundary, made once for all languages.
-/

namespace HostBindings

inductive Site where
  | argument (name method : String)
  | result (method : String)
  deriving DecidableEq, Repr

def Site.label : Site → String
  | .argument name method => "argument `" ++ name ++ "` of `" ++ method ++ "`"
  | .result method => "return type of `" ++ method ++ "`"

inductive PlanError where
  /-- A callback as a value of a call that native code makes. -/
  | throughCallback (callback : String) (site : Option Site)
  | undeclared (callback : String)
  deriving DecidableEq, Repr

def PlanError.message : PlanError → String
  | .throughCallback callback site =>
    "unsupported shape: callback `" ++ callback ++ "` passed through another callback" ++
      (site.map fun s => " in " ++ s.label).getD ""
  | .undeclared callback => "unsupported shape: callback `" ++ callback ++ "` is not declared"

def PlanError.atSite (site : Site) : PlanError → PlanError
  | .throughCallback callback _ => .throughCallback callback (some site)
  | e => e

namespace Marshal

def elementWire : Element → WireType
  | .numeric n => .numeric n
  | .boolean => .numeric .int
  | .string => .str
  | .record _ => .str

def wireType (type : BoundaryType) (position : Position) : Except PlanError WireType :=
  match type with
  | .void => .ok .void
  | .single e => .ok (elementWire e)
  | .vec (.numeric .byte) => .ok .bytes
  | .vec _ => .ok .str
  | .callback name =>
    match position with
    | .argument => .ok (.model name)
    | .result => .ok .handle
    -- methods of callbacks neither take nor return callbacks
    | .callbackArgument => .error (.throughCallback name none)
    | .callbackResult => .error (.throughCallback name none)

def conversion (type : BoundaryType) (direction : Direction) : Conversion :=
  match type, direction with
  | .void, _ => .none
  | .single (.numeric _), _ => .cast
  | .single .boolean, .entry => .boolToWire
  | .single .boolean, .exit => .wireToBool
  | .single .string, .entry => .passThrough
  | .single .string, .exit => .copyString
  | .single (.record _), .entry => .jsonEncode
  | .single (.record _), .exit => .jsonDecode
  -- bytes cross as they are, all other lists as documents
  | .vec (.numeric .byte), .entry => .bytesToWire
  | .vec (.numeric .byte), .exit => .wireToBytes
  | .vec _, .entry => .jsonEncode
  | .vec _, .exit => .jsonDecode
  | .callback name, .entry => .registerCallback name
  | .callback name, .exit => .wrapProxy name

def isBuffer (ownership : Ownership) (wire : WireType) : Bool :=
  ownership == .nativeFreed && (wire == .str || wire == .bytes)

def plan (ownership : Ownership) (type : BoundaryType) (position : Position) :
    Except PlanError Crossing :=
  match wireType type position with
  | .error e => .error e
  | .ok wire =>
    .ok
      { type
        wire
        position
        conversion := conversion type position.direction
        -- what native code returns is released here, what a callback returns is released there
        freesBuffer := isBuffer ownership wire && position == .result
        transfersOwnership := isBuffer ownership wire && position == .callbackResult }

end Marshal

structure ArgPlan where
  slot : Slot
  crossing : Crossing
  deriving DecidableEq, Repr

/-- The decisions for a whole call. Arguments without a value have none. -/
structure CallPlan where
  method : Method
  args : List ArgPlan
  result : Crossing
  deriving DecidableEq, Repr

namespace CallPlan

def registered (p : CallPlan) : List String :=
  p.args.filterMap fun a =>
    match a.crossing.conversion with
    | .registerCallback name => some name
    | _ => none

end CallPlan

namespace Marshal

def planArg (ownership : Ownership) (position : Position) (m : Method) (slot : Slot) :
    Except PlanError ArgPlan :=
  match plan ownership slot.type position with
  | .ok crossing => .ok ⟨slot, crossing⟩
  | .error e => .error (e.atSite (.argument slot.name m.name))

def planMethod (ownership : Ownership) (argPosition resultPosition : Position) (m : Method) :
    Except PlanError CallPlan :=
  match m.passed.mapM (planArg ownership argPosition m) with
  | .error e => .error e
  | .ok args =>
    match plan ownership m.returns resultPosition with
    | .ok crossing => .ok ⟨m, args, crossing⟩
    | .error e => .error (e.atSite (.result m.name))

def nativeCall (ownership : Ownership) (m : Method) : Except PlanError CallPlan :=
  planMethod ownership .argument .result m

def trampoline (ownership : Ownership) (m : Method) : Except PlanError CallPlan :=
  planMethod ownership .callbackArgument .callbackResult m

end Marshal

end HostBindings
