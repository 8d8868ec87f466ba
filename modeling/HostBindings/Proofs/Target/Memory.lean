import HostBindings.Proofs.Marshal
import HostBindings.Proofs.Target.Convert

/-!
Raw memory in Swift code: which buffers statements make and release, and what each conversion does
with the buffer of its input or output, by the position of the value.
-/

namespace HostBindings

open HostBindings.Code

/-! ### Operations on memory -/

inductive MemoryOp where
  /-- Makes a buffer as long as a host array. -/
  | allocate (buffer source : String)
  /-- Makes a buffer with a copy of a text. -/
  | duplicate (buffer : String)
  /-- Frees a buffer when the function ends. -/
  | freeLater (buffer : String)
  /-- Passes a buffer to a native function that releases it. -/
  | release (function buffer : String)
  deriving DecidableEq, Repr

namespace MemoryOp

def makes : MemoryOp → Bool
  | .allocate _ _ => true
  | .duplicate _ => true
  | _ => false

def defers : MemoryOp → Bool
  | .freeLater _ => true
  | _ => false

def frees (x : String) : MemoryOp → Bool
  | .freeLater buffer => buffer == x
  | .release _ buffer => buffer == x
  | _ => false

end MemoryOp

def WireType.bufferOps (text bytes : MemoryOp) : WireType → List MemoryOp
  | .str => [text]
  | .bytes => [bytes]
  | _ => []

namespace WireType

variable {wire : WireType} {text bytes op : MemoryOp}

theorem eq_or_eq_of_mem_bufferOps (h : op ∈ wire.bufferOps text bytes) :
    op = text ∨ op = bytes := by
  cases wire with
  | str => exact Or.inl (List.mem_singleton.mp h)
  | bytes => exact Or.inr (List.mem_singleton.mp h)
  | _ => exact absurd h List.not_mem_nil

theorem bufferOps_eq_nil (htext : wire ≠ .str) (hbytes : wire ≠ .bytes) :
    wire.bufferOps text bytes = [] := by
  cases wire with
  | str => exact absurd rfl htext
  | bytes => exact absurd rfl hbytes
  | _ => rfl

theorem filter_bufferOps {keep : MemoryOp → Bool} (htext : keep text = false)
    (hbytes : keep bytes = false) : (wire.bufferOps text bytes).filter keep = [] := by
  rw [List.filter_eq_nil_iff]
  intro op hop
  rcases eq_or_eq_of_mem_bufferOps hop with rfl | rfl
  · exact ne_true_of_eq_false htext
  · exact ne_true_of_eq_false hbytes

end WireType

def releaseFunctions : List String :=
  [Bridge.releaseTextSymbol, Bridge.releaseBytesSymbol]

namespace Code

/-- What an expression does to memory; `target` is where its value goes. A call counts by the name
of the function as it is written, whatever symbol it stands for. -/
def Expr.memoryOps (target : String) : Expr → List MemoryOp
  | .duplicate e => e.memoryOps "_" ++ [.duplicate target]
  | .allocate x => [.allocate target x]
  | .native scope symbol args =>
    if Swift.symbolName scope symbol ∈ releaseFunctions then
      args.map (.release (Swift.symbolName scope symbol))
    else []
  | _ => []

def Stmt.memoryOps : Stmt → List MemoryOp
  | .bind x value => value.memoryOps x
  | .deferRelease buffer => [.freeLater buffer]
  | .run value => value.memoryOps "_"
  | _ => []

def memoryOps (body : List Stmt) : List MemoryOp :=
  body.flatMap Stmt.memoryOps

@[simp] theorem memoryOps_nil : memoryOps [] = [] :=
  rfl

@[simp] theorem memoryOps_cons (st : Stmt) (body : List Stmt) :
    memoryOps (st :: body) = st.memoryOps ++ memoryOps body :=
  List.flatMap_cons

@[simp] theorem memoryOps_append (a b : List Stmt) :
    memoryOps (a ++ b) = memoryOps a ++ memoryOps b :=
  List.flatMap_append

end Code

def Code.Stmt.mentions (st : Stmt) : List String :=
  st.reads ++ st.binds

/-- A buffer is released once, by this function: right after its content has been copied, and no
later statement mentions it. -/
def ReleasedOnce (function x : String) (body : List Stmt) : Prop :=
  ∃ before copy scope symbol after,
    body = before ++ copy :: .run (.native scope symbol [x]) :: after ∧
    (copy.value? = some (.copyText x) ∨ copy.value? = some (.copyBytes x)) ∧
    Swift.symbolName scope symbol = function ∧
    (∀ op ∈ memoryOps (before ++ copy :: after), op.frees x = false) ∧
    ∀ st ∈ after, x ∉ st.mentions

/-- Statements around do not matter if those before leave the buffer and those behind do not
mention it. -/
theorem ReleasedOnce.frame {function x : String} {b before after : List Stmt}
    (h : ReleasedOnce function x b) (hbefore : ∀ op ∈ memoryOps before, op.frees x = false)
    (hafter : ∀ st ∈ after, st.memoryOps = [] ∧ x ∉ st.mentions) :
    ReleasedOnce function x (before ++ (b ++ after)) := by
  obtain ⟨pre, copy, scope, symbol, post, rfl, hcopy, hfun, hfrees, hpost⟩ := h
  refine ⟨before ++ pre, copy, scope, symbol, post ++ after, by simp, hcopy, hfun, ?_, ?_⟩
  · have hnone : memoryOps after = [] :=
      List.flatMap_eq_nil_iff.mpr fun st hst => (hafter st hst).1
    intro op hop
    rw [List.append_assoc, memoryOps_append, List.mem_append] at hop
    rcases hop with hop | hop
    · exact hbefore op hop
    · apply hfrees op
      simpa [hnone] using hop
  · intro st hst
    exact (List.mem_append.mp hst).elim (hpost st) fun h => (hafter st h).2

/-! ### Conversions -/

variable {ctx : Context} {x : Crossing} {input output : String} {b : List Stmt}

def Crossing.memoryOps (x : Crossing) (input output : String) : List MemoryOp :=
  match x.conversion with
  | .passThrough => if x.transfersOwnership then [.duplicate output] else []
  | .jsonEncode => if x.transfersOwnership then [.duplicate output] else []
  | .bytesToWire =>
    .allocate (output ++ "_buf") input ::
      if x.transfersOwnership then [] else [.freeLater (output ++ "_buf")]
  | .copyString => if x.freesBuffer then [.release Bridge.releaseTextSymbol input] else []
  | .jsonDecode => if x.freesBuffer then [.release Bridge.releaseTextSymbol input] else []
  | .wireToBytes => if x.freesBuffer then [.release Bridge.releaseBytesSymbol input] else []
  | _ => []

namespace Swift

theorem memoryOps_release (symbol : Symbol) (y : String)
    (h : symbolName ctx.scope symbol ∈ releaseFunctions) :
    memoryOps (release ctx x symbol y) =
      if x.freesBuffer then [.release (symbolName ctx.scope symbol) y] else [] := by
  unfold release
  split <;> simp [Stmt.memoryOps, Expr.memoryOps, h]

theorem memoryOps_releaseText (y : String) :
    memoryOps (release ctx x .releaseText y) =
      if x.freesBuffer then [.release Bridge.releaseTextSymbol y] else [] :=
  memoryOps_release .releaseText y List.mem_cons_self

theorem memoryOps_releaseBytes (y : String) :
    memoryOps (release ctx x .releaseBytes y) =
      if x.freesBuffer then [.release Bridge.releaseBytesSymbol y] else [] :=
  memoryOps_release .releaseBytes y (List.mem_cons_of_mem _ List.mem_cons_self)

theorem memoryOps_owned {e : Expr} (h : e.memoryOps "_" = []) :
    memoryOps [.bind output (owned x e)] =
      if x.transfersOwnership then [.duplicate output] else e.memoryOps output := by
  unfold owned
  split <;> simp [Stmt.memoryOps, Expr.memoryOps, h]

theorem memoryOps_convert (h : convert ctx x input output = .ok b) :
    memoryOps b = x.memoryOps input output := by
  unfold Crossing.memoryOps
  cases convert_cases h with
  | passThrough hk | jsonEncode hk =>
    -- a text that is handed over is duplicated
    rw [hk]
    exact memoryOps_owned rfl
  | jsonDecode hk | copyString hk | wireToBytes hk =>
    -- copies, after which a buffer may be released
    rw [hk]
    simp [Stmt.memoryOps, Expr.memoryOps, memoryOps_releaseText, memoryOps_releaseBytes]
  | bytesGiven hk ho | bytesLent hk ho =>
    rw [hk]
    simp [Stmt.memoryOps, Expr.memoryOps, ho]
  | _ hk =>
    rw [hk]
    rfl

end Swift

/-! ### Positions -/

section Positions

variable {t : BoundaryType}

/-- An argument of native code gets a buffer if it is a list of bytes, until the call is over. -/
theorem memoryOps_argument (h : Marshal.plan .nativeFreed t .argument = .ok x) :
    x.memoryOps input output =
      if t = .vec (.numeric .byte) then
        [.allocate (output ++ "_buf") input, .freeLater (output ++ "_buf")]
      else [] := by
  cases t with
  | void => cases h; rfl
  | single e => cases e <;> cases h <;> rfl
  | vec e =>
    cases e with
    | numeric n => cases n <;> cases h <;> rfl
    | _ => cases h; rfl
  | callback name => cases h; rfl

/-- What a callback receives is not released. -/
theorem memoryOps_callbackArgument (h : Marshal.plan .nativeFreed t .callbackArgument = .ok x) :
    x.memoryOps input output = [] := by
  cases t with
  | void => cases h; rfl
  | single e => cases e <;> cases h <;> rfl
  | vec e =>
    cases e with
    | numeric n => cases n <;> cases h <;> rfl
    | _ => cases h; rfl
  | callback name => cases h

/-- What native code returns is released if it is a text or bytes. -/
theorem memoryOps_result (h : Marshal.plan .nativeFreed t .result = .ok x) :
    x.memoryOps input output =
      x.wire.bufferOps (.release Bridge.releaseTextSymbol input)
        (.release Bridge.releaseBytesSymbol input) := by
  cases t with
  | void => cases h; rfl
  | single e => cases e <;> cases h <;> rfl
  | vec e =>
    cases e with
    | numeric n => cases n <;> cases h <;> rfl
    | _ => cases h; rfl
  | callback name => cases h; rfl

/-- The release of what native code returns follows its copy. -/
theorem releasedOnce_result (h : Marshal.plan .nativeFreed t .result = .ok x)
    (hb : Swift.convert ctx x input output = .ok b) (hout : input ≠ output)
    (hjson : input ≠ output ++ "_json") :
    (x.wire = .str → ReleasedOnce Bridge.releaseTextSymbol input b) ∧
      (x.wire = .bytes → ReleasedOnce Bridge.releaseBytesSymbol input b) := by
  obtain ⟨wire, hwire, rfl⟩ := Marshal.plan_eq_ok.mp h
  unfold Swift.convert Swift.release at hb
  constructor
  · rintro rfl
    -- a decoded value is copied into a text of its own first
    rcases Marshal.conversion_text hwire with hk | hk
    · simp only [Position.direction, hk] at hb
      cases hb
      exact ⟨[], _, _, _, [], rfl, Or.inl rfl, rfl, by simp [Stmt.memoryOps, Expr.memoryOps],
        by simp⟩
    · simp only [Position.direction, hk] at hb
      cases hb
      exact ⟨[], _, _, _, [_], rfl, Or.inl rfl, rfl, by simp [Stmt.memoryOps, Expr.memoryOps], by
        simp [Stmt.mentions, Stmt.reads, Expr.reads, Stmt.binds, hout, hjson]⟩
  · rintro rfl
    have ht := Marshal.wireType_eq_bytes hwire
    subst ht
    cases hb
    exact ⟨[], _, _, _, [], rfl, Or.inr rfl, rfl, by simp [Stmt.memoryOps, Expr.memoryOps],
      by simp⟩

/-- What a callback returns is handed over in a fresh buffer if it is a text or bytes. -/
theorem memoryOps_callbackResult (h : Marshal.plan .nativeFreed t .callbackResult = .ok x) :
    x.memoryOps input output =
      x.wire.bufferOps (.duplicate output) (.allocate (output ++ "_buf") input) := by
  cases t with
  | void => cases h; rfl
  | single e => cases e <;> cases h <;> rfl
  | vec e =>
    cases e with
    | numeric n => cases n <;> cases h <;> rfl
    | _ => cases h; rfl
  | callback name => cases h

/-- The bytes that a callback returns end up in its last statement, together with their length. -/
theorem convert_callbackResult (h : Marshal.plan .nativeFreed t .callbackResult = .ok x)
    (hb : Swift.convert ctx x input output = .ok b) (hw : x.wire = .bytes) :
    ∃ before, b = before ++ [.bind output (.wireBytes (output ++ "_buf") input)] := by
  have ht := Marshal.wireType_eq_bytes (hw ▸ Marshal.plan_wire h)
  have hconv : x.conversion = .bytesToWire := by
    rw [Marshal.plan_conversion h, ht]
    rfl
  unfold Swift.convert at hb
  rw [hconv] at hb
  cases hb
  exact ⟨_, rfl⟩

end Positions

/-! ### Kotlin -/

def Code.Expr.isRaw : Expr → Bool
  | .duplicate _ => true
  | .copyText _ => true
  | .allocate _ => true
  | .copyBytes _ => true
  | .wireBytes _ _ => true
  | .native _ symbol _ => symbol == .releaseText || symbol == .releaseBytes
  | _ => false

def Code.Stmt.isRaw : Stmt → Bool
  | .bind _ value => value.isRaw
  | .fill _ _ => true
  | .deferRelease _ => true
  | .run value => value.isRaw
  | _ => false

theorem Kotlin.isRaw_convert : ∀ st ∈ Kotlin.convert x input output, st.isRaw = false := by
  generalize h : Kotlin.convert x input output = b
  cases Kotlin.convert_cases h <;> simp [Stmt.isRaw, Expr.isRaw]

end HostBindings
