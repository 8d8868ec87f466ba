import HostBindings.Proofs.Generate.Locals
import HostBindings.Proofs.Target.Memory

/-!
Ownership of native buffers in generated bodies. What native code returns is released once, right
after it has been copied; buffers for arguments are freed when the call is over; a callback frees
nothing that it receives and hands its result over in one fresh buffer. In Kotlin no code deals
with raw memory.
-/

namespace HostBindings.Generate

open HostBindings.Code

variable {ctx : Context} {p : CallPlan} {m : Method}

/-! ### Arguments -/

def byteArgs (m : Method) : List Slot :=
  m.passed.filter fun s => s.type == .vec (.numeric .byte)

def argBuffer (s : Slot) : String :=
  argLocal "w" s.name ++ "_buf"

def argOps (s : Slot) : List MemoryOp :=
  if s.type = .vec (.numeric .byte) then
    [.allocate (argBuffer s) (Lang.swift.hostName s.name), .freeLater (argBuffer s)]
  else []

theorem memoryOps_argBlocks {slotLocal : ArgPlan → String} {args : List ArgPlan}
    {blocks : List (List Stmt)} (ops : ArgPlan → List MemoryOp)
    (h : ArgBlocks .swift ctx slotLocal args blocks)
    (hops : ∀ q ∈ args,
      q.crossing.memoryOps (Lang.swift.hostName q.slot.name) (slotLocal q) = ops q) :
    memoryOps blocks.flatten = args.flatMap ops := by
  -- blocks are converted one after another, so their operations follow each other
  induction h with
  | nil => rfl
  | @cons q b args blocks hb _ ih =>
    rw [List.flatten_cons, memoryOps_append, ih fun q' hq' => hops q' (List.mem_cons_of_mem q hq'),
      Swift.memoryOps_convert hb, hops q List.mem_cons_self, List.flatMap_cons]

theorem memoryOps_callArgs {blocks : List (List Stmt)}
    (hplan : Marshal.nativeCall .nativeFreed m = .ok p)
    (h : ArgBlocks .swift ctx wireLocal p.args blocks) :
    memoryOps blocks.flatten = m.passed.flatMap argOps := by
  rw [← Marshal.planMethod_slots hplan, List.flatMap_map]
  apply memoryOps_argBlocks _ h
  intro q hq
  exact memoryOps_argument (Marshal.planMethod_arg hplan hq).2

theorem memoryOps_trampolineArgs {blocks : List (List Stmt)}
    (hplan : Marshal.trampoline .nativeFreed m = .ok p)
    (h : ArgBlocks .swift ctx hostLocal p.args blocks) : memoryOps blocks.flatten = [] := by
  have hops := memoryOps_argBlocks (fun _ => []) h fun q hq =>
    memoryOps_callbackArgument (Marshal.planMethod_arg hplan hq).2
  rw [hops, List.flatMap_eq_nil_iff]
  exact fun _ _ => rfl

theorem filter_argOps {keep : MemoryOp → Bool} {op : Slot → MemoryOp}
    (h : ∀ s, [MemoryOp.allocate (argBuffer s) (Lang.swift.hostName s.name),
      .freeLater (argBuffer s)].filter keep = [op s]) :
    (m.passed.flatMap argOps).filter keep = (byteArgs m).map op := by
  unfold byteArgs
  induction m.passed with
  | nil => rfl
  | cons s slots ih =>
    rw [List.flatMap_cons, List.filter_append, ih, List.filter_cons, argOps]
    split
    · rename_i ht
      rw [h, if_pos (beq_iff_eq.mpr ht)]
      rfl
    · rename_i ht
      rw [if_neg (by simpa using ht)]
      rfl

/-! ### Calls into native code -/

/-- What a call of a method into native code does with buffers. -/
structure CallBuffers (m : Method) (body : List Stmt) : Prop where
  text : Marshal.wireType m.returns .result = .ok .str →
    ReleasedOnce Bridge.releaseTextSymbol "native_ret" body
  bytes : Marshal.wireType m.returns .result = .ok .bytes →
    ReleasedOnce Bridge.releaseBytesSymbol "native_ret" body
  /-- Nothing else that native code returns is released. -/
  other : Marshal.wireType m.returns .result ≠ .ok .str →
    Marshal.wireType m.returns .result ≠ .ok .bytes →
      ∀ op ∈ memoryOps body, op.frees "native_ret" = false
  /-- Each list of bytes gets one buffer, and no other buffer is made. -/
  made : (memoryOps body).filter (·.makes) =
    (byteArgs m).map fun s => .allocate (argBuffer s) (Lang.swift.hostName s.name)
  /-- Each of these buffers, and no other, is freed when the function ends. -/
  deferred : (memoryOps body).filter (·.defers) =
    (byteArgs m).map fun s => .freeLater (argBuffer s)
  distinct : ((byteArgs m).map argBuffer).Nodup

theorem argBuffers_nodup (hnames : (m.passed.map fun s => Lang.swift.hostName s.name).Nodup) :
    ((byteArgs m).map argBuffer).Nodup := by
  -- buffers are named like the arguments, whose host names differ
  have hsub := (List.filter_sublist (p := fun s : Slot => s.type == .vec (.numeric .byte))
    (l := m.passed)).map fun s => Lang.swift.hostName s.name
  apply List.pairwise_map.mpr
  apply (List.pairwise_map.mp (hsub.nodup hnames)).imp
  intro a b hab heq
  have hbuf : Naming.IsEnding "_buf" := Or.inr ⟨_, rfl⟩
  exact hab (hostName_congr .swift (argLocal_append_inj hbuf hbuf heq).1)

/-- A buffer of native code that is not the result of the call. -/
theorem ne_nativeRet_of_marked {x : String} (h : Marked "w" x) : x ≠ "native_ret" := by
  rintro rfl
  exact absurd h (by decide)

theorem argLocal_ne_nativeRet (name : String) : argLocal "w" name ≠ "native_ret" := by
  apply ne_nativeRet_of_marked
  rw [← String.append_empty (s := argLocal "w" name)]
  exact marked_argLocal name ""

theorem argOps_frees (s : Slot) : ∀ op ∈ argOps s, op.frees "native_ret" = false := by
  have hbuf : argBuffer s ≠ "native_ret" := ne_nativeRet_of_marked (marked_argLocal s.name "_buf")
  unfold argOps
  split
  · simp [MemoryOp.frees, hbuf]
  · simp

section Call

variable {scope : Scope} {symbol : Symbol} {leading args : List String} {target : String}
  {op : MemoryOp}

/-- A call passes buffers on. Only its name decides whether it releases them. -/
theorem memoryOps_call (h : op ∈ (Expr.native scope symbol args).memoryOps target) :
    ∃ function, ∃ x ∈ args, op = .release function x := by
  unfold Expr.memoryOps at h
  split at h
  · obtain ⟨x, hx, rfl⟩ := List.mem_map.mp h
    exact ⟨_, x, hx, rfl⟩
  · exact absurd h List.not_mem_nil

/-- What the call of a body does cannot be taken for an operation on another buffer: it makes none,
and does not have its own result yet. -/
theorem memoryOps_nativeCall (hleading : leading ⊆ [nativeHandle])
    (h : op ∈ (nativeCallExpr ctx p symbol leading).memoryOps target) :
    op.makes = false ∧ op.defers = false ∧ op.frees "native_ret" = false := by
  obtain ⟨function, x, hx, rfl⟩ := memoryOps_call h
  -- a method may have the name of a function that releases, but gets only arguments
  have hne : x ≠ "native_ret" := by
    rcases List.mem_append.mp hx with hx | hx
    · rw [List.mem_singleton.mp (hleading hx)]
      decide
    · obtain ⟨q, _, rfl⟩ := List.mem_map.mp hx
      exact argLocal_ne_nativeRet q.slot.name
  exact ⟨rfl, rfl, beq_eq_false_iff_ne.mpr hne⟩

end Call

def resultOps (wire : WireType) : List MemoryOp :=
  wire.bufferOps (.release Bridge.releaseTextSymbol "native_ret")
    (.release Bridge.releaseBytesSymbol "native_ret")

section Result

variable {symbol : Symbol} {leading : List String} {rest : List Stmt}
  (hplan : Marshal.plan .nativeFreed m.returns .result = .ok p.result)
  (hrest : finish .swift ctx p.result (nativeCallExpr ctx p symbol leading) "native_ret"
    "host_ret" = .ok rest)

include hplan hrest

theorem memoryOps_finish : ∃ target, memoryOps rest =
    (nativeCallExpr ctx p symbol leading).memoryOps target ++ resultOps p.result.wire := by
  rcases finish_eq_ok.mp hrest with ⟨hv, rfl⟩ | ⟨_, b, hb, rfl⟩
  · refine ⟨"_", ?_⟩
    rw [Marshal.wire_of_isVoid hv]
    rfl
  · refine ⟨"native_ret", ?_⟩
    rw [memoryOps_cons, memoryOps_append, Swift.memoryOps_convert hb, memoryOps_result hplan]
    exact congrArg _ (List.append_nil _)

theorem releasedOnce_finish (hleading : leading ⊆ [nativeHandle]) {before : List Stmt}
    (hbefore : ∀ op ∈ memoryOps before, op.frees "native_ret" = false) :
    (p.result.wire = .str →
      ReleasedOnce Bridge.releaseTextSymbol "native_ret" (before ++ rest)) ∧
    (p.result.wire = .bytes →
      ReleasedOnce Bridge.releaseBytesSymbol "native_ret" (before ++ rest)) := by
  rcases finish_eq_ok.mp hrest with ⟨hv, rfl⟩ | ⟨_, b, hb, rfl⟩
  · rw [Marshal.wire_of_isVoid hv]
    constructor <;> intro hw <;> cases hw
  · obtain ⟨htext, hbytes⟩ := releasedOnce_result hplan hb (by decide) (by decide)
    have hcall : ∀ op ∈ memoryOps (before ++ [.bind "native_ret"
        (nativeCallExpr ctx p symbol leading)]), op.frees "native_ret" = false := by
      intro op hop
      rw [memoryOps_append, List.mem_append, memoryOps_cons, memoryOps_nil,
        List.append_nil, Stmt.memoryOps] at hop
      rcases hop with hop | hop
      · exact hbefore op hop
      · exact (memoryOps_nativeCall hleading hop).2.2
    have hret : ∀ st ∈ [Stmt.ret "host_ret"], st.memoryOps = [] ∧ "native_ret" ∉ st.mentions := by
      rw [List.forall_mem_singleton]
      exact ⟨rfl, by decide⟩
    -- all but the conversion of the result is a frame around it
    have hsplit : before ++ .bind "native_ret" (nativeCallExpr ctx p symbol leading) ::
        (b ++ [.ret "host_ret"]) = (before ++ [.bind "native_ret"
          (nativeCallExpr ctx p symbol leading)]) ++ (b ++ [.ret "host_ret"]) := by
      rw [List.append_assoc, List.singleton_append]
    rw [hsplit]
    exact ⟨fun hw => (htext hw).frame hcall hret, fun hw => (hbytes hw).frame hcall hret⟩

end Result

/-- Every call into native code treats its buffers in this way. -/
theorem nativeCallBody_buffers {symbol : Symbol} {leading : List String} {body : List Stmt}
    (hnames : (m.passed.map fun s => Lang.swift.hostName s.name).Nodup)
    (hleading : leading ⊆ [nativeHandle]) (hplan : Marshal.nativeCall .nativeFreed m = .ok p)
    (hbody : nativeCallBody .swift ctx p symbol leading = .ok body) : CallBuffers m body := by
  obtain ⟨blocks, rest, hblocks, hrest, rfl⟩ := nativeCallBody_eq_ok.mp hbody
  have hresult := Marshal.planMethod_result hplan
  have hwire := Marshal.plan_wire hresult
  have hargs := memoryOps_callArgs hplan hblocks
  have hbefore : ∀ op ∈ memoryOps blocks.flatten, op.frees "native_ret" = false := by
    rw [hargs]
    intro op hop
    obtain ⟨s, _, hop⟩ := List.mem_flatMap.mp hop
    exact argOps_frees s op hop
  -- first the arguments, then the call, then the result
  obtain ⟨target, hops⟩ := memoryOps_finish hresult hrest
  obtain ⟨htext, hbytes⟩ := releasedOnce_finish hresult hrest hleading hbefore
  have hcall : ∀ op ∈ (nativeCallExpr ctx p symbol leading).memoryOps target,
      op.makes = false ∧ op.defers = false ∧ op.frees "native_ret" = false :=
    fun op hop => memoryOps_nativeCall hleading hop
  have hmakes : ((nativeCallExpr ctx p symbol leading).memoryOps target).filter (·.makes) = [] :=
    List.filter_eq_nil_iff.mpr fun op hop => by simp [(hcall op hop).1]
  have hdefers : ((nativeCallExpr ctx p symbol leading).memoryOps target).filter (·.defers) = [] :=
    List.filter_eq_nil_iff.mpr fun op hop => by simp [(hcall op hop).2.1]
  have hresultMakes : (resultOps p.result.wire).filter (·.makes) = [] :=
    WireType.filter_bufferOps rfl rfl
  have hresultDefers : (resultOps p.result.wire).filter (·.defers) = [] :=
    WireType.filter_bufferOps rfl rfl
  refine ⟨?_, ?_, ?_, ?_, ?_, argBuffers_nodup hnames⟩
  · exact fun hw => htext (Except.ok.inj (hwire.symm.trans hw))
  · exact fun hw => hbytes (Except.ok.inj (hwire.symm.trans hw))
  · intro hstr hbyt op hop
    have hnone : resultOps p.result.wire = [] :=
      WireType.bufferOps_eq_nil (fun hw => hstr (hw ▸ hwire)) fun hw => hbyt (hw ▸ hwire)
    rw [memoryOps_append, hops, hnone, List.append_nil, List.mem_append] at hop
    exact hop.elim (hbefore op) fun hop => (hcall op hop).2.2
  · rw [memoryOps_append, hargs, hops, List.filter_append, List.filter_append, hmakes,
      hresultMakes, List.append_nil, List.append_nil]
    exact filter_argOps fun _ => rfl
  · rw [memoryOps_append, hargs, hops, List.filter_append, List.filter_append, hdefers,
      hresultDefers, List.append_nil, List.append_nil]
    exact filter_argOps fun _ => rfl

/-! ### Calls of registered callbacks -/

/-- What the call of a registered callback does with buffers. -/
structure TrampolineBuffers (m : Method) (body : List Stmt) : Prop where
  /-- No buffer is freed, neither one that native code has passed nor one that is handed over. -/
  keeps : ∀ op ∈ memoryOps body, ∀ x, op.frees x = false
  text : Marshal.wireType m.returns .callbackResult = .ok .str →
    memoryOps body = [.duplicate "wire_ret"] ∧ ∃ before, body = before ++ [.ret "wire_ret"]
  bytes : Marshal.wireType m.returns .callbackResult = .ok .bytes →
    memoryOps body = [.allocate "wire_ret_buf" "host_ret"] ∧
      ∃ before, body = before ++
        [.bind "wire_ret" (.wireBytes "wire_ret_buf" "host_ret"), .ret "wire_ret"]
  other : Marshal.wireType m.returns .callbackResult ≠ .ok .str →
    Marshal.wireType m.returns .callbackResult ≠ .ok .bytes → memoryOps body = []

def handoverOps (wire : WireType) : List MemoryOp :=
  wire.bufferOps (.duplicate "wire_ret") (.allocate "wire_ret_buf" "host_ret")

section Handover

variable {rest : List Stmt}
  (hplan : Marshal.plan .nativeFreed m.returns .callbackResult = .ok p.result)
  (hrest : finish .swift ctx p.result (invokeExpr .swift p) "host_ret" "wire_ret" = .ok rest)

include hplan hrest

theorem memoryOps_finishHandover : memoryOps rest = handoverOps p.result.wire := by
  rcases finish_eq_ok.mp hrest with ⟨hv, rfl⟩ | ⟨_, b, hb, rfl⟩
  · rw [Marshal.wire_of_isVoid hv]
    rfl
  · rw [memoryOps_cons, memoryOps_append, Swift.memoryOps_convert hb,
      memoryOps_callbackResult hplan]
    exact List.append_nil _

/-- The buffer that is handed over is the one that the body ends with. -/
theorem finishHandover_end :
    (p.result.wire = .str → ∃ before, rest = before ++ [.ret "wire_ret"]) ∧
    (p.result.wire = .bytes → ∃ before, rest = before ++
      [.bind "wire_ret" (.wireBytes "wire_ret_buf" "host_ret"), .ret "wire_ret"]) := by
  rcases finish_eq_ok.mp hrest with ⟨hv, rfl⟩ | ⟨_, b, hb, rfl⟩
  · rw [Marshal.wire_of_isVoid hv]
    constructor <;> intro hw <;> cases hw
  · constructor
    · exact fun _ => ⟨.bind "host_ret" (invokeExpr .swift p) :: b, rfl⟩
    · -- bytes go with their length, which the last conversion adds
      intro hw
      obtain ⟨before, rfl⟩ := convert_callbackResult hplan hb hw
      refine ⟨.bind "host_ret" (invokeExpr .swift p) :: before, ?_⟩
      rw [List.append_assoc]
      rfl

end Handover

/-- Every call of a registered callback treats its buffers in this way. -/
theorem trampolineBody_buffers {callback : String} {body : List Stmt}
    (hplan : Marshal.trampoline .nativeFreed m = .ok p)
    (hbody : trampolineBody .swift ctx p callback = .ok body) : TrampolineBuffers m body := by
  obtain ⟨blocks, rest, hblocks, hrest, rfl⟩ := trampolineBody_eq_ok.mp hbody
  have hresult := Marshal.planMethod_result hplan
  have hwire := Marshal.plan_wire hresult
  obtain ⟨htext, hbytes⟩ := finishHandover_end hresult hrest
  have hlookup : (lookupStmt callback).memoryOps = [] := rfl
  -- neither the look-up nor the arguments touch a buffer, so the end of the body decides
  have hops : memoryOps (lookupStmt callback :: (blocks.flatten ++ rest)) =
      handoverOps p.result.wire := by
    rw [memoryOps_cons, memoryOps_append, memoryOps_trampolineArgs hplan hblocks,
      memoryOps_finishHandover hresult hrest, hlookup, List.nil_append, List.nil_append]
  refine ⟨?_, ?_, ?_, ?_⟩
  · intro op hop x
    rw [hops] at hop
    rcases WireType.eq_or_eq_of_mem_bufferOps hop with rfl | rfl
    · rfl
    · rfl
  · intro hw
    have hstr : p.result.wire = .str := Except.ok.inj (hwire.symm.trans hw)
    obtain ⟨before, rfl⟩ := htext hstr
    refine ⟨by rw [hops, hstr]; rfl, lookupStmt callback :: (blocks.flatten ++ before), ?_⟩
    rw [List.cons_append, List.append_assoc]
  · intro hw
    have hbyt : p.result.wire = .bytes := Except.ok.inj (hwire.symm.trans hw)
    obtain ⟨before, rfl⟩ := hbytes hbyt
    refine ⟨by rw [hops, hbyt]; rfl, lookupStmt callback :: (blocks.flatten ++ before), ?_⟩
    rw [List.cons_append, List.append_assoc]
  · intro hstr hbyt
    rw [hops]
    exact WireType.bufferOps_eq_nil (fun hw => hstr (hw ▸ hwire)) fun hw => hbyt (hw ▸ hwire)

end HostBindings.Generate
