import HostBindings.Proofs.Marshal
import HostBindings.Target

/-!
A method from both sides. The host calls it as a native function, and native code calls it as a
trampoline. What crosses is the same in both plans, in opposite directions: where one side takes
over a buffer, the other side has handed it out.
-/

namespace HostBindings

open HostBindings.Code

/-! ### Opposite sides -/

def Direction.opposite : Direction → Direction
  | .entry => .exit
  | .exit => .entry

structure Crossing.Opposes (x y : Crossing) : Prop where
  type : x.type = y.type
  wire : x.wire = y.wire
  direction : y.direction = x.direction.opposite
  /-- Both languages write one type for both sides. -/
  text : ∀ (lang : Lang) (ctx ctx' : Context), ctx.settings = ctx'.settings →
    lang.wireType ctx x = lang.wireType ctx' y

/-- The same call in both directions, argument by argument. -/
structure CallPlan.Opposes (p q : CallPlan) : Prop where
  method : p.method = q.method
  slots : p.args.map (·.slot) = p.method.passed
  args : List.Forall₂ (fun a b => a.slot = b.slot ∧ a.crossing.Opposes b.crossing) p.args q.args
  result : p.result.Opposes q.result

def Crossing.unflagged (x : Crossing) : Crossing :=
  { x with freesBuffer := false, transfersOwnership := false }

def ArgPlan.unflagged (a : ArgPlan) : ArgPlan :=
  { a with crossing := a.crossing.unflagged }

def CallPlan.unflagged (p : CallPlan) : CallPlan :=
  { p with args := p.args.map ArgPlan.unflagged, result := p.result.unflagged }

def Method.StandsAt (m : Method) (t : BoundaryType) : Site → Prop
  | .argument name method => method = m.name ∧ ∃ s ∈ m.params, s.name = name ∧ s.type = t
  | .result method => method = m.name ∧ m.returns = t

theorem Method.usesCallbacks_eq_false {m : Method} :
    m.usesCallbacks = false ↔ ∀ t ∈ m.types, t.callbackName? = none := by
  simp only [usesCallbacks, types, Bool.or_eq_false_iff, List.any_eq_false, Bool.not_eq_true,
    BoundaryType.isCallback_eq_false, List.forall_mem_append, List.forall_mem_map,
    List.forall_mem_singleton]
  exact and_comm

namespace Lang

variable {lang : Lang} {ctx ctx' : Context} {x y : Crossing}

theorem wireType_kotlin (h : x.wire = y.wire) :
    Lang.kotlin.wireType ctx x = Lang.kotlin.wireType ctx' y := by
  show Kotlin.wireType x = Kotlin.wireType y
  rw [Kotlin.wireType, Kotlin.wireType, h]

/-- Only the type of a model depends on the interface that code is generated for, and only that of a
text on its position. -/
theorem wireType_congr (h : x.wire = y.wire) (hmodel : ∀ callback, x.wire ≠ .model callback)
    (hpos : Swift.pointerName x.position = Swift.pointerName y.position)
    (hs : ctx.settings = ctx'.settings) : lang.wireType ctx x = lang.wireType ctx' y := by
  cases lang with
  | kotlin => exact wireType_kotlin h
  | swift =>
    show Swift.wireType ctx x = Swift.wireType ctx' y
    unfold Swift.wireType
    rw [← h, hs, hpos]
    split
    · rfl
    · rfl
    · rfl
    · rfl
    · rfl
    · rename_i callback hcallback
      exact absurd hcallback (hmodel callback)

end Lang

namespace Marshal

variable {o : Ownership} {t : BoundaryType} {pos pos' a r : Position} {x y : Crossing} {m : Method}
  {p q : CallPlan} {e : PlanError}

theorem plan_type (h : plan o t pos = .ok x) : x.type = t := by
  obtain ⟨_, _, rfl⟩ := plan_eq_ok.mp h
  rfl

theorem plan_position (h : plan o t pos = .ok x) : x.position = pos := by
  obtain ⟨_, _, rfl⟩ := plan_eq_ok.mp h
  rfl

/-- At positions that face each other a value crosses in opposite directions. -/
theorem opposes_of_plan (hflat : t.callbackName? = none) (hx : plan o t pos = .ok x)
    (hy : plan o t pos' = .ok y) (hdirection : pos'.direction = pos.direction.opposite)
    (hpointer : Swift.pointerName pos = Swift.pointerName pos') : x.Opposes y where
  type := (plan_type hx).trans (plan_type hy).symm
  wire := plan_wire_flat hflat hx hy
  direction := by
    rw [Crossing.direction, Crossing.direction, plan_position hx, plan_position hy, hdirection]
  text := by
    intro lang ctx ctx' hs
    apply Lang.wireType_congr (plan_wire_flat hflat hx hy) (plan_wire_ne_model hflat hx) _ hs
    rw [plan_position hx, plan_position hy, hpointer]

/-! ### Callbacks in a call by native code -/

theorem plan_eq_error (h : plan o t pos = .error e) :
    ∃ callback, t = .callback callback ∧ e = .throughCallback callback none := by
  cases hc : t.callbackName? with
  | none =>
    have hok : ∃ x, plan o t pos = .ok x := exists_plan (Or.inl hc)
    obtain ⟨x, hx⟩ := hok
    rw [hx] at h
    cases h
  | some callback =>
    obtain rfl := BoundaryType.callbackName?_eq_some.mp hc
    refine ⟨callback, rfl, ?_⟩
    cases pos with
    | argument => cases h
    | result => cases h
    | callbackArgument =>
      cases h
      rfl
    | callbackResult =>
      cases h
      rfl

theorem callbackName?_of_plan (hpos : pos = .callbackArgument ∨ pos = .callbackResult)
    (h : plan o t pos = .ok x) : t.callbackName? = none := by
  cases hc : t.callbackName? with
  | none => rfl
  | some callback =>
    obtain rfl := BoundaryType.callbackName?_eq_some.mp hc
    rcases hpos with rfl | rfl
    · cases plan_wire h
    · cases plan_wire h

theorem planArg_eq_error {s : Slot} (h : planArg o pos m s = .error e) :
    ∃ callback, s.type = .callback callback ∧
      e = .throughCallback callback (some (.argument s.name m.name)) := by
  unfold planArg at h
  cases hplan : plan o s.type pos with
  | ok x =>
    rw [hplan] at h
    cases h
  | error e' =>
    rw [hplan] at h
    obtain ⟨callback, htype, rfl⟩ := plan_eq_error hplan
    cases h
    exact ⟨callback, htype, rfl⟩

/-- The error names a callback of the method and the place where it stands. -/
theorem planMethod_eq_error (h : planMethod o a r m = .error e) :
    ∃ callback site, e = .throughCallback callback (some site) ∧
      m.StandsAt (.callback callback) site := by
  unfold planMethod at h
  -- the arguments are planned before the result
  cases hargs : m.passed.mapM (planArg o a m) with
  | error e' =>
    rw [hargs] at h
    cases h
    obtain ⟨before, s, after, hpassed, -, hs⟩ := mapM_eq_error hargs
    obtain ⟨callback, htype, rfl⟩ := planArg_eq_error hs
    have hmem : s ∈ m.passed := hpassed ▸ List.mem_append_right _ List.mem_cons_self
    exact ⟨callback, _, rfl, rfl, s, Method.mem_params_of_mem_passed hmem, rfl, htype⟩
  | ok args =>
    rw [hargs] at h
    cases hresult : plan o m.returns r with
    | ok x =>
      rw [hresult] at h
      cases h
    | error e' =>
      rw [hresult] at h
      obtain ⟨callback, htype, rfl⟩ := plan_eq_error hresult
      cases h
      exact ⟨callback, _, rfl, rfl, htype⟩

/-- A method that native code can call passes no callbacks. -/
theorem flat_of_trampoline (h : trampoline o m = .ok q) :
    ∀ t ∈ m.types, t.callbackName? = none := by
  rw [Method.types, List.forall_mem_append, List.forall_mem_map, List.forall_mem_singleton]
  constructor
  · intro s hs
    cases hvoid : s.type.isVoid with
    | true =>
      cases htype : s.type with
      | void => rfl
      | _ => simp [htype, BoundaryType.isVoid] at hvoid
    | false =>
      have hpassed : s ∈ m.passed := List.mem_filter.mpr ⟨hs, by rw [hvoid]; rfl⟩
      obtain ⟨arg, _, _, hplan⟩ := forall₂_exists_right (planMethod_args h) hpassed
      exact callbackName?_of_plan (Or.inl rfl) hplan
  · exact callbackName?_of_plan (Or.inr rfl) (planMethod_result h)

/-! ### Ownership -/

theorem isBuffer_nativeFreed {wire : WireType} :
    isBuffer .nativeFreed wire = true ↔ wire = .str ∨ wire = .bytes := by
  simp [isBuffer]

theorem freesBuffer_iff (h : plan .nativeFreed t pos = .ok x) :
    x.freesBuffer = true ↔ (x.wire = .str ∨ x.wire = .bytes) ∧ pos = .result := by
  obtain ⟨wire, _, rfl⟩ := plan_eq_ok.mp h
  rw [Bool.and_eq_true, isBuffer_nativeFreed, beq_iff_eq]

theorem transfersOwnership_iff (h : plan .nativeFreed t pos = .ok x) :
    x.transfersOwnership = true ↔ (x.wire = .str ∨ x.wire = .bytes) ∧ pos = .callbackResult := by
  obtain ⟨wire, _, rfl⟩ := plan_eq_ok.mp h
  rw [Bool.and_eq_true, isBuffer_nativeFreed, beq_iff_eq]

/-- Only results have to do with the ownership of buffers. -/
theorem unflagged_of_plan (hpos : pos = .argument ∨ pos = .callbackArgument)
    (h : plan o t pos = .ok x) : x.unflagged = x := by
  obtain ⟨wire, _, rfl⟩ := plan_eq_ok.mp h
  rcases hpos with rfl | rfl
  · simp [Crossing.unflagged]
  · simp [Crossing.unflagged]

theorem unflagged_of_arg (ha : a = .argument ∨ a = .callbackArgument)
    (h : planMethod o a r m = .ok p) {arg : ArgPlan} (harg : arg ∈ p.args) :
    arg.unflagged = arg := by
  rw [ArgPlan.unflagged, unflagged_of_plan ha (planMethod_arg h harg).2]

theorem plan_managed (t : BoundaryType) (pos : Position) :
    plan .managed t pos = (plan .nativeFreed t pos).map Crossing.unflagged := by
  unfold plan
  cases wireType t pos <;> rfl

theorem planArg_managed (pos : Position) (m : Method) (s : Slot) :
    planArg .managed pos m s = (planArg .nativeFreed pos m s).map ArgPlan.unflagged := by
  unfold planArg
  rw [plan_managed]
  cases plan .nativeFreed s.type pos <;> rfl

/-- Objects of the host are planned as raw memory is, but nobody releases or hands over anything. -/
theorem planMethod_managed (a r : Position) (m : Method) :
    planMethod .managed a r m = (planMethod .nativeFreed a r m).map CallPlan.unflagged := by
  unfold planMethod
  rw [funext (planArg_managed a m), mapM_map, plan_managed]
  cases m.passed.mapM (planArg .nativeFreed a m) with
  | error e => rfl
  | ok args => cases plan .nativeFreed m.returns r <;> rfl

/-! ### Both sides of a method -/

theorem opposes_of_plans (hp : nativeCall o m = .ok p) (hq : trampoline o m = .ok q) :
    p.Opposes q := by
  have hflat := flat_of_trampoline hq
  have hpm : p.method = m := planMethod_method hp
  refine ⟨hpm.trans (planMethod_method hq).symm, ?_, ?_, ?_⟩
  · rw [hpm]
    exact planMethod_slots hp
  · apply forall₂_trans_of_mem (planMethod_args hp) (planMethod_args hq)
    rintro s hs x y ⟨hxs, hx⟩ ⟨hys, hy⟩
    exact ⟨hxs.trans hys.symm,
      opposes_of_plan (hflat _ (Method.mem_types_of_mem_passed hs)) hx hy rfl rfl⟩
  · exact opposes_of_plan (hflat _ m.returns_mem_types) (planMethod_result hp)
      (planMethod_result hq) rfl rfl

theorem exists_trampoline_iff : (∃ q, trampoline o m = .ok q) ↔ m.usesCallbacks = false := by
  rw [Method.usesCallbacks_eq_false]
  constructor
  · rintro ⟨q, hq⟩
    exact flat_of_trampoline hq
  · exact fun hflat => exists_planMethod (Or.inl hflat)

/-- The host releases the result exactly if it is a text or bytes, and hands nothing over. -/
theorem nativeCall_result (h : nativeCall .nativeFreed m = .ok p) :
    (p.result.freesBuffer = true ↔ p.result.wire = .str ∨ p.result.wire = .bytes) ∧
      p.result.transfersOwnership = false := by
  have hresult := planMethod_result h
  refine ⟨(freesBuffer_iff hresult).trans (and_iff_left rfl), ?_⟩
  rw [Bool.eq_false_iff, ne_eq, transfersOwnership_iff hresult]
  exact fun h => nomatch h.2

/-- The host hands the result over exactly if it is a text or bytes, and releases nothing. -/
theorem trampoline_result (h : trampoline .nativeFreed m = .ok q) :
    (q.result.transfersOwnership = true ↔ q.result.wire = .str ∨ q.result.wire = .bytes) ∧
      q.result.freesBuffer = false := by
  have hresult := planMethod_result h
  refine ⟨(transfersOwnership_iff hresult).trans (and_iff_left rfl), ?_⟩
  rw [Bool.eq_false_iff, ne_eq, freesBuffer_iff hresult]
  exact fun h => nomatch h.2

/-- A call from the host always has a plan, and a call by native code has one exactly if the method
passes no callback: the error names one that it passes. The two plans hold the same arguments in the
same order with the same types on the boundary, in opposite directions, and both languages write one
type for both sides of a value. The host releases a result that is a text or bytes where native code
gets one to own, and no argument is released or handed over by a plan. Where texts and bytes are
objects of the host, the plans are the same but for saying none of this. -/
theorem plans_oppose (m : Method) :
    (∀ o, ∃ p, nativeCall o m = .ok p) ∧
    (∀ o, (∃ q, trampoline o m = .ok q) ↔ m.usesCallbacks = false) ∧
    (∀ o e, trampoline o m = .error e → ∃ callback site,
      e = .throughCallback callback (some site) ∧ m.StandsAt (.callback callback) site) ∧
    (∀ o p q, nativeCall o m = .ok p → trampoline o m = .ok q → p.method = m ∧ p.Opposes q) ∧
    (∀ o p, nativeCall o m = .ok p ∨ trampoline o m = .ok p → ∀ a ∈ p.args, a.unflagged = a) ∧
    (∀ p, nativeCall .nativeFreed m = .ok p →
      (p.result.freesBuffer = true ↔ p.result.wire = .str ∨ p.result.wire = .bytes) ∧
        p.result.transfersOwnership = false) ∧
    (∀ q, trampoline .nativeFreed m = .ok q →
      (q.result.transfersOwnership = true ↔ q.result.wire = .str ∨ q.result.wire = .bytes) ∧
        q.result.freesBuffer = false) ∧
    (∀ p q, nativeCall .nativeFreed m = .ok p → trampoline .nativeFreed m = .ok q →
      q.result.transfersOwnership = p.result.freesBuffer) ∧
    nativeCall .managed m = (nativeCall .nativeFreed m).map CallPlan.unflagged ∧
    trampoline .managed m = (trampoline .nativeFreed m).map CallPlan.unflagged := by
  refine ⟨fun o => exists_planMethod (Or.inr ⟨rfl, rfl⟩), fun o => exists_trampoline_iff,
    fun o e => planMethod_eq_error,
    fun o p q hp hq => ⟨planMethod_method hp, opposes_of_plans hp hq⟩, ?_,
    fun p => nativeCall_result, fun q => trampoline_result, ?_, planMethod_managed _ _ m,
    planMethod_managed _ _ m⟩
  · rintro o p (h | h) a ha
    · exact unflagged_of_arg (Or.inl rfl) h ha
    · exact unflagged_of_arg (Or.inr rfl) h ha
  · intro p q hp hq
    -- both are decided by the representation of the result, which is the same
    rw [Bool.eq_iff_iff, (trampoline_result hq).1, (nativeCall_result hp).1,
      (opposes_of_plans hp hq).result.wire]

def exchange : Method where
  name := "exchange"
  returns := .single .string
  returnSpelling := "String"
  params :=
    [⟨"id", .single (.numeric .int), "i32"⟩, ⟨"unit", .void, "()"⟩,
     ⟨"data", .vec (.numeric .byte), "Vec<i8>"⟩, ⟨"items", .vec (.record "Item"), "Vec<Item>"⟩]

theorem plans_oppose_exchange :
    exchange.usesCallbacks = false ∧
      ∃ p q, nativeCall .nativeFreed exchange = .ok p ∧
        trampoline .nativeFreed exchange = .ok q ∧ p.Opposes q ∧
        p.result.freesBuffer = true ∧ q.result.transfersOwnership = true := by
  obtain ⟨hcall, htrampoline, -, hopposes, -, hfrees, -, hsame, -⟩ := plans_oppose exchange
  have hflat : exchange.usesCallbacks = false := by decide
  obtain ⟨p, hp⟩ := hcall .nativeFreed
  obtain ⟨q, hq⟩ := (htrampoline .nativeFreed).mpr hflat
  have htext : p.result.wire = .str :=
    (Except.ok.inj (plan_wire (planMethod_result hp))).symm
  have hreleased : p.result.freesBuffer = true := (hfrees p hp).1.mpr (Or.inl htext)
  exact ⟨hflat, p, q, hp, hq, (hopposes _ p q hp hq).2, hreleased,
    (hsame p q hp hq).trans hreleased⟩

end Marshal

end HostBindings
