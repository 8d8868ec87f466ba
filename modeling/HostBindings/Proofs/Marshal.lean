import HostBindings.Marshal.Plan
import HostBindings.Proofs.Catalog
import HostBindings.Proofs.Traversal

/-!
Plans, by what they decide. A value has a plan unless it is a callback in a call that native code
makes; a planned call holds one decision for each argument that is passed, in order.
-/

namespace HostBindings

namespace Marshal

variable {o : Ownership} {t : BoundaryType} {pos pos' : Position} {x y : Crossing}

theorem plan_eq_ok :
    plan o t pos = .ok x ↔ ∃ wire, wireType t pos = .ok wire ∧
      x = { type := t, wire, position := pos, conversion := conversion t pos.direction,
            freesBuffer := isBuffer o wire && pos == .result,
            transfersOwnership := isBuffer o wire && pos == .callbackResult } := by
  unfold plan
  cases wireType t pos with
  | error e => simp
  | ok wire => simp [eq_comm]

theorem plan_conversion (h : plan o t pos = .ok x) :
    x.conversion = conversion t pos.direction := by
  obtain ⟨wire, _, rfl⟩ := plan_eq_ok.mp h
  rfl

theorem plan_wire (h : plan o t pos = .ok x) : wireType t pos = .ok x.wire := by
  obtain ⟨wire, hw, rfl⟩ := plan_eq_ok.mp h
  exact hw

theorem exists_wireType (h : t.callbackName? = none ∨ pos = .argument ∨ pos = .result) :
    ∃ wire, wireType t pos = .ok wire := by
  unfold wireType
  split
  · exact ⟨_, rfl⟩
  · exact ⟨_, rfl⟩
  · exact ⟨_, rfl⟩
  · exact ⟨_, rfl⟩
  · -- a callback has a representation in calls from the host only
    rcases h with h | rfl | rfl
    · exact absurd h (by simp [BoundaryType.callbackName?])
    · exact ⟨_, rfl⟩
    · exact ⟨_, rfl⟩

theorem exists_plan (h : t.callbackName? = none ∨ pos = .argument ∨ pos = .result) :
    ∃ x, plan o t pos = .ok x := by
  obtain ⟨wire, hw⟩ := exists_wireType h
  exact ⟨_, plan_eq_ok.mpr ⟨wire, hw, rfl⟩⟩

theorem elementWire_ne_void (e : Element) : elementWire e ≠ .void := by
  cases e <;> simp [elementWire]

theorem wireType_eq_void {wire : WireType} (h : wireType t pos = .ok wire) :
    wire = .void ↔ t.isVoid = true := by
  unfold wireType at h
  split at h
  · cases h
    simp [BoundaryType.isVoid]
  · rename_i e
    have he := elementWire_ne_void e
    cases h
    simp [BoundaryType.isVoid, he]
  · cases h
    simp [BoundaryType.isVoid]
  · cases h
    simp [BoundaryType.isVoid]
  · split at h <;> cases h <;> simp [BoundaryType.isVoid]

theorem wireType_eq_bytes (h : wireType t pos = .ok .bytes) : t = .vec (.numeric .byte) := by
  unfold wireType at h
  split at h
  · cases h
  · rename_i e
    cases e <;> cases h
  · rfl
  · cases h
  · split at h <;> cases h

theorem wireType_eq_model {callback : String} (h : wireType t pos = .ok (.model callback)) :
    t = .callback callback := by
  unfold wireType at h
  split at h
  · cases h
  · rename_i e
    cases e <;> cases h
  · cases h
  · cases h
  · split at h <;> cases h
    rfl

/-- What is no callback is represented alike at all positions. -/
theorem wireType_flat (h : t.callbackName? = none) : wireType t pos = wireType t pos' := by
  cases t with
  | callback name => cases h
  | vec e =>
    cases e with
    | numeric n => cases n <;> rfl
    | _ => rfl
  | _ => rfl

theorem plan_wire_flat (h : t.callbackName? = none) (hx : plan o t pos = .ok x)
    (hy : plan o t pos' = .ok y) : x.wire = y.wire := by
  have hwire := plan_wire hy
  rw [wireType_flat h, plan_wire hx] at hwire
  exact Except.ok.inj hwire

/-- Only callbacks are represented by models. -/
theorem plan_wire_ne_model (h : t.callbackName? = none) (hx : plan o t pos = .ok x)
    (callback : String) : x.wire ≠ .model callback := by
  intro hmodel
  have hwire := plan_wire hx
  rw [hmodel] at hwire
  rw [wireType_eq_model hwire] at h
  cases h

/-- What is a text on its way to the host is copied, and perhaps decoded. -/
theorem conversion_text (h : wireType t pos = .ok .str) :
    conversion t .exit = .copyString ∨ conversion t .exit = .jsonDecode := by
  unfold wireType at h
  split at h
  · cases h
  · rename_i e
    cases e with
    | string => exact Or.inl rfl
    | record name => exact Or.inr rfl
    | _ => cases h
  · cases h
  · rename_i e hbyte
    right
    cases e with
    | numeric n =>
      cases n with
      | byte => exact absurd rfl hbyte
      | _ => rfl
    | _ => rfl
  · split at h <;> cases h

theorem plan_isVoid (h : plan o t pos = .ok x) : x.isVoid = t.isVoid := by
  have hw := wireType_eq_void (plan_wire h)
  unfold Crossing.isVoid
  rw [Bool.eq_iff_iff, beq_iff_eq]
  exact hw

theorem wire_of_isVoid (h : x.isVoid = true) : x.wire = .void := by
  simpa [Crossing.isVoid] using h

/-- Only a value that is not there has no conversion. -/
theorem conversion_eq_none {d : Direction} : conversion t d = .none ↔ t.isVoid = true := by
  unfold conversion
  split <;> simp [BoundaryType.isVoid]

theorem plan_conversion_ne_none (h : plan o t pos = .ok x) (hv : x.isVoid = false) :
    x.conversion ≠ .none := by
  rw [plan_isVoid h] at hv
  rw [plan_conversion h]
  intro hn
  rw [conversion_eq_none.mp hn] at hv
  cases hv

theorem conversion_eq_registerCallback {d : Direction} {name : String} :
    conversion t d = .registerCallback name ↔ t = .callback name ∧ d = .entry := by
  unfold conversion
  split <;> simp_all

theorem conversion_eq_wrapProxy {d : Direction} {name : String} :
    conversion t d = .wrapProxy name ↔ t = .callback name ∧ d = .exit := by
  unfold conversion
  split <;> simp_all

/-! ### Whole calls -/

variable {a r : Position} {m : Method} {p : CallPlan}

theorem planArg_eq_ok {s : Slot} {q : ArgPlan} :
    planArg o pos m s = .ok q ↔ q.slot = s ∧ plan o s.type pos = .ok q.crossing := by
  unfold planArg
  cases plan o s.type pos with
  | error e => simp
  | ok x =>
    obtain ⟨slot, crossing⟩ := q
    simp [eq_comm]

theorem planMethod_eq_ok :
    planMethod o a r m = .ok p ↔
      p.method = m ∧ m.passed.mapM (planArg o a m) = .ok p.args ∧
        plan o m.returns r = .ok p.result := by
  obtain ⟨method, args, result⟩ := p
  unfold planMethod
  cases m.passed.mapM (planArg o a m) with
  | error e => simp
  | ok args' =>
    cases plan o m.returns r with
    | error e => simp
    | ok result' => simp [eq_comm]

theorem planMethod_method (h : planMethod o a r m = .ok p) : p.method = m :=
  (planMethod_eq_ok.mp h).1

theorem planMethod_result (h : planMethod o a r m = .ok p) : plan o m.returns r = .ok p.result :=
  (planMethod_eq_ok.mp h).2.2

theorem planMethod_args (h : planMethod o a r m = .ok p) :
    List.Forall₂ (fun s q => q.slot = s ∧ plan o s.type a = .ok q.crossing) m.passed p.args := by
  have hm := mapM_eq_ok.mp (planMethod_eq_ok.mp h).2.1
  exact hm.imp fun s q => planArg_eq_ok.mp

theorem planMethod_slots (h : planMethod o a r m = .ok p) : p.args.map (·.slot) = m.passed := by
  have hargs := (planMethod_args h).imp fun s q hq => hq.1
  have heq : List.Forall₂ Eq (p.args.map (·.slot)) m.passed :=
    List.forall₂_map_left_iff.mpr hargs.flip
  rwa [List.forall₂_eq_eq_eq] at heq

theorem planMethod_arg (h : planMethod o a r m = .ok p) {q : ArgPlan} (hq : q ∈ p.args) :
    q.slot ∈ m.passed ∧ plan o q.slot.type a = .ok q.crossing := by
  obtain ⟨s, hs, rfl, hplan⟩ := forall₂_exists_left (planMethod_args h) hq
  exact ⟨hs, hplan⟩

theorem planMethod_arg_conversion (h : planMethod o a r m = .ok p) {q : ArgPlan}
    (hq : q ∈ p.args) : q.crossing.conversion ≠ .none := by
  obtain ⟨hs, hplan⟩ := planMethod_arg h hq
  apply plan_conversion_ne_none hplan
  rw [plan_isVoid hplan]
  exact Method.isVoid_of_mem_passed hs

theorem planMethod_result_conversion (h : planMethod o a r m = .ok p)
    (hv : p.result.isVoid = false) : p.result.conversion ≠ .none :=
  plan_conversion_ne_none (planMethod_result h) hv

theorem exists_planMethod
    (h : (∀ t ∈ m.types, t.callbackName? = none) ∨ a = .argument ∧ r = .result) :
    ∃ p, planMethod o a r m = .ok p := by
  have hargs : ∃ args, m.passed.mapM (planArg o a m) = .ok args := by
    apply exists_mapM
    intro s hs
    have hflat : s.type.callbackName? = none ∨ a = .argument ∨ a = .result :=
      h.imp (fun hf => hf _ (Method.mem_types_of_mem_passed hs))
        fun ha => Or.inl ha.1
    obtain ⟨x, hx⟩ := exists_plan (o := o) hflat
    exact ⟨⟨s, x⟩, planArg_eq_ok.mpr ⟨rfl, hx⟩⟩
  have hflat : m.returns.callbackName? = none ∨ r = .argument ∨ r = .result :=
    h.imp (fun hf => hf _ m.returns_mem_types) fun ha => Or.inr ha.2
  obtain ⟨args, hargs⟩ := hargs
  obtain ⟨x, hx⟩ := exists_plan (o := o) hflat
  exact ⟨⟨m, args, x⟩, planMethod_eq_ok.mpr ⟨rfl, hargs, hx⟩⟩

end Marshal

end HostBindings
