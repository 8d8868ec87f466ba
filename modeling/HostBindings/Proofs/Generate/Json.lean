import HostBindings.Proofs.Generate.Members

/-!
JSON in generated code. Records, and lists of anything but bytes, are encoded on the way to native
code and decoded on the way back: in calls of native code the arguments go there, in trampolines the
result. A file has a statement that encodes, or one that decodes, exactly if some method whose body
is generated has such a value in such a place.
-/

namespace HostBindings

open HostBindings.Code

def BoundaryType.IsJson (t : BoundaryType) : Prop :=
  t.isDocument = true ∧ t ≠ .vec (.numeric .byte)

instance : DecidablePred BoundaryType.IsJson :=
  fun _ => inferInstanceAs (Decidable (_ ∧ _))

@[simp]
def Direction.json : Direction → Conversion
  | .entry => .jsonEncode
  | .exit => .jsonDecode

namespace Code

/-- The direction in which an expression converts JSON, if it does: encoded on entry, decoded on
exit. A copy of the text may be made around it. -/
@[simp]
def Expr.json? : Expr → Option Direction
  | .duplicate e => e.json?
  | .jsonEncode _ => some .entry
  | .jsonDecode _ _ => some .exit
  | _ => none

@[simp]
def Stmt.json? : Stmt → Option Direction
  | .bind _ value => value.json?
  | .run value => value.json?
  | _ => none

def Converts (d : Direction) (stmts : List Stmt) : Prop :=
  ∃ st ∈ stmts, st.json? = some d

def SourceFile.HasStmt (f : SourceFile) (st : Stmt) : Prop :=
  ∃ m ∈ f.members, .stmt st ∈ m.leaves

end Code

def Method.Json (m : Method) (a r : Position) (d : Direction) : Prop :=
  (a.direction = d ∧ ∃ slot ∈ m.passed, slot.type.IsJson) ∨ (r.direction = d ∧ m.returns.IsJson)

instance (m : Method) (a r : Position) : DecidablePred (m.Json a r) :=
  fun _ => inferInstanceAs (Decidable (_ ∨ _))

/-! ### Single values -/

theorem Marshal.conversion_eq_json {t : BoundaryType} {direction d : Direction} :
    conversion t direction = d.json ↔ direction = d ∧ t.IsJson := by
  unfold conversion BoundaryType.IsJson
  split <;> cases d <;> simp_all [Direction.json, BoundaryType.isDocument]

namespace Code

variable {d : Direction} {a b : List Stmt} {st : Stmt}

@[simp]
theorem converts_nil : ¬ Converts d [] := by
  simp [Converts]

@[simp]
theorem converts_cons : Converts d (st :: b) ↔ st.json? = some d ∨ Converts d b :=
  List.exists_mem_cons_iff _ _ _

@[simp]
theorem converts_append : Converts d (a ++ b) ↔ Converts d a ∨ Converts d b := by
  simp only [Converts, List.mem_append, or_and_right, exists_or]

theorem converts_flatten {blocks : List (List Stmt)} :
    Converts d blocks.flatten ↔ ∃ b ∈ blocks, Converts d b := by
  simp only [Converts, List.mem_flatten]
  tauto

end Code

variable {lang : Lang} {ctx : Context} {x : Crossing} {input output : String} {b : List Stmt}
  {d : Direction}

theorem Swift.json?_owned (e : Expr) : (Swift.owned x e).json? = e.json? := by
  unfold Swift.owned
  split <;> rfl

theorem Swift.not_converts_release (symbol : Symbol) (y : String) :
    ¬ Converts d (Swift.release ctx x symbol y) := by
  unfold Swift.release
  split <;> simp

/-- A conversion converts JSON if it is one that does, in its direction only. -/
theorem converts_convert (h : lang.convert ctx x input output = .ok b) :
    Converts d b ↔ x.conversion = d.json := by
  cases lang with
  | kotlin => cases Kotlin.convert_cases (Except.ok.inj h) <;> cases d <;> simp [*]
  | swift =>
    cases Swift.convert_cases h <;> cases d <;>
      simp [*, Swift.not_converts_release, Swift.json?_owned]

/-! ### Bodies -/

namespace Generate

variable {p : CallPlan} {m : Method} {a r : Position} {body : List Stmt}

theorem converts_argBlocks {o : Ownership} (hplan : Marshal.planMethod o a r m = .ok p)
    {slotLocal : ArgPlan → String} {blocks : List (List Stmt)}
    (h : ArgBlocks lang ctx slotLocal p.args blocks) :
    Converts d blocks.flatten ↔ a.direction = d ∧ ∃ slot ∈ m.passed, slot.type.IsJson := by
  rw [converts_flatten, ← exists_and_left]
  constructor
  · rintro ⟨b, hb, hd⟩
    obtain ⟨q, hq, hconv⟩ := forall₂_exists_left h hb
    obtain ⟨hslot, hplan⟩ := Marshal.planMethod_arg hplan hq
    rw [converts_convert hconv, Marshal.plan_conversion hplan, Marshal.conversion_eq_json] at hd
    exact ⟨q.slot, hd.1, hslot, hd.2⟩
  · rintro ⟨slot, hd, hslot, hjson⟩
    obtain ⟨q, hq, rfl, hplan⟩ := forall₂_exists_right (Marshal.planMethod_args hplan) hslot
    obtain ⟨b, hb, hconv⟩ := forall₂_exists_right h hq
    refine ⟨b, hb, ?_⟩
    rw [converts_convert hconv, Marshal.plan_conversion hplan, Marshal.conversion_eq_json]
    exact ⟨hd, hjson⟩

theorem converts_finish {o : Ownership} (hplan : Marshal.planMethod o a r m = .ok p) {call : Expr}
    (hcall : call.json? = none) {raw cooked : String} {rest : List Stmt}
    (h : finish lang ctx p.result call raw cooked = .ok rest) :
    Converts d rest ↔ r.direction = d ∧ m.returns.IsJson := by
  have hresult := Marshal.planMethod_result hplan
  rw [← Marshal.conversion_eq_json, ← Marshal.plan_conversion hresult]
  rcases finish_eq_ok.mp h with ⟨hv, rfl⟩ | ⟨_, b, hb, rfl⟩
  · -- there is no result to convert
    have hnone : p.result.conversion = .none := by
      rw [Marshal.plan_conversion hresult, Marshal.conversion_eq_none, ← Marshal.plan_isVoid hresult,
        hv]
    rw [hnone]
    cases d <;> simp [hcall]
  · simp [hcall, converts_convert hb]

/-- A call of native code converts JSON where its method does. -/
theorem converts_nativeCallBody {o : Ownership} (hplan : Marshal.planMethod o a r m = .ok p)
    {symbol : Symbol} {leading : List String}
    (h : nativeCallBody lang ctx p symbol leading = .ok body) :
    Converts d body ↔ m.Json a r d := by
  obtain ⟨blocks, rest, hblocks, hrest, rfl⟩ := nativeCallBody_eq_ok.mp h
  rw [converts_append, converts_argBlocks hplan hblocks, converts_finish hplan rfl hrest]
  rfl

/-- So does a trampoline. -/
theorem converts_trampolineBody {o : Ownership} (hplan : Marshal.planMethod o a r m = .ok p)
    {callback : String} (h : trampolineBody lang ctx p callback = .ok body) :
    Converts d body ↔ m.Json a r d := by
  obtain ⟨blocks, rest, hblocks, hrest, rfl⟩ := trampolineBody_eq_ok.mp h
  rw [converts_cons, converts_append, converts_argBlocks hplan hblocks,
    converts_finish hplan rfl hrest]
  simp [lookupStmt, Method.Json]

/-! ### Files -/

/-- A method for which a body is generated, with the positions of its arguments and its result:
the methods of services, those of the callbacks that services take, which have trampolines, and
those of the callbacks that services return, which have proxies. -/
inductive Emits (c : Catalog) : Method → Position → Position → Prop where
  | service {i m} (hi : i ∈ c.services) (hm : m ∈ i.methods) : Emits c m .argument .result
  | taken {i j callback m} (hi : i ∈ c.services) (hcb : callback ∈ i.callbackParams)
      (hj : c.callback? callback = some j) (hm : m ∈ j.methods) :
      Emits c m .callbackArgument .callbackResult
  | returned {i j callback m} (hi : i ∈ c.services) (hcb : callback ∈ i.callbackReturns)
      (hj : c.callback? callback = some j) (hm : m ∈ j.methods) : Emits c m .argument .result

section File

variable {c : Catalog} {s : Settings} {f : SourceFile} {st : Stmt} (hf : file c s = .ok f)

/-- What converts JSON in the body of a member of some type does so in the file. -/
theorem exists_hasStmt_of_body {head : TypeHead} {members : List Member} {n : Member}
    (htype : .type head members ∈ f.members) (hn : n ∈ members)
    (hleaves : n.leaves = body.map .stmt) (h : Converts d body) :
    ∃ st, f.HasStmt st ∧ st.json? = some d := by
  obtain ⟨st, hst, hd⟩ := h
  refine ⟨st, ⟨_, htype, Member.mem_leaves_type.mpr ⟨n, hn, ?_⟩⟩, hd⟩
  rw [hleaves]
  exact List.mem_map_of_mem hst

include hf

theorem exists_emits (hst : f.HasStmt st) (hjson : st.json? = some d) :
    ∃ m a r, Emits c m a r ∧ m.Json a r d := by
  obtain ⟨n, hn, hst⟩ := hst
  -- in each body, JSON is converted where its method does
  refine of_stmt_mem_leaves
    (P := fun st => st.json? = some d → ∃ m a r, Emits c m a r ∧ m.Json a r d)
    (runs_members hf hn ?_ ?_) hst hjson
  · rintro i proxies funcs taken made hs rfl
    have hi := (mem_proxyClaims hs.claim).1
    refine runs_service hs.parts (fun _ h => nomatch h) ?_ ?_ (fun _ _ h => nomatch h)
    · intro m hm p body hplan hbody st hst hjson
      exact ⟨m, _, _, .service hi hm, (converts_nativeCallBody hplan hbody).mp ⟨st, hst, hjson⟩⟩
    · intro cb hcb j hj m hm p body hplan hbody st hst hjson
      exact ⟨m, _, _, .taken hi hcb hj hm,
        (converts_trampolineBody hplan hbody).mp ⟨st, hst, hjson⟩⟩
  · rintro i proxies funcs taken made hs cb hcb r hproxy rfl
    obtain ⟨hi, hproxies⟩ := mem_proxyClaims hs.claim
    refine runs_proxy hproxy ?_ (fun h => nomatch h)
    intro j hj m hm p body hplan hbody st hst hjson
    exact ⟨m, _, _, .returned hi (hproxies hcb) hj hm,
      (converts_nativeCallBody hplan hbody).mp ⟨st, hst, hjson⟩⟩

theorem exists_hasStmt (he : Emits c m a r) (h : m.Json a r d) :
    ∃ st, f.HasStmt st ∧ st.json? = some d := by
  cases he with
  | service hi hm =>
    obtain ⟨proxies, funcs, taken, made, hs⟩ := exists_hasService hf hi
    obtain ⟨r, hr, hok⟩ := forall₂_exists_right hs.parts.methods hm
    obtain ⟨p, body, hplan, hbody, rfl⟩ := serviceMethod_eq_ok.mp hok
    exact exists_hasStmt_of_body (service_mem_members hf hs) (mem_serviceMembers_of_method hr)
      (leaves_hostFunc _ body) ((converts_nativeCallBody hplan hbody).mpr h)
  | taken hi hcb hj hm =>
    obtain ⟨proxies, funcs, taken, made, hs⟩ := exists_hasService hf hi
    obtain ⟨ts, hts, hok⟩ := forall₂_exists_right hs.parts.taken hcb
    obtain ⟨j, ms, hj', hms, rfl⟩ := trampolines_eq_ok.mp hok
    cases hj.symm.trans hj'
    obtain ⟨n, hn, hok⟩ := forall₂_exists_right hms hm
    obtain ⟨p, body, hplan, hbody, rfl⟩ := methodTrampoline_eq_ok.mp hok
    exact exists_hasStmt_of_body (service_mem_members hf hs)
      (subset_serviceMembers hts (List.mem_append_left _ hn)) (leaves_trampoline ..)
      ((converts_trampolineBody hplan hbody).mpr h)
  | returned hi hcb hj hm =>
    -- the proxy may stand with another service
    obtain ⟨k, _, r, hproxy, hmem⟩ := exists_returnedProxy hf hi hcb
    obtain ⟨j, fs, hj', hfs, rfl⟩ := proxy_eq_ok.mp hproxy
    cases hj.symm.trans hj'
    obtain ⟨r, hr, hok⟩ := forall₂_exists_right hfs hm
    obtain ⟨p, body, hplan, hbody, rfl⟩ := proxyFunc_eq_ok.mp hok
    exact exists_hasStmt_of_body hmem (List.mem_append_left _ (List.mem_map.mpr ⟨_, hr, rfl⟩))
      (leaves_hostFunc _ body) ((converts_nativeCallBody hplan hbody).mpr h)

/-- A file converts JSON in a direction exactly if a method does for which a body is generated. -/
theorem json_iff_emits :
    (∃ st, f.HasStmt st ∧ st.json? = some d) ↔ ∃ m a r, Emits c m a r ∧ m.Json a r d := by
  constructor
  · rintro ⟨st, hst, hd⟩
    exact exists_emits hf hst hd
  · rintro ⟨m, a, r, he, h⟩
    exact exists_hasStmt hf he h

end File

end Generate

end HostBindings
