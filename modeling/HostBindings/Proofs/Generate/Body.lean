import HostBindings.Generate.Service
import HostBindings.Proofs.Marshal
import HostBindings.Proofs.Target.Convert

/-!
Bodies of generated functions, by their parts: the blocks that convert the arguments, the call,
and the conversion of its result. A body exists if the callbacks that its method takes are
declared.
-/

namespace HostBindings

open HostBindings.Code

def Method.Declared (c : Catalog) (m : Method) : Prop :=
  ∀ t ∈ m.types, ∀ name, t.callbackName? = some name → ∃ j, c.callback? name = some j

namespace Generate

variable {lang : Lang} {ctx : Context} {p : CallPlan}

/-- One block of statements for each argument, which converts it from its parameter into its
local. -/
def ArgBlocks (lang : Lang) (ctx : Context) (slotLocal : ArgPlan → String) (args : List ArgPlan)
    (blocks : List (List Stmt)) : Prop :=
  List.Forall₂
    (fun a b => lang.convert ctx a.crossing (lang.hostName a.slot.name) (slotLocal a) = .ok b)
    args blocks

theorem convertArgs_eq_ok {slotLocal : ArgPlan → String} {args : List ArgPlan} {b : List Stmt} :
    convertArgs lang ctx slotLocal args = .ok b ↔
      ∃ blocks, ArgBlocks lang ctx slotLocal args blocks ∧ b = blocks.flatten := by
  simp only [convertArgs, map_eq_ok, mapM_eq_ok, ArgBlocks, eq_comm (a := b)]

theorem finish_eq_ok {result : Crossing} {call : Expr} {raw cooked : String} {b : List Stmt} :
    finish lang ctx result call raw cooked = .ok b ↔
      (result.isVoid = true ∧ b = [.run call]) ∨
        (result.isVoid = false ∧ ∃ conversion, lang.convert ctx result raw cooked = .ok conversion ∧
          b = .bind raw call :: (conversion ++ [.ret cooked])) := by
  unfold finish
  cases result.isVoid with
  | true => simp [eq_comm (a := b)]
  | false => simp [map_eq_ok, eq_comm (a := b)]

def nativeCallExpr (ctx : Context) (p : CallPlan) (symbol : Symbol) (leading : List String) :
    Expr :=
  .native ctx.scope symbol (leading ++ p.args.map wireLocal)

def invokeExpr (lang : Lang) (p : CallPlan) : Expr :=
  .invoke "host_callback" (lang.hostName p.method.name)
    (p.args.map fun a => (lang.hostName a.slot.name, hostLocal a))

def lookupStmt (callback : String) : Stmt :=
  .bind "host_callback" (.lookup callback callbackHandle)

theorem nativeCallBody_eq_ok {symbol : Symbol} {leading : List String} {body : List Stmt} :
    nativeCallBody lang ctx p symbol leading = .ok body ↔
      ∃ blocks rest, ArgBlocks lang ctx wireLocal p.args blocks ∧
        finish lang ctx p.result (nativeCallExpr ctx p symbol leading) "native_ret" "host_ret" =
          .ok rest ∧
        body = blocks.flatten ++ rest := by
  simp only [nativeCallBody, bind_eq_ok, pure_eq_ok, convertArgs_eq_ok]
  constructor
  · rintro ⟨_, ⟨blocks, hblocks, rfl⟩, rest, hrest, rfl⟩
    exact ⟨blocks, rest, hblocks, hrest, rfl⟩
  · rintro ⟨blocks, rest, hblocks, hrest, rfl⟩
    exact ⟨_, ⟨blocks, hblocks, rfl⟩, rest, hrest, rfl⟩

theorem trampolineBody_eq_ok {callback : String} {body : List Stmt} :
    trampolineBody lang ctx p callback = .ok body ↔
      ∃ blocks rest, ArgBlocks lang ctx hostLocal p.args blocks ∧
        finish lang ctx p.result (invokeExpr lang p) "host_ret" "wire_ret" = .ok rest ∧
        body = lookupStmt callback :: (blocks.flatten ++ rest) := by
  simp only [trampolineBody, bind_eq_ok, pure_eq_ok, convertArgs_eq_ok]
  constructor
  · rintro ⟨_, ⟨blocks, hblocks, rfl⟩, rest, hrest, rfl⟩
    exact ⟨blocks, rest, hblocks, hrest, rfl⟩
  · rintro ⟨blocks, rest, hblocks, hrest, rfl⟩
    exact ⟨_, ⟨blocks, hblocks, rfl⟩, rest, hrest, rfl⟩

/-! ### Statements of bodies -/

section Statements

variable {P : Stmt → Prop}

/-- What holds for the statements of each conversion holds for those of all arguments. -/
theorem forall_argBlocks {slotLocal : ArgPlan → String} {args : List ArgPlan}
    {blocks : List (List Stmt)} (h : ArgBlocks lang ctx slotLocal args blocks)
    (hargs : ∀ q ∈ args, ∀ b,
      lang.convert ctx q.crossing (lang.hostName q.slot.name) (slotLocal q) = .ok b →
        ∀ st ∈ b, P st) :
    ∀ st ∈ blocks.flatten, P st := by
  intro st hst
  obtain ⟨b, hb, hst⟩ := List.mem_flatten.mp hst
  obtain ⟨q, hq, hconv⟩ := forall₂_exists_left h hb
  exact hargs q hq b hconv st hst

theorem forall_finish {result : Crossing} {call : Expr} {raw cooked : String} {b : List Stmt}
    (h : finish lang ctx result call raw cooked = .ok b)
    (hcall : P (.run call) ∧ P (.bind raw call)) (hret : P (.ret cooked))
    (hresult : ∀ b, lang.convert ctx result raw cooked = .ok b → ∀ st ∈ b, P st) :
    ∀ st ∈ b, P st := by
  rcases finish_eq_ok.mp h with ⟨_, rfl⟩ | ⟨_, b, hb, rfl⟩
  · exact List.forall_mem_singleton.mpr hcall.1
  · rw [List.forall_mem_cons, List.forall_mem_append]
    exact ⟨hcall.2, hresult b hb, List.forall_mem_singleton.mpr hret⟩

end Statements

/-! ### Parameters -/

theorem hostParams_names (lang : Lang) (m : Method) :
    (hostParams lang m).map (·.name) = m.passed.map fun s => lang.hostName s.name := by
  unfold hostParams
  rw [List.map_map]
  rfl

/-- Every argument that is passed has a parameter on the boundary, of the type that it is planned to
have there. -/
theorem wireParams_plans {a r : Position} {m : Method}
    (hplan : Marshal.planMethod lang.ownership a r m = .ok p) :
    List.Forall₂
      (fun slot param => ∃ x type, Marshal.plan lang.ownership slot.type a = .ok x ∧
        lang.wireType ctx x = some type ∧ param = .plain (lang.hostName slot.name) type)
      m.passed (wireParams lang ctx p) := by
  have hargs : ∀ q ∈ p.args, Marshal.plan lang.ownership q.slot.type a = .ok q.crossing :=
    fun q hq => (Marshal.planMethod_arg hplan hq).2
  have hsome : ∀ q ∈ p.args, ∃ param,
      (lang.wireType ctx q.crossing).map (Param.plain (lang.hostName q.slot.name)) =
        some param := by
    intro q hq
    -- an argument that is passed has a value, and a value has a type on the boundary
    have hv : q.crossing.isVoid = false := by
      rw [Marshal.plan_isVoid (hargs q hq)]
      exact Method.isVoid_of_mem_passed (Marshal.planMethod_arg hplan hq).1
    obtain ⟨type, htype⟩ : ∃ type, lang.wireType ctx q.crossing = some type :=
      Lang.exists_wireType hv
    exact ⟨_, by rw [htype]; rfl⟩
  rw [← Marshal.planMethod_slots hplan, List.forall₂_map_left_iff]
  apply ((List.forall₂_and_left _ _).mpr ⟨hargs, forall₂_filterMap hsome⟩).imp
  rintro q param ⟨hq, hparam⟩
  obtain ⟨type, htype, rfl⟩ := Option.map_eq_some_iff.mp hparam
  exact ⟨q.crossing, type, hq, htype, rfl⟩

theorem wireParams_names {a r : Position} {m : Method}
    (hplan : Marshal.planMethod lang.ownership a r m = .ok p) :
    (wireParams lang ctx p).map (·.name) = m.passed.map fun s => lang.hostName s.name := by
  apply map_congr_of_forall₂
  refine (wireParams_plans hplan).imp ?_
  rintro slot param ⟨x, type, _, _, rfl⟩
  rfl

/-! ### Bodies exist -/

theorem plan_declared {o : Ownership} {t : BoundaryType} {pos : Position} {x : Crossing}
    {c : Catalog} (hp : Marshal.plan o t pos = .ok x)
    (h : ∀ name, t.callbackName? = some name → ∃ j, c.callback? name = some j) :
    x.Declared c := by
  -- only a callback is registered, and only the one that the type names
  intro name hconv
  rw [Marshal.plan_conversion hp, Marshal.conversion_eq_registerCallback] at hconv
  exact h name (BoundaryType.callbackName?_eq_some.mpr hconv.1)

theorem exists_convertArgs {slotLocal : ArgPlan → String} {args : List ArgPlan}
    (h : ∀ a ∈ args, a.crossing.Declared ctx.catalog) :
    ∃ b, convertArgs lang ctx slotLocal args = .ok b := by
  obtain ⟨blocks, hblocks⟩ := exists_mapM
    (f := fun a => lang.convert ctx a.crossing (lang.hostName a.slot.name) (slotLocal a))
    fun a ha => Lang.exists_convert (h a ha)
  exact ⟨blocks.flatten, convertArgs_eq_ok.mpr ⟨blocks, mapM_eq_ok.mp hblocks, rfl⟩⟩

theorem exists_finish {result : Crossing} {call : Expr} {raw cooked : String}
    (h : result.Declared ctx.catalog) :
    ∃ b, finish lang ctx result call raw cooked = .ok b := by
  cases hv : result.isVoid with
  | true => exact ⟨_, finish_eq_ok.mpr (Or.inl ⟨hv, rfl⟩)⟩
  | false =>
    obtain ⟨b, hb⟩ : ∃ b, lang.convert ctx result raw cooked = .ok b := Lang.exists_convert h
    exact ⟨_, finish_eq_ok.mpr (Or.inr ⟨hv, b, hb, rfl⟩)⟩

variable {a r : Position} {m : Method}

theorem planMethod_declared {o : Ownership} {c : Catalog}
    (hp : Marshal.planMethod o a r m = .ok p) (h : m.Declared c) :
    (∀ q ∈ p.args, q.crossing.Declared c) ∧ p.result.Declared c := by
  constructor
  · intro q hq
    obtain ⟨hs, hplan⟩ := Marshal.planMethod_arg hp hq
    exact plan_declared hplan
      (h _ (Method.mem_types_of_mem_passed hs))
  · exact plan_declared (Marshal.planMethod_result hp) (h _ m.returns_mem_types)

theorem exists_nativeCallBody (hp : Marshal.planMethod lang.ownership a r m = .ok p)
    (h : m.Declared ctx.catalog) (symbol : Symbol) (leading : List String) :
    ∃ body, nativeCallBody lang ctx p symbol leading = .ok body := by
  obtain ⟨hargs, hres⟩ := planMethod_declared hp h
  obtain ⟨b, hb⟩ : ∃ b, convertArgs lang ctx wireLocal p.args = .ok b := exists_convertArgs hargs
  obtain ⟨blocks, hblocks, rfl⟩ := convertArgs_eq_ok.mp hb
  obtain ⟨rest, hrest⟩ : ∃ rest, finish lang ctx p.result (nativeCallExpr ctx p symbol leading)
      "native_ret" "host_ret" = .ok rest := exists_finish hres
  exact ⟨_, nativeCallBody_eq_ok.mpr ⟨blocks, rest, hblocks, hrest, rfl⟩⟩

theorem exists_trampolineBody (hp : Marshal.planMethod lang.ownership a r m = .ok p)
    (h : m.Declared ctx.catalog) (callback : String) :
    ∃ body, trampolineBody lang ctx p callback = .ok body := by
  obtain ⟨hargs, hres⟩ := planMethod_declared hp h
  obtain ⟨b, hb⟩ : ∃ b, convertArgs lang ctx hostLocal p.args = .ok b := exists_convertArgs hargs
  obtain ⟨blocks, hblocks, rfl⟩ := convertArgs_eq_ok.mp hb
  obtain ⟨rest, hrest⟩ : ∃ rest, finish lang ctx p.result (invokeExpr lang p)
      "host_ret" "wire_ret" = .ok rest := exists_finish hres
  exact ⟨_, trampolineBody_eq_ok.mpr ⟨blocks, rest, hblocks, hrest, rfl⟩⟩

end Generate

end HostBindings
