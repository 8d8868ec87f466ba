import HostBindings.Proofs.Generate.Listing
import HostBindings.Proofs.Generate.ModelLabels
import HostBindings.Proofs.Target.Globals

/-!
Parameters that hide what their function needs. The host names of arguments are compared with each
other only, while a body also mentions registries, proxies, types and functions of the host. What a
body mentions is read off the types of its method; `ParamsClear` says of a catalog that no argument
has such a name.
-/

namespace HostBindings

open HostBindings.Code

def Interface.scope (i : Interface) : Scope :=
  ⟨i.module, i.name⟩

/-! ### Routines -/

namespace Code

/-- A function with a body, or a closure: the names of its parameters, its lines and statements. -/
structure Routine where
  params : List String
  leaves : List Item

def Field.routines (f : Field) : List Routine :=
  match f.initializer with
  | some (.closure params body) => [⟨params, body.leaves⟩]
  | _ => []

def Func.routines (f : Func) : List Routine :=
  match f.body with
  | some body => [⟨f.params.map (·.name), body.leaves⟩]
  | none => []

mutual

def Member.routines : Member → List Routine
  | .field f => f.routines
  | .func f => f.routines
  | .type _ members => Member.routinesOfList members

def Member.routinesOfList : List Member → List Routine
  | [] => []
  | m :: ms => m.routines ++ Member.routinesOfList ms

end

/-- The names from outside that a statement mentions. Lines, of which the type of registries
consists, count as mentioning none. -/
def Item.globals (lang : Lang) : Item → List String
  | .stmt st => lang.globals st
  | _ => []

/-- No parameter hides a name from outside that the code mentions. -/
def Routine.Clear (lang : Lang) (r : Routine) : Prop :=
  ∀ x ∈ r.params, x ∉ r.leaves.flatMap (Item.globals lang)

theorem Field.leaves_eq_routines (f : Field) : f.leaves = f.routines.flatMap (·.leaves) := by
  unfold leaves routines
  cases f.initializer with
  | none => rfl
  | some init =>
    cases init with
    | expr text => rfl
    | closure params body => rw [List.flatMap_singleton]

theorem Func.leaves_eq_routines (f : Func) : f.leaves = f.routines.flatMap (·.leaves) := by
  unfold leaves routines
  cases f.body with
  | none => rfl
  | some body => rw [List.flatMap_singleton]

mutual

/-- The code of a member is that of its functions and closures. -/
theorem Member.leaves_eq_routines (d : Member) : d.leaves = d.routines.flatMap (·.leaves) :=
  match d with
  | .field f => f.leaves_eq_routines
  | .func f => f.leaves_eq_routines
  | .type _ members => Member.leavesOfList_eq_routines members

theorem Member.leavesOfList_eq_routines (ds : List Member) :
    Member.leavesOfList ds = (Member.routinesOfList ds).flatMap (·.leaves) :=
  match ds with
  | [] => rfl
  | d :: ds => by
    rw [leavesOfList, routinesOfList, List.flatMap_append, d.leaves_eq_routines,
      Member.leavesOfList_eq_routines ds]

end

namespace Member

def Clear (lang : Lang) (d : Member) : Prop :=
  ∀ r ∈ d.routines, r.Clear lang

variable {lang : Lang} {d : Member} {body : List Stmt} {params : List String}

theorem clear_type {head : TypeHead} {members : List Member} :
    (type head members).Clear lang ↔ ∀ d ∈ members, d.Clear lang := by
  have hmem : ∀ r, r ∈ (type head members).routines ↔ ∃ d ∈ members, r ∈ d.routines := by
    intro r
    rw [routines]
    exact mem_of_cons rfl fun _ _ => rfl
  constructor
  · exact fun h d hd r hr => h r ((hmem r).mpr ⟨d, hd, hr⟩)
  · intro h r hr
    obtain ⟨d, hd, hr⟩ := (hmem r).mp hr
    exact h d hd r hr

theorem clear_block (h : d.routines = [⟨params, (lang.block body).leaves⟩]) :
    d.Clear lang ↔ ∀ x ∈ params, x ∉ body.flatMap lang.globals := by
  have hglobals : (lang.block body).leaves.flatMap (Item.globals lang) =
      body.flatMap lang.globals := by
    rw [Block.leaves_block, List.flatMap_map]
    rfl
  rw [Clear, h, List.forall_mem_singleton, Routine.Clear, hglobals]

/-- What mentions a name is a statement. -/
theorem clear_of_leaves (h : ∀ st, .stmt st ∉ d.leaves) : d.Clear lang := by
  intro r hr x _ hx
  obtain ⟨item, hitem, hx⟩ := List.mem_flatMap.mp hx
  have hleaf : item ∈ d.leaves := by
    rw [leaves_eq_routines]
    exact List.mem_flatMap.mpr ⟨r, hr, hitem⟩
  cases item with
  | stmt st => exact h st hleaf
  | _ => exact absurd hx List.not_mem_nil

theorem clear_of_runs (h : d.Runs fun _ => False) : d.Clear lang :=
  clear_of_leaves fun _ hst => (h _ hst).elim fun _ hfalse => hfalse.2

theorem clear_of_params (h : ∀ r ∈ d.routines, r.params = []) : d.Clear lang := by
  intro r hr x hx
  rw [h r hr] at hx
  exact absurd hx List.not_mem_nil

end Member

end Code

namespace Generate

variable {lang : Lang} {ctx : Context} {p : CallPlan} {m : Method} {callback : String}
  {name : String} {b : List Stmt}

/-! ### Bodies -/

def nativeNeeds (lang : Lang) (scope : Scope) (symbol : Symbol) (m : Method) : List String :=
  (m.passed.flatMap fun slot => lang.needs scope slot.type .argument) ++
    lang.calleeName scope symbol :: lang.needs scope m.returns .result

def trampolineNeeds (lang : Lang) (scope : Scope) (callback : String) (m : Method) :
    List String :=
  Naming.registryName callback ::
    ((m.passed.flatMap fun slot => lang.needs scope slot.type .callbackArgument) ++
      lang.needs scope m.returns .callbackResult)

def NativeClear (lang : Lang) (scope : Scope) (symbol : Symbol) (m : Method) : Prop :=
  ∀ slot ∈ m.passed, lang.hostName slot.name ∉ nativeNeeds lang scope symbol m

def TrampolineClear (lang : Lang) (scope : Scope) (callback : String) (m : Method) : Prop :=
  ∀ x ∈ callbackHandle :: m.passed.map fun slot => lang.hostName slot.name,
    x ∉ trampolineNeeds lang scope callback m

instance {scope : Scope} {symbol : Symbol} : Decidable (NativeClear lang scope symbol m) :=
  inferInstanceAs (Decidable (∀ slot ∈ m.passed, _))

instance {scope : Scope} : Decidable (TrampolineClear lang scope callback m) :=
  inferInstanceAs (Decidable (∀ x ∈ _ :: _, _))

section Plan

variable {a r : Position} (hplan : Marshal.planMethod lang.ownership a r m = .ok p)

include hplan

theorem mem_globals_argBlocks {slotLocal : ArgPlan → String} {blocks : List (List Stmt)}
    (h : ArgBlocks lang ctx slotLocal p.args blocks) :
    name ∈ blocks.flatten.flatMap lang.globals ↔
      name ∈ m.passed.flatMap fun slot => lang.needs ctx.scope slot.type a := by
  have hargs : ∀ q ∈ p.args, Marshal.plan lang.ownership q.slot.type a = .ok q.crossing :=
    fun q hq => (Marshal.planMethod_arg hplan hq).2
  have hneeds : List.Forall₂ (fun q b =>
      name ∈ b.flatMap lang.globals ↔ name ∈ lang.needs ctx.scope q.slot.type a) p.args blocks :=
    ((List.forall₂_and_left _ _).mpr ⟨hargs, h⟩).imp fun q b hq => mem_globals_convert hq.1 hq.2
  -- block by block, in the order of the arguments
  rw [← List.flatMap_id, List.flatMap_assoc, ← Marshal.planMethod_slots hplan, List.flatMap_map]
  exact mem_flatMap_congr_of_forall₂ hneeds

theorem mem_globals_finish {call : Expr} {raw cooked : String}
    (h : finish lang ctx p.result call raw cooked = .ok b) :
    name ∈ b.flatMap lang.globals ↔
      name ∈ lang.globals (.run call) ∨ name ∈ lang.needs ctx.scope m.returns r := by
  have hresult := Marshal.planMethod_result hplan
  have hret : lang.globals (.ret cooked) = [] := by
    cases lang <;> rfl
  rcases finish_eq_ok.mp h with ⟨hvoid, rfl⟩ | ⟨_, conversion, hconv, rfl⟩
  · -- what is not there needs nothing
    have hnone : lang.needs ctx.scope m.returns r = [] := by
      rw [Marshal.plan_isVoid hresult] at hvoid
      cases hm : m.returns with
      | void => cases lang <;> rfl
      | _ =>
        rw [hm] at hvoid
        cases hvoid
    rw [hnone, List.flatMap_singleton, or_iff_left List.not_mem_nil]
  · rw [List.flatMap_cons, List.flatMap_append, List.flatMap_singleton, Lang.globals_bind, hret,
      List.append_nil, List.mem_append, mem_globals_convert hresult hconv]

end Plan

theorem mem_globals_nativeCallBody {symbol : Symbol} {leading : List String} {body : List Stmt}
    (hplan : Marshal.nativeCall lang.ownership m = .ok p)
    (hbody : nativeCallBody lang ctx p symbol leading = .ok body) :
    name ∈ body.flatMap lang.globals ↔ name ∈ nativeNeeds lang ctx.scope symbol m := by
  obtain ⟨blocks, rest, hblocks, hrest, rfl⟩ := nativeCallBody_eq_ok.mp hbody
  have hcall : lang.globals (.run (nativeCallExpr ctx p symbol leading)) =
      [lang.calleeName ctx.scope symbol] := Lang.globals_native _ _ _
  rw [List.flatMap_append, List.mem_append, mem_globals_argBlocks hplan hblocks,
    mem_globals_finish hplan hrest, hcall, List.mem_singleton, nativeNeeds, List.mem_append,
    List.mem_cons]

theorem mem_globals_trampolineBody {body : List Stmt}
    (hplan : Marshal.trampoline lang.ownership m = .ok p)
    (hbody : trampolineBody lang ctx p callback = .ok body) :
    name ∈ body.flatMap lang.globals ↔ name ∈ trampolineNeeds lang ctx.scope callback m := by
  obtain ⟨blocks, rest, hblocks, hrest, rfl⟩ := trampolineBody_eq_ok.mp hbody
  have hlookup : lang.globals (lookupStmt callback) = [Naming.registryName callback] := by
    cases lang <;> rfl
  have hcall : lang.globals (.run (invokeExpr lang p)) = [] := Lang.globals_invoke _ _ _
  rw [List.flatMap_cons, List.flatMap_append, hlookup, List.mem_append, List.mem_append,
    List.mem_singleton, mem_globals_argBlocks hplan hblocks, mem_globals_finish hplan hrest, hcall,
    or_iff_right List.not_mem_nil, trampolineNeeds, List.mem_cons, List.mem_append]

/-! ### Members -/

theorem clear_hostFunc (modifiers : List Modifier) (body : List Stmt) :
    (Member.func { hostFunc lang m with modifiers, body := some (lang.block body) }).Clear lang ↔
      ∀ slot ∈ m.passed, lang.hostName slot.name ∉ body.flatMap lang.globals := by
  have hroutines : (Member.func
      { hostFunc lang m with modifiers, body := some (lang.block body) }).routines =
        [⟨(hostParams lang m).map (·.name), (lang.block body).leaves⟩] := rfl
  rw [Member.clear_block hroutines, hostParams_names, List.forall_mem_map]

theorem clear_trampoline (name : String) (params : List Param) (returns : Option TypeRef)
    (body : List Stmt) : (lang.trampoline name params returns (lang.block body)).Clear lang ↔
      ∀ x ∈ params.map (·.name), x ∉ body.flatMap lang.globals := by
  apply Member.clear_block
  cases lang <;> rfl

theorem clear_loader {fn : Func} (h : lang.loader? ctx = some fn) :
    (Member.func fn).Clear lang := by
  cases lang with
  | swift => cases h
  | kotlin =>
    cases h
    exact Member.clear_of_params (List.forall_mem_singleton.mpr rfl)

theorem clear_proxyRelease (st : Stmt) : ∀ d ∈ lang.proxyRelease (.stmt st), d.Clear lang := by
  intro d hd
  apply Member.clear_of_params
  cases lang with
  | swift =>
    rw [List.mem_singleton.mp hd]
    exact List.forall_mem_singleton.mpr rfl
  | kotlin =>
    rcases List.mem_cons.mp hd with rfl | hd
    · exact List.forall_mem_nil _
    · rw [List.mem_singleton.mp hd]
      exact List.forall_mem_singleton.mpr rfl

theorem clear_releaseTrampoline : (releaseTrampoline lang callback).Clear lang := by
  have hglobals : [Stmt.run (.remove callback callbackHandle)].flatMap lang.globals =
      [Naming.registryName callback] := by
    cases lang <;> rfl
  have hne : callbackHandle ≠ Naming.registryName callback := by
    -- registries have an ending of their own
    intro h
    have hsuffix := Naming.suffix_append (Naming.decapitalize callback) "Registry"
    rw [show Naming.decapitalize callback ++ "Registry" = callbackHandle from h.symm] at hsuffix
    exact absurd hsuffix (by decide)
  rw [releaseTrampoline, clear_trampoline, hglobals]
  simpa [handleParam, Param.plain] using hne

theorem clear_trampolines {ts : List Member} (h : trampolines lang ctx callback = .ok ts) :
    (∀ d ∈ ts, d.Clear lang) ↔
      ∀ m ∈ ctx.catalog.callbackMethods callback, TrampolineClear lang ctx.scope callback m := by
  obtain ⟨j, ms, hj, hms, rfl⟩ := trampolines_eq_ok.mp h
  rw [List.forall_mem_append, List.forall_mem_singleton, and_iff_left clear_releaseTrampoline,
    Catalog.callbackMethods_eq hj]
  apply forall_mem_congr_of_forall₂
  apply hms.imp
  intro m d hok
  obtain ⟨p, body, hplan, hbody, rfl⟩ := methodTrampoline_eq_ok.mp hok
  rw [clear_trampoline, List.map_cons, wireParams_names hplan]
  exact forall₂_congr fun _ _ => not_congr (mem_globals_trampolineBody hplan hbody)

/-- A proxy is clear if its methods are. -/
theorem clear_proxy {r : TypeDecl × List Func} (h : proxy lang ctx callback = .ok r) :
    r.1.member.Clear lang ↔ ∀ m ∈ ctx.catalog.callbackMethods callback,
      NativeClear lang ctx.scope (.callbackMethod callback m.name) m := by
  obtain ⟨j, funcs, hj, hfuncs, rfl⟩ := proxy_eq_ok.mp h
  rw [TypeDecl.member, Member.clear_type, List.forall_mem_append,
    and_iff_left (clear_proxyRelease _), List.forall_mem_map, Catalog.callbackMethods_eq hj]
  apply forall_mem_congr_of_forall₂
  apply hfuncs.imp
  intro m r hok
  obtain ⟨p, body, hplan, hbody, rfl⟩ := proxyFunc_eq_ok.mp hok
  rw [clear_hostFunc]
  exact forall₂_congr fun _ _ => not_congr (mem_globals_nativeCallBody hplan hbody)

/-- A service is clear if its methods and the trampolines of the callbacks that it takes are. -/
theorem clear_service {i : Interface} {proxies : List String} {funcs : List (Func × Option Func)}
    {taken : List (List Member)} {made : List (TypeDecl × List Func)}
    (hs : ServiceParts lang ctx i proxies funcs taken made) :
    (Member.type (serviceHead i) (serviceMembers lang ctx funcs taken made)).Clear lang ↔
      (∀ m ∈ i.methods, NativeClear lang ctx.scope (.method m.name) m) ∧
      ∀ callback ∈ i.callbackParams, ∀ m ∈ ctx.catalog.callbackMethods callback,
        TrampolineClear lang ctx.scope callback m := by
  -- only methods and trampolines can have parameters that hide something
  have hloader : ∀ d ∈ (lang.loader? ctx).toList.map Member.func, d.Clear lang := by
    rw [List.forall_mem_map]
    exact fun fn hfn => clear_loader (Option.mem_toList.mp hfn)
  have hmethods : (∀ d ∈ funcs.map (Member.func ·.1), d.Clear lang) ↔
      ∀ m ∈ i.methods, NativeClear lang ctx.scope (.method m.name) m := by
    rw [List.forall_mem_map]
    apply forall_mem_congr_of_forall₂
    apply hs.methods.imp
    intro m r hok
    obtain ⟨p, body, hplan, hbody, rfl⟩ := serviceMethod_eq_ok.mp hok
    rw [clear_hostFunc]
    exact forall₂_congr fun _ _ => not_congr (mem_globals_nativeCallBody hplan hbody)
  have htaken : (∀ d ∈ taken.flatten, d.Clear lang) ↔
      ∀ callback ∈ i.callbackParams, ∀ m ∈ ctx.catalog.callbackMethods callback,
        TrampolineClear lang ctx.scope callback m := by
    rw [List.forall_mem_flatten]
    exact forall_mem_congr_of_forall₂ (hs.taken.imp fun callback ts hok => clear_trampolines hok)
  have hnatives : ∀ d ∈ (funcs.filterMap (·.2) ++ made.flatMap (·.2)).map Member.func,
      d.Clear lang := by
    rw [List.forall_mem_map]
    intro fn hfn
    obtain ⟨_, _, _, _, h⟩ := (hs.native_of_mem hfn).declaration
    exact Member.clear_of_runs (runs_nativeDeclaration h)
  rw [Member.clear_type, serviceMembers, List.forall_mem_append, List.forall_mem_append,
    List.forall_mem_append, and_iff_left hnatives, and_iff_right hloader, hmethods, htaken]

/-! ### Files -/

variable {c : Catalog} {s : Settings} {f : SourceFile}

/-- No parameter of what is generated for a catalog hides a name that the code behind it needs. -/
structure ParamsClear (lang : Lang) (c : Catalog) : Prop where
  /-- Methods of services. -/
  service : ∀ i ∈ c.services, ∀ m ∈ i.methods, NativeClear lang i.scope (.method m.name) m
  /-- Methods of proxies; each proxy belongs to the first service that returns its callback. -/
  proxy : ∀ first ∈ firstReturns [] c.services, ∀ callback ∈ first.2,
    ∀ m ∈ c.callbackMethods callback,
      NativeClear lang first.1.scope (.callbackMethod callback m.name) m
  trampoline : ∀ i ∈ c.services, ∀ callback ∈ i.callbackParams,
    ∀ m ∈ c.callbackMethods callback, TrampolineClear lang i.scope callback m

theorem paramsClear_iff :
    ParamsClear lang c ↔
      (∀ i ∈ c.services, ∀ m ∈ i.methods, NativeClear lang i.scope (.method m.name) m) ∧
      (∀ first ∈ firstReturns [] c.services, ∀ callback ∈ first.2,
        ∀ m ∈ c.callbackMethods callback,
          NativeClear lang first.1.scope (.callbackMethod callback m.name) m) ∧
      ∀ i ∈ c.services, ∀ callback ∈ i.callbackParams,
        ∀ m ∈ c.callbackMethods callback, TrampolineClear lang i.scope callback m :=
  ⟨fun h => ⟨h.service, h.proxy, h.trampoline⟩,
    fun ⟨hservice, hproxy, htrampoline⟩ => ⟨hservice, hproxy, htrampoline⟩⟩

instance : DecidablePred (ParamsClear lang) :=
  fun _ => decidable_of_iff' _ paramsClear_iff

theorem clear_file (hf : file c s = .ok f) :
    (∀ d ∈ f.members, d.Clear s.lang) ↔ ParamsClear s.lang c := by
  have hscope (i : Interface) : (Context.ofInterface c s i).scope = i.scope := rfl
  constructor
  · intro h
    have hservice : ∀ i ∈ c.services,
        (∀ m ∈ i.methods, NativeClear s.lang i.scope (.method m.name) m) ∧
        ∀ callback ∈ i.callbackParams, ∀ m ∈ c.callbackMethods callback,
          TrampolineClear s.lang i.scope callback m := by
      intro i hi
      obtain ⟨proxies, funcs, taken, made, hs⟩ := exists_hasService hf hi
      rw [← hscope]
      exact (clear_service hs.parts).mp (h _ (service_mem_members hf hs))
    refine ⟨fun i hi => (hservice i hi).1, ?_, fun i hi => (hservice i hi).2⟩
    rintro ⟨i, proxies⟩ hfirst callback hcallback
    rw [← proxyClaims_nil] at hfirst
    obtain ⟨funcs, taken, made, hs⟩ := exists_hasService_of_claim hf hfirst
    obtain ⟨r, hr, hok⟩ := forall₂_exists_right hs.parts.made hcallback
    rw [← hscope]
    exact (clear_proxy hok).mp (h _ (proxy_mem_members hf hs hr))
  · intro h d hd
    -- only services and proxies have statements
    rcases leaves_members hf hd with rfl | hnone |
      ⟨i, proxies, funcs, taken, made, hs, rfl | ⟨callback, hcallback, r, hok, rfl⟩⟩
    · exact Member.clear_of_leaves (stmt_notMem_registryType s.lang)
    · exact Member.clear_of_leaves fun st => by rw [hnone]; exact List.not_mem_nil
    · have hi := (mem_proxyClaims hs.claim).1
      rw [clear_service hs.parts, hscope]
      exact ⟨h.service i hi, h.trampoline i hi⟩
    · rw [clear_proxy hok, hscope]
      exact h.proxy (i, proxies) (proxyClaims_nil _ ▸ hs.claim) callback hcallback

/-- The checks accept a catalog without comparing its arguments with what bodies mention. In the
file generated for it no parameter hides a name that its body needs exactly if the arguments are
clear of the names that `nativeNeeds` and `trampolineNeeds` list. -/
theorem params_clear {a : Artifact} (h : artifact c s = .ok a) :
    ∃ f, file c s = .ok f ∧ Layout.renderFile s.lang s.indent f = .ok a.contents ∧
      ((∀ d ∈ f.members, d.Clear s.lang) ↔ ParamsClear s.lang c) := by
  obtain ⟨_, _, f, hf, hcontents⟩ := artifact_eq_ok h
  exact ⟨f, hf, hcontents, clear_file hf⟩

/-- A service that takes a callback along with a number and bytes, and that lends the callback out;
the number has the given name, here and in the method of the callback. -/
def tankCatalog (argument : String) : Catalog where
  interfaces :=
    [⟨"Listener", "lib", "lib", true,
       [⟨"on_level", .single .string, "String",
          [⟨argument, .single (.numeric .int), "i32"⟩,
           ⟨"data", .vec (.numeric .byte), "Vec<u8>"⟩]⟩]⟩,
     ⟨"Tank", "lib", "lib", false,
       [⟨"watch", .void, "()",
          [⟨"listener", .callback "Listener", "Box<dyn Listener>"⟩,
           ⟨argument, .single (.numeric .int), "i32"⟩,
           ⟨"data", .vec (.numeric .byte), "Vec<u8>"⟩]⟩,
        ⟨"lend", .callback "Listener", "Box<dyn Listener>", []⟩]⟩]
  records := []

def tankSettings (lang : Lang) : Settings :=
  { Settings.forModule "demo" with lang := lang }

theorem params_clear_tank :
    ∃ a f, artifact (tankCatalog "level") (tankSettings .swift) = .ok a ∧
      file (tankCatalog "level") (tankSettings .swift) = .ok f ∧
      ∀ d ∈ f.members, d.Clear .swift := by
  have hs : (tankSettings .swift).check = .ok () := by decide
  have hc : (tankCatalog "level").check = .ok () := by decide
  have hn : catalogCollision? (tankSettings .swift).lang (tankCatalog "level") = none := by decide
  obtain ⟨_, _, _, _, ha⟩ := artifact_of_checks hs hc hn
  obtain ⟨f, hf, _, hiff⟩ := params_clear ha
  have hclear : ParamsClear .swift (tankCatalog "level") := by decide
  exact ⟨_, f, ha, hf, hiff.mpr hclear⟩

/-- A number called `max` passes the checks, and hides the function that sizes a buffer for the
bytes next to it. -/
theorem params_hide_max :
    ∃ a f, artifact (tankCatalog "max") (tankSettings .swift) = .ok a ∧
      file (tankCatalog "max") (tankSettings .swift) = .ok f ∧
      ¬ ∀ d ∈ f.members, d.Clear .swift := by
  have hs : (tankSettings .swift).check = .ok () := by decide
  have hc : (tankCatalog "max").check = .ok () := by decide
  have hn : catalogCollision? (tankSettings .swift).lang (tankCatalog "max") = none := by decide
  obtain ⟨f, _, hf, _, ha⟩ := artifact_of_checks hs hc hn
  refine ⟨_, f, ha, hf, ?_⟩
  have hhidden : ¬ ParamsClear .swift (tankCatalog "max") := by decide
  exact fun h => hhidden ((clear_file hf).mp h)

/-- The registry can be hidden in both languages, and in Kotlin the service itself, whose name stands
in every call of native code. -/
example :
    ¬ ParamsClear .swift (tankCatalog "listener_registry") ∧
      ¬ ParamsClear .kotlin (tankCatalog "listener_registry") ∧
      ¬ ParamsClear .kotlin (tankCatalog "Tank") ∧
      ParamsClear .kotlin (tankCatalog "max") := by
  decide

end Generate

end HostBindings
