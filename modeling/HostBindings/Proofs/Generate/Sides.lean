import HostBindings.Proofs.Generate.Locals
import HostBindings.Proofs.Generate.Outcome
import HostBindings.Proofs.Marshal.Opposites

/-!
The sides of a callback interface. The interface that the host implements, the proxies around
callbacks of native code, the trampolines that native code calls and the native declarations that
proxies call are each made from the methods on their own. They agree on names, parameters and
results: `sides_agree`.
-/

namespace HostBindings

open HostBindings.Code

namespace Generate

variable {lang : Lang} {ctx ctx' : Context} {m : Method} {p q : CallPlan} {a r a' r' : Position}

/-- Plans of one method whose values have the same types on the boundary have the same
parameters. -/
theorem wireParams_congr (hp : Marshal.planMethod lang.ownership a r m = .ok p)
    (hq : Marshal.planMethod lang.ownership a' r' m = .ok q)
    (h : ∀ slot ∈ m.passed, ∀ x y, Marshal.plan lang.ownership slot.type a = .ok x →
      Marshal.plan lang.ownership slot.type a' = .ok y →
        lang.wireType ctx x = lang.wireType ctx' y) :
    wireParams lang ctx p = wireParams lang ctx' q := by
  apply (filterMap_congr_of_forall₂ _).symm
  apply forall₂_trans_of_mem (Marshal.planMethod_args hp) (Marshal.planMethod_args hq)
  rintro slot hslot y z ⟨rfl, hy⟩ ⟨hz, hz'⟩
  rw [hz, h _ hslot _ _ hy hz']

/-! ### Entries for native code -/

/-- A function that native code can call: its name, the names and types of its parameters, its
result if it has one, and its code. -/
structure NativeEntry where
  name : String
  paramNames : List String
  paramTypes : List TypeRef
  result : Option TypeRef
  items : List Item

/-- The result of a C function, for which Swift writes `Void` if there is none. -/
def swiftResult? : TypeRef → Option TypeRef
  | .named "Void" [] none => none
  | t => some t

/-- The function that a member lets native code call. In Swift it is a constant of a C function type
that holds a closure, in Kotlin a function with a body, and both belong to a type instead of its
objects. -/
def nativeEntry? : Lang → Member → Option NativeEntry
  | .swift, .field fld =>
    match fld.type, fld.initializer with
    | .function types result true, some (.closure names body) =>
      if .static ∈ fld.modifiers ∧ fld.isMutable = false then
        some ⟨fld.name, names, types, swiftResult? result, body.items⟩
      else none
    | _, _ => none
  | .kotlin, .func fn =>
    if .static ∈ fn.modifiers then
      fn.body.map fun body =>
        ⟨fn.name, fn.params.map (·.name), fn.params.map (·.type), fn.returns, body.items⟩
    else none
  | _, _ => none

/-- No value crosses with the type that stands for no result. -/
theorem swiftResult?_wireType (ctx : Context) (x : Crossing) :
    swiftResult? ((Swift.wireType ctx x).getD (.plain "Void")) = Swift.wireType ctx x := by
  unfold Swift.wireType
  cases x.wire with
  | numeric n => cases n <;> rfl
  | model callback =>
    show swiftResult? (.named _ [] (some _)) = _
    unfold swiftResult?
    -- `Void` is a type of the language, which no import provides
    split
    · rename_i h
      exact absurd (TypeRef.named.inj h).2.2 (Option.some_ne_none _)
    · rfl
  | _ => rfl

theorem nativeEntry?_trampoline (ctx : Context) (x : Crossing) (name : String) (params : List Param)
    (body : List Stmt) :
    nativeEntry? lang (lang.trampoline name params (lang.wireType ctx x) (lang.block body)) =
      some ⟨name, params.map (·.name), params.map (·.type), lang.wireType ctx x,
        body.map .stmt⟩ := by
  cases lang with
  | swift =>
    show some (NativeEntry.mk _ _ _ (swiftResult? ((Swift.wireType ctx x).getD _)) _) = _
    rw [swiftResult?_wireType]
    rfl
  | kotlin => rfl

/-! ### Sides -/

structure CallbackSide where
  method : Method
  /-- What the interface declares. -/
  decl : Func
  /-- The parameters on the boundary, behind the handle. -/
  wire : List Param
  /-- The result on the boundary, if there is a result. -/
  result : Option TypeRef

namespace CallbackSide

variable (lang : Lang) (ctx : Context) (callback : String) (side : CallbackSide)

/-- One parameter crosses for each argument that is passed, in order, under the host name of the
argument and with its type on the boundary. -/
structure Crosses : Prop where
  wire : List.Forall₂
    (fun slot param => ∃ x type, Marshal.plan lang.ownership slot.type .callbackArgument = .ok x ∧
      lang.wireType ctx x = some type ∧ param = .plain (lang.hostName slot.name) type)
    side.method.passed side.wire
  result : ∃ x, Marshal.plan lang.ownership side.method.returns .callbackResult = .ok x ∧
    side.result = lang.wireType ctx x

/-- A trampoline gets the handle and what crosses. It converts each parameter and passes the
converted values to the declared function, under the names of the declared parameters. -/
structure CalledBy (t : Member) (args : List (String × String)) (body : List Stmt) : Prop where
  entry : nativeEntry? lang t = some
    ⟨Naming.trampolineName callback side.method.name, callbackHandle :: side.wire.map (·.name),
      lang.handleType :: side.wire.map (·.type), side.result, body.map .stmt⟩
  wellScoped : WellScoped (callbackHandle :: side.wire.map (·.name)) body
  passes : PassesEach lang ctx side.method "h" .callbackArgument [lookupStmt callback]
    (.invoke "host_callback" side.decl.name args) body
  labels : args.map (·.1) = side.decl.params.map (·.name)
  values : args.map (·.2) = side.method.passed.map fun slot => argLocal "h" slot.name

/-- A function of a proxy overrides the declared one. It passes its handle and each of its
parameters, converted, to the native function of the method. -/
structure OverriddenBy (fn : Func) : Prop where
  modifiers : fn.modifiers = [.exposed, .override]
  name : fn.name = side.decl.name
  params : fn.params = side.decl.params
  returns : fn.returns = side.decl.returns
  passes : ∃ body, fn.body.map (·.items) = some (body.map .stmt) ∧
    PassesEach lang ctx side.method "w" .argument []
      (.native ctx.scope (.callbackMethod callback side.method.name)
        (nativeHandle :: side.method.passed.map fun slot => argLocal "w" slot.name)) body

/-- The native function that a proxy calls in Kotlin: behind the handle it has the parameters that
the trampoline has. -/
structure ForwardedBy (fn : Func) : Prop where
  kind : fn.kind = .function
  name : fn.name = Kotlin.symbolName (.callbackMethod callback side.method.name)
  modifiers : fn.modifiers = [.exposed, .static, .external]
  annotations : fn.annotations = []
  params : fn.params = .plain "handle" Kotlin.handleType :: side.wire
  returns : fn.returns = side.result
  body : fn.body = none

def ofPlan (p : CallPlan) : CallbackSide :=
  ⟨p.method, hostFunc lang p.method, wireParams lang ctx p, lang.wireType ctx p.result⟩

end CallbackSide

/-- The interface, the proxies and the trampolines in a file all come from the same sides, one for
each method of the interface, in order. -/
structure SidesAgree (c : Catalog) (s : Settings) (f : SourceFile) (j : Interface)
    (sides : List CallbackSide) : Prop where
  methods : sides.map (·.method) = j.methods
  crosses : ∀ side ∈ sides, side.Crosses s.lang (.ofInterface c s j)
  declares : ∃ head, .type head (sides.map (.func ·.decl)) ∈ f.members ∧
    head.kind = .interface ∧ head.name = j.name
  /-- Besides the functions that override those of the interface a proxy has what releases it,
  which in Kotlin overrides the `close` of `AutoCloseable`. The native functions that it calls are
  declared by the type of a service. -/
  overrides : ∀ head members, .type head members ∈ f.members → head.kind = .object →
    head.name = Naming.proxyName j.name →
      ∃ i ∈ c.services, ∃ funcs owner ownerMembers natives,
        members = funcs.map .func ++
          s.lang.proxyRelease (.stmt (releaseCall (.ofInterface c s i) j.name)) ∧
        List.Forall₂ (·.OverriddenBy s.lang (.ofInterface c s i) j.name) sides funcs ∧
        .type owner ownerMembers ∈ f.members ∧ owner.kind = .holder ∧ owner.name = i.name ∧
        natives.map .func <:+: ownerMembers ∧
        (s.lang = .kotlin → List.Forall₂ (·.ForwardedBy j.name) sides natives)
  /-- Each service that takes the callback has the trampolines, and then the one that releases. -/
  calls : ∀ i ∈ c.services, ∀ m ∈ i.methods, ∀ slot ∈ m.params, slot.type = .callback j.name →
    ∃ head members ts, .type head members ∈ f.members ∧ head.kind = .holder ∧
      head.name = i.name ∧ ts ++ [releaseTrampoline s.lang j.name] <:+: members ∧
      List.Forall₂
        (fun side t => ∃ args body,
          side.CalledBy s.lang (.ofInterface c s i) j.name t args body) sides ts

/-! ### One method -/

section Method

variable {callback : String} (hplan : Marshal.trampoline lang.ownership m = .ok p)

include hplan

theorem crosses_ofPlan : (CallbackSide.ofPlan lang ctx p).Crosses lang ctx := by
  have hm := Marshal.planMethod_method hplan
  constructor
  · show List.Forall₂ _ p.method.passed _
    rw [hm]
    exact wireParams_plans hplan
  · show ∃ x, Marshal.plan lang.ownership p.method.returns _ = _ ∧ _
    rw [hm]
    exact ⟨p.result, Marshal.planMethod_result hplan, rfl⟩

/-- The side of a method that passes no callbacks is the same for all services. -/
theorem ofPlan_place (hflat : ∀ t ∈ m.types, t.callbackName? = none)
    (hs : ctx.settings = ctx'.settings) :
    CallbackSide.ofPlan lang ctx p = CallbackSide.ofPlan lang ctx' p := by
  have hwire : wireParams lang ctx p = wireParams lang ctx' p := by
    apply wireParams_congr hplan hplan
    intro slot hslot x y hx hy
    have hflat := hflat _ (Method.mem_types_of_mem_passed hslot)
    rw [hx] at hy
    rw [← Except.ok.inj hy]
    exact Lang.wireType_congr rfl (Marshal.plan_wire_ne_model hflat hx) rfl hs
  have hresult : lang.wireType ctx p.result = lang.wireType ctx' p.result :=
    Lang.wireType_congr rfl (Marshal.plan_wire_ne_model (hflat _ m.returns_mem_types)
      (Marshal.planMethod_result hplan)) rfl hs
  rw [CallbackSide.ofPlan, CallbackSide.ofPlan, hwire, hresult]

theorem calledBy_trampoline (hnames : (m.passed.map fun slot => lang.hostName slot.name).Nodup)
    {t : Member} (ht : methodTrampoline lang ctx callback m = .ok t) :
    ∃ args body, (CallbackSide.ofPlan lang ctx p).CalledBy lang ctx callback t args body := by
  obtain ⟨p', body, hplan', hbody, rfl⟩ := methodTrampoline_eq_ok.mp ht
  obtain rfl : p' = p := Except.ok.inj (hplan'.symm.trans hplan)
  obtain ⟨hscoped, _, hpasses⟩ := trampolineBody_wellScoped hnames hplan hbody
  -- the plan holds the method that it was made for
  have hm : p'.method = m := Marshal.planMethod_method hplan
  refine ⟨m.passed.map fun slot => (lang.hostName slot.name, argLocal "h" slot.name), body, ?_,
    hscoped, ?_, ?_, ?_⟩
  · show _ = some (NativeEntry.mk (Naming.trampolineName callback p'.method.name) _ _ _ _)
    rw [hm]
    exact nativeEntry?_trampoline ctx p'.result _ _ body
  · show PassesEach lang ctx p'.method "h" _ _ (.invoke _ (lang.hostName p'.method.name) _) body
    rw [hm]
    exact hpasses
  · show _ = (hostParams lang p'.method).map (·.name)
    rw [hm, hostParams_names, List.map_map]
    rfl
  · show _ = p'.method.passed.map _
    rw [hm, List.map_map]
    rfl

theorem overriddenBy_proxyFunc
    (hnames : (m.passed.map fun slot => lang.hostName slot.name).Nodup)
    {fn : Func × Option Func} (hfn : proxyFunc lang ctx callback m = .ok fn) :
    (CallbackSide.ofPlan lang ctx' p).OverriddenBy lang ctx callback fn.1 := by
  obtain ⟨q, body, hq, hbody, rfl⟩ := proxyFunc_eq_ok.mp hfn
  obtain ⟨_, _, hpasses⟩ := nativeCallBody_wellScoped hnames (List.Subset.refl _) hq hbody
  have hm : p.method = m := Marshal.planMethod_method hplan
  constructor
  · rfl
  · rw [CallbackSide.ofPlan, hm]
  · rw [CallbackSide.ofPlan, hm]
  · rw [CallbackSide.ofPlan, hm]
  · refine ⟨body, rfl, ?_⟩
    rw [CallbackSide.ofPlan, hm]
    exact hpasses

end Method

/-- In Kotlin what the proxy's call is planned to pass has the types that the trampoline has. -/
theorem forwardedBy_proxyFunc {callback : String}
    (hplan : Marshal.trampoline Lang.kotlin.ownership m = .ok p)
    (hflat : ∀ t ∈ m.types, t.callbackName? = none) {fn : Func × Option Func}
    (hfn : proxyFunc .kotlin ctx callback m = .ok fn) :
    ∃ native, fn.2 = some native ∧
      (CallbackSide.ofPlan .kotlin ctx' p).ForwardedBy callback native := by
  obtain ⟨q, body, hq, _, rfl⟩ := proxyFunc_eq_ok.mp hfn
  obtain ⟨hm, _, hresult⟩ := Marshal.planMethod_eq_ok.mp hplan
  -- without callbacks a type has one wire type in all positions
  have hwire : wireParams .kotlin ctx q = wireParams .kotlin ctx' p := by
    apply wireParams_congr hq hplan
    intro slot hslot x y hx hy
    exact Lang.wireType_kotlin (Marshal.plan_wire_flat (hflat _
      (Method.mem_types_of_mem_passed hslot)) hx hy)
  have hreturns : Lang.kotlin.wireType ctx q.result = Lang.kotlin.wireType ctx' p.result :=
    Lang.wireType_kotlin (Marshal.plan_wire_flat (hflat _ m.returns_mem_types)
      (Marshal.planMethod_result hq) hresult)
  refine ⟨_, rfl, rfl, ?_, rfl, rfl, ?_, hreturns, rfl⟩
  · show _ = Kotlin.symbolName (.callbackMethod callback p.method.name)
    rw [hm]
    rfl
  · show [_] ++ wireParams .kotlin ctx q = _
    rw [hwire]
    rfl

/-! ### Members of services -/

theorem taken_infix_serviceMembers {funcs : List (Func × Option Func)} {taken : List (List Member)}
    {made : List (TypeDecl × List Func)} {ts : List Member} (h : ts ∈ taken) :
    ts <:+: serviceMembers lang ctx funcs taken made :=
  (List.infix_of_mem_flatten h).trans (List.infix_append _ _ _)

theorem natives_infix_serviceMembers {funcs : List (Func × Option Func)}
    {taken : List (List Member)} {made : List (TypeDecl × List Func)} {d : TypeDecl × List Func}
    {natives : List Func} (h : d ∈ made) (hn : natives <:+: d.2) :
    natives.map .func <:+: serviceMembers lang ctx funcs taken made := by
  have hmade : natives <:+: made.flatMap (·.2) :=
    hn.trans (List.infix_of_mem_flatten (List.mem_map_of_mem h))
  have hall : natives <:+: funcs.filterMap (·.2) ++ made.flatMap (·.2) :=
    hmade.trans (List.suffix_append _ _).isInfix
  exact (hall.map Member.func).trans (List.suffix_append _ _).isInfix

/-! ### Files -/

section File

variable {c : Catalog} {s : Settings} {f : SourceFile} {j : Interface} {sides : List CallbackSide}

def PlannedSides (c : Catalog) (s : Settings) (j : Interface) (sides : List CallbackSide) : Prop :=
  List.Forall₂
    (fun m side => ∃ p, Marshal.trampoline s.lang.ownership m = .ok p ∧
      side = .ofPlan s.lang (.ofInterface c s j) p)
    j.methods sides

/-- A callback interface passes no callbacks, so each method has a trampoline. -/
theorem exists_plannedSides (hc : c.Valid) (hj : j ∈ c.callbacks) (s : Settings) :
    ∃ sides, PlannedSides c s j sides := by
  obtain ⟨plans, hplans⟩ := exists_mapM (f := Marshal.trampoline s.lang.ownership) fun m hm =>
    Marshal.exists_planMethod (Or.inl (hc.callback_flat j hj m hm))
  refine ⟨plans.map (.ofPlan s.lang (.ofInterface c s j)), ?_⟩
  rw [PlannedSides, List.forall₂_map_right_iff]
  exact (mapM_eq_ok.mp hplans).imp fun m p hp => ⟨p, hp, rfl⟩

/-- The objects that a file declares are the type of registries and proxies. -/
theorem object_of_mem_members (hf : file c s = .ok f) {head : TypeHead} {members : List Member}
    (hmem : .type head members ∈ f.members) (hkind : head.kind = .object) :
    head.name = "CallbackRegistry" ∨
      ∃ i proxies funcs taken made, HasService c s i proxies funcs taken made ∧
        ∃ cb ∈ proxies, ∃ r ∈ made, proxy s.lang (.ofInterface c s i) cb = .ok r ∧
          head = r.1.head ∧ members = r.1.members := by
  rcases (mem_members hf).mp hmem with hd | ⟨r, _, hd⟩ | ⟨i, _, hd⟩ |
    ⟨i, proxies, funcs, taken, made, hs, hd | ⟨r, hr, hd⟩⟩
  · left
    obtain ⟨_, hd | ⟨i, _, hfield⟩⟩ := mem_registries.mp hd
    · cases hl : s.lang <;> rw [hl] at hd <;> cases hd <;> rfl
    · cases hfield
  · -- records, callback interfaces and services are of other kinds
    obtain ⟨rfl, rfl⟩ := Member.type.inj hd
    have hrecord : (recordType s.lang r).head.kind = .record := by
      cases s.lang <;> rfl
    rw [hrecord] at hkind
    cases hkind
  · obtain ⟨rfl, rfl⟩ := Member.type.inj hd
    cases hkind
  · obtain ⟨rfl, rfl⟩ := Member.type.inj hd
    cases hkind
  · right
    obtain ⟨rfl, rfl⟩ := Member.type.inj hd
    obtain ⟨cb, hcb, hproxy⟩ := forall₂_exists_left hs.parts.made hr
    exact ⟨i, proxies, funcs, taken, made, hs, cb, hcb, r, hr, hproxy, rfl, rfl⟩

variable (hc : c.Valid) (hn : DistinctNames s.lang c) (hf : file c s = .ok f)
  (hj : j ∈ c.callbacks) (hsides : PlannedSides c s j sides)

include hc hn hf hj hsides

theorem overrides_of_planned {head : TypeHead} {members : List Member}
    (hmem : .type head members ∈ f.members) (hkind : head.kind = .object)
    (hname : head.name = Naming.proxyName j.name) :
    ∃ i ∈ c.services, ∃ funcs owner ownerMembers natives,
      members = funcs.map .func ++
        s.lang.proxyRelease (.stmt (releaseCall (.ofInterface c s i) j.name)) ∧
      List.Forall₂ (·.OverriddenBy s.lang (.ofInterface c s i) j.name) sides funcs ∧
      .type owner ownerMembers ∈ f.members ∧ owner.kind = .holder ∧ owner.name = i.name ∧
      natives.map .func <:+: ownerMembers ∧
      (s.lang = .kotlin → List.Forall₂ (·.ForwardedBy j.name) sides natives) := by
  rcases object_of_mem_members hf hmem hkind with hregistry |
    ⟨i, proxies, funcs, taken, made, hs, cb, hcb, r, hr, hproxy, rfl, rfl⟩
  · rw [hname] at hregistry
    exact absurd hregistry (Naming.proxyName_ne_registryType j.name)
  · obtain ⟨j', fs, hj', hfs, rfl⟩ := proxy_eq_ok.mp hproxy
    -- the proxy is that of the interface, since its name is
    obtain rfl : cb = j.name := Naming.proxyName_injective hname
    obtain rfl : j' = j := Option.some.inj (hj'.symm.trans (hc.callback?_name hj))
    have hnames := hn.arguments j' (Catalog.mem_callbacks.mp hj).1
    refine ⟨i, (mem_proxyClaims hs.claim).1, fs.map (·.1), _, _, fs.filterMap (·.2), ?_, ?_,
      service_mem_members hf hs, rfl, rfl, ?_, ?_⟩
    · rw [List.map_map]
      rfl
    · rw [List.forall₂_map_right_iff]
      apply forall₂_trans_of_mem hsides hfs
      rintro m hm _ fn ⟨p, hplan, rfl⟩ hfn
      exact overriddenBy_proxyFunc hplan (hnames m hm) hfn
    · exact natives_infix_serviceMembers hr (List.prefix_append _ _).isInfix
    · intro hl
      -- each function of the proxy comes with its native declaration
      have hnative : List.Forall₂
          (fun side fn => ∃ native, fn.2 = some native ∧ side.ForwardedBy j'.name native)
          sides fs := by
        apply forall₂_trans_of_mem hsides hfs
        rintro m hm _ fn ⟨p, hplan, rfl⟩ hfn
        rw [hl] at hplan hfn ⊢
        exact forwardedBy_proxyFunc hplan (hc.callback_flat j' hj m hm) hfn
      have hsome : ∀ fn ∈ fs, ∃ native, fn.2 = some native := by
        intro fn hfn
        obtain ⟨_, _, native, hsome, _⟩ := forall₂_exists_left hnative hfn
        exact ⟨native, hsome⟩
      apply forall₂_trans_of_mem hnative.flip (forall₂_filterMap hsome)
      rintro fn _ side native ⟨native', hfn', hforwarded⟩ hfn
      rw [hfn] at hfn'
      rwa [Option.some.inj hfn']

theorem calls_of_planned {i : Interface} {m : Method} {slot : Slot} (hi : i ∈ c.services)
    (hm : m ∈ i.methods) (hslot : slot ∈ m.params) (htype : slot.type = .callback j.name) :
    ∃ head members ts, .type head members ∈ f.members ∧ head.kind = .holder ∧
      head.name = i.name ∧ ts ++ [releaseTrampoline s.lang j.name] <:+: members ∧
      List.Forall₂
        (fun side t => ∃ args body,
          side.CalledBy s.lang (.ofInterface c s i) j.name t args body) sides ts := by
  have htaken : j.name ∈ i.callbackParams := Interface.mem_callbackParams.mpr
    ⟨m, hm, slot, hslot, BoundaryType.callbackName?_eq_some.mpr htype⟩
  obtain ⟨proxies, funcs, taken, made, hs⟩ := exists_hasService hf hi
  obtain ⟨ts, hts, hok⟩ := forall₂_exists_right hs.parts.taken htaken
  obtain ⟨j', ms, hj', hms, rfl⟩ := trampolines_eq_ok.mp hok
  obtain rfl : j' = j := Option.some.inj (hj'.symm.trans (hc.callback?_name hj))
  have hnames := hn.arguments j' (Catalog.mem_callbacks.mp hj).1
  refine ⟨_, _, ms, service_mem_members hf hs, rfl, rfl, taken_infix_serviceMembers hts, ?_⟩
  apply forall₂_trans_of_mem hsides hms
  rintro m hm _ t ⟨p, hplan, rfl⟩ ht
  have hplace : CallbackSide.ofPlan s.lang (.ofInterface c s j') p =
      .ofPlan s.lang (.ofInterface c s i) p :=
    ofPlan_place hplan (hc.callback_flat j' hj m hm) rfl
  rw [hplace]
  exact calledBy_trampoline hplan (hnames m hm) ht

theorem sidesAgree_of_planned : SidesAgree c s f j sides where
  methods := by
    have hmethods : List.Forall₂ (fun m (side : CallbackSide) => side.method = id m)
        j.methods sides := by
      apply hsides.imp
      rintro m _ ⟨p, hplan, rfl⟩
      exact Marshal.planMethod_method hplan
    rw [map_congr_of_forall₂ hmethods, List.map_id]
  crosses := by
    intro side hside
    obtain ⟨m, _, p, hplan, rfl⟩ := forall₂_exists_left hsides hside
    exact crosses_ofPlan hplan
  declares := by
    have hdecls : List.Forall₂
        (fun m (side : CallbackSide) => Member.func side.decl = .func (hostFunc s.lang m))
        j.methods sides := by
      apply hsides.imp
      rintro m _ ⟨p, hplan, rfl⟩
      rw [CallbackSide.ofPlan, Marshal.planMethod_method hplan]
    refine ⟨(callbackType s.lang j).head, ?_, rfl, rfl⟩
    rw [map_congr_of_forall₂ hdecls]
    exact (mem_members hf).mpr (Or.inr (Or.inr (Or.inl ⟨j, hj, rfl⟩)))
  overrides _ _ hmem hkind hname := overrides_of_planned hc hn hf hj hsides hmem hkind hname
  calls _ hi _ hm _ hslot htype := calls_of_planned hc hn hf hj hsides hi hm hslot htype

end File

/-- The sides of each callback interface agree in every generated file. -/
theorem sides_agree {c : Catalog} {s : Settings} {a : Artifact} (h : artifact c s = .ok a) :
    ∃ f, file c s = .ok f ∧ Layout.renderFile s.lang s.indent f = .ok a.contents ∧
      ∀ j ∈ c.callbacks, ∃ sides, SidesAgree c s f j sides := by
  obtain ⟨hc, hn, f, hf, hcontents⟩ := artifact_eq_ok h
  refine ⟨f, hf, hcontents, fun j hj => ?_⟩
  obtain ⟨sides, hsides⟩ := exists_plannedSides hc hj s
  exact ⟨sides, sidesAgree_of_planned hc hn hf hj hsides⟩

/-- A callback interface whose methods pass values of all kinds, and a service that takes and
returns it. -/
def feedCatalog : Catalog where
  interfaces :=
    [⟨"Feed", "lib", "lib", true,
      [⟨"on_item", .single .boolean, "bool",
        [⟨"gap", .void, "()"⟩, ⟨"seq_no", .single (.numeric .long), "i64"⟩,
         ⟨"in", .single .string, "String"⟩, ⟨"raw_data", .vec (.numeric .byte), "Vec<u8>"⟩,
         ⟨"item", .single (.record "Item"), "Item"⟩]⟩,
       ⟨"on_end", .void, "()", []⟩]⟩,
     ⟨"Hub", "lib", "lib", false,
      [⟨"swap", .callback "Feed", "Box<dyn Feed>", [⟨"old", .callback "Feed", "Box<dyn Feed>"⟩]⟩]⟩]
  records := [⟨"Item", "lib", "lib", [⟨"id", .single (.numeric .int), "i32"⟩]⟩]

def feedSettings : Settings :=
  { Settings.forModule "com.demo" with lang := .kotlin }

theorem sides_agree_feed :
    ∃ a f, artifact feedCatalog feedSettings = .ok a ∧ file feedCatalog feedSettings = .ok f ∧
      ∀ j ∈ feedCatalog.callbacks, ∃ sides, SidesAgree feedCatalog feedSettings f j sides := by
  have hs : feedSettings.check = .ok () := by decide
  have hc : feedCatalog.check = .ok () := by decide
  have hn : catalogCollision? feedSettings.lang feedCatalog = none := by decide
  obtain ⟨_, _, _, _, ha⟩ := artifact_of_checks hs hc hn
  obtain ⟨f, hf, _, hsides⟩ := sides_agree ha
  exact ⟨_, f, ha, hf, hsides⟩

end Generate

end HostBindings
