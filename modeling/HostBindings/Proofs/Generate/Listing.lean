import HostBindings.Proofs.Generate.MemberNames
import Mathlib.Data.List.Count

/-!
The list of what stands at the top of a generated file, read off the catalog alone: nothing is lost,
nothing comes twice, and the order is that of the catalog. Each proxy stands behind the first
service that returns its callback.
-/

namespace HostBindings

open HostBindings.Code

/-! ### First uses -/

/-- Names that are appended when they are new are the names that come first, in order. -/
theorem foldl_addNew_eq (names seen : List String) :
    names.foldl addNew seen = seen ++ (names.filter fun n => decide (n ∉ seen)).eraseDups := by
  induction names generalizing seen with
  | nil => rw [List.foldl_nil, List.filter_nil, List.eraseDups_nil, List.append_nil]
  | cons n names ih =>
    rw [List.foldl_cons, ih]
    by_cases hn : n ∈ seen
    · have hadd : addNew seen n = seen := if_pos hn
      rw [hadd, List.filter_cons_of_neg (by simpa using hn)]
    · have hadd : addNew seen n = seen ++ [n] := if_neg hn
      -- later copies of the name are filtered out on either side
      have hrest : (names.filter fun x => decide (x ∉ seen ++ [n])) =
          (names.filter fun x => decide (x ∉ seen)).filter fun x => !x == n := by
        rw [List.filter_filter]
        apply List.filter_congr
        intro x _
        rw [Bool.eq_iff_iff]
        simp [and_comm]
      rw [hadd, List.filter_cons_of_pos (by simpa using hn), List.eraseDups_cons, hrest,
        List.append_assoc]
      rfl

namespace Interface

def taken (i : Interface) : List String :=
  (i.methods.flatMap fun m => m.params.filterMap (·.type.callbackName?)).eraseDups

def returned (i : Interface) : List String :=
  (i.methods.filterMap (·.returns.callbackName?)).eraseDups

theorem callbackParams_eq (i : Interface) : i.callbackParams = i.taken := by
  rw [callbackParams, foldl_addNew_eq, List.nil_append, taken]
  congr 1
  exact List.filter_eq_self.mpr fun n _ => by simp

theorem callbackReturns_eq (i : Interface) : i.callbackReturns = i.returned := by
  rw [callbackReturns, foldl_addNew_eq, List.nil_append, returned]
  congr 1
  exact List.filter_eq_self.mpr fun n _ => by simp

theorem mem_returned {i : Interface} {callback : String} :
    callback ∈ i.returned ↔ ∃ m ∈ i.methods, m.returns = .callback callback := by
  rw [returned, List.mem_eraseDups, List.mem_filterMap]
  simp only [BoundaryType.callbackName?_eq_some]

theorem nodup_returned (i : Interface) : i.returned.Nodup := by
  rw [← callbackReturns_eq]
  exact nodup_foldl_addNew List.nodup_nil

end Interface

namespace Generate

/-! ### Entries -/

inductive Entry where
  | registryType
  | registry (i : Interface)
  | record (r : Record)
  | interface (i : Interface)
  | service (i : Interface)
  | proxy (callback : String)
  deriving DecidableEq

/-- Each service with the callbacks that it returns and no earlier service does, in the order in
which it returns them. -/
def firstReturns (earlier : List Interface) : List Interface → List (Interface × List String)
  | [] => []
  | i :: is =>
    (i, i.returned.filter fun callback => decide (∀ k ∈ earlier, callback ∉ k.returned)) ::
      firstReturns (earlier ++ [i]) is

def serviceEntries (c : Catalog) : List Entry :=
  (firstReturns [] c.services).flatMap fun first => .service first.1 :: first.2.map .proxy

/-- The entries of a catalog, in order. Without callback interfaces there are no registries. -/
def entries (c : Catalog) : List Entry :=
  (if c.callbacks = [] then [] else .registryType :: c.callbacks.map .registry) ++
    c.records.map .record ++ c.callbacks.map .interface ++ serviceEntries c

/-- A function declared for a method: it has the host name of the method, a parameter of host type
for each argument that has a value, and a result if the method has one. -/
structure DeclaredFor (lang : Lang) (m : Method) (fn : Func) : Prop where
  name : fn.name = lang.hostName m.name
  params : List.Forall₂
    (fun slot param => param = .plain (lang.hostName slot.name) (lang.hostType slot.type))
    (m.params.filter fun slot => !slot.type.isVoid) fn.params
  returns : fn.returns = if m.returns.isVoid then none else some (lang.hostType m.returns)

def hostFunction? : Member → Option Func
  | .func fn =>
    if .exposed ∈ fn.modifiers ∧ .static ∈ fn.modifiers ∧ .external ∉ fn.modifiers then some fn
    else none
  | _ => none

/-- The name of a trampoline. In a service it is a field with a closure, or a function that is
static and nothing else. -/
def trampoline? : Member → Option String
  | .field fld => some fld.name
  | .func fn => if fn.modifiers = [.static] then some fn.name else none
  | .type _ _ => none

def trampolinesOf (c : Catalog) (callback : String) : List String :=
  ((c.callbackMethods callback).map fun m => Naming.trampolineName callback m.name) ++
    [Naming.releaseTrampolineName callback]

inductive Entry.StandsFor (lang : Lang) (c : Catalog) : Entry → Member → Prop where
  | registryType {head members} (name : head.name = "CallbackRegistry") :
      StandsFor lang c .registryType (.type head members)
  | registry {i fld} (name : fld.name = Naming.registryName i.name)
      (type : fld.type = (TypeRef.plain "CallbackRegistry").withArgs [.plain i.name]) :
      StandsFor lang c (.registry i) (.field fld)
  /-- A record has its fields as properties, under their own names. -/
  | record {r head} (kind : head.kind = .record) (name : head.name = r.name)
      (properties : head.properties.map (fun fld => (fld.name, fld.type)) =
        r.fields.map fun slot => (slot.name, lang.hostType slot.type)) :
      StandsFor lang c (.record r) (.type head [])
  | interface {i head funcs} (kind : head.kind = .interface) (name : head.name = i.name)
      (methods : List.Forall₂ (DeclaredFor lang) i.methods funcs) :
      StandsFor lang c (.interface i) (.type head (funcs.map .func))
  /-- A service has one host function for each method, and the trampolines of each callback
  interface that it takes once. -/
  | service {i head members} (kind : head.kind = .holder) (name : head.name = i.name)
      (methods : List.Forall₂ (DeclaredFor lang) i.methods (members.filterMap hostFunction?))
      (trampolines : members.filterMap trampoline? = i.taken.flatMap (trampolinesOf c)) :
      StandsFor lang c (.service i) (.type head members)
  | proxy {callback head members} (kind : head.kind = .object)
      (name : head.name = Naming.proxyName callback) (implements : .plain callback ∈ head.supertypes) :
      StandsFor lang c (.proxy callback) (.type head members)

/-! ### Claims of proxies -/

/-- What earlier services have claimed is what they return, so the proxies that a service makes are
those of the callbacks that it is the first to return. -/
theorem proxyClaims_eq {claimed : List String} {earlier : List Interface}
    (h : ∀ callback, callback ∈ claimed ↔ ∃ k ∈ earlier, callback ∈ k.returned)
    (is : List Interface) : proxyClaims claimed is = firstReturns earlier is := by
  induction is generalizing claimed earlier with
  | nil => rfl
  | cons i is ih =>
    have hproxies : (i.callbackReturns.filter fun name => !claimed.contains name) =
        i.returned.filter fun callback => decide (∀ k ∈ earlier, callback ∉ k.returned) := by
      rw [i.callbackReturns_eq]
      apply List.filter_congr
      intro callback _
      rw [Bool.eq_iff_iff, Bool.not_eq_true', decide_eq_true_eq, ← Bool.not_eq_true,
        List.contains_iff_mem, h]
      push Not
      rfl
    rw [proxyClaims, firstReturns, hproxies]
    congr 1
    apply ih
    intro callback
    -- what the service claims and what was claimed before is together what all of them return
    simp only [List.mem_append, List.mem_filter, decide_eq_true_eq, h, List.mem_singleton]
    constructor
    · rintro (⟨k, hk, hcb⟩ | ⟨hcb, _⟩)
      · exact ⟨k, Or.inl hk, hcb⟩
      · exact ⟨i, Or.inr rfl, hcb⟩
    · rintro ⟨k, hk | rfl, hcb⟩
      · exact Or.inl ⟨k, hk, hcb⟩
      · by_cases hearlier : ∃ k ∈ earlier, callback ∈ k.returned
        · exact Or.inl hearlier
        · push Not at hearlier
          exact Or.inr ⟨hcb, hearlier⟩

theorem proxyClaims_nil (is : List Interface) : proxyClaims [] is = firstReturns [] is :=
  proxyClaims_eq (fun callback => by simp) is

/-- The service that is the first to return a callback has its proxy, and no other one has. -/
theorem count_firstReturns (callback : String) (earlier is : List Interface) :
    ((firstReturns earlier is).flatMap (·.2)).count callback =
      if (∃ i ∈ is, callback ∈ i.returned) ∧ ∀ k ∈ earlier, callback ∉ k.returned then 1 else 0 := by
  induction is generalizing earlier with
  | nil => rfl
  | cons i is ih =>
    rw [firstReturns, List.flatMap_cons, List.count_append, ih,
      (i.nodup_returned.filter _).count]
    simp only [List.mem_filter, decide_eq_true_eq, List.exists_mem_cons_iff, List.forall_mem_append,
      List.forall_mem_singleton]
    by_cases hearlier : ∀ k ∈ earlier, callback ∉ k.returned
    · by_cases hi : callback ∈ i.returned
      · simp [hi]
      · simp [hi]
    · simp [hearlier]

/-! ### Single members -/

section Members

variable {lang : Lang} {ctx : Context} {c : Catalog} {i : Interface} {callback : String}

theorem declaredFor_hostFunc (m : Method) (modifiers : List Modifier) (body : Option Block) :
    DeclaredFor lang m { hostFunc lang m with modifiers, body } where
  name := rfl
  params := by
    show List.Forall₂ _ m.passed (hostParams lang m)
    rw [hostParams, List.forall₂_map_right_iff]
    exact List.forall₂_same.mpr fun _ _ => rfl
  returns := rfl

theorem standsFor_record {r : Record} (h : ∀ slot ∈ r.fields, slot.type.isVoid = false) :
    (Entry.record r).StandsFor lang c (recordType lang r).member := by
  -- a field always has a value
  have hfields : r.fields.filter (fun slot => !slot.type.isVoid) = r.fields :=
    List.filter_eq_self.mpr fun slot hslot => by rw [h slot hslot]; rfl
  have hproperties : (recordType lang r).head.properties =
      r.fields.map fun slot =>
        { Field.plain slot.name (lang.hostType slot.type) with modifiers := [.exposed] } := by
    cases lang <;> exact congrArg (List.map _) hfields
  refine .record ?_ ?_ ?_
  · cases lang <;> rfl
  · cases lang <;> rfl
  · rw [hproperties, List.map_map]
    rfl

theorem standsFor_interface (i : Interface) :
    (Entry.interface i).StandsFor lang c (callbackType lang i).member := by
  have hmembers : (callbackType lang i).members = (i.methods.map (hostFunc lang)).map .func := by
    rw [List.map_map]
    rfl
  rw [TypeDecl.member, hmembers]
  refine .interface rfl rfl ?_
  rw [List.forall₂_map_right_iff]
  exact List.forall₂_same.mpr fun m _ => declaredFor_hostFunc m [] none

theorem standsFor_proxy {r : TypeDecl × List Func} (h : proxy lang ctx callback = .ok r) :
    (Entry.proxy callback).StandsFor lang c r.1.member := by
  obtain ⟨j, fs, _, _, rfl⟩ := proxy_eq_ok.mp h
  refine .proxy rfl rfl ?_
  cases lang <;> exact List.mem_cons_self

/-! ### Members of services -/

/-- Native declarations are neither host functions nor trampolines. -/
theorem nativeDeclaration_external {name : String} {visibility : Modifier} {params : List Param}
    {returns : Option TypeRef} {fn : Func}
    (h : lang.nativeDeclaration? name visibility params returns = some fn) :
    hostFunction? (.func fn) = none ∧ trampoline? (.func fn) = none := by
  cases lang with
  | swift => cases h
  | kotlin =>
    cases h
    cases visibility <;> exact ⟨rfl, rfl⟩

theorem trampoline?_trampoline (name : String) (params : List Param) (returns : Option TypeRef)
    (body : Block) : trampoline? (lang.trampoline name params returns body) = some name := by
  cases lang <;> rfl

theorem hostFunction?_trampoline (name : String) (params : List Param) (returns : Option TypeRef)
    (body : Block) : hostFunction? (lang.trampoline name params returns body) = none := by
  cases lang <;> rfl

theorem filterMap_trampolines {ts : List Member} (h : trampolines lang ctx callback = .ok ts) :
    ts.filterMap hostFunction? = [] ∧
      ts.filterMap trampoline? = trampolinesOf ctx.catalog callback := by
  obtain ⟨j, ms, hj, hms, rfl⟩ := trampolines_eq_ok.mp h
  have hmethods : List.Forall₂
      (fun m t => hostFunction? t = none ∧
        trampoline? t = some (Naming.trampolineName callback m.name)) j.methods ms := by
    apply hms.imp
    intro m t ht
    obtain ⟨p, body, _, _, rfl⟩ := methodTrampoline_eq_ok.mp ht
    exact ⟨hostFunction?_trampoline .., trampoline?_trampoline ..⟩
  constructor
  · rw [List.filterMap_eq_nil_iff, List.forall_mem_append, List.forall_mem_singleton]
    refine ⟨fun t ht => ?_, hostFunction?_trampoline ..⟩
    obtain ⟨_, _, hnone, _⟩ := forall₂_exists_left hmethods ht
    exact hnone
  · rw [List.filterMap_append, trampolinesOf, Catalog.callbackMethods_eq hj,
      filterMap_congr_of_forall₂ (hmethods.imp fun m t ht => ht.2), List.filterMap_eq_map',
      List.filterMap_cons, releaseTrampoline, trampoline?_trampoline]
    rfl

section Service

variable {proxies : List String} {funcs : List (Func × Option Func)} {taken : List (List Member)}
  {made : List (TypeDecl × List Func)} (hs : ServiceParts lang ctx i proxies funcs taken made)

include hs

theorem filterMap_natives :
    ((funcs.filterMap (·.2) ++ made.flatMap (·.2)).map .func).filterMap hostFunction? = [] ∧
      ((funcs.filterMap (·.2) ++ made.flatMap (·.2)).map .func).filterMap trampoline? = [] := by
  have hnatives : ∀ fn ∈ funcs.filterMap (·.2) ++ made.flatMap (·.2),
      hostFunction? (.func fn) = none ∧ trampoline? (.func fn) = none := by
    intro fn hfn
    obtain ⟨_, _, _, _, h⟩ := (hs.native_of_mem hfn).declaration
    exact nativeDeclaration_external h
  rw [List.filterMap_map, List.filterMap_map, List.filterMap_eq_nil_iff,
    List.filterMap_eq_nil_iff]
  exact ⟨fun fn hfn => (hnatives fn hfn).1, fun fn hfn => (hnatives fn hfn).2⟩

theorem standsFor_service :
    (Entry.service i).StandsFor lang ctx.catalog
      (.type (serviceHead i) (serviceMembers lang ctx funcs taken made)) := by
  -- each part of the members is one of the two that a service stands for, or counts as neither
  have hloader : ((lang.loader? ctx).toList.map .func).filterMap hostFunction? = [] ∧
      ((lang.loader? ctx).toList.map .func).filterMap trampoline? = [] := by
    cases lang <;> exact ⟨rfl, rfl⟩
  have hfuncs : List.Forall₂
      (fun m r => DeclaredFor lang m r.1 ∧ hostFunction? (.func r.1) = some r.1 ∧
        trampoline? (.func r.1) = none) i.methods funcs := by
    apply hs.methods.imp
    intro m r hok
    obtain ⟨p, body, _, _, rfl⟩ := serviceMethod_eq_ok.mp hok
    exact ⟨declaredFor_hostFunc m _ _, rfl, rfl⟩
  have htaken : taken.flatten.filterMap hostFunction? = [] ∧
      taken.flatten.filterMap trampoline? = i.taken.flatMap (trampolinesOf ctx.catalog) := by
    rw [List.filterMap_flatten, List.filterMap_flatten, ← List.flatMap_def, ← List.flatMap_def,
      List.flatMap_eq_nil_iff, ← i.callbackParams_eq]
    constructor
    · intro ts hts
      obtain ⟨cb, _, hok⟩ := forall₂_exists_left hs.taken hts
      exact (filterMap_trampolines hok).1
    · exact flatMap_congr_of_forall₂ (hs.taken.imp fun cb ts hok => (filterMap_trampolines hok).2)
  obtain ⟨hhost, hnone⟩ := filterMap_natives hs
  refine .service rfl rfl ?_ ?_
  · have hmethods : (funcs.map (.func ·.1)).filterMap hostFunction? = funcs.map (·.1) := by
      rw [List.filterMap_map, ← List.filterMap_eq_map]
      apply List.filterMap_congr
      intro r hr
      obtain ⟨_, _, _, hsome, _⟩ := forall₂_exists_left hfuncs hr
      exact hsome
    rw [serviceMembers, List.filterMap_append, List.filterMap_append, List.filterMap_append,
      hloader.1, htaken.1, hhost, hmethods, List.nil_append, List.append_nil, List.append_nil,
      List.forall₂_map_right_iff]
    exact hfuncs.imp fun m r hr => hr.1
  · have hmethods : (funcs.map (.func ·.1)).filterMap trampoline? = [] := by
      rw [List.filterMap_map, List.filterMap_eq_nil_iff]
      intro r hr
      obtain ⟨_, _, _, _, hr⟩ := forall₂_exists_left hfuncs hr
      exact hr
    rw [serviceMembers, List.filterMap_append, List.filterMap_append, List.filterMap_append,
      hloader.2, htaken.2, hnone, hmethods, List.nil_append, List.append_nil]
    rfl

end Service

end Members

/-! ### Files -/

section File

variable {c : Catalog} {s : Settings} {f : SourceFile}

/-- A relation of entries and members holds all along a file if it holds for each kind of them. -/
theorem forall₂_members {R : Entry → Member → Prop} (hf : file c s = .ok f)
    (registryType : R .registryType s.lang.registryType)
    (registry : ∀ i ∈ c.callbacks, R (.registry i) (.field (s.lang.registryField i.name)))
    (record : ∀ r ∈ c.records, R (.record r) (recordType s.lang r).member)
    (interface : ∀ i ∈ c.callbacks, R (.interface i) (callbackType s.lang i).member)
    (service : ∀ i proxies funcs taken made,
      ServiceParts s.lang (.ofInterface c s i) i proxies funcs taken made →
      R (.service i)
        (.type (serviceHead i) (serviceMembers s.lang (.ofInterface c s i) funcs taken made)))
    (proxies : ∀ i callback r, proxy s.lang (.ofInterface c s i) callback = .ok r →
      R (.proxy callback) r.1.member) :
    List.Forall₂ R (entries c) f.members := by
  obtain ⟨types, htypes, rfl⟩ := file_eq_ok.mp hf
  obtain ⟨groups, hgroups, rfl⟩ := services_eq_ok.mp htypes
  have hmap : ∀ {α : Type} {g : α → Entry} {g' : α → Member} {as : List α},
      (∀ a ∈ as, R (g a) (g' a)) → List.Forall₂ R (as.map g) (as.map g') := by
    intro α g g' as h
    rw [List.forall₂_map_left_iff, List.forall₂_map_right_iff]
    exact List.forall₂_same.mpr h
  have hregistries : List.Forall₂ R
      (if c.callbacks = [] then [] else .registryType :: c.callbacks.map .registry)
      (registries s.lang c) := by
    unfold registries
    by_cases h : c.callbacks = []
    · rw [if_pos h, if_pos (List.isEmpty_iff.mpr h)]
      exact .nil
    · rw [if_neg h, if_neg (by rwa [List.isEmpty_iff])]
      exact .cons registryType (hmap registry)
  have hservices : List.Forall₂ R (serviceEntries c) (groups.flatten.map (·.member)) := by
    rw [proxyClaims_nil] at hgroups
    rw [serviceEntries, List.flatMap_def, List.map_flatten]
    apply List.rel_flatten
    rw [List.forall₂_map_left_iff, List.forall₂_map_right_iff]
    apply hgroups.imp
    rintro ⟨i, callbacks⟩ g hg
    -- the service comes first, then what it makes
    obtain ⟨funcs, taken, made, hparts, rfl⟩ := serviceTypes_eq_ok.mp hg
    refine .cons (service i callbacks funcs taken made hparts) ?_
    rw [List.map_map, List.forall₂_map_left_iff, List.forall₂_map_right_iff]
    exact hparts.made.imp fun callback r => proxies i callback r
  exact List.rel_append (List.rel_append (List.rel_append hregistries (hmap record))
    (hmap interface)) hservices

theorem standsFor_members (hc : c.Valid) (hf : file c s = .ok f) :
    List.Forall₂ (Entry.StandsFor s.lang c) (entries c) f.members := by
  refine forall₂_members hf ?_ (fun i _ => ?_)
    (fun r hr => standsFor_record fun slot hslot => (hc.field_value r hr slot hslot).1)
    (fun i _ => standsFor_interface i) (fun _ _ _ _ _ => standsFor_service)
    fun _ _ _ => standsFor_proxy
  · cases s.lang <;> exact .registryType rfl
  · cases s.lang <;> exact .registry rfl rfl

def isProxyOf (callback : String) : Member → Bool
  | .type head _ => head.kind == .object && head.name == Naming.proxyName callback
  | _ => false

theorem Entry.StandsFor.isProxyOf {lang : Lang} {e : Entry} {d : Member}
    (h : e.StandsFor lang c d) (callback : String) :
    isProxyOf callback d = (e == .proxy callback) := by
  rw [Bool.eq_iff_iff, beq_iff_eq]
  cases h with
  | registryType name =>
    simp [Generate.isProxyOf, name, (Naming.proxyName_ne_registryType callback).symm]
  | registry name type => simp [Generate.isProxyOf]
  | record kind name properties => simp [Generate.isProxyOf, kind]
  | interface kind name methods => simp [Generate.isProxyOf, kind]
  | service kind name methods trampolines => simp [Generate.isProxyOf, kind]
  | proxy kind name implements =>
    simp [Generate.isProxyOf, kind, name, Naming.proxyName_injective.eq_iff]

theorem count_proxy_entries (c : Catalog) (callback : String) :
    (entries c).count (.proxy callback) =
      if ∃ i ∈ c.services, callback ∈ i.returned then 1 else 0 := by
  have hfirst : ((firstReturns [] c.services).flatMap (·.2)).count callback =
      if ∃ i ∈ c.services, callback ∈ i.returned then 1 else 0 := by
    rw [count_firstReturns]
    simp
  have hproxy : Function.Injective Entry.proxy := fun _ _ h => Entry.proxy.inj h
  -- a proxy is listed with the first service that returns its callback
  have hservices : (serviceEntries c).count (.proxy callback) =
      ((firstReturns [] c.services).flatMap (·.2)).count callback := by
    rw [serviceEntries, List.count_flatMap, List.count_flatMap]
    congr 1
    apply List.map_congr_left
    rintro ⟨i, callbacks⟩ _
    show List.count _ (_ :: _) = List.count callback callbacks
    rw [List.count_cons_of_ne (by simp), List.count_map_of_injective _ _ hproxy]
  have hothers : Entry.proxy callback ∉ (if c.callbacks = [] then []
      else Entry.registryType :: c.callbacks.map .registry) ++
        c.records.map .record ++ c.callbacks.map .interface := by
    split <;> simp
  rw [entries, List.count_append, List.count_eq_zero.mpr hothers, Nat.zero_add, hservices, hfirst]

end File

/-- The members of every generated file stand for the entries of its catalog, one by one and in
order. A callback interface has one proxy if some method of a service returns it, and else none. -/
theorem members_listed {c : Catalog} {s : Settings} {a : Artifact} (h : artifact c s = .ok a) :
    ∃ f, file c s = .ok f ∧ Layout.renderFile s.lang s.indent f = .ok a.contents ∧
      List.Forall₂ (Entry.StandsFor s.lang c) (entries c) f.members ∧
      ∀ callback, f.members.countP (isProxyOf callback) =
        if ∃ i ∈ c.services, ∃ m ∈ i.methods, m.returns = .callback callback then 1 else 0 := by
  obtain ⟨hc, _, f, hf, hcontents⟩ := artifact_eq_ok h
  have hmembers := standsFor_members hc hf
  refine ⟨f, hf, hcontents, hmembers, fun callback => ?_⟩
  have hcount : f.members.countP (isProxyOf callback) =
      (entries c).countP (· == .proxy callback) :=
    countP_congr_of_forall₂ (hmembers.imp fun e d hd => hd.isProxyOf callback)
  rw [hcount]
  simp only [← Interface.mem_returned]
  exact count_proxy_entries c callback

/-- Two services that share two callback interfaces, each of them in another order. -/
def relayCatalog : Catalog where
  interfaces :=
    [⟨"Left", "lib", "lib", false,
      [⟨"open", .callback "Sink", "Box<dyn Sink>", [⟨"to", .callback "Tap", "Box<dyn Tap>"⟩]⟩,
       ⟨"again", .callback "Sink", "Box<dyn Sink>", [⟨"to", .callback "Tap", "Box<dyn Tap>"⟩]⟩]⟩,
     ⟨"Tap", "lib", "lib", true, [⟨"turn", .void, "()", [⟨"by", .single (.record "Step"), "Step"⟩]⟩]⟩,
     ⟨"Right", "lib", "lib", false,
      [⟨"both", .callback "Sink", "Box<dyn Sink>", []⟩,
       ⟨"tap", .callback "Tap", "Box<dyn Tap>", [⟨"to", .callback "Sink", "Box<dyn Sink>"⟩]⟩]⟩,
     ⟨"Sink", "lib", "lib", true, [⟨"drain", .void, "()", []⟩]⟩]
  records := [⟨"Step", "lib", "lib", [⟨"size", .single (.numeric .int), "i32"⟩]⟩]

def relaySettings : Settings :=
  Settings.forModule "demo"

theorem members_listed_relay :
    ∃ a f, artifact relayCatalog relaySettings = .ok a ∧
      file relayCatalog relaySettings = .ok f ∧
      List.Forall₂ (Entry.StandsFor .swift relayCatalog) (entries relayCatalog) f.members ∧
      f.members.countP (isProxyOf "Sink") = 1 ∧ f.members.countP (isProxyOf "Tap") = 1 := by
  have hs : relaySettings.check = .ok () := by decide
  have hc : relayCatalog.check = .ok () := by decide
  have hn : catalogCollision? relaySettings.lang relayCatalog = none := by decide
  obtain ⟨_, _, _, _, ha⟩ := artifact_of_checks hs hc hn
  obtain ⟨f, hf, _, hmembers, hcount⟩ := members_listed ha
  refine ⟨_, f, ha, hf, hmembers, ?_, ?_⟩
  · rw [hcount]
    decide
  · rw [hcount]
    decide

/-- The first service makes the proxy of `Sink`, the second one that of `Tap`. -/
example : (serviceEntries relayCatalog).map (fun
    | .service i => i.name
    | .proxy callback => callback ++ "Proxy"
    | _ => "") = ["Left", "SinkProxy", "Right", "TapProxy"] := by
  decide

end Generate

end HostBindings
