import HostBindings.Proofs.Code.Imports
import HostBindings.Proofs.Generate.Inventory

/-!
The imports that generated declarations carry in their references. Host types carry none, since the
file declares them or the language has them. Wire types carry the native module in Swift. What else
is carried is marked on records, or stands in the type of registries and in proxies.
-/

namespace HostBindings.Generate

open HostBindings.Code

variable {lang : Lang} {d : Member} {x : String}

/-! ### References -/

theorem imports_hostType (lang : Lang) (t : BoundaryType) : (lang.hostType t).imports = [] := by
  have helement : ∀ e, (Swift.elementType e).imports = [] ∧ (Kotlin.elementType e).imports = [] := by
    intro e
    cases e <;> exact ⟨rfl, rfl⟩
  cases lang with
  | swift =>
    cases t with
    | vec e => exact (helement e).1
    | single e => exact (helement e).1
    | _ => rfl
  | kotlin =>
    show (Kotlin.hostType t).imports = []
    unfold Kotlin.hostType
    split
    · rfl
    · exact (helement _).2
    · rfl
    · exact (helement _).2
    · rfl

theorem mem_imports_wireType {ctx : Context} {y : Crossing} {t : TypeRef}
    (h : lang.wireType ctx y = some t) (hx : x ∈ t.imports) :
    lang = .swift ∧ x = ctx.settings.moduleName := by
  cases lang with
  | swift =>
    refine ⟨rfl, ?_⟩
    change Swift.wireType ctx y = some t at h
    unfold Swift.wireType at h
    split at h <;> cases h
    · cases hx
    · cases hx
    · cases hx
    · exact List.mem_singleton.mp hx
    · exact List.mem_singleton.mp hx
  | kotlin =>
    change Kotlin.wireType y = some t at h
    unfold Kotlin.wireType at h
    split at h <;> cases h
    all_goals cases hx

theorem imports_handleType (lang : Lang) : lang.handleType.imports = [] := by
  cases lang <;> rfl

def PlainRefs (lang : Lang) (module : String) (refs : List TypeRef) : Prop :=
  ∀ t ∈ refs, ∀ x ∈ t.imports, lang = .swift ∧ x = module

def Quiet (lang : Lang) (module : String) (d : Member) : Prop :=
  ∀ x, d.Carries x → lang = .swift ∧ x = module

section Quiet

variable {ctx : Context} {module : String} {m : Method} {p : CallPlan} {i : Interface}
  {callback : String}

theorem plain_nil : PlainRefs lang module [] :=
  List.forall_mem_nil _

theorem PlainRefs.append {a b : List TypeRef} (ha : PlainRefs lang module a)
    (hb : PlainRefs lang module b) :
    PlainRefs lang module (a ++ b) :=
  List.forall_mem_append.mpr ⟨ha, hb⟩

theorem plain_of_imports {refs : List TypeRef} (h : ∀ t ∈ refs, t.imports = []) :
    PlainRefs lang module refs := by
  intro t ht x hx
  rw [h t ht] at hx
  cases hx

theorem plain_wireParams (p : CallPlan) :
    PlainRefs lang ctx.settings.moduleName ((wireParams lang ctx p).map (·.type)) := by
  intro t ht x hx
  obtain ⟨param, hparam, rfl⟩ := List.mem_map.mp ht
  obtain ⟨a, _, ha⟩ := List.mem_filterMap.mp hparam
  obtain ⟨type, htype, rfl⟩ := Option.map_eq_some_iff.mp ha
  exact mem_imports_wireType htype hx

theorem plain_wireType (y : Crossing) :
    PlainRefs lang ctx.settings.moduleName (lang.wireType ctx y).toList :=
  fun _ ht _ hx => mem_imports_wireType (Option.mem_toList.mp ht) hx

theorem plain_handle (name : String) : PlainRefs lang module [(handleParam lang name).type] :=
  plain_of_imports (List.forall_mem_singleton.mpr (imports_handleType lang))

theorem quiet_func {fn : Func} (h : PlainRefs lang module fn.refs) :
    Quiet lang module (.func fn) := by
  intro x hx
  obtain ⟨t, ht, hx⟩ := List.mem_flatMap.mp (Member.carries_func.mp hx)
  exact h t ht x hx

/-- Host types are declared in the file or built in. -/
theorem not_carries_hostFunc (m : Method) (modifiers : List Modifier) (body : Option Block) :
    ¬ (Member.func { hostFunc lang m with modifiers, body }).Carries x := by
  intro hx
  obtain ⟨t, ht, hx⟩ := List.mem_flatMap.mp (Member.carries_func.mp hx)
  suffices hnone : t.imports = [] by
    rw [hnone] at hx
    cases hx
  have hmentions := Func.mem_refs.mp ht
  cases hmentions with
  | param hp =>
    obtain ⟨slot, _, rfl⟩ := List.mem_map.mp hp
    exact imports_hostType lang _
  | result ht =>
    change hostReturn lang m.returns = some t at ht
    unfold hostReturn at ht
    split at ht <;> cases ht
    exact imports_hostType lang _
  | mark ht => cases ht

theorem quiet_trampoline {name : String} {params : List Param} {returns : Option TypeRef}
    {body : Block} (hparams : PlainRefs lang module (params.map (·.type)))
    (hreturns : PlainRefs lang module returns.toList) :
    Quiet lang module (lang.trampoline name params returns body) := by
  cases lang with
  | swift =>
    intro x hx
    obtain ⟨n, hn⟩ := TypeRef.mem_imports.mp (Member.carries_field.mp hx)
    cases hn with
    | param ht hn => exact hparams _ ht x (TypeRef.mem_imports.mpr ⟨n, hn⟩)
    | result hn =>
      cases returns with
      | none =>
        cases hn with
        | arg ht => cases ht
      | some t => exact hreturns t List.mem_cons_self x (TypeRef.mem_imports.mpr ⟨n, hn⟩)
  | kotlin => exact quiet_func ((hparams.append hreturns).append plain_nil)

theorem quiet_nativeDeclaration {name : String} {visibility : Modifier} {params : List Param}
    {returns : Option TypeRef} {fn : Func} (hparams : PlainRefs lang module (params.map (·.type)))
    (hreturns : PlainRefs lang module returns.toList)
    (h : lang.nativeDeclaration? name visibility params returns = some fn) :
    Quiet lang module (.func fn) := by
  cases lang with
  | swift => cases h
  | kotlin =>
    cases h
    exact quiet_func ((hparams.append hreturns).append plain_nil)

theorem quiet_nativeDecl {symbol : Symbol} {visibility : Modifier} {leading : List Param}
    {fn : Func} (hleading : PlainRefs lang ctx.settings.moduleName (leading.map (·.type)))
    (h : nativeDecl? lang ctx symbol visibility leading p = some fn) :
    Quiet lang ctx.settings.moduleName (.func fn) := by
  refine quiet_nativeDeclaration ?_ (plain_wireType p.result) h
  rw [List.map_append]
  exact hleading.append (plain_wireParams p)

theorem quiet_loader {fn : Func} (h : lang.loader? ctx = some fn) :
    Quiet lang module (.func fn) := by
  cases lang with
  | swift => cases h
  | kotlin =>
    cases h
    exact quiet_func plain_nil

theorem not_carries_registryField (callback : String) :
    ¬ (Member.field (lang.registryField callback)).Carries x := by
  have himports : (lang.registryField callback).type.imports = [] := by cases lang <;> rfl
  rw [Member.carries_field, himports]
  exact List.not_mem_nil

theorem quiet_trampolineMember {j : Interface} (h : TrampolineMember lang ctx callback j d) :
    Quiet lang ctx.settings.moduleName d := by
  cases h with
  | @method _ p _ _ _ _ =>
    exact quiet_trampoline ((plain_handle callbackHandle).append (plain_wireParams p))
      (plain_wireType p.result)
  | release => exact quiet_trampoline (plain_handle _) plain_nil

theorem quiet_releaseDecl {fn : Func} (h : releaseDecl? lang ctx callback = some fn) :
    Quiet lang module (.func fn) :=
  quiet_nativeDeclaration (plain_handle _) plain_nil h

theorem quiet_native {proxies : List String} {fn : Func}
    (h : ServiceNative lang ctx i proxies fn) : Quiet lang ctx.settings.moduleName (.func fn) := by
  cases h with
  | method _ _ h => exact quiet_nativeDecl plain_nil h
  | proxy _ _ h =>
    cases h with
    | method _ _ h => exact quiet_nativeDecl (plain_handle _) h
    | release h => exact quiet_releaseDecl h

theorem quiet_service {proxies : List String} {funcs : List (Func × Option Func)}
    {taken : List (List Member)} {made : List (TypeDecl × List Func)}
    (hs : ServiceParts lang ctx i proxies funcs taken made) :
    ∀ d ∈ serviceMembers lang ctx funcs taken made, Quiet lang ctx.settings.moduleName d := by
  intro d hd
  cases hs.member_of_mem hd with
  | loader h => exact quiet_loader h
  | method _ _ _ => exact fun _ hx => absurd hx (not_carries_hostFunc _ _ _)
  | trampoline _ _ h => exact quiet_trampolineMember h
  | native h => exact quiet_native h

end Quiet

/-- Records carry an import where they are marked as serializable. -/
theorem carries_record {r : Record} :
    (recordType lang r).member.Carries x ↔
      lang = .kotlin ∧ x = "kotlinx.serialization.Serializable" := by
  have hproperties : ((recordType lang r).head.properties.map (·.type)).flatMap (·.imports) = [] := by
    rw [List.flatMap_eq_nil_iff]
    intro t ht
    obtain ⟨p, hp, rfl⟩ := List.mem_map.mp ht
    have hproperty : p ∈ (r.fields.filter fun f => !f.type.isVoid).map fun f =>
        { Field.plain f.name (lang.hostType f.type) with modifiers := [.exposed] } := by
      cases lang <;> exact hp
    obtain ⟨f, _, rfl⟩ := List.mem_map.mp hproperty
    exact imports_hostType lang f.type
  rw [TypeDecl.member, Member.carries_type, TypeHead.refs, List.flatMap_append, hproperties,
    List.append_nil]
  -- what is left is written out: the marks of a record, which has no members
  cases lang with
  | swift =>
    show x ∈ [] ∨ (∃ m ∈ [], Member.Carries m x) ↔ _
    simp
  | kotlin =>
    show x ∈ ["kotlinx.serialization.Serializable"] ∨ (∃ m ∈ [], Member.Carries m x) ↔ _
    simp

theorem not_carries_callbackType (i : Interface) : ¬ (callbackType lang i).member.Carries x := by
  intro hx
  rcases Member.carries_type.mp hx with hx | ⟨d, hd, hx⟩
  · cases hx
  · obtain ⟨m, _, rfl⟩ := List.mem_map.mp hd
    exact absurd hx (not_carries_hostFunc m [] none)

theorem carries_proxyRelease {call : Item} (hd : d ∈ lang.proxyRelease call) (hx : d.Carries x) :
    lang = .kotlin ∧ x = "java.util.concurrent.atomic.AtomicBoolean" := by
  cases lang with
  | swift =>
    rw [List.mem_singleton.mp hd] at hx
    exact absurd (Member.carries_func.mp hx) List.not_mem_nil
  | kotlin =>
    rcases List.mem_cons.mp hd with rfl | hd
    · exact ⟨rfl, List.mem_singleton.mp (Member.carries_field.mp hx)⟩
    · rw [List.mem_singleton.mp hd] at hx
      exact absurd (Member.carries_func.mp hx) List.not_mem_nil

/-- What a proxy carries is for what releases it. -/
theorem carries_proxy {ctx : Context} {callback : String} {r : TypeDecl × List Func}
    (h : proxy lang ctx callback = .ok r) :
    r.1.member.Carries x ↔
      lang = .kotlin ∧ x = "java.util.concurrent.atomic.AtomicBoolean" := by
  constructor
  · intro hx
    obtain ⟨j, members, _, hr, hmembers, _⟩ := proxy_cases h
    rw [hr] at hx
    rcases Member.carries_type.mp hx with hx | ⟨d, hd, hx⟩
    · have hhead : ((proxyHead lang callback).refs).flatMap (·.imports) = [] := by
        cases lang <;> rfl
      rw [hhead] at hx
      cases hx
    · cases hmembers d hd with
      | method _ _ _ => exact absurd hx (not_carries_hostFunc _ _ _)
      | release hd => exact carries_proxyRelease hd hx
  · rintro ⟨rfl, rfl⟩
    obtain ⟨j, fs, _, _, rfl⟩ := proxy_eq_ok.mp h
    exact .inside (List.mem_append_right _ List.mem_cons_self) (.field (.self _ _ _))

theorem carries_registryType :
    lang.registryType.Carries x ↔ (lang = .swift ∧ x = Swift.foundation) ∨
      (lang = .kotlin ∧ (x = "java.util.concurrent.atomic.AtomicLong" ∨
        x = "java.util.concurrent.ConcurrentHashMap")) := by
  constructor
  · intro h
    have hx := (Member.mem_imports _).mpr (Or.inl h)
    cases lang with
    | swift => exact Or.inl ⟨rfl, List.mem_singleton.mp hx⟩
    | kotlin => exact Or.inr ⟨rfl, (List.mem_cons.mp hx).imp_right List.mem_singleton.mp⟩
  · rintro (⟨rfl, rfl⟩ | ⟨rfl, rfl | rfl⟩)
    · exact .inside List.mem_cons_self (.field (.self _ _ _))
    · exact .inside List.mem_cons_self (.field (.self _ _ _))
    · exact .inside (List.mem_cons_of_mem _ List.mem_cons_self) (.field (.self _ _ _))

end HostBindings.Generate
