import HostBindings.Proofs.Code.Known
import HostBindings.Proofs.Generate.Inventory

/-!
The types that generated declarations name. Each is built in, imported, or one that the file
declares for an entity of the catalog, so a file of a valid catalog passes the check of its types.
-/

namespace HostBindings

open HostBindings.Code

variable {lang : Lang} {ctx : Context} {known : String → Prop}

/-! ### Types of values -/

def BoundaryType.Known (known : String → Prop) (t : BoundaryType) : Prop :=
  (∀ name, t.recordName? = some name → known name) ∧
    ∀ name, t.callbackName? = some name → known name

namespace Swift

theorem numericName_mem (n : Numeric) : numericName n ∈ builtins := by
  cases n <;> decide

theorem known_elementType (hb : ∀ n ∈ builtins, known n) {e : Element}
    (he : ∀ name, e.recordName? = some name → known name) : (elementType e).Known known := by
  cases e with
  | numeric n => exact TypeRef.known_plain (hb _ (numericName_mem n))
  | boolean => exact TypeRef.known_plain (hb _ (by decide))
  | string => exact TypeRef.known_plain (hb _ (by decide))
  | record name => exact TypeRef.known_plain (he name rfl)

theorem known_hostType (hb : ∀ n ∈ builtins, known n) {t : BoundaryType} (ht : t.Known known) :
    (hostType t).Known known := by
  cases t with
  | void => exact TypeRef.known_plain (hb _ (by decide))
  | single e => exact known_elementType hb ht.1
  | vec e => exact TypeRef.known_array.mpr (known_elementType hb ht.1)
  | callback name => exact TypeRef.known_plain (ht.2 name rfl)

theorem known_wireType (hb : ∀ n ∈ builtins, known n) {x : Crossing} {t : TypeRef}
    (h : wireType ctx x = some t) : t.Known known := by
  unfold wireType at h
  split at h <;> cases h
  · exact TypeRef.known_plain (hb _ (numericName_mem _))
  · exact TypeRef.known_plain (hb _ (by decide))
  · -- a text: a pointer to characters, constant or not by its position
    have hptr : pointerName x.position ∈ builtins := by
      cases x.position <;> decide
    rw [TypeRef.known_optional]
    show (TypeRef.named (pointerName x.position) [.plain "CChar"] none).Known known
    rw [TypeRef.known_named, List.forall_mem_singleton]
    exact ⟨fun _ => hb _ hptr, TypeRef.known_plain (hb _ (by decide))⟩
  · -- bytes and callbacks have types of the native module
    exact TypeRef.known_imported _ _
  · exact TypeRef.known_imported _ _

end Swift

namespace Kotlin

theorem numericName_mem (n : Numeric) : numericName n ∈ builtins := by
  cases n <;> decide

theorem known_elementType (hb : ∀ n ∈ builtins, known n) {e : Element}
    (he : ∀ name, e.recordName? = some name → known name) : (elementType e).Known known := by
  cases e with
  | numeric n => exact TypeRef.known_plain (hb _ (numericName_mem n))
  | boolean => exact TypeRef.known_plain (hb _ (by decide))
  | string => exact TypeRef.known_plain (hb _ (by decide))
  | record name => exact TypeRef.known_plain (he name rfl)

theorem known_hostType (hb : ∀ n ∈ builtins, known n) {t : BoundaryType} (ht : t.Known known) :
    (hostType t).Known known := by
  unfold hostType
  split
  · exact TypeRef.known_plain (hb _ (by decide))
  · exact known_elementType hb ht.1
  · exact TypeRef.known_plain (hb _ (by decide))
  · exact TypeRef.known_array.mpr (known_elementType hb ht.1)
  · exact TypeRef.known_plain (ht.2 _ rfl)

theorem known_wireType (hb : ∀ n ∈ builtins, known n) {x : Crossing} {t : TypeRef}
    (h : wireType x = some t) : t.Known known := by
  unfold wireType at h
  split at h <;> cases h
  · exact TypeRef.known_plain (hb _ (numericName_mem _))
  all_goals exact TypeRef.known_plain (hb _ (by decide))

end Kotlin

namespace Lang

variable (hb : ∀ n ∈ lang.builtins, known n)

include hb

theorem known_hostType {t : BoundaryType} (ht : t.Known known) : (lang.hostType t).Known known := by
  cases lang with
  | swift => exact Swift.known_hostType hb ht
  | kotlin => exact Kotlin.known_hostType hb ht

theorem known_handleType : lang.handleType.Known known := by
  cases lang with
  | swift => exact TypeRef.known_plain (hb _ (by decide))
  | kotlin => exact TypeRef.known_plain (hb _ (by decide))

theorem known_wireType {x : Crossing} {t : TypeRef} (h : lang.wireType ctx x = some t) :
    t.Known known := by
  cases lang with
  | swift => exact Swift.known_wireType hb h
  | kotlin => exact Kotlin.known_wireType hb h

end Lang

/-! ### Declarations -/

/-- What a file makes known: what is built in, and what it declares for a catalog. -/
structure Provides (lang : Lang) (c : Catalog) (known : String → Prop) : Prop where
  builtin : ∀ n ∈ lang.builtins, known n
  record : ∀ r ∈ c.records, known r.name
  callback : ∀ i ∈ c.callbacks, known i.name
  registry : c.callbacks ≠ [] → known "CallbackRegistry"

namespace Generate

variable {c : Catalog} {m : Method} {callback : String}

theorem known_types (hk : Provides lang c known) (hc : c.Valid) {i : Interface}
    (hi : i ∈ c.interfaces) (hm : m ∈ i.methods) : ∀ t ∈ m.types, t.Known known := by
  intro t ht
  constructor
  · intro name hname
    obtain ⟨r, hr, rfl⟩ := hc.record_declared i hi m hm t ht name hname
    exact hk.record r hr
  · intro name hname
    -- methods of callback interfaces name no callbacks, those of services declared ones
    cases hcb : i.isCallback with
    | true =>
      rw [hc.callback_flat i (Catalog.mem_callbacks.mpr ⟨hi, hcb⟩) m hm t ht] at hname
      cases hname
    | false =>
      obtain ⟨j, hj, rfl⟩ :=
        hc.callback_declared i (Catalog.mem_services.mpr ⟨hi, hcb⟩) m hm t ht name hname
      exact hk.callback j hj

theorem known_field (hk : Provides lang c known) (hc : c.Valid) {r : Record} (hr : r ∈ c.records)
    {f : Slot} (hf : f ∈ r.fields) : f.type.Known known := by
  constructor
  · intro name hname
    obtain ⟨r', hr', rfl⟩ := hc.field_declared r hr f hf name hname
    exact hk.record r' hr'
  · intro name hname
    rw [BoundaryType.isCallback_eq_false.mp (hc.field_value r hr f hf).2] at hname
    cases hname

section Functions

variable (hb : ∀ n ∈ lang.builtins, known n)

include hb

theorem known_hostFunc (hm : ∀ t ∈ m.types, t.Known known) :
    ∀ t ∈ (hostFunc lang m).refs, t.Known known := by
  refine Func.known_refs ?_ ?_ rfl
  · intro q hq
    obtain ⟨s, hs, rfl⟩ := List.mem_map.mp hq
    exact lang.known_hostType hb
      (hm _ (Method.mem_types_of_mem_passed hs))
  · intro t ht
    change hostReturn lang m.returns = some t at ht
    unfold hostReturn at ht
    split at ht
    · cases ht
    · cases ht
      exact lang.known_hostType hb (hm _ m.returns_mem_types)

theorem known_wireParams {p : CallPlan} {q : Param} (hq : q ∈ wireParams lang ctx p) :
    q.type.Known known := by
  obtain ⟨a, _, ha⟩ := List.mem_filterMap.mp hq
  obtain ⟨t, hwire, rfl⟩ := Option.map_eq_some_iff.mp ha
  exact lang.known_wireType hb hwire

/-- A function that native code calls names the types of its parameters and of its result. -/
theorem known_trampoline {name : String} {params : List Param} {returns : Option TypeRef}
    {body : Block} (hp : ∀ q ∈ params, q.type.Known known)
    (hr : ∀ t, returns = some t → t.Known known) :
    (lang.trampoline name params returns body).Known known := by
  cases lang with
  | swift =>
    apply Member.known_field.mpr
    show (TypeRef.function (params.map (·.type)) (returns.getD (.plain "Void")) true).Known known
    rw [TypeRef.known_function, List.forall_mem_map]
    refine ⟨hp, ?_⟩
    cases returns with
    | none => exact TypeRef.known_plain (hb _ (by decide))
    | some t => exact hr t rfl
  | kotlin => exact Member.known_func.mpr (Func.known_refs hp hr rfl)

theorem known_trampolineMember {j : Interface} {d : Member}
    (h : TrampolineMember lang ctx callback j d) : d.Known known := by
  cases h with
  | method _ _ _ =>
    apply known_trampoline hb
    · intro q hq
      rcases List.mem_cons.mp hq with rfl | hq
      · exact lang.known_handleType hb
      · exact known_wireParams hb hq
    · exact fun t ht => lang.known_wireType hb ht
  | release =>
    apply known_trampoline hb
    · intro q hq
      rw [List.mem_singleton.mp hq]
      exact lang.known_handleType hb
    · intro t ht
      cases ht

/-- A native declaration names the types of its parameters and of its result. -/
theorem known_nativeDeclaration {name : String} {visibility : Modifier} {params : List Param}
    {returns : Option TypeRef} {f : Func}
    (h : lang.nativeDeclaration? name visibility params returns = some f)
    (hp : ∀ q ∈ params, q.type.Known known) (hr : ∀ t, returns = some t → t.Known known) :
    ∀ t ∈ f.refs, t.Known known := by
  cases lang with
  | swift => cases h
  | kotlin =>
    cases h
    exact Func.known_refs hp hr rfl

theorem known_nativeDecl {symbol : Symbol} {visibility : Modifier} {leading : List Param}
    {p : CallPlan} {f : Func} (h : nativeDecl? lang ctx symbol visibility leading p = some f)
    (hl : ∀ q ∈ leading, q.type.Known known) : ∀ t ∈ f.refs, t.Known known := by
  apply known_nativeDeclaration hb h
  · intro q hq
    exact (List.mem_append.mp hq).elim (hl q) fun hq => known_wireParams hb hq
  · exact fun t ht => lang.known_wireType hb ht

theorem known_handleParam {name : String} :
    ∀ q ∈ [handleParam lang name], q.type.Known known := by
  intro q hq
  rw [List.mem_singleton.mp hq]
  exact lang.known_handleType hb

theorem known_native {i : Interface} {proxies : List String} {f : Func}
    (h : ServiceNative lang ctx i proxies f) : ∀ t ∈ f.refs, t.Known known := by
  cases h with
  | method _ _ h => exact known_nativeDecl hb h fun q hq => absurd hq List.not_mem_nil
  | proxy _ _ h =>
    cases h with
    | method _ _ h => exact known_nativeDecl hb h (known_handleParam hb)
    | release h =>
      refine known_nativeDeclaration hb h (known_handleParam hb) fun t ht => ?_
      cases ht

theorem known_proxyRelease {call : Item} : ∀ d ∈ lang.proxyRelease call, d.Known known := by
  cases lang with
  | swift =>
    intro d hd
    rw [List.mem_singleton.mp hd]
    exact Member.known_func.mpr fun t ht => absurd ht List.not_mem_nil
  | kotlin =>
    intro d hd
    rcases List.mem_cons.mp hd with rfl | hd
    · exact Member.known_field.mpr (TypeRef.known_imported _ _)
    · rw [List.mem_singleton.mp hd]
      exact Member.known_func.mpr fun t ht => absurd ht List.not_mem_nil

end Functions

/-! ### Files -/

variable {s : Settings}

theorem known_proxyHead (hb : ∀ n ∈ lang.builtins, known n) (hcb : known callback) :
    ∀ t ∈ (proxyHead lang callback).refs, t.Known known := by
  have hself : (lang.hostType (.callback callback)).Known known := by
    apply lang.known_hostType hb
    constructor
    · intro name hname
      cases hname
    · intro name hname
      cases hname
      exact hcb
  intro t ht
  -- a proxy names its interface, what the language adds, and its handle
  have hcases : t = lang.hostType (.callback callback) ∨ t ∈ lang.proxySupertypes ∨
      t = lang.handleType := by
    simpa [TypeHead.refs, proxyHead, TypeHead.plain, Field.plain, or_assoc] using ht
  rcases hcases with rfl | ht | rfl
  · exact hself
  · cases lang with
    | swift => exact absurd ht List.not_mem_nil
    | kotlin =>
      rw [List.mem_singleton.mp ht]
      exact TypeRef.known_plain (hb _ (by decide))
  · exact lang.known_handleType hb

theorem known_proxy (hk : Provides lang ctx.catalog known) (hc : ctx.catalog.Valid)
    {r : TypeDecl × List Func} (h : proxy lang ctx callback = .ok r) : r.1.member.Known known := by
  obtain ⟨j, members, hj, hr, hmembers, _⟩ := proxy_cases h
  obtain ⟨hmem, rfl⟩ := Catalog.callback?_eq_some hj
  rw [hr]
  apply Member.known_plainType rfl (known_proxyHead hk.builtin (hk.callback j hmem))
  intro d hd
  cases hmembers d hd with
  | method hm _ _ =>
    exact Member.known_func.mpr
      (known_hostFunc hk.builtin (known_types hk hc (Catalog.mem_callbacks.mp hmem).1 hm))
  | release hd => exact known_proxyRelease hk.builtin d hd

theorem known_service (hk : Provides lang ctx.catalog known) (hc : ctx.catalog.Valid)
    {i : Interface} {proxies : List String} {funcs : List (Func × Option Func)}
    {taken : List (List Member)} {made : List (TypeDecl × List Func)}
    (hi : i ∈ ctx.catalog.interfaces) (h : ServiceParts lang ctx i proxies funcs taken made) :
    (Member.type (serviceHead i) (serviceMembers lang ctx funcs taken made)).Known known := by
  apply Member.known_plainType rfl
  · exact fun t ht => absurd ht List.not_mem_nil
  intro d hd
  cases h.member_of_mem hd with
  | loader h =>
    -- the code that runs on loading names no type
    cases lang with
    | swift => cases h
    | kotlin =>
      cases h
      exact Member.known_func.mpr fun t ht => absurd ht List.not_mem_nil
  | method hm _ _ =>
    exact Member.known_func.mpr (known_hostFunc hk.builtin (known_types hk hc hi hm))
  | trampoline _ _ h => exact known_trampolineMember hk.builtin h
  | native h => exact Member.known_func.mpr (known_native hk.builtin h)

theorem known_serializable (hb : ∀ n ∈ lang.builtins, known n) {head : TypeHead}
    (h : ∀ t ∈ head.refs, t.Known known) : ∀ t ∈ (lang.serializable head).refs, t.Known known := by
  intro t ht
  cases lang with
  | swift =>
    have hcases : t ∈ head.refs ∨ t = .plain "Codable" := by
      simp only [Lang.serializable, TypeHead.refs, List.mem_append, List.mem_singleton] at ht ⊢
      tauto
    rcases hcases with ht | rfl
    · exact h t ht
    · exact TypeRef.known_plain (hb _ (by decide))
  | kotlin =>
    have hcases : t ∈ head.refs ∨
        t = .imported "Serializable" "kotlinx.serialization.Serializable" := by
      simp only [Lang.serializable, TypeHead.refs, List.mem_append, List.mem_singleton] at ht ⊢
      tauto
    rcases hcases with ht | rfl
    · exact h t ht
    · exact TypeRef.known_imported _ _

theorem known_record (hk : Provides lang c known) (hc : c.Valid) {r : Record}
    (hr : r ∈ c.records) : (recordType lang r).member.Known known := by
  -- what makes a record serializable are supertypes or annotations
  have hnil : (recordType lang r).head.typeParams = [] := by cases lang <;> rfl
  apply Member.known_plainType hnil _ fun d hd => absurd hd List.not_mem_nil
  apply known_serializable hk.builtin
  intro t ht
  obtain ⟨f, hf, rfl⟩ := List.mem_map.mp ht
  obtain ⟨slot, hslot, rfl⟩ := List.mem_map.mp hf
  exact lang.known_hostType hk.builtin (known_field hk hc hr (List.mem_filter.mp hslot).1)

theorem known_callbackType (hk : Provides lang c known) (hc : c.Valid) {i : Interface}
    (hi : i ∈ c.callbacks) : (callbackType lang i).member.Known known := by
  apply Member.known_plainType rfl
  · exact fun t ht => absurd ht List.not_mem_nil
  · intro d hd
    obtain ⟨m, hm, rfl⟩ := List.mem_map.mp hd
    exact Member.known_func.mpr
      (known_hostFunc hk.builtin (known_types hk hc (Catalog.mem_callbacks.mp hi).1 hm))

theorem known_registryType (hb : ∀ n ∈ lang.builtins, known n) :
    lang.registryType.Known known := by
  cases lang with
  | swift =>
    -- the type parameter is known inside the type only
    have hparam : (TypeRef.plain "T").Known (extended known [⟨"T", none⟩]) :=
      TypeRef.known_plain (Or.inr (by decide))
    have hhandle : Swift.handleType.Known (extended known [⟨"T", none⟩]) :=
      TypeRef.known_plain (Or.inl (hb _ (by decide)))
    apply Member.known_type.mpr
    refine ⟨fun t ht => absurd ht List.not_mem_nil, ?_⟩
    simp only [List.forall_mem_cons, Member.known_field, Member.known_func]
    refine ⟨TypeRef.known_imported _ _, hhandle, TypeRef.known_map.mpr ⟨hhandle, hparam⟩, ?_, ?_,
      ?_, fun d hd => absurd hd List.not_mem_nil⟩
    · simpa [Swift.registerFunc, Func.refs, Func.plain] using ⟨hparam, hhandle⟩
    · simpa [Swift.lookupFunc, Func.refs, Func.plain] using ⟨hhandle, hparam⟩
    · simpa [Swift.removeFunc, Func.refs, Func.plain] using hhandle
  | kotlin =>
    have hparam : (TypeRef.plain "T").Known (extended known [⟨"T", some (.plain "Any")⟩]) :=
      TypeRef.known_plain (Or.inr (by decide))
    have hhandle : Kotlin.handleType.Known (extended known [⟨"T", some (.plain "Any")⟩]) :=
      TypeRef.known_plain (Or.inl (hb _ (by decide)))
    have hbound : (TypeRef.plain "Any").Known (extended known [⟨"T", some (.plain "Any")⟩]) :=
      TypeRef.known_plain (Or.inl (hb _ (by decide)))
    apply Member.known_type.mpr
    constructor
    · intro t ht
      rw [List.mem_singleton.mp ht]
      exact hbound
    simp only [List.forall_mem_cons, Member.known_field, Member.known_func]
    refine ⟨TypeRef.known_imported _ _, ?_, ?_, ?_, ?_, fun d hd => absurd hd List.not_mem_nil⟩
    · show (TypeRef.named _ [Kotlin.handleType, .plain "T"] (some _)).Known _
      rw [TypeRef.known_named]
      simpa using ⟨hhandle, hparam⟩
    · simpa [Kotlin.registerFunc, Func.refs, Func.plain, Param.plain] using ⟨hparam, hhandle⟩
    · simpa [Kotlin.lookupFunc, Func.refs, Func.plain, Param.plain] using ⟨hhandle, hparam⟩
    · simpa [Kotlin.removeFunc, Func.refs, Func.plain, Param.plain] using hhandle

theorem known_registryField (hr : known "CallbackRegistry") (hcb : known callback) :
    (Member.field (lang.registryField callback)).Known known := by
  have hargs : (TypeRef.named "CallbackRegistry" [.plain callback] none).Known known := by
    rw [TypeRef.known_named, List.forall_mem_singleton]
    exact ⟨fun _ => hr, TypeRef.known_plain hcb⟩
  cases lang
  · exact Member.known_field.mpr hargs
  · exact Member.known_field.mpr hargs

theorem known_registries (hk : Provides lang c known) :
    ∀ d ∈ registries lang c, d.Known known := by
  intro d hd
  obtain ⟨hne, rfl | ⟨i, hi, rfl⟩⟩ := mem_registries.mp hd
  · exact known_registryType hk.builtin
  · exact known_registryField (hk.registry hne) (hk.callback i hi)

end Generate

end HostBindings
