import HostBindings.Catalog
import Mathlib.Data.List.Nodup

/-!
Valid catalogs. `Catalog.fault?_eq_none_iff` says what the check of a catalog establishes: names
are distinct, references have a target, callback interfaces are flat and fields of records are
values.
-/

namespace HostBindings

/-! ### First uses -/

section Names

variable {names seen : List String} {name n : String}

theorem mem_addNew : n ∈ addNew seen name ↔ n ∈ seen ∨ n = name := by
  unfold addNew
  split
  · rename_i hname
    exact ⟨Or.inl, fun h => h.elim id fun h => h ▸ hname⟩
  · rw [List.mem_append, List.mem_singleton]

theorem nodup_addNew (h : seen.Nodup) : (addNew seen name).Nodup := by
  unfold addNew
  split
  · exact h
  · rename_i hname
    rw [← List.concat_eq_append]
    exact h.concat hname

theorem mem_foldl_addNew : n ∈ names.foldl addNew seen ↔ n ∈ seen ∨ n ∈ names := by
  -- each step adds to the names seen, so the induction keeps them general
  induction names generalizing seen with
  | nil => simp
  | cons name names ih => rw [List.foldl_cons, ih, mem_addNew, List.mem_cons, or_assoc]

theorem nodup_foldl_addNew (h : seen.Nodup) : (names.foldl addNew seen).Nodup := by
  induction names generalizing seen with
  | nil => exact h
  | cons name names ih => exact ih (nodup_addNew h)

end Names

namespace Interface

theorem nodup_callbackParams (i : Interface) : i.callbackParams.Nodup :=
  nodup_foldl_addNew List.nodup_nil

theorem mem_callbackParams {i : Interface} {name : String} :
    name ∈ i.callbackParams ↔
      ∃ m ∈ i.methods, ∃ p ∈ m.params, p.type.callbackName? = some name := by
  simp only [callbackParams, mem_foldl_addNew, List.not_mem_nil, false_or, List.mem_flatMap,
    List.mem_filterMap]

theorem mem_callbackReturns {i : Interface} {name : String} :
    name ∈ i.callbackReturns ↔ ∃ m ∈ i.methods, m.returns.callbackName? = some name := by
  simp only [callbackReturns, mem_foldl_addNew, List.not_mem_nil, false_or, List.mem_filterMap]

end Interface

namespace BoundaryType

theorem callbackName?_eq_some {t : BoundaryType} {name : String} :
    t.callbackName? = some name ↔ t = .callback name := by
  cases t with
  | callback n => simp [callbackName?]
  | _ => simp [callbackName?]

theorem isCallback_eq_false {t : BoundaryType} :
    t.isCallback = false ↔ t.callbackName? = none := by
  cases t <;> simp [isCallback, callbackName?]

end BoundaryType

namespace Method

theorem mem_types_of_mem_params {m : Method} {s : Slot} (h : s ∈ m.params) : s.type ∈ m.types :=
  List.mem_append_left _ (List.mem_map_of_mem h)

theorem mem_params_of_mem_passed {m : Method} {s : Slot} (h : s ∈ m.passed) : s ∈ m.params :=
  (List.mem_filter.mp h).1

theorem mem_types_of_mem_passed {m : Method} {s : Slot} (h : s ∈ m.passed) : s.type ∈ m.types :=
  mem_types_of_mem_params (mem_params_of_mem_passed h)

theorem isVoid_of_mem_passed {m : Method} {s : Slot} (h : s ∈ m.passed) :
    s.type.isVoid = false := by
  simpa using (List.mem_filter.mp h).2

theorem returns_mem_types (m : Method) : m.returns ∈ m.types :=
  List.mem_append_right _ List.mem_cons_self

end Method

/-! ### Valid catalogs -/

namespace Catalog

variable {c : Catalog}

theorem mem_callbacks {i : Interface} :
    i ∈ c.callbacks ↔ i ∈ c.interfaces ∧ i.isCallback = true :=
  List.mem_filter

theorem mem_services {i : Interface} :
    i ∈ c.services ↔ i ∈ c.interfaces ∧ i.isCallback = false := by
  rw [services, List.mem_filter, Bool.not_eq_true']

theorem callback?_eq_none {name : String} :
    c.callback? name = none ↔ ∀ i ∈ c.callbacks, i.name ≠ name := by
  simp only [callback?, List.find?_eq_none, beq_iff_eq]

theorem record?_eq_none {name : String} :
    c.record? name = none ↔ ∀ r ∈ c.records, r.name ≠ name := by
  simp only [record?, List.find?_eq_none, beq_iff_eq]

theorem callback?_eq_some {name : String} {i : Interface} (h : c.callback? name = some i) :
    i ∈ c.callbacks ∧ i.name = name :=
  ⟨List.mem_of_find?_eq_some h, by simpa using List.find?_some h⟩

/-- The conditions on a catalog that code can be generated for. -/
structure Valid (c : Catalog) : Prop where
  names_nodup : c.names.Nodup
  /-- A callback interface passes no callbacks. -/
  callback_flat : ∀ i ∈ c.callbacks, ∀ m ∈ i.methods, ∀ t ∈ m.types, t.callbackName? = none
  callback_declared : ∀ i ∈ c.services, ∀ m ∈ i.methods, ∀ t ∈ m.types, ∀ name,
    t.callbackName? = some name → ∃ j ∈ c.callbacks, j.name = name
  record_declared : ∀ i ∈ c.interfaces, ∀ m ∈ i.methods, ∀ t ∈ m.types, ∀ name,
    t.recordName? = some name → ∃ r ∈ c.records, r.name = name
  /-- A field holds a value, and not a callback. -/
  field_value : ∀ r ∈ c.records, ∀ f ∈ r.fields,
    f.type.isVoid = false ∧ f.type.isCallback = false
  field_declared : ∀ r ∈ c.records, ∀ f ∈ r.fields, ∀ name,
    f.type.recordName? = some name → ∃ r' ∈ c.records, r'.name = name

theorem firstRepeated?_eq_none {seen names : List String} :
    firstRepeated? seen names = none ↔ names.Nodup ∧ ∀ n ∈ names, n ∉ seen := by
  induction names generalizing seen with
  | nil => simp [firstRepeated?]
  | cons n names ih =>
    unfold firstRepeated?
    split
    · rename_i hn
      simp only [reduceCtorEq, false_iff, not_and]
      exact fun _ h => h n List.mem_cons_self hn
    · rename_i hn
      rw [ih, List.nodup_cons]
      constructor
      · -- a name of the tail is neither the head nor seen before
        rintro ⟨hnd, hseen⟩
        refine ⟨⟨fun h => hseen n h List.mem_cons_self, hnd⟩, ?_⟩
        rintro x (_ | ⟨_, hx⟩)
        · exact hn
        · exact fun h => hseen x hx (List.mem_cons_of_mem n h)
      · rintro ⟨⟨hnot, hnd⟩, hseen⟩
        refine ⟨hnd, fun x hx => ?_⟩
        rw [List.mem_cons, not_or]
        refine ⟨?_, hseen x (List.mem_cons_of_mem n hx)⟩
        rintro rfl
        exact hnot hx

theorem recordFault?_eq_none {owner : String} {t : BoundaryType} :
    c.recordFault? owner t = none ↔
      ∀ name, t.recordName? = some name → ∃ r ∈ c.records, r.name = name := by
  unfold recordFault?
  cases t.recordName? with
  | none => simp
  | some name =>
    simp only [Option.isNone_iff_eq_none, record?_eq_none, ite_eq_right_iff, reduceCtorEq,
      imp_false, Option.some.injEq, forall_eq', not_forall, ne_eq, not_not, exists_prop]

theorem callbackFault?_eq_none {i : Interface} {m : Method} {t : BoundaryType} :
    c.callbackFault? i m t = none ↔
      (i.isCallback = true → t.callbackName? = none) ∧
        (i.isCallback = false → ∀ name, t.callbackName? = some name →
          ∃ j ∈ c.callbacks, j.name = name) := by
  unfold callbackFault?
  cases t.callbackName? with
  | none => simp
  | some name =>
    cases i.isCallback with
    | true => simp
    | false =>
      simp only [Bool.false_eq_true, if_false, Option.isNone_iff_eq_none, callback?_eq_none,
        ite_eq_right_iff, reduceCtorEq, imp_false, Option.some.injEq, forall_eq', not_forall,
        ne_eq, not_not, exists_prop, not_false_eq_true, true_and, forall_const]

theorem fieldFault?_eq_none {r : Record} {f : Slot} :
    c.fieldFault? r f = none ↔
      (f.type.isVoid = false ∧ f.type.isCallback = false) ∧
        ∀ name, f.type.recordName? = some name → ∃ r' ∈ c.records, r'.name = name := by
  unfold fieldFault?
  split
  · rename_i h
    rw [Bool.or_eq_true] at h
    simp only [reduceCtorEq, false_iff, not_and, Bool.eq_false_iff]
    exact fun hn => absurd h (not_or.mpr hn)
  · rename_i h
    rw [recordFault?_eq_none]
    rw [Bool.not_eq_true, Bool.or_eq_false_iff] at h
    exact (and_iff_right h).symm

/-- The check of a catalog finds no fault exactly in valid catalogs. -/
theorem fault?_eq_none_iff : c.fault? = none ↔ c.Valid := by
  simp only [fault?, Option.or_eq_none_iff, Option.map_eq_none_iff, firstRepeated?_eq_none,
    List.not_mem_nil, not_false_eq_true, implies_true, and_true, List.findSome?_eq_none_iff,
    interfaceFault?, methodTypeFault?, callbackFault?_eq_none, recordFault?_eq_none,
    fieldFault?_eq_none]
  constructor
  · -- the check has one condition for all interfaces, which splits by their kind
    rintro ⟨hn, hi, hr⟩
    refine ⟨hn, ?_, ?_, ?_, fun r h f hf => (hr r h f hf).1, fun r h f hf => (hr r h f hf).2⟩
    · intro i h m hm t ht
      rw [mem_callbacks] at h
      exact (hi i h.1 m hm t ht).1.1 h.2
    · intro i h m hm t ht
      rw [mem_services] at h
      exact (hi i h.1 m hm t ht).1.2 h.2
    · exact fun i h m hm t ht => (hi i h m hm t ht).2
  · intro h
    refine ⟨h.names_nodup, ?_,
      fun r hr f hf => ⟨h.field_value r hr f hf, h.field_declared r hr f hf⟩⟩
    intro i hi m hm t ht
    exact ⟨⟨fun hc => h.callback_flat i (mem_callbacks.mpr ⟨hi, hc⟩) m hm t ht,
      fun hc => h.callback_declared i (mem_services.mpr ⟨hi, hc⟩) m hm t ht⟩,
      h.record_declared i hi m hm t ht⟩

theorem check_eq_ok {u : Unit} : c.check = .ok u ↔ c.Valid := by
  rw [← fault?_eq_none_iff]
  unfold check
  cases c.fault? <;> simp

/-- A callback that is declared is found. -/
theorem exists_callback? {name : String} (h : ∃ j ∈ c.callbacks, j.name = name) :
    ∃ j, c.callback? name = some j := by
  cases hc : c.callback? name with
  | some j => exact ⟨j, rfl⟩
  | none =>
    obtain ⟨j, hj, hn⟩ := h
    exact absurd hn (callback?_eq_none.mp hc j hj)

theorem Valid.callback?_name (hc : c.Valid) {j : Interface} (hj : j ∈ c.callbacks) :
    c.callback? j.name = some j := by
  obtain ⟨j', hfound⟩ := exists_callback? ⟨j, hj, rfl⟩
  obtain ⟨hj', hname⟩ := callback?_eq_some hfound
  have hnodup : (c.interfaces.map (·.name)).Nodup := (List.nodup_append.mp hc.names_nodup).1
  rw [hfound, List.inj_on_of_nodup_map hnodup (mem_callbacks.mp hj').1 (mem_callbacks.mp hj).1 hname]

section Uses

variable {i : Interface} {name : String} (hc : c.Valid) (hi : i ∈ c.interfaces)

include hc hi

/-- A callback that a method names is declared, and the method is one of a service. -/
theorem Valid.of_callbackName? {m : Method} {t : BoundaryType} (hm : m ∈ i.methods)
    (ht : t ∈ m.types) (hname : t.callbackName? = some name) :
    i.isCallback = false ∧ ∃ j ∈ c.callbacks, j.name = name := by
  cases hk : i.isCallback with
  | true =>
    rw [hc.callback_flat i (mem_callbacks.mpr ⟨hi, hk⟩) m hm t ht] at hname
    cases hname
  | false =>
    exact ⟨rfl, hc.callback_declared i (mem_services.mpr ⟨hi, hk⟩) m hm t ht name hname⟩

theorem Valid.of_mem_callbackParams (h : name ∈ i.callbackParams) :
    i.isCallback = false ∧ ∃ j ∈ c.callbacks, j.name = name := by
  obtain ⟨m, hm, p, hp, hname⟩ := Interface.mem_callbackParams.mp h
  exact hc.of_callbackName? hi hm (Method.mem_types_of_mem_params hp) hname

theorem Valid.of_mem_callbackReturns (h : name ∈ i.callbackReturns) :
    i.isCallback = false ∧ ∃ j ∈ c.callbacks, j.name = name := by
  obtain ⟨m, hm, hname⟩ := Interface.mem_callbackReturns.mp h
  exact hc.of_callbackName? hi hm m.returns_mem_types hname

end Uses

end Catalog

end HostBindings
