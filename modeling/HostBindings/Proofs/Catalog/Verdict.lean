import HostBindings.Proofs.Catalog
import Mathlib.Data.List.Perm.Basic

/-!
The verdict on a catalog. `Catalog.check_verdict` says which catalogs pass the check, that the
error of a failed check is true of the catalog, and that the order of the entities does not decide
whether it passes.
-/

namespace HostBindings

theorem BoundaryType.recordName?_eq_some {t : BoundaryType} {name : String} :
    t.recordName? = some name ↔ t = .single (.record name) ∨ t = .vec (.record name) := by
  cases t with
  | void => simp [recordName?]
  | callback n => simp [recordName?]
  | single e => cases e <;> simp [recordName?, Element.recordName?]
  | vec e => cases e <;> simp [recordName?, Element.recordName?]

namespace Catalog

variable {c : Catalog}

/-! ### The conditions, by the shape of types -/

def HasType (c : Catalog) (t : BoundaryType) : Prop :=
  (∃ i ∈ c.interfaces, ∃ m ∈ i.methods, t ∈ m.types) ∨ ∃ r ∈ c.records, ∃ f ∈ r.fields, t = f.type

theorem valid_iff :
    c.Valid ↔
      c.names.Nodup ∧
      (∀ i ∈ c.interfaces, i.isCallback = true → ∀ m ∈ i.methods, ∀ name,
        .callback name ∉ m.types) ∧
      (∀ i ∈ c.interfaces, i.isCallback = false → ∀ m ∈ i.methods, ∀ name,
        .callback name ∈ m.types → ∃ j ∈ c.interfaces, j.name = name ∧ j.isCallback = true) ∧
      (∀ name, c.HasType (.single (.record name)) ∨ c.HasType (.vec (.record name)) →
        ∃ r ∈ c.records, r.name = name) ∧
      ∀ r ∈ c.records, ∀ f ∈ r.fields, f.type ≠ .void ∧ ∀ name, f.type ≠ .callback name := by
  constructor
  · intro h
    refine ⟨h.names_nodup, ?_, ?_, ?_, ?_⟩
    · intro i hi hc m hm name ht
      cases h.callback_flat i (mem_callbacks.mpr ⟨hi, hc⟩) m hm _ ht
    · intro i hi hc m hm name ht
      obtain ⟨j, hj, hn⟩ :=
        h.callback_declared i (mem_services.mpr ⟨hi, hc⟩) m hm _ ht name rfl
      exact ⟨j, (mem_callbacks.mp hj).1, hn, (mem_callbacks.mp hj).2⟩
    · -- the record is named directly or as an element, in a method or in a field
      intro name ht
      obtain ⟨t, hname, ht⟩ : ∃ t : BoundaryType, t.recordName? = some name ∧ c.HasType t :=
        ht.elim (fun ht => ⟨_, rfl, ht⟩) (fun ht => ⟨_, rfl, ht⟩)
      rcases ht with ⟨i, hi, m, hm, ht⟩ | ⟨r, hr, f, hf, rfl⟩
      · exact h.record_declared i hi m hm t ht name hname
      · exact h.field_declared r hr f hf name hname
    · intro r hr f hf
      obtain ⟨hv, hc⟩ := h.field_value r hr f hf
      constructor
      · intro ht
        rw [ht] at hv
        cases hv
      · intro name ht
        rw [ht] at hc
        cases hc
  · rintro ⟨hnames, hflat, hdeclared, hrecord, hvalue⟩
    -- a record that is named by a type at all is named directly or as an element
    have hnamed : ∀ t name, c.HasType t → t.recordName? = some name →
        ∃ r ∈ c.records, r.name = name := by
      intro t name ht hname
      apply hrecord name
      rcases BoundaryType.recordName?_eq_some.mp hname with rfl | rfl
      · exact Or.inl ht
      · exact Or.inr ht
    refine ⟨hnames, ?_, ?_, ?_, ?_, ?_⟩
    · intro i hi m hm t ht
      by_contra hne
      obtain ⟨name, hname⟩ := Option.ne_none_iff_exists'.mp hne
      obtain rfl := BoundaryType.callbackName?_eq_some.mp hname
      exact hflat i (mem_callbacks.mp hi).1 (mem_callbacks.mp hi).2 m hm name ht
    · intro i hi m hm t ht name hname
      obtain rfl := BoundaryType.callbackName?_eq_some.mp hname
      obtain ⟨j, hj, hn, hc⟩ :=
        hdeclared i (mem_services.mp hi).1 (mem_services.mp hi).2 m hm name ht
      exact ⟨j, mem_callbacks.mpr ⟨hj, hc⟩, hn⟩
    · exact fun i hi m hm t ht name => hnamed t name (Or.inl ⟨i, hi, m, hm, ht⟩)
    · intro r hr f hf
      obtain ⟨hv, hc⟩ := hvalue r hr f hf
      cases ht : f.type with
      | void => exact absurd ht hv
      | callback name => exact absurd ht (hc name)
      | single e => exact ⟨rfl, rfl⟩
      | vec e => exact ⟨rfl, rfl⟩
    · exact fun r hr f hf name => hnamed f.type name (Or.inr ⟨r, hr, f, hf, rfl⟩)

/-! ### Errors -/

/-- The catalog has the fault that an error reports, at the place that it reports. -/
inductive Exhibits (c : Catalog) : CatalogError → Prop
  | repeated {name : String} : 2 ≤ c.names.count name → c.Exhibits (.duplicateEntity name)
  | nested {i : Interface} {m : Method} {name : String} :
    i ∈ c.interfaces → i.isCallback = true → m ∈ i.methods → .callback name ∈ m.types →
      c.Exhibits (.unsupported (.nestedCallback (i.name ++ "::" ++ m.name) name))
  | callback {i : Interface} {m : Method} {name : String} :
    i ∈ c.interfaces → i.isCallback = false → m ∈ i.methods → .callback name ∈ m.types →
      (¬ ∃ j ∈ c.interfaces, j.name = name ∧ j.isCallback = true) →
        c.Exhibits (.unresolvedCallback name i.name m.name)
  | record {i : Interface} {m : Method} {name : String} :
    i ∈ c.interfaces → m ∈ i.methods →
      .single (.record name) ∈ m.types ∨ .vec (.record name) ∈ m.types →
      (¬ ∃ r ∈ c.records, r.name = name) →
        c.Exhibits (.unresolvedRecord name (i.name ++ "::" ++ m.name))
  | fieldRecord {r : Record} {f : Slot} {name : String} :
    r ∈ c.records → f ∈ r.fields →
      f.type = .single (.record name) ∨ f.type = .vec (.record name) →
      (¬ ∃ r' ∈ c.records, r'.name = name) →
        c.Exhibits (.unresolvedRecord name (r.name ++ "." ++ f.name))
  | fieldType {r : Record} {f : Slot} :
    r ∈ c.records → f ∈ r.fields → (f.type = .void ∨ ∃ name, f.type = .callback name) →
      c.Exhibits (.unsupported (.fieldType (r.name ++ "." ++ f.name) f.type))

theorem firstRepeated?_eq_some {seen names : List String} {name : String}
    (h : firstRepeated? seen names = some name) :
    name ∈ names ∧ (name ∈ seen ∨ 2 ≤ names.count name) := by
  -- the names seen grow by the head, so the induction keeps them general
  induction names generalizing seen with
  | nil => cases h
  | cons n names ih =>
    unfold firstRepeated? at h
    split at h
    · rename_i hn
      obtain rfl := Option.some.inj h
      exact ⟨List.mem_cons_self, Or.inl hn⟩
    · obtain ⟨hmem, hseen⟩ := ih h
      refine ⟨List.mem_cons_of_mem n hmem, ?_⟩
      have hcount : names.count name ≤ (n :: names).count name := List.count_le_count_cons
      rcases hseen with hseen | hseen
      · rcases List.mem_cons.mp hseen with rfl | hseen
        · -- the head once more
          right
          rw [List.count_cons_self]
          exact Nat.succ_le_succ (List.count_pos_iff.mpr hmem)
        · exact Or.inl hseen
      · exact Or.inr (Nat.le_trans hseen hcount)

theorem recordFault?_eq_some {owner : String} {t : BoundaryType} {e : CatalogError}
    (h : c.recordFault? owner t = some e) :
    ∃ name, (t = .single (.record name) ∨ t = .vec (.record name)) ∧
      (¬ ∃ r ∈ c.records, r.name = name) ∧ e = .unresolvedRecord name owner := by
  unfold recordFault? at h
  split at h
  · rename_i name hname
    split at h
    · rename_i hnone
      refine ⟨name, BoundaryType.recordName?_eq_some.mp hname, ?_, (Option.some.inj h).symm⟩
      rintro ⟨r, hr, hn⟩
      exact record?_eq_none.mp (Option.isNone_iff_eq_none.mp hnone) r hr hn
    · cases h
  · cases h

theorem callbackFault?_eq_some {i : Interface} {m : Method} {t : BoundaryType}
    {e : CatalogError} (hi : i ∈ c.interfaces) (hm : m ∈ i.methods) (ht : t ∈ m.types)
    (h : c.callbackFault? i m t = some e) : c.Exhibits e := by
  unfold callbackFault? at h
  split at h
  · rename_i name hname
    rw [BoundaryType.callbackName?_eq_some.mp hname] at ht
    split at h
    · rename_i hc
      obtain rfl := Option.some.inj h
      exact .nested hi hc hm ht
    · rename_i hc
      split at h
      · rename_i hnone
        obtain rfl := Option.some.inj h
        -- an interface of that name may be there, but none that is a callback
        refine .callback hi (Bool.eq_false_iff.mpr hc) hm ht ?_
        rintro ⟨j, hj, hn, hcb⟩
        exact callback?_eq_none.mp (Option.isNone_iff_eq_none.mp hnone) j
          (mem_callbacks.mpr ⟨hj, hcb⟩) hn
      · cases h
  · cases h

theorem methodTypeFault?_eq_some {i : Interface} {m : Method} {t : BoundaryType}
    {e : CatalogError} (hi : i ∈ c.interfaces) (hm : m ∈ i.methods) (ht : t ∈ m.types)
    (h : c.methodTypeFault? i m t = some e) : c.Exhibits e := by
  rcases Option.or_eq_some_iff.mp h with h | ⟨_, h⟩
  · exact callbackFault?_eq_some hi hm ht h
  · obtain ⟨name, rfl | rfl, hnone, rfl⟩ := recordFault?_eq_some h
    · exact .record hi hm (Or.inl ht) hnone
    · exact .record hi hm (Or.inr ht) hnone

theorem fieldFault?_eq_some {r : Record} {f : Slot} {e : CatalogError} (hr : r ∈ c.records)
    (hf : f ∈ r.fields) (h : c.fieldFault? r f = some e) : c.Exhibits e := by
  unfold fieldFault? at h
  split at h
  · rename_i hv
    obtain rfl := Option.some.inj h
    apply Exhibits.fieldType hr hf
    cases ht : f.type with
    | void => exact Or.inl rfl
    | callback name => exact Or.inr ⟨name, rfl⟩
    | single e =>
      rw [ht] at hv
      cases hv
    | vec e =>
      rw [ht] at hv
      cases hv
  · obtain ⟨name, hname, hnone, rfl⟩ := recordFault?_eq_some h
    exact .fieldRecord hr hf hname hnone

/-- The fault that is found is one that the catalog has. -/
theorem exhibits_of_fault? {e : CatalogError} (h : c.fault? = some e) : c.Exhibits e := by
  rcases Option.or_eq_some_iff.mp h with h | ⟨_, h⟩
  · obtain ⟨name, hname, rfl⟩ := Option.map_eq_some_iff.mp h
    exact .repeated ((firstRepeated?_eq_some hname).2.resolve_left List.not_mem_nil)
  · rcases Option.or_eq_some_iff.mp h with h | ⟨_, h⟩
    · obtain ⟨i, hi, h⟩ := List.exists_of_findSome?_eq_some h
      obtain ⟨m, hm, h⟩ := List.exists_of_findSome?_eq_some h
      obtain ⟨t, ht, h⟩ := List.exists_of_findSome?_eq_some h
      exact methodTypeFault?_eq_some hi hm ht h
    · obtain ⟨r, hr, h⟩ := List.exists_of_findSome?_eq_some h
      obtain ⟨f, hf, h⟩ := List.exists_of_findSome?_eq_some h
      exact fieldFault?_eq_some hr hf h

theorem check_eq_error {e : CatalogError} : c.check = .error e ↔ c.fault? = some e := by
  unfold check
  cases c.fault? <;> simp

/-! ### Order -/

theorem HasType.of_perm {c' : Catalog} (hi : c.interfaces.Perm c'.interfaces)
    (hr : c.records.Perm c'.records) {t : BoundaryType} (h : c.HasType t) : c'.HasType t :=
  h.imp (fun ⟨i, hmem, hm⟩ => ⟨i, hi.mem_iff.mp hmem, hm⟩)
    fun ⟨r, hmem, hf⟩ => ⟨r, hr.mem_iff.mp hmem, hf⟩

/-- Validity does not depend on the order of the entities. -/
theorem Valid.of_perm {c' : Catalog} (hi : c.interfaces.Perm c'.interfaces)
    (hr : c.records.Perm c'.records) (h : c.Valid) : c'.Valid := by
  obtain ⟨hnames, hflat, hdeclared, hrecord, hvalue⟩ := valid_iff.mp h
  refine valid_iff.mpr ⟨?_, ?_, ?_, ?_, ?_⟩
  · exact ((hi.map _).append (hr.map _)).nodup_iff.mp hnames
  · exact fun i hmem => hflat i (hi.mem_iff.mpr hmem)
  · intro i hmem hc m hm name ht
    obtain ⟨j, hj, hn⟩ := hdeclared i (hi.mem_iff.mpr hmem) hc m hm name ht
    exact ⟨j, hi.mem_iff.mp hj, hn⟩
  · intro name ht
    have ht := ht.imp (HasType.of_perm hi.symm hr.symm) (HasType.of_perm hi.symm hr.symm)
    obtain ⟨r, hmem, hn⟩ := hrecord name ht
    exact ⟨r, hr.mem_iff.mp hmem, hn⟩
  · exact fun r hmem => hvalue r (hr.mem_iff.mpr hmem)

/-- The check of a catalog passes exactly if names are distinct, callback interfaces pass no
callbacks, services name declared callback interfaces, all named records are there and fields are
values. A failed check reports a fault that the catalog has, and whether the check passes does not
depend on the order of the entities. -/
theorem check_verdict (c : Catalog) :
    (c.check = .ok () ↔
      c.names.Nodup ∧
      (∀ i ∈ c.interfaces, i.isCallback = true → ∀ m ∈ i.methods, ∀ name,
        .callback name ∉ m.types) ∧
      (∀ i ∈ c.interfaces, i.isCallback = false → ∀ m ∈ i.methods, ∀ name,
        .callback name ∈ m.types → ∃ j ∈ c.interfaces, j.name = name ∧ j.isCallback = true) ∧
      (∀ name, c.HasType (.single (.record name)) ∨ c.HasType (.vec (.record name)) →
        ∃ r ∈ c.records, r.name = name) ∧
      ∀ r ∈ c.records, ∀ f ∈ r.fields, f.type ≠ .void ∧ ∀ name, f.type ≠ .callback name) ∧
    (∀ e, c.check = .error e → c.Exhibits e) ∧
    ∀ c' : Catalog, c.interfaces.Perm c'.interfaces → c.records.Perm c'.records →
      (c.check = .ok () ↔ c'.check = .ok ()) := by
  refine ⟨?_, ?_, ?_⟩
  · rw [check_eq_ok, valid_iff]
  · exact fun e h => exhibits_of_fault? (check_eq_error.mp h)
  · intro c' hi hr
    rw [check_eq_ok, check_eq_ok]
    exact ⟨Valid.of_perm hi hr, Valid.of_perm hi.symm hr.symm⟩

def crossedCatalog : Catalog where
  interfaces :=
    [⟨"Store", "lib", "lib", false, [⟨"size", .single (.numeric .long), "u64", []⟩]⟩,
     ⟨"Api", "lib", "lib", false,
      [⟨"open", .vec (.record "Entry"), "Vec<Entry>",
        [⟨"store", .callback "Store", "Box<dyn Store>"⟩]⟩]⟩]
  records := [⟨"Entry", "lib", "lib", [⟨"parts", .vec (.record "Entry"), "Vec<Entry>"⟩]⟩]

theorem check_verdict_crossed :
    crossedCatalog.check = .error (.unresolvedCallback "Store" "Api" "open") ∧
      crossedCatalog.Exhibits (.unresolvedCallback "Store" "Api" "open") ∧
      Catalog.check ⟨crossedCatalog.interfaces.reverse, crossedCatalog.records⟩ ≠ .ok () := by
  have hcheck : crossedCatalog.check = .error (.unresolvedCallback "Store" "Api" "open") := rfl
  obtain ⟨_, herror, hperm⟩ := check_verdict crossedCatalog
  refine ⟨hcheck, herror _ hcheck, fun hok => ?_⟩
  have h := (hperm ⟨crossedCatalog.interfaces.reverse, crossedCatalog.records⟩
    (List.reverse_perm _).symm (.refl _)).mpr hok
  rw [hcheck] at h
  cases h

end Catalog

end HostBindings
