import HostBindings.Document
import HostBindings.Proofs.Traversal

/-!
The schema of documents as a relation between a JSON value and the entity it describes, and the
proof that reading a value succeeds exactly on the values that describe an entity.
-/

namespace HostBindings.Document

open HostBindings.Json

/-! ### The schema -/

/-- The type values: a tag, or an object with the single key `Vec` that holds a tag. The tags
`Struct` and `Callback` need a name in the spelling next to them. -/
inductive Spells (spelling : String) : Value → BoundaryType → Prop
  | void : Spells spelling (.text "Void") .void
  | plain {e : Element} (h : e.recordName? = none) : Spells spelling (.text e.tag) (.single e)
  | record {name : String} (h : Spelling.recordName spelling = .ok name) :
      Spells spelling (.text "Struct") (.single (.record name))
  | callback {name : String} (h : Spelling.callbackName spelling = .ok name) :
      Spells spelling (.text "Callback") (.callback name)
  | plainVec {e : Element} (h : e.recordName? = none) :
      Spells spelling (.record [("Vec", .text e.tag)]) (.vec e)
  | recordVec {name : String} (h : Spelling.elementName spelling = .ok name) :
      Spells spelling (.record [("Vec", .text "Struct")]) (.vec (.record name))

section

variable (fields : Fields)

def HasText (key text : String) : Prop :=
  Value.field? key fields = some (.text text)

def HasType (key spelling : String) (type : BoundaryType) : Prop :=
  ∃ v, Value.field? key fields = some v ∧ Spells spelling v type

/-- The field under the key is a list whose items describe these parts, in their order. -/
def HasItems {α : Type} (key : String) (R : Value → α → Prop) (parts : List α) : Prop :=
  ∃ items, Value.field? key fields = some (.list items) ∧ List.Forall₂ R items parts

end

inductive DescribesSlot : Value → Slot → Prop
  | record {fields : Fields} {s : Slot} (name : HasText fields "name" s.name)
      (spelling : HasText fields "origin_ty" s.spelling)
      (type : HasType fields "ty" s.spelling s.type) : DescribesSlot (.record fields) s

inductive DescribesMethod : Value → Method → Prop
  | record {fields : Fields} {m : Method} (name : HasText fields "name" m.name)
      (spelling : HasText fields "origin_return_ty" m.returnSpelling)
      (returns : HasType fields "return_type" m.returnSpelling m.returns)
      (params : HasItems fields "args" DescribesSlot m.params) : DescribesMethod (.record fields) m

/-- The objects that describe an entity; the text under `ty` says which kind. -/
inductive Describes : Value → Entity → Prop
  | interface {fields : Fields} {i : Interface} (ty : HasText fields "ty" "trait")
      (name : HasText fields "name" i.name)
      (module : HasText fields "mod_name" i.module)
      (package : HasText fields "crate_name" i.package)
      (isCallback : Value.field? "is_callback" fields = some (.bool i.isCallback))
      (methods : HasItems fields "methods" DescribesMethod i.methods) :
      Describes (.record fields) (.interface i)
  | record {fields : Fields} {r : Record} (ty : HasText fields "ty" "struct")
      (name : HasText fields "name" r.name)
      (module : HasText fields "mod_name" r.module)
      (package : HasText fields "crate_name" r.package)
      (slots : HasItems fields "fields" DescribesSlot r.fields) :
      Describes (.record fields) (.record r)

/-! ### Fields of the required shape -/

variable {fields : Fields} {key context : String}

theorem field_eq_ok {v : Value} :
    field fields key context = .ok v ↔ Value.field? key fields = some v := by
  unfold field
  cases Value.field? key fields <;> simp

/-- A field that is taken only if it is this value. -/
theorem shaped_eq_ok {α : Type} {take : Value → Except CatalogError α} {v : Value} {a : α}
    (htake : ∀ w, take w = .ok a ↔ w = v) :
    (field fields key context >>= take) = .ok a ↔ Value.field? key fields = some v := by
  simp only [bind_eq_ok, field_eq_ok, htake, exists_eq_right]

theorem textField_eq_ok {s : String} :
    textField fields key context = .ok s ↔ HasText fields key s :=
  shaped_eq_ok fun w => by cases w <;> simp

theorem boolField_eq_ok {b : Bool} :
    boolField fields key context = .ok b ↔ Value.field? key fields = some (.bool b) :=
  shaped_eq_ok fun w => by cases w <;> simp

theorem listField_eq_ok {items : List Value} :
    listField fields key context = .ok items ↔ Value.field? key fields = some (.list items) :=
  shaped_eq_ok fun w => by cases w <;> simp

theorem objectFields_eq_ok {v : Value} :
    objectFields v key context = .ok fields ↔ v = .record fields := by
  unfold objectFields
  cases v <;> simp

/-- A list field read item by item. -/
theorem items_eq_ok {α : Type} {read : Value → Except CatalogError α} {R : Value → α → Prop}
    (hread : ∀ v a, read v = .ok a ↔ R v a) {parts : List α} :
    (∃ items, listField fields key context = .ok items ∧ items.mapM read = .ok parts) ↔
      HasItems fields key R parts := by
  unfold HasItems
  simp only [listField_eq_ok, mapM_eq_ok, hread]

/-! ### Types -/

theorem Element.ofPlainTag?_eq_some {tag : String} {e : Element} :
    Element.ofPlainTag? tag = some e ↔ e.recordName? = none ∧ tag = e.tag := by
  constructor
  · intro h
    unfold Element.ofPlainTag? at h
    split at h <;> cases h <;> exact ⟨rfl, rfl⟩
  · rintro ⟨he, rfl⟩
    exact Element.ofPlainTag?_tag he

variable {spelling : String} {v : Value} {type : BoundaryType}

theorem typeOfTag_eq_ok {tag : String} :
    typeOfTag tag spelling context = .ok type ↔ Spells spelling (.text tag) type := by
  constructor
  · intro h
    -- only the tags of records and callbacks look at the spelling
    unfold typeOfTag at h
    split at h
    · rename_i e htag
      obtain ⟨he, rfl⟩ := Element.ofPlainTag?_eq_some.mp htag
      cases h
      exact .plain he
    · split at h
      · cases h
        exact .void
      · obtain ⟨name, hname, rfl⟩ := map_eq_ok.mp h
        exact .record hname
      · obtain ⟨name, hname, rfl⟩ := map_eq_ok.mp h
        exact .callback hname
      · cases h
      · cases h
  · intro h
    unfold typeOfTag
    cases h with
    | void => rfl
    | plain he => rw [Element.ofPlainTag?_tag he]
    | record hname => exact map_eq_ok.mpr ⟨_, hname, rfl⟩
    | callback hname => exact map_eq_ok.mpr ⟨_, hname, rfl⟩

theorem elementOfTag_eq_ok {tag : String} {e : Element} :
    elementOfTag tag spelling context = .ok e ↔
      Spells spelling (.record [("Vec", .text tag)]) (.vec e) := by
  constructor
  · intro h
    unfold elementOfTag at h
    split at h
    · rename_i e htag
      obtain ⟨he, rfl⟩ := Element.ofPlainTag?_eq_some.mp htag
      cases h
      exact .plainVec he
    · split at h
      · obtain ⟨name, hname, rfl⟩ := map_eq_ok.mp h
        exact .recordVec hname
      all_goals cases h
  · intro h
    unfold elementOfTag
    cases h with
    | plainVec he => rw [Element.ofPlainTag?_tag he]
    | recordVec hname => exact map_eq_ok.mpr ⟨_, hname, rfl⟩

theorem readType_eq_ok : readType v spelling context = .ok type ↔ Spells spelling v type := by
  constructor
  · intro h
    unfold readType at h
    -- a tag, an object with a tag, an object with an object, anything else
    split at h
    · exact typeOfTag_eq_ok.mp h
    · obtain ⟨e, he, rfl⟩ := map_eq_ok.mp h
      exact elementOfTag_eq_ok.mp he
    · split at h <;> cases h
    · cases h
  · intro h
    unfold readType
    cases h with
    | void => exact typeOfTag_eq_ok.mpr .void
    | plain he => exact typeOfTag_eq_ok.mpr (.plain he)
    | record hname => exact typeOfTag_eq_ok.mpr (.record hname)
    | callback hname => exact typeOfTag_eq_ok.mpr (.callback hname)
    | plainVec he => exact map_eq_ok.mpr ⟨_, elementOfTag_eq_ok.mpr (.plainVec he), rfl⟩
    | recordVec hname => exact map_eq_ok.mpr ⟨_, elementOfTag_eq_ok.mpr (.recordVec hname), rfl⟩

/-- A type field read next to its spelling. -/
theorem typeField_eq_ok {place : String} :
    (∃ v, field fields key context = .ok v ∧ readType v spelling place = .ok type) ↔
      HasType fields key spelling type := by
  unfold HasType
  simp only [field_eq_ok, readType_eq_ok]

/-! ### Objects -/

theorem readSlot_eq_ok {owner : String} {s : Slot} :
    readSlot owner v = .ok s ↔ DescribesSlot v s := by
  unfold readSlot
  simp only [bind_eq_ok, pure_eq_ok, objectFields_eq_ok, textField_eq_ok]
  constructor
  · rintro ⟨fields, rfl, name, hname, spelling, hspelling, t, ht, type, htype, rfl⟩
    exact .record hname hspelling (typeField_eq_ok.mp ⟨t, ht, htype⟩)
  · rintro ⟨hname, hspelling, htype⟩
    obtain ⟨t, ht, htype⟩ := typeField_eq_ok.mpr htype
    exact ⟨_, rfl, _, hname, _, hspelling, t, ht, _, htype, rfl⟩

theorem readMethod_eq_ok {interface : String} {m : Method} :
    readMethod interface v = .ok m ↔ DescribesMethod v m := by
  unfold readMethod
  simp only [bind_eq_ok, pure_eq_ok, objectFields_eq_ok, textField_eq_ok]
  constructor
  · rintro ⟨fields, rfl, name, hname, spelling, hspelling, t, ht, returns, hreturns, items, hitems,
      params, hparams, rfl⟩
    exact .record hname hspelling (typeField_eq_ok.mp ⟨t, ht, hreturns⟩)
      ((items_eq_ok fun _ _ => readSlot_eq_ok).mp ⟨items, hitems, hparams⟩)
  · rintro ⟨hname, hspelling, hreturns, hparams⟩
    obtain ⟨t, ht, hreturns⟩ := typeField_eq_ok.mpr hreturns
    obtain ⟨items, hitems, hparams⟩ := (items_eq_ok fun _ _ => readSlot_eq_ok).mpr hparams
    exact ⟨_, rfl, _, hname, _, hspelling, t, ht, _, hreturns, items, hitems, _, hparams, rfl⟩

theorem readInterface_eq_ok {i : Interface} :
    readInterface fields = .ok i ↔
      HasText fields "name" i.name ∧ HasText fields "mod_name" i.module ∧
        HasText fields "crate_name" i.package ∧
        Value.field? "is_callback" fields = some (.bool i.isCallback) ∧
        HasItems fields "methods" DescribesMethod i.methods := by
  unfold readInterface
  simp only [bind_eq_ok, pure_eq_ok, textField_eq_ok, boolField_eq_ok]
  constructor
  · rintro ⟨name, hname, items, hitems, methods, hmethods, module, hmodule, package, hpackage,
      isCallback, hisCallback, rfl⟩
    exact ⟨hname, hmodule, hpackage, hisCallback,
      (items_eq_ok fun _ _ => readMethod_eq_ok).mp ⟨items, hitems, hmethods⟩⟩
  · rintro ⟨hname, hmodule, hpackage, hisCallback, hmethods⟩
    obtain ⟨items, hitems, hmethods⟩ := (items_eq_ok fun _ _ => readMethod_eq_ok).mpr hmethods
    exact ⟨_, hname, items, hitems, _, hmethods, _, hmodule, _, hpackage, _, hisCallback, rfl⟩

theorem readRecord_eq_ok {r : Record} :
    readRecord fields = .ok r ↔
      HasText fields "name" r.name ∧ HasText fields "mod_name" r.module ∧
        HasText fields "crate_name" r.package ∧ HasItems fields "fields" DescribesSlot r.fields := by
  unfold readRecord
  simp only [bind_eq_ok, pure_eq_ok, textField_eq_ok]
  constructor
  · rintro ⟨name, hname, items, hitems, slots, hslots, module, hmodule, package, hpackage, rfl⟩
    exact ⟨hname, hmodule, hpackage,
      (items_eq_ok fun _ _ => readSlot_eq_ok).mp ⟨items, hitems, hslots⟩⟩
  · rintro ⟨hname, hmodule, hpackage, hslots⟩
    obtain ⟨items, hitems, hslots⟩ := (items_eq_ok fun _ _ => readSlot_eq_ok).mpr hslots
    exact ⟨_, hname, items, hitems, _, hslots, _, hmodule, _, hpackage, rfl⟩

theorem ofValue_eq_ok {e : Entity} : ofValue v = .ok e ↔ Describes v e := by
  unfold ofValue
  simp only [bind_eq_ok, objectFields_eq_ok, textField_eq_ok]
  constructor
  · rintro ⟨fields, rfl, kind, hkind, h⟩
    split at h
    · obtain ⟨i, hi, rfl⟩ := map_eq_ok.mp h
      obtain ⟨hname, hmodule, hpackage, hisCallback, hmethods⟩ := readInterface_eq_ok.mp hi
      exact .interface hkind hname hmodule hpackage hisCallback hmethods
    · obtain ⟨r, hr, rfl⟩ := map_eq_ok.mp h
      obtain ⟨hname, hmodule, hpackage, hslots⟩ := readRecord_eq_ok.mp hr
      exact .record hkind hname hmodule hpackage hslots
    · cases h
  · intro h
    cases h with
    | interface hty hname hmodule hpackage hisCallback hmethods =>
      exact ⟨_, rfl, "trait", hty, map_eq_ok.mpr
        ⟨_, readInterface_eq_ok.mpr ⟨hname, hmodule, hpackage, hisCallback, hmethods⟩, rfl⟩⟩
    | record hty hname hmodule hpackage hslots =>
      exact ⟨_, rfl, "struct", hty, map_eq_ok.mpr
        ⟨_, readRecord_eq_ok.mpr ⟨hname, hmodule, hpackage, hslots⟩, rfl⟩⟩

end HostBindings.Document
