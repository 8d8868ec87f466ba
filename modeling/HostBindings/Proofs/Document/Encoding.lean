import HostBindings.Proofs.Document.Schema
import HostBindings.Proofs.Json.Rereading

/-!
Entities written as documents with just the required keys, and documents that differ in other
keys only. Writing is inverse to reading on the entities whose types carry the names that their
spellings give, these are the entities that reading yields, and a document read is the one
written but for keys that are not required.
-/

namespace HostBindings

/-! ### Names and spellings -/

/-- The name that a type carries, if any, is the one its spelling gives. -/
def BoundaryType.Agrees (spelling : String) : BoundaryType → Prop
  | .single (.record name) => Spelling.recordName spelling = .ok name
  | .vec (.record name) => Spelling.elementName spelling = .ok name
  | .callback name => Spelling.callbackName spelling = .ok name
  | _ => True

def Slot.Agrees (s : Slot) : Prop :=
  s.type.Agrees s.spelling

def Method.Agrees (m : Method) : Prop :=
  m.returns.Agrees m.returnSpelling ∧ ∀ p ∈ m.params, p.Agrees

def Entity.Agrees : Entity → Prop
  | .interface i => ∀ m ∈ i.methods, m.Agrees
  | .record r => ∀ p ∈ r.fields, p.Agrees

namespace Document

open HostBindings.Json

variable {spelling : String} {v w : Value} {type : BoundaryType}

theorem Spells.agrees (h : Spells spelling v type) : type.Agrees spelling := by
  cases h with
  | void => trivial
  | @plain e he =>
    cases e with
    | record name => cases he
    | _ => trivial
  | record hname => exact hname
  | callback hname => exact hname
  | @plainVec e he =>
    cases e with
    | record name => cases he
    | _ => trivial
  | recordVec hname => exact hname

theorem DescribesSlot.agrees {s : Slot} (h : DescribesSlot v s) : s.Agrees := by
  obtain ⟨_, _, _, _, htype⟩ := h
  exact htype.agrees

theorem DescribesMethod.agrees {m : Method} (h : DescribesMethod v m) : m.Agrees := by
  obtain ⟨_, _, ⟨_, _, hreturns⟩, _, _, hparams⟩ := h
  refine ⟨hreturns.agrees, fun p hp => ?_⟩
  obtain ⟨_, _, hslot⟩ := forall₂_exists_left hparams hp
  exact hslot.agrees

theorem Describes.agrees {e : Entity} (h : Describes v e) : e.Agrees := by
  cases h with
  | interface _ _ _ _ _ hmethods =>
    obtain ⟨_, _, hmethods⟩ := hmethods
    intro m hm
    obtain ⟨_, _, hmethod⟩ := forall₂_exists_left hmethods hm
    exact hmethod.agrees
  | record _ _ _ _ hslots =>
    obtain ⟨_, _, hslots⟩ := hslots
    intro p hp
    obtain ⟨_, _, hslot⟩ := forall₂_exists_left hslots hp
    exact hslot.agrees

/-! ### Writing -/

def encodeType : BoundaryType → Value
  | .vec e => .record [("Vec", .text e.tag)]
  | type => .text type.tag

def encodeSlot (s : Slot) : Value :=
  .record [("name", .text s.name), ("ty", encodeType s.type), ("origin_ty", .text s.spelling)]

def encodeMethod (m : Method) : Value :=
  .record
    [("name", .text m.name), ("return_type", encodeType m.returns),
      ("origin_return_ty", .text m.returnSpelling), ("args", .list (m.params.map encodeSlot))]

/-- The document that describes an entity with just the required keys. -/
def encode : Entity → Value
  | .interface i =>
    .record
      [("ty", .text "trait"), ("name", .text i.name), ("mod_name", .text i.module),
        ("crate_name", .text i.package), ("is_callback", .bool i.isCallback),
        ("methods", .list (i.methods.map encodeMethod))]
  | .record r =>
    .record
      [("ty", .text "struct"), ("name", .text r.name), ("mod_name", .text r.module),
        ("crate_name", .text r.package), ("fields", .list (r.fields.map encodeSlot))]

theorem spells_encodeType (h : type.Agrees spelling) : Spells spelling (encodeType type) type := by
  match type with
  | .void => exact .void
  | .single (.numeric n) => exact .plain (e := .numeric n) rfl
  | .single .boolean => exact .plain (e := .boolean) rfl
  | .single .string => exact .plain (e := .string) rfl
  | .single (.record _) => exact .record h
  | .vec (.numeric _) => exact .plainVec rfl
  | .vec .boolean => exact .plainVec rfl
  | .vec .string => exact .plainVec rfl
  | .vec (.record _) => exact .recordVec h
  | .callback _ => exact .callback h

/-- The items of a list written one by one describe the parts they were written from. -/
theorem forall₂_encode {α : Type} {encode : α → Value} {R : Value → α → Prop} {parts : List α}
    (h : ∀ a ∈ parts, R (encode a) a) : List.Forall₂ R (parts.map encode) parts :=
  List.forall₂_map_left_iff.mpr (List.forall₂_same.mpr h)

theorem describesSlot_encodeSlot {s : Slot} (h : s.Agrees) : DescribesSlot (encodeSlot s) s :=
  .record rfl rfl ⟨_, rfl, spells_encodeType h⟩

theorem describesMethod_encodeMethod {m : Method} (h : m.Agrees) :
    DescribesMethod (encodeMethod m) m :=
  .record rfl rfl ⟨_, rfl, spells_encodeType h.1⟩
    ⟨_, rfl, forall₂_encode fun p hp => describesSlot_encodeSlot (h.2 p hp)⟩

theorem describes_encode {e : Entity} (h : e.Agrees) : Describes (encode e) e := by
  cases e with
  | interface i =>
    exact .interface rfl rfl rfl rfl rfl
      ⟨_, rfl, forall₂_encode fun m hm => describesMethod_encodeMethod (h m hm)⟩
  | record r =>
    exact .record rfl rfl rfl rfl
      ⟨_, rfl, forall₂_encode fun p hp => describesSlot_encodeSlot (h p hp)⟩

/-! ### Texts -/

theorem exact_encodeType (type : BoundaryType) (depth : ℕ) :
    (encodeType type).Exact (depth + 1) := by
  cases type with
  | vec e => exact .record (by simp) (List.forall_mem_singleton.mpr .text)
  | _ => exact .text

theorem exact_encodeSlot (s : Slot) (depth : ℕ) : (encodeSlot s).Exact (depth + 2) := by
  refine .record (by simp) ?_
  simp only [List.forall_mem_cons]
  exact ⟨.text, exact_encodeType s.type depth, .text, List.forall_mem_nil _⟩

theorem exact_encodeMethod (m : Method) (depth : ℕ) : (encodeMethod m).Exact (depth + 4) := by
  refine .record (by simp) ?_
  simp only [List.forall_mem_cons]
  exact ⟨.text, exact_encodeType m.returns (depth + 2), .text,
    .list (List.forall_mem_map.mpr fun s _ => exact_encodeSlot s depth), List.forall_mem_nil _⟩

/-- Documents of entities nest no deeper than a document may. -/
theorem exact_encode (e : Entity) : (encode e).Exact Value.maxDepth := by
  cases e with
  | interface i =>
    refine .record (by simp) ?_
    simp only [List.forall_mem_cons]
    exact ⟨.text, .text, .text, .text, .bool,
      .list (List.forall_mem_map.mpr fun m _ => exact_encodeMethod m 121), List.forall_mem_nil _⟩
  | record r =>
    refine .record (by simp) ?_
    simp only [List.forall_mem_cons]
    exact ⟨.text, .text, .text, .text,
      .list (List.forall_mem_map.mpr fun s _ => exact_encodeSlot s 123), List.forall_mem_nil _⟩

/-- The text written for an entity is read as the entity. -/
theorem ofText_encode {e : Entity} (h : e.Agrees) : ofText (encode e).write = .ok e := by
  have hread : Value.read? (encode e).write = some (encode e) := by
    rw [Value.read?, Value.ofText?, Tree.ofText?_write, Option.bind_some]
    exact (Value.ofTree?_tree _ _).mpr (exact_encode e)
  rw [ofText, hread]
  exact ofValue_eq_ok.mpr (describes_encode h)

/-! ### Keys that are not required -/

def EqualAt (keys : List String) (f g : Fields) : Prop :=
  ∀ key ∈ keys, Value.field? key f = Value.field? key g

inductive SameItems (R : Value → Value → Prop) : Option Value → Option Value → Prop
  | same {v : Option Value} : SameItems R v v
  | list {vs ws : List Value} (h : List.Forall₂ R vs ws) :
      SameItems R (some (.list vs)) (some (.list ws))

inductive SameSlot : Value → Value → Prop
  | same {v : Value} : SameSlot v v
  | record {f g : Fields} (h : EqualAt ["name", "origin_ty", "ty"] f g) :
      SameSlot (.record f) (.record g)

inductive SameMethod : Value → Value → Prop
  | same {v : Value} : SameMethod v v
  | record {f g : Fields} (h : EqualAt ["name", "origin_return_ty", "return_type"] f g)
      (args : SameItems SameSlot (Value.field? "args" f) (Value.field? "args" g)) :
      SameMethod (.record f) (.record g)

/-- Documents that differ in keys not required in their objects. Which keys an entity requires
beside `ty` depends on its kind. -/
inductive SameDocument : Value → Value → Prop
  | same {v : Value} : SameDocument v v
  | record {f g : Fields} (ty : Value.field? "ty" f = Value.field? "ty" g)
      (interface : HasText f "ty" "trait" →
        EqualAt ["name", "mod_name", "crate_name", "is_callback"] f g ∧
          SameItems SameMethod (Value.field? "methods" f) (Value.field? "methods" g))
      (struct : HasText f "ty" "struct" →
        EqualAt ["name", "mod_name", "crate_name"] f g ∧
          SameItems SameSlot (Value.field? "fields" f) (Value.field? "fields" g)) :
      SameDocument (.record f) (.record g)

variable {f g : Fields}

theorem equalAt_nil : EqualAt [] f g :=
  nofun

theorem equalAt_cons {key : String} {keys : List String} :
    EqualAt (key :: keys) f g ↔ Value.field? key f = Value.field? key g ∧ EqualAt keys f g :=
  List.forall_mem_cons

section

variable {key : String} (context : String) (h : Value.field? key f = Value.field? key g)

include h

theorem field_congr : field f key context = field g key context := by
  unfold field
  rw [h]

theorem textField_congr : textField f key context = textField g key context := by
  unfold textField
  rw [field_congr context h]

theorem boolField_congr : boolField f key context = boolField g key context := by
  unfold boolField
  rw [field_congr context h]

end

/-- A list field read item by item, and what is done with the parts. -/
theorem items_congr {α β : Type} {key : String} (context : String)
    {read : Value → Except CatalogError α} {R : Value → Value → Prop}
    (hread : ∀ v w, R v w → read v = read w)
    (h : SameItems R (Value.field? key f) (Value.field? key g))
    (rest : List α → Except CatalogError β) :
    (listField f key context >>= fun items => items.mapM read >>= rest) =
      listField g key context >>= fun items => items.mapM read >>= rest := by
  generalize hv : Value.field? key f = v at h
  generalize hw : Value.field? key g = w at h
  unfold listField field
  rw [hv, hw]
  -- what is not a list on one side is the same on the other, so the error is too
  cases h with
  | same => rfl
  | list hitems => exact congrArg (· >>= rest) (mapM_congr (hitems.imp hread))

theorem readSlot_congr (owner : String) (v w : Value) (h : SameSlot v w) :
    readSlot owner v = readSlot owner w := by
  cases h with
  | same => rfl
  | @record f g h =>
    simp only [equalAt_cons] at h
    obtain ⟨hname, hspelling, htype, _⟩ := h
    unfold readSlot objectFields
    simp only [ok_bind, textField_congr _ hname, textField_congr _ hspelling, field_congr _ htype]

theorem readMethod_congr (interface : String) (v w : Value) (h : SameMethod v w) :
    readMethod interface v = readMethod interface w := by
  cases h with
  | same => rfl
  | @record f g h hargs =>
    simp only [equalAt_cons] at h
    obtain ⟨hname, hspelling, hreturns, _⟩ := h
    unfold readMethod objectFields
    simp only [ok_bind, textField_congr _ hname, textField_congr _ hspelling,
      field_congr _ hreturns, items_congr _ (readSlot_congr _) hargs]

theorem readInterface_congr
    (h : EqualAt ["name", "mod_name", "crate_name", "is_callback"] f g)
    (hmethods : SameItems SameMethod (Value.field? "methods" f) (Value.field? "methods" g)) :
    readInterface f = readInterface g := by
  simp only [equalAt_cons] at h
  obtain ⟨hname, hmodule, hpackage, hisCallback, _⟩ := h
  unfold readInterface
  simp only [textField_congr _ hname, textField_congr _ hmodule, textField_congr _ hpackage,
    boolField_congr _ hisCallback, items_congr _ (readMethod_congr _) hmethods]

theorem readRecord_congr (h : EqualAt ["name", "mod_name", "crate_name"] f g)
    (hslots : SameItems SameSlot (Value.field? "fields" f) (Value.field? "fields" g)) :
    readRecord f = readRecord g := by
  simp only [equalAt_cons] at h
  obtain ⟨hname, hmodule, hpackage, _⟩ := h
  unfold readRecord
  simp only [textField_congr _ hname, textField_congr _ hmodule, textField_congr _ hpackage,
    items_congr _ (readSlot_congr _) hslots]

/-- Keys that are not required have no say, in the entity read as in the error. -/
theorem ofValue_congr (h : SameDocument v w) : ofValue v = ofValue w := by
  cases h with
  | same => rfl
  | @record f g hty hinterface hstruct =>
    unfold ofValue objectFields
    simp only [ok_bind]
    rw [← textField_congr _ hty]
    -- the kind is the same, or missing from both, and says which other keys count
    cases hkind : textField f "ty" "AST document" with
    | error _ => rfl
    | ok kind =>
      have hkind := textField_eq_ok.mp hkind
      rw [ok_bind, ok_bind]
      split
      · obtain ⟨h, hmethods⟩ := hinterface hkind
        rw [readInterface_congr h hmethods]
      · obtain ⟨h, hslots⟩ := hstruct hkind
        rw [readRecord_congr h hslots]
      · rfl

/-! ### The document written is the one read -/

theorem Spells.eq_encodeType (h : Spells spelling v type) : v = encodeType type := by
  cases h with
  | @plain e he =>
    cases e with
    | record name => cases he
    | _ => rfl
  | _ => rfl

theorem HasItems.sameItems {α : Type} {key : String} {R : Value → α → Prop}
    {S : Value → Value → Prop} {encode : α → Value} {parts : List α}
    (h : HasItems f key R parts) (hR : ∀ v a, R v a → S v (encode a)) :
    SameItems S (Value.field? key f) (some (.list (parts.map encode))) := by
  obtain ⟨items, hitems, hparts⟩ := h
  rw [hitems]
  exact .list (List.forall₂_map_right_iff.mpr (hparts.imp hR))

theorem DescribesSlot.sameSlot (v : Value) (s : Slot) (h : DescribesSlot v s) :
    SameSlot v (encodeSlot s) := by
  obtain ⟨hname, hspelling, t, ht, htype⟩ := h
  -- a type has one spelling only, so the two documents hold the same type value
  rw [htype.eq_encodeType] at ht
  refine .record ?_
  simp only [equalAt_cons]
  exact ⟨hname, hspelling, ht, equalAt_nil⟩

theorem DescribesMethod.sameMethod (v : Value) (m : Method) (h : DescribesMethod v m) :
    SameMethod v (encodeMethod m) := by
  obtain ⟨hname, hspelling, ⟨t, ht, hreturns⟩, hparams⟩ := h
  rw [hreturns.eq_encodeType] at ht
  refine .record ?_ (hparams.sameItems DescribesSlot.sameSlot)
  simp only [equalAt_cons]
  exact ⟨hname, hspelling, ht, equalAt_nil⟩

theorem Describes.sameDocument {e : Entity} (h : Describes v e) : SameDocument v (encode e) := by
  cases h with
  | interface hty hname hmodule hpackage hisCallback hmethods =>
    refine .record hty (fun _ => ⟨?_, hmethods.sameItems DescribesMethod.sameMethod⟩) fun h => ?_
    · simp only [equalAt_cons]
      exact ⟨hname, hmodule, hpackage, hisCallback, equalAt_nil⟩
    · exact absurd (hty.symm.trans h) (by simp)
  | record hty hname hmodule hpackage hslots =>
    refine .record hty (fun h => ?_) fun _ => ⟨?_, hslots.sameItems DescribesSlot.sameSlot⟩
    · exact absurd (hty.symm.trans h) (by simp)
    · simp only [equalAt_cons]
      exact ⟨hname, hmodule, hpackage, equalAt_nil⟩

/-- Reading succeeds exactly on the documents of the schema, with the entity described. It takes
what was written for an entity back to the entity if the names agree with the spellings. Every
entity read agrees so, and the document read was the one written for it but for keys that are not
required. Such keys never change the outcome. -/
theorem ofValue_schema :
    (∀ v e, ofValue v = .ok e ↔ Describes v e) ∧
      (∀ e : Entity, e.Agrees → ofValue (encode e) = .ok e) ∧
      (∀ v e, ofValue v = .ok e → e.Agrees ∧ SameDocument v (encode e)) ∧
      ∀ v w, SameDocument v w → ofValue v = ofValue w := by
  refine ⟨fun _ _ => ofValue_eq_ok, fun e he => ?_, fun v e h => ?_, fun _ _ => ofValue_congr⟩
  · exact ofValue_eq_ok.mpr (describes_encode he)
  · have hdescribes := ofValue_eq_ok.mp h
    exact ⟨hdescribes.agrees, hdescribes.sameDocument⟩

def feed : Entity :=
  .interface
    { name := "Feed", module := "demo", package := "demo_lib", isCallback := false
      methods :=
        [{ name := "publish", returns := .single .boolean, returnSpelling := "bool"
           params :=
            [{ name := "items", type := .vec (.record "Item"), spelling := "Vec<Item>" },
              { name := "to", type := .callback "Reader", spelling := "Box<dyn Reader>" }] }] }

/-- A document of the service with a remark on the service and one on its method. -/
def feedDocument : Value :=
  .record
    [("remark", .null), ("ty", .text "trait"), ("name", .text "Feed"), ("mod_name", .text "demo"),
      ("crate_name", .text "demo_lib"), ("is_callback", .bool false),
      ("methods", .list [.record
        [("name", .text "publish"), ("return_type", .text "Boolean"),
          ("origin_return_ty", .text "bool"), ("remark", .text "now"),
          ("args", .list
            [.record [("name", .text "items"), ("ty", .record [("Vec", .text "Struct")]),
                ("origin_ty", .text "Vec<Item>")],
              .record [("name", .text "to"), ("ty", .text "Callback"),
                ("origin_ty", .text "Box<dyn Reader>")]])]])]

theorem ofValue_schema_feed :
    feed.Agrees ∧ SameDocument feedDocument (encode feed) ∧ ofValue feedDocument = .ok feed := by
  have hitem : Spelling.elementName "Vec<Item>" = .ok "Item" :=
    eq_ok_of_toOption (by decide +kernel)
  have hreader : Spelling.callbackName "Box<dyn Reader>" = .ok "Reader" :=
    eq_ok_of_toOption (by decide +kernel)
  have hnames : feed.Agrees := by
    simp [feed, Entity.Agrees, Method.Agrees, Slot.Agrees, BoundaryType.Agrees, hitem, hreader]
  have hsame : SameDocument feedDocument (encode feed) := by
    refine .record rfl (fun _ => ⟨?_, .list (.cons (.record ?_ .same) .nil)⟩) fun h => ?_
    · simp only [equalAt_cons]
      exact ⟨rfl, rfl, rfl, rfl, equalAt_nil⟩
    · simp only [equalAt_cons]
      exact ⟨rfl, rfl, rfl, equalAt_nil⟩
    · exact absurd (Option.some.inj h) (by simp)
  exact ⟨hnames, hsame, (ofValue_schema.2.2.2 _ _ hsame).trans (ofValue_schema.2.1 _ hnames)⟩

end Document

end HostBindings
