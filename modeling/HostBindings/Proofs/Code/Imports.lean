import HostBindings.Code.Imports
import HostBindings.Proofs.Code.Uses
import Mathlib.Data.String.Basic

/-!
Where the imports of a file come from. An import is given with the file, carried by a reference to
a type, or recorded by a block of code, and each of them stands once in the list of all imports,
which increases.
-/

namespace HostBindings.Code

/-! ### Increasing lists -/

theorem mem_insertSorted {x y : String} {xs : List String} :
    y ∈ insertSorted x xs ↔ y = x ∨ y ∈ xs := by
  induction xs with
  | nil => exact List.mem_cons
  | cons z zs ih =>
    unfold insertSorted
    split
    · rename_i heq
      rw [heq, List.mem_cons, ← or_assoc, or_self]
    · split
      · exact List.mem_cons
      · rw [List.mem_cons, ih, List.mem_cons, or_left_comm]

theorem pairwise_insertSorted {x : String} {xs : List String} (h : xs.Pairwise (· < ·)) :
    (insertSorted x xs).Pairwise (· < ·) := by
  induction xs with
  | nil => exact List.pairwise_singleton _ x
  | cons z zs ih =>
    obtain ⟨hz, hzs⟩ := List.pairwise_cons.mp h
    unfold insertSorted
    split
    · exact h
    · rename_i hne
      split
      · rename_i hlt
        refine List.pairwise_cons.mpr ⟨List.forall_mem_cons.mpr ⟨hlt, fun y hy => ?_⟩, h⟩
        exact hlt.trans (hz y hy)
      · rename_i hlt
        have hgt : z < x := (lt_or_gt_of_ne hne).resolve_left hlt
        refine List.pairwise_cons.mpr ⟨fun y hy => ?_, ih hzs⟩
        rcases mem_insertSorted.mp hy with rfl | hy
        · exact hgt
        · exact hz y hy

theorem mem_sortedSet {x : String} {xs : List String} : x ∈ sortedSet xs ↔ x ∈ xs := by
  induction xs with
  | nil => exact Iff.rfl
  | cons y ys ih => exact mem_insertSorted.trans ((or_congr_right ih).trans List.mem_cons.symm)

theorem pairwise_sortedSet (xs : List String) : (sortedSet xs).Pairwise (· < ·) := by
  induction xs with
  | nil => exact .nil
  | cons x xs ih => exact pairwise_insertSorted ih

/-! ### Where imports stand -/

inductive Item.Records : Item → String → Prop where
  | own {header imports items x} (h : x ∈ imports) : Records (.block header imports items) x
  | nested {header imports items item x} (hitem : item ∈ items) (h : Records item x) :
      Records (.block header imports items) x

inductive Block.Records (b : Block) : String → Prop where
  | own {x} (h : x ∈ b.imports) : Records b x
  | nested {item x} (hitem : item ∈ b.items) (h : item.Records x) : Records b x

inductive Member.Carries : Member → String → Prop where
  | field {f n x} (h : f.type.Names n (some x)) : Carries (.field f) x
  | func {f t n x} (ht : f.Mentions t) (h : t.Names n (some x)) : Carries (.func f) x
  | head {head members t n x} (ht : head.Mentions t) (h : t.Names n (some x)) :
      Carries (.type head members) x
  | inside {head members m x} (hm : m ∈ members) (h : Carries m x) : Carries (.type head members) x

/-- A member has a block of code at some depth, as the body of a function or as the closure that a
field starts with. -/
inductive Member.Holds : Member → Block → Prop where
  | body {f b} (hb : f.body = some b) : Holds (.func f) b
  | closure {f params b} (hb : f.initializer = some (.closure params b)) : Holds (.field f) b
  | inside {head members m b} (hm : m ∈ members) (h : Holds m b) : Holds (.type head members) b

/-! ### The imports of code -/

theorem Item.mem_importsOfList {x : String} {items : List Item} :
    x ∈ Item.importsOfList items ↔ ∃ item ∈ items, x ∈ item.imports :=
  mem_of_cons rfl fun _ _ => rfl

/-- A statement records nothing, the block around it does. -/
theorem Item.importsOfList_stmts (stmts : List Stmt) :
    Item.importsOfList (stmts.map .stmt) = [] := by
  induction stmts with
  | nil => rfl
  | cons st stmts ih => exact ih

mutual

theorem Item.records_of_mem_imports {x : String} : ∀ item : Item, x ∈ item.imports → item.Records x
  | .line _, h | .stmt _, h | .blank, h => absurd h List.not_mem_nil
  | .block header imports items, h => by
    rw [Item.imports, List.mem_append] at h
    rcases h with h | h
    · exact .own h
    · obtain ⟨item, hitem, hrecords⟩ := exists_records_of_mem_imports items h
      exact .nested hitem hrecords

theorem Item.exists_records_of_mem_imports {x : String} :
    ∀ items : List Item, x ∈ Item.importsOfList items → ∃ item ∈ items, item.Records x
  | [], h => absurd h List.not_mem_nil
  | item :: items, h => by
    rw [Item.importsOfList, List.mem_append] at h
    rcases h with h | h
    · exact ⟨item, List.mem_cons_self, records_of_mem_imports item h⟩
    · obtain ⟨other, hother, hrecords⟩ := exists_records_of_mem_imports items h
      exact ⟨other, List.mem_cons_of_mem item hother, hrecords⟩

end

theorem Item.mem_imports {x : String} {item : Item} : x ∈ item.imports ↔ item.Records x := by
  refine ⟨records_of_mem_imports item, fun h => ?_⟩
  induction h with
  | own h =>
    rw [imports]
    exact List.mem_append_left _ h
  | nested hitem _ ih =>
    rw [imports]
    exact List.mem_append_right _ (mem_importsOfList.mpr ⟨_, hitem, ih⟩)

theorem Block.mem_allImports {x : String} {b : Block} : x ∈ b.allImports ↔ b.Records x := by
  rw [allImports, List.mem_append, Item.mem_importsOfList]
  constructor
  · rintro (h | ⟨item, hitem, h⟩)
    · exact .own h
    · exact .nested hitem (Item.mem_imports.mp h)
  · rintro (h | ⟨hitem, h⟩)
    · exact Or.inl h
    · exact Or.inr ⟨_, hitem, Item.mem_imports.mpr h⟩

/-! ### The imports of members -/

theorem TypeRef.mem_imports {x : String} {t : TypeRef} :
    x ∈ t.imports ↔ ∃ n, t.Names n (some x) := by
  simp only [imports, List.mem_filterMap]
  constructor
  · rintro ⟨node, hnode, hprovider⟩
    cases node with
    | named n args p =>
      obtain rfl : p = some x := hprovider
      exact ⟨n, names_of_mem_nodes t hnode⟩
    | _ => cases hprovider
  · rintro ⟨n, hn⟩
    obtain ⟨args, hnode⟩ := hn.exists_node
    exact ⟨_, hnode, rfl⟩

/-- What references carry is listed for each of them. -/
theorem mem_refImports {x : String} {refs : List TypeRef} :
    x ∈ refs.flatMap (·.imports) ↔ ∃ t ∈ refs, ∃ n, t.Names n (some x) := by
  simp only [List.mem_flatMap, TypeRef.mem_imports]

namespace Member

variable {x : String} {P : Block → Prop}

theorem mem_importsOfList {members : List Member} :
    x ∈ Member.importsOfList members ↔ ∃ m ∈ members, x ∈ m.imports :=
  mem_of_cons rfl fun _ _ => rfl

theorem carries_field {f : Field} : (field f).Carries x ↔ x ∈ f.type.imports := by
  rw [TypeRef.mem_imports]
  constructor
  · rintro (h | _ | _ | _)
    exact ⟨_, h⟩
  · rintro ⟨n, h⟩
    exact .field h

theorem carries_func {f : Func} : (func f).Carries x ↔ x ∈ f.refs.flatMap (·.imports) := by
  rw [mem_refImports]
  constructor
  · rintro (_ | ⟨ht, h⟩ | _ | _)
    exact ⟨_, Func.mem_refs.mpr ht, _, h⟩
  · rintro ⟨t, ht, n, h⟩
    exact .func (Func.mem_refs.mp ht) h

theorem carries_type {head : TypeHead} {members : List Member} :
    (type head members).Carries x ↔
      x ∈ head.refs.flatMap (·.imports) ∨ ∃ m ∈ members, m.Carries x := by
  rw [mem_refImports]
  constructor
  · rintro (_ | _ | ⟨ht, h⟩ | ⟨hm, h⟩)
    · exact Or.inl ⟨_, TypeHead.mem_refs.mpr ht, _, h⟩
    · exact Or.inr ⟨_, hm, h⟩
  · rintro (⟨t, ht, n, h⟩ | ⟨m, hm, h⟩)
    · exact .head (TypeHead.mem_refs.mp ht) h
    · exact .inside hm h

theorem holds_field {f : Field} :
    (∃ b, (field f).Holds b ∧ P b) ↔ ∃ params b, f.initializer = some (.closure params b) ∧ P b := by
  constructor
  · rintro ⟨b, _ | hb | _, h⟩
    exact ⟨_, b, hb, h⟩
  · rintro ⟨params, b, hb, h⟩
    exact ⟨b, .closure hb, h⟩

theorem holds_func {f : Func} : (∃ b, (func f).Holds b ∧ P b) ↔ ∃ b, f.body = some b ∧ P b := by
  constructor
  · rintro ⟨b, hb | _ | _, h⟩
    exact ⟨b, hb, h⟩
  · rintro ⟨b, hb, h⟩
    exact ⟨b, .body hb, h⟩

theorem holds_type {head : TypeHead} {members : List Member} :
    (∃ b, (type head members).Holds b ∧ P b) ↔ ∃ m ∈ members, ∃ b, m.Holds b ∧ P b := by
  constructor
  · rintro ⟨b, _ | _ | ⟨hm, hb⟩, h⟩
    exact ⟨_, hm, b, hb, h⟩
  · rintro ⟨m, hm, b, hb, h⟩
    exact ⟨b, .inside hm hb, h⟩

theorem mem_fieldImports {f : Field} :
    x ∈ f.imports ↔ (field f).Carries x ∨ ∃ b, (field f).Holds b ∧ b.Records x := by
  rw [Field.imports, List.mem_append, carries_field, holds_field]
  refine or_congr_right ?_
  constructor
  · intro h
    split at h
    · rename_i params b hb
      exact ⟨params, b, hb, Block.mem_allImports.mp h⟩
    · exact absurd h List.not_mem_nil
  · rintro ⟨params, b, hb, h⟩
    rw [hb]
    exact Block.mem_allImports.mpr h

theorem mem_funcImports {f : Func} :
    x ∈ f.imports ↔ (func f).Carries x ∨ ∃ b, (func f).Holds b ∧ b.Records x := by
  rw [Func.imports, List.mem_append, carries_func, holds_func]
  refine or_congr_right ?_
  cases f.body with
  | none => simp
  | some b => simp [Block.mem_allImports]

mutual

/-- The imports of a member are those that its references carry and its code records. -/
theorem mem_imports : ∀ m : Member, x ∈ m.imports ↔ m.Carries x ∨ ∃ b, m.Holds b ∧ b.Records x
  | .field _ => mem_fieldImports
  | .func _ => mem_funcImports
  | .type head members => by
    rw [imports, List.mem_append, exists_mem_imports members, carries_type, holds_type, or_assoc]

theorem exists_mem_imports : ∀ ms : List Member, x ∈ Member.importsOfList ms ↔
    (∃ m ∈ ms, m.Carries x) ∨ ∃ m ∈ ms, ∃ b, m.Holds b ∧ b.Records x
  | [] => by simp [importsOfList]
  | m :: ms => by
    rw [importsOfList, List.mem_append, mem_imports m, exists_mem_imports ms, or_or_or_comm,
      List.exists_mem_cons_iff, List.exists_mem_cons_iff]

end

end Member

/-! ### The imports of files -/

namespace SourceFile

def Carries (f : SourceFile) (x : String) : Prop :=
  ∃ m ∈ f.members, m.Carries x

def Holds (f : SourceFile) (b : Block) : Prop :=
  ∃ m ∈ f.members, m.Holds b

theorem mem_allImports {f : SourceFile} {x : String} :
    x ∈ f.allImports ↔ x ∈ f.imports ∨ f.Carries x ∨ ∃ b, f.Holds b ∧ b.Records x := by
  rw [allImports, mem_sortedSet, List.mem_append, Member.exists_mem_imports]
  refine or_congr_right (or_congr_right ?_)
  constructor
  · rintro ⟨m, hm, b, h, hrecords⟩
    exact ⟨b, ⟨m, hm, h⟩, hrecords⟩
  · rintro ⟨b, ⟨m, hm, h⟩, hrecords⟩
    exact ⟨m, hm, b, h, hrecords⟩

theorem pairwise_allImports (f : SourceFile) : f.allImports.Pairwise (· < ·) :=
  pairwise_sortedSet _

end SourceFile

end HostBindings.Code
