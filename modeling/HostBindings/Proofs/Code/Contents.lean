import HostBindings.Proofs.Code.Flow
import HostBindings.Proofs.Traversal
import HostBindings.Target

/-!
The code of a declaration: the lines and statements of all bodies in it, and the generated names
that a statement refers to.
-/

namespace HostBindings.Code

/-! ### Lines and statements -/

mutual

def Item.leaves : Item → List Item
  | .block _ _ items => Item.leavesOfList items
  | item => [item]

def Item.leavesOfList : List Item → List Item
  | [] => []
  | item :: items => item.leaves ++ Item.leavesOfList items

end

def Block.leaves (b : Block) : List Item :=
  Item.leavesOfList b.items

def Field.leaves (f : Field) : List Item :=
  match f.initializer with
  | some (.closure _ body) => body.leaves
  | _ => []

def Func.leaves (f : Func) : List Item :=
  match f.body with
  | some body => body.leaves
  | none => []

mutual

/-- The lines and statements of a member, with those of the members in it. -/
def Member.leaves : Member → List Item
  | .field f => f.leaves
  | .func f => f.leaves
  | .type _ members => Member.leavesOfList members

def Member.leavesOfList : List Member → List Item
  | [] => []
  | m :: ms => m.leaves ++ Member.leavesOfList ms

end

def Member.name : Member → String
  | .field f => f.name
  | .func f => f.name
  | .type head _ => head.name

theorem Item.leavesOfList_stmts (stmts : List Stmt) :
    Item.leavesOfList (stmts.map .stmt) = stmts.map .stmt := by
  induction stmts with
  | nil => rfl
  | cons st stmts ih =>
    rw [List.map_cons, Item.leavesOfList, ih]
    rfl

theorem Block.leaves_block (lang : Lang) (stmts : List Stmt) :
    (lang.block stmts).leaves = stmts.map .stmt :=
  Item.leavesOfList_stmts stmts

def Member.Runs (P : Stmt → Prop) (d : Member) : Prop :=
  ∀ item ∈ d.leaves, ∃ st, item = .stmt st ∧ P st

namespace Member

variable {P : Stmt → Prop}

theorem mem_leaves_type {head : TypeHead} {members : List Member} {item : Item} :
    item ∈ (type head members).leaves ↔ ∃ d ∈ members, item ∈ d.leaves := by
  rw [leaves]
  exact mem_of_cons rfl fun _ _ => rfl

theorem runs_type {head : TypeHead} {members : List Member} :
    (type head members).Runs P ↔ ∀ d ∈ members, d.Runs P := by
  constructor
  · exact fun h d hd item hitem => h item (mem_leaves_type.mpr ⟨d, hd, hitem⟩)
  · intro h item hitem
    obtain ⟨d, hd, hitem⟩ := mem_leaves_type.mp hitem
    exact h d hd item hitem

theorem runs_stmts {stmts : List Stmt} {d : Member} (hd : d.leaves = stmts.map .stmt)
    (h : ∀ st ∈ stmts, P st) : d.Runs P := by
  intro item hitem
  rw [hd] at hitem
  obtain ⟨st, hst, rfl⟩ := List.mem_map.mp hitem
  exact ⟨st, rfl, h st hst⟩

theorem runs_nil {d : Member} (hd : d.leaves = []) : d.Runs P := by
  intro item hitem
  rw [hd] at hitem
  exact absurd hitem List.not_mem_nil

theorem leaves_eq_nil {d : Member} (h : d.Runs fun _ => False) : d.leaves = [] :=
  List.eq_nil_iff_forall_not_mem.mpr fun item hitem => (h item hitem).elim fun _ hst => hst.2

end Member

/-! ### References -/

inductive Reference where
  /-- The registry of a callback interface. -/
  | registry (callback : String)
  /-- The native model of a callback interface, made of trampolines and a handle. -/
  | model (scope : Scope) (callback : String) (methods : List String) (handle : String)
  /-- A native function, with the number of arguments of the call. -/
  | native (scope : Scope) (symbol : Symbol) (arity : Nat)
  /-- The proxy of a callback interface. -/
  | proxy (callback : String)

def Expr.references : Expr → List Reference
  | .duplicate e => e.references
  | .register callback _ => [.registry callback]
  | .lookup callback _ => [.registry callback]
  | .remove callback _ => [.registry callback]
  | .model scope callback methods handle => [.model scope callback methods handle]
  | .proxy callback _ => [.proxy callback]
  | .native scope symbol args => [.native scope symbol args.length]
  | _ => []

def Stmt.references (st : Stmt) : List Reference :=
  match st.value? with
  | some value => value.references
  | none => []

namespace Stmt

@[simp] theorem references_bind (x : String) (value : Expr) :
    (bind x value).references = value.references :=
  rfl

@[simp] theorem references_run (value : Expr) : (run value).references = value.references :=
  rfl

@[simp] theorem references_fill (buffer x : String) : (fill buffer x).references = [] :=
  rfl

@[simp] theorem references_deferRelease (buffer : String) :
    (deferRelease buffer).references = [] :=
  rfl

@[simp] theorem references_ret (x : String) : (ret x).references = [] :=
  rfl

end Stmt

def RefersTo (D : Reference → Prop) (body : List Stmt) : Prop :=
  ∀ st ∈ body, ∀ r ∈ st.references, D r

variable {D : Reference → Prop}

@[simp] theorem refersTo_nil : RefersTo D [] :=
  fun _ h => absurd h List.not_mem_nil

@[simp] theorem refersTo_cons {st : Stmt} {body : List Stmt} :
    RefersTo D (st :: body) ↔ (∀ r ∈ st.references, D r) ∧ RefersTo D body :=
  List.forall_mem_cons

@[simp] theorem refersTo_append {a b : List Stmt} :
    RefersTo D (a ++ b) ↔ RefersTo D a ∧ RefersTo D b :=
  List.forall_mem_append

end HostBindings.Code
