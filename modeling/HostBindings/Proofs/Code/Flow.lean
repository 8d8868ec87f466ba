import HostBindings.Code.Stmt

/-!
Which locals a statement binds and which values it reads, and what it means for a body that each
value is bound before it is read.
-/

namespace HostBindings.Code

def Expr.reads : Expr → List String
  | .name x => [x]
  | .cast _ x => [x]
  | .asInteger x => [x]
  | .asTruth x => [x]
  | .duplicate e => e.reads
  | .copyText x => [x]
  | .jsonEncode x => [x]
  | .jsonDecode _ x => [x]
  | .allocate x => [x]
  | .copyBytes x => [x]
  | .wireBytes buffer x => [buffer, x]
  | .register _ x => [x]
  | .lookup _ handle => [handle]
  | .remove _ handle => [handle]
  | .model _ _ _ handle => [handle]
  | .proxy _ x => [x]
  | .native _ _ args => args
  | .invoke receiver _ args => receiver :: args.map (·.2)

namespace Stmt

def value? : Stmt → Option Expr
  | .bind _ value => some value
  | .run value => some value
  | _ => none

/-- The locals and parameters that a statement mentions, apart from one that it binds. -/
def reads : Stmt → List String
  | .bind _ value => value.reads
  | .fill buffer x => [buffer, x]
  | .deferRelease buffer => [buffer]
  | .run value => value.reads
  | .ret x => [x]
  | .loadLibrary _ => []

def binds : Stmt → List String
  | .bind x _ => [x]
  | _ => []

end Stmt

def boundNames (body : List Stmt) : List String :=
  body.flatMap Stmt.binds

/-- Each value that a body reads is known from the start or bound by an earlier statement. -/
def BoundBefore (known : List String) (body : List Stmt) : Prop :=
  ∀ before s after, body = before ++ s :: after →
    ∀ x ∈ s.reads, x ∈ known ∨ x ∈ boundNames before

@[simp] theorem boundNames_nil : boundNames [] = [] :=
  rfl

@[simp] theorem boundNames_cons (s : Stmt) (body : List Stmt) :
    boundNames (s :: body) = s.binds ++ boundNames body :=
  List.flatMap_cons

@[simp] theorem boundNames_append (a b : List Stmt) :
    boundNames (a ++ b) = boundNames a ++ boundNames b :=
  List.flatMap_append

theorem boundNames_flatten (blocks : List (List Stmt)) :
    boundNames blocks.flatten = blocks.flatMap boundNames := by
  induction blocks with
  | nil => rfl
  | cons b blocks ih => rw [List.flatten_cons, boundNames_append, ih, List.flatMap_cons]

variable {known : List String}

@[simp] theorem boundBefore_nil : BoundBefore known [] := by
  intro before s after h
  exact absurd h.symm (by simp)

/-- The first statement reads what is known, and what it binds is known from there on. -/
@[simp] theorem boundBefore_cons {s : Stmt} {b : List Stmt} :
    BoundBefore known (s :: b) ↔
      (∀ x ∈ s.reads, x ∈ known) ∧ BoundBefore (known ++ s.binds) b := by
  constructor
  · intro h
    refine ⟨fun x hx => (h [] s b rfl x hx).resolve_right List.not_mem_nil, ?_⟩
    intro before t after heq x hx
    rw [List.mem_append, or_assoc, ← List.mem_append]
    exact h (s :: before) t after (by rw [heq, List.cons_append]) x hx
  · -- the statement in question is the head or one of the tail
    rintro ⟨hs, hb⟩ before t after heq x hx
    cases before with
    | nil =>
      obtain ⟨rfl, _⟩ := List.cons.inj heq
      exact Or.inl (hs x hx)
    | cons u before =>
      obtain ⟨rfl, rfl⟩ := List.cons.inj heq
      have h := hb before t after rfl x hx
      rwa [List.mem_append, or_assoc, ← List.mem_append] at h

@[simp] theorem boundBefore_append {a b : List Stmt} :
    BoundBefore known (a ++ b) ↔ BoundBefore known a ∧ BoundBefore (known ++ boundNames a) b := by
  induction a generalizing known with
  | nil => simp
  | cons s a ih => simp [ih, and_assoc]

theorem BoundBefore.mono {more : List String} {b : List Stmt} (h : BoundBefore known b)
    (hsub : known ⊆ more) : BoundBefore more b :=
  fun before s after heq x hx => (h before s after heq x hx).imp_left fun hk => hsub hk

end HostBindings.Code
