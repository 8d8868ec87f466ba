import HostBindings.Files.System
import HostBindings.Proofs.Traversal

/-!
Operations that only read. What such an operation gives is a function of the state, which it leaves
as it was, and a sequence of operations that only read is one itself. Directories may be listed in
any order: an enumeration is a choice of one.
-/

namespace HostBindings.Files

variable {σ ε δ α β : Type}

def runOn (x : ExceptT ε (StateM σ) α) (s : σ) : Except ε α × σ :=
  (x.run.run s).run

theorem runOn_pure (a : α) (s : σ) :
    runOn (pure a : ExceptT ε (StateM σ) α) s = (.ok a, s) :=
  rfl

theorem runOn_bind (x : ExceptT ε (StateM σ) α) (f : α → ExceptT ε (StateM σ) β) (s : σ) :
    runOn (x >>= f) s =
      match runOn x s with
      | (.ok a, s') => runOn (f a) s'
      | (.error e, s') => (.error e, s') := by
  unfold runOn ExceptT.run StateT.run Id.run
  simp only [bind, ExceptT.bind, ExceptT.mk, StateT.bind, ExceptT.bindCont]
  rcases x s with ⟨_ | _, _⟩ <;> rfl

/-- A sequence succeeds if both operations do, the second one on what the first one leaves. -/
theorem runOn_bind_eq_ok {x : ExceptT ε (StateM σ) α} {f : α → ExceptT ε (StateM σ) β} {s s'' : σ}
    {b : β} : runOn (x >>= f) s = (.ok b, s'') ↔
      ∃ a s', runOn x s = (.ok a, s') ∧ runOn (f a) s' = (.ok b, s'') := by
  rw [runOn_bind]
  rcases runOn x s with ⟨_ | a, s'⟩ <;> simp

theorem runOn_adapt (f : ε → δ) (x : ExceptT ε (StateM σ) α) (s : σ) :
    runOn (ExceptT.adapt f x) s = ((runOn x s).1.mapError f, (runOn x s).2) :=
  rfl

theorem runOn_adapt_eq_ok {f : ε → δ} {x : ExceptT ε (StateM σ) α} {s s' : σ} {a : α} :
    runOn (ExceptT.adapt f x) s = (.ok a, s') ↔ runOn x s = (.ok a, s') := by
  rw [runOn_adapt]
  rcases runOn x s with ⟨_ | _, _⟩ <;> simp [Except.mapError]

theorem runOn_attempt (f : Fault → ε) (operation : StateM σ (Except Fault α)) (s : σ) :
    runOn (attempt f operation) s =
      ((operation.run s).run.1.mapError f, (operation.run s).run.2) :=
  rfl

theorem runOn_attempt_eq_ok {f : Fault → ε} {operation : StateM σ (Except Fault α)} {s s' : σ}
    {a : α} : runOn (attempt f operation) s = (.ok a, s') ↔
      (operation.run s).run = (.ok a, s') := by
  rw [runOn_attempt]
  rcases (operation.run s).run with ⟨_ | _, _⟩ <;> simp [Except.mapError]

theorem runOn_ofExcept (x : Except ε α) (s : σ) :
    runOn (ofExcept x : ExceptT ε (StateM σ) α) s = (x, s) := by
  cases x <;> rfl

/-- The operation leaves every state as it is, and gives the reading of it. -/
def Reads (x : ExceptT ε (StateM σ) α) (reading : σ → Except ε α) : Prop :=
  ∀ s, runOn x s = (reading s, s)

namespace Reads

theorem pure (a : α) : Reads (Pure.pure a : ExceptT ε (StateM σ) α) fun _ => .ok a :=
  fun _ => rfl

theorem ofExcept (x : Except ε α) :
    Reads (MonadExcept.ofExcept x : ExceptT ε (StateM σ) α) fun _ => x :=
  runOn_ofExcept x

theorem bind {x : ExceptT ε (StateM σ) α} {f : α → ExceptT ε (StateM σ) β}
    {first : σ → Except ε α} {next : α → σ → Except ε β} (hx : Reads x first)
    (hf : ∀ a, Reads (f a) (next a)) :
    Reads (x >>= f) fun s => first s >>= fun a => next a s := by
  intro s
  rw [runOn_bind, hx s]
  cases h : first s with
  | error e => simp only [h, error_bind]
  | ok a => simp only [h, ok_bind, hf a s]

theorem adapt {x : ExceptT ε (StateM σ) α} {reading : σ → Except ε α} (f : ε → δ)
    (hx : Reads x reading) : Reads (ExceptT.adapt f x) fun s => (reading s).mapError f := by
  intro s
  rw [runOn_adapt, hx s]

theorem attempt {operation : StateM σ (Except Fault α)} {reading : σ → Except Fault α}
    (f : Fault → ε) (h : ∀ s, operation.run s = (reading s, s)) :
    Reads (Files.attempt f operation) fun s => (reading s).mapError f := by
  intro s
  rw [runOn_attempt, h s]
  rfl

theorem of_eq {x : ExceptT ε (StateM σ) α} {reading reading' : σ → Except ε α}
    (hx : Reads x reading) (h : ∀ s, reading s = reading' s) : Reads x reading' :=
  fun s => (hx s).trans (congrArg (·, s) (h s))

theorem mapM {f : α → ExceptT ε (StateM σ) β} {reading : α → σ → Except ε β}
    (hf : ∀ a, Reads (f a) (reading a)) (as : List α) :
    Reads (as.mapM f) fun s => as.mapM (reading · s) := by
  induction as with
  | nil => exact fun _ => rfl
  | cons a as ih =>
    have hcons := (hf a).bind fun b => ih.bind fun bs => pure (b :: bs)
    intro s
    simp only [List.mapM_cons, hcons s]
    rfl

end Reads

/-- An order in which the entries of a directory are listed. -/
structure Enumeration where
  order : List Tree.Entry → List Tree.Entry
  perm (es : List Tree.Entry) : (order es).Perm es

namespace Enumeration

def asStored : Enumeration where
  order := id
  perm es := .refl es

def reversed : Enumeration where
  order := List.reverse
  perm es := es.reverse_perm

@[reducible]
def fileSystem (o : Enumeration) : FileSystem (StateM Tree) :=
  { (inferInstance : FileSystem (StateM Tree)) with
    entries := fun path t => ((t.entries path).map o.order, t) }

theorem fileSystem_asStored : asStored.fileSystem = (inferInstance : FileSystem (StateM Tree)) := by
  have hentries (t : Tree) (path : String) :
      (t.entries path).map asStored.order = t.entries path := by
    cases t.entries path <;> rfl
  unfold fileSystem
  simp only [hentries]
  rfl

end Enumeration

def Tree.textOf (t : Tree) (path : String) : Except Fault String :=
  t.read path >>= fun octets => (Text.decodeUtf8 octets).mapError fun _ => .notText

theorem readText_run (o : Enumeration) (path : String) (t : Tree) :
    (@readText (StateM Tree) _ o.fileSystem path).run t = (t.textOf path, t) := by
  have hread : StateT.run (@FileSystem.read (StateM Tree) o.fileSystem path) t =
      pure (t.read path, t) := rfl
  unfold readText Tree.textOf
  rw [StateT.run_bind, hread, pure_bind]
  cases t.read path <;> rfl

end HostBindings.Files
