import HostBindings.Bridge.Registry
import Mathlib.Data.List.Nodup

/-!
Registries as logs. What a registry has been through is a log of registrations and removals that
only grows, and the registry is what the log gives when it is replayed. A handle counts
registrations: it reaches the callback of its own from the registration to the removal. As long as
handles do not run out, a run answers by its log alone, nested actions included:
`runAll_follows_log`.
-/

namespace HostBindings.Bridge

/-- What changes a registry: a callback comes in, or the one of a handle goes out. -/
inductive Change (α : Type) where
  | registered (callback : α)
  | removed (handle : UInt64)

abbrev Log (α : Type) : Type :=
  List (Change α)

variable {α : Type}

namespace Log

def callbacks (log : Log α) : List α :=
  log.filterMap fun
    | .registered callback => some callback
    | .removed _ => none

def removals (log : Log α) : List UInt64 :=
  log.filterMap fun
    | .registered _ => none
    | .removed handle => some handle

def replay (log : Log α) : Registry α :=
  log.foldl (fun r change =>
    match change with
    | .registered callback => (r.register callback).2
    | .removed handle => (r.remove handle).2) .empty

/-- A handle reaches the callback of the registration that it counts, while it is not removed. -/
structure Reaches (log : Log α) (handle : UInt64) (callback : α) : Prop where
  pos : 1 ≤ handle.toNat
  registered : log.callbacks[handle.toNat - 1]? = some callback
  kept : handle ∉ log.removals

/-- The handle is zero, was not issued so far, or was removed. -/
def Dead (log : Log α) (handle : UInt64) : Prop :=
  handle.toNat = 0 ∨ log.callbacks.length < handle.toNat ∨ handle ∈ log.removals

/-- So many registrations have not been followed by a removal. -/
def Counts (log : Log α) (n : Nat) : Prop :=
  n + log.removals.length = log.callbacks.length

/-! ### Answers by a log -/

mutual

/-- How an action is answered after what the first log tells; the last log tells this and what the
action has changed. -/
inductive Answers : Log α → Action α → Reply α → Log α → Prop where
  /-- The handle of a callback is the number of its registration. -/
  | register {log callback handle} (counted : handle.toNat = log.callbacks.length + 1) :
      Answers log (.register callback) (.handle handle) (log ++ [.registered callback])
  | get {log handle callback} (hit : log.Reaches handle callback) :
      Answers log (.get handle) (.found (some callback)) log
  | getDead {log handle} (miss : log.Dead handle) :
      Answers log (.get handle) (.found none) log
  | remove {log handle callback} (hit : log.Reaches handle callback) :
      Answers log (.remove handle) (.found (some callback)) (log ++ [.removed handle])
  | removeDead {log handle} (miss : log.Dead handle) :
      Answers log (.remove handle) (.found none) log
  | size {log n} (count : log.Counts n) : Answers log .size (.size n) log
  | isEmpty {log b} (count : b = true ↔ log.Counts 0) : Answers log .isEmpty (.flag b) log
  | lookup {log handle callback} (hit : log.Reaches handle callback) :
      Answers log (.lookup handle) (.callback callback) log
  | lookupDead {log handle} (miss : log.Dead handle) :
      Answers log (.lookup handle) (.refused (.unknownHandle handle)) log
  | expectLive {log handle callback} (hit : log.Reaches handle callback) :
      Answers log (.expectLive handle) (.callback callback) log
  | expectLiveDead {log handle} (miss : log.Dead handle) :
      Answers log (.expectLive handle) (.halted (.unknownHandle handle)) log
  /-- The actions of the invoked callback go on with the same log. -/
  | tryInvoke {log handle callback inside replies last} (hit : log.Reaches handle callback)
      (nested : AnswersAll log inside replies last) :
      Answers log (.tryInvoke handle inside) (.invoked callback replies) last
  | tryInvokeDead {log handle inside} (miss : log.Dead handle) :
      Answers log (.tryInvoke handle inside) (.refused (.unknownHandle handle)) log
  | invoke {log handle callback inside replies last} (hit : log.Reaches handle callback)
      (nested : AnswersAll log inside replies last) :
      Answers log (.invoke handle inside) (.invoked callback replies) last
  | invokeDead {log handle inside} (miss : log.Dead handle) :
      Answers log (.invoke handle inside) (.halted (.unknownHandle handle)) log

inductive AnswersAll : Log α → List (Action α) → List (Reply α × Nat) → Log α → Prop where
  | nil {log} : AnswersAll log [] [] log
  | cons {log action actions reply n replies mid last} (first : Answers log action reply mid)
      (count : mid.Counts n) (rest : AnswersAll mid actions replies last) :
      AnswersAll log (action :: actions) ((reply, n) :: replies) last

end

/-! ### One more change -/

variable {log : Log α} {handle : UInt64} {callback : α}

@[simp] theorem callbacks_registered (log : Log α) (callback : α) :
    callbacks (log ++ [.registered callback]) = log.callbacks ++ [callback] :=
  List.filterMap_append

@[simp] theorem callbacks_removed (log : Log α) (handle : UInt64) :
    callbacks (log ++ [.removed handle]) = log.callbacks := by
  rw [callbacks, List.filterMap_append]
  exact List.append_nil _

@[simp] theorem removals_registered (log : Log α) (callback : α) :
    removals (log ++ [.registered callback]) = log.removals := by
  rw [removals, List.filterMap_append]
  exact List.append_nil _

@[simp] theorem removals_removed (log : Log α) (handle : UInt64) :
    removals (log ++ [.removed handle]) = log.removals ++ [handle] :=
  List.filterMap_append

theorem replay_registered (log : Log α) (callback : α) :
    replay (log ++ [.registered callback]) = (log.replay.register callback).2 :=
  List.foldl_append

theorem replay_removed (log : Log α) (handle : UInt64) :
    replay (log ++ [.removed handle]) = (log.replay.remove handle).2 :=
  List.foldl_append

/-! ### Live and dead handles -/

theorem Reaches.le (h : log.Reaches handle callback) : handle.toNat ≤ log.callbacks.length := by
  obtain ⟨hlt, _⟩ := List.getElem?_eq_some_iff.mp h.registered
  have hpos := h.pos
  omega

/-- A handle is dead or reaches a callback, and not both. -/
theorem dead_iff : log.Dead handle ↔ ∀ callback, ¬ log.Reaches handle callback := by
  constructor
  · rintro (hzero | hlate | hremoved) callback h
    · have hpos := h.pos
      omega
    · have hle := h.le
      omega
    · exact h.kept hremoved
  · intro h
    -- a handle in range and not removed would reach the callback of its registration
    by_contra hdead
    unfold Dead at hdead
    push Not at hdead
    obtain ⟨hpos, hle, hkept⟩ := hdead
    have hlt : handle.toNat - 1 < log.callbacks.length := by omega
    exact h _ ⟨by omega, List.getElem?_eq_getElem hlt, hkept⟩

theorem reaches_or_dead (log : Log α) (handle : UInt64) :
    (∃ callback, log.Reaches handle callback) ∨ log.Dead handle := by
  rw [dead_iff, ← not_exists]
  exact em _

/-- A registration gives its own handle a callback and leaves the other handles as they are. -/
theorem reaches_registered {new : α} {h : UInt64} {x : α}
    (hhandle : handle.toNat = log.callbacks.length + 1) (hfresh : handle ∉ log.removals) :
    Reaches (log ++ [.registered new]) h x ↔ (h = handle ∧ x = new) ∨ log.Reaches h x := by
  constructor
  · rintro ⟨hpos, hnth, hkept⟩
    rw [callbacks_registered, List.getElem?_append] at hnth
    rw [removals_registered] at hkept
    split at hnth
    · exact Or.inr ⟨hpos, hnth, hkept⟩
    · -- past the earlier ones there is the new one alone
      left
      obtain ⟨hlt, hx⟩ := List.getElem?_eq_some_iff.mp hnth
      rw [List.length_singleton] at hlt
      refine ⟨UInt64.toNat_inj.mp (by omega), ?_⟩
      rw [← hx, List.getElem_singleton]
  · rintro (⟨rfl, rfl⟩ | hreach)
    · refine ⟨by omega, ?_, by rwa [removals_registered]⟩
      rw [callbacks_registered, hhandle, Nat.add_sub_cancel, List.getElem?_concat_length]
    · have hle := hreach.le
      have hpos := hreach.pos
      refine ⟨hpos, ?_, by rw [removals_registered]; exact hreach.kept⟩
      rw [callbacks_registered, List.getElem?_append_left (by omega)]
      exact hreach.registered

/-- A removal makes its own handle dead and leaves the other handles as they are. -/
theorem reaches_removed {h : UInt64} {x : α} :
    Reaches (log ++ [.removed handle]) h x ↔ h ≠ handle ∧ log.Reaches h x := by
  constructor
  · rintro ⟨hpos, hnth, hkept⟩
    rw [callbacks_removed] at hnth
    rw [removals_removed, List.mem_append, List.mem_singleton, not_or] at hkept
    exact ⟨hkept.2, hpos, hnth, hkept.1⟩
  · rintro ⟨hne, hpos, hnth, hkept⟩
    refine ⟨hpos, by rwa [callbacks_removed], ?_⟩
    rw [removals_removed, List.mem_append, List.mem_singleton, not_or]
    exact ⟨hkept, hne⟩

end Log

/-! ### Registries that stand for a log -/

namespace Registry

variable {r : Registry α} {log : Log α} {handle : UInt64} {callback : α}

/-- A registry is the replay of a log, and each of its parts is what the log says. -/
structure Represents (r : Registry α) (log : Log α) : Prop where
  replay : log.replay = r
  /-- The next handle counts the next registration; it wraps around after the last one. -/
  next : r.next = UInt64.ofNat (log.callbacks.length + 1)
  live : ∀ handle callback, (handle, callback) ∈ r.live ↔ log.Reaches handle callback
  handles : (r.live.map (·.1)).Nodup
  size : log.Counts r.live.length
  /-- What was removed had been registered, so no handle to come was removed before. -/
  issued : ∀ handle ∈ log.removals, handle.toNat ≤ log.callbacks.length
  once : log.removals.Nodup

theorem represents_empty : (empty : Registry α).Represents [] where
  replay := rfl
  next := rfl
  live handle callback := by
    constructor
    · exact fun h => absurd h List.not_mem_nil
    · intro h
      have hle : handle.toNat ≤ 0 := h.le
      have hpos := h.pos
      omega
  handles := List.nodup_nil
  size := rfl
  issued _ h := absurd h List.not_mem_nil
  once := List.nodup_nil

namespace Represents

variable (h : r.Represents log)

include h

theorem get?_eq_some : r.get? handle = some callback ↔ log.Reaches handle callback := by
  rw [← h.live]
  unfold get?
  constructor
  · intro hget
    obtain ⟨entry, hfind, rfl⟩ := Option.map_eq_some_iff.mp hget
    have hkey : entry.1 = handle := by simpa using List.find?_some hfind
    rw [← hkey]
    exact List.mem_of_find?_eq_some hfind
  · intro hmem
    have hsome : (r.live.find? (·.1 == handle)).isSome = true := by
      rw [List.find?_isSome]
      exact ⟨_, hmem, beq_self_eq_true _⟩
    obtain ⟨entry, hfind⟩ := Option.isSome_iff_exists.mp hsome
    have hkey : entry.1 = handle := by simpa using List.find?_some hfind
    -- no two entries have the same handle
    have hentry : entry = (handle, callback) :=
      List.inj_on_of_nodup_map h.handles (List.mem_of_find?_eq_some hfind) hmem hkey
    rw [hfind, hentry]
    rfl

theorem get?_eq_none : r.get? handle = none ↔ log.Dead handle := by
  rw [Log.dead_iff, Option.eq_none_iff_forall_ne_some]
  exact forall_congr' fun callback => not_congr h.get?_eq_some

/-- The log decides what the registry has for a handle. -/
theorem get?_cases (handle : UInt64) :
    (∃ callback, log.Reaches handle callback ∧ r.get? handle = some callback) ∨
      (log.Dead handle ∧ r.get? handle = none) := by
  rcases log.reaches_or_dead handle with ⟨callback, hit⟩ | miss
  · exact Or.inl ⟨callback, hit, h.get?_eq_some.mpr hit⟩
  · exact Or.inr ⟨miss, h.get?_eq_none.mpr miss⟩

theorem lookup_cases (handle : UInt64) :
    (∃ callback, log.Reaches handle callback ∧ r.lookup handle = .ok callback) ∨
      (log.Dead handle ∧ r.lookup handle = .error (.unknownHandle handle)) := by
  unfold lookup
  rcases h.get?_cases handle with ⟨callback, hit, hget⟩ | ⟨miss, hget⟩
  · exact Or.inl ⟨callback, hit, by rw [hget]⟩
  · exact Or.inr ⟨miss, by rw [hget]⟩

theorem isEmpty_iff : r.isEmpty = true ↔ log.Counts 0 := by
  have hsize := h.size
  unfold Log.Counts at hsize ⊢
  rw [isEmpty, List.isEmpty_iff, ← List.length_eq_zero_iff]
  omega

/-- A handle that is dead is no key, so nothing is filtered out. -/
theorem without_of_dead (miss : log.Dead handle) : r.without handle = r.live := by
  apply List.filter_eq_self.mpr
  intro entry hentry
  rw [bne_iff_ne]
  rintro rfl
  exact Log.dead_iff.mp miss _ ((h.live _ _).mp hentry)

theorem remove_of_dead (miss : log.Dead handle) : (r.remove handle).2 = r := by
  rw [remove, h.without_of_dead miss]

/-! Registrations -/

section Register

variable (hbound : log.callbacks.length + 1 < UInt64.size)

include hbound

theorem next_toNat : r.next.toNat = log.callbacks.length + 1 := by
  rw [h.next]
  exact UInt64.toNat_ofNat_of_lt' hbound

theorem next_dead : log.Dead r.next := by
  right; left
  rw [h.next_toNat hbound]
  exact Nat.lt_succ_self _

theorem register (callback : α) :
    (r.register callback).2.Represents (log ++ [.registered callback]) := by
  have hnext := h.next_toNat hbound
  have hdead := h.next_dead hbound
  -- the next handle is greater than all that were removed, so the entry is not dead at once
  have hfresh : r.next ∉ log.removals := by
    intro hmem
    have hle := h.issued _ hmem
    omega
  have hlive : (r.register callback).2.live = (r.next, callback) :: r.live := by
    rw [← h.without_of_dead hdead]
    rfl
  -- the fields in their order: replay, next handle, entries, distinct handles, size, and the
  -- removals, which have been issued and come once
  refine ⟨?_, ?_, ?_, ?_, ?_, ?_, ?_⟩
  · rw [Log.replay_registered, h.replay]
  · show r.next + 1 = _
    rw [h.next, Log.callbacks_registered, List.length_append, List.length_singleton,
      UInt64.ofNat_add (log.callbacks.length + 1) 1]
    rfl
  · intro handle x
    rw [hlive, List.mem_cons, Prod.mk.injEq, h.live, Log.reaches_registered hnext hfresh]
  · rw [hlive, List.map_cons, List.nodup_cons]
    refine ⟨fun hmem => ?_, h.handles⟩
    obtain ⟨entry, hentry, hkey⟩ := List.mem_map.mp hmem
    have hreach := (h.live entry.1 entry.2).mp hentry
    rw [hkey] at hreach
    exact Log.dead_iff.mp hdead _ hreach
  · have hsize := h.size
    unfold Log.Counts at hsize ⊢
    rw [hlive, Log.removals_registered, Log.callbacks_registered, List.length_cons,
      List.length_append, List.length_singleton]
    omega
  · intro handle hmem
    rw [Log.removals_registered] at hmem
    have hle := h.issued handle hmem
    rw [Log.callbacks_registered, List.length_append]
    omega
  · rw [Log.removals_registered]
    exact h.once

end Register

/-! Removals -/

/-- One entry has the handle, and it alone is filtered out. -/
theorem length_without (hit : log.Reaches handle callback) :
    (r.without handle).length + 1 = r.live.length := by
  have hmem : handle ∈ r.live.map (·.1) :=
    List.mem_map.mpr ⟨_, (h.live handle callback).mpr hit, rfl⟩
  have hone : r.live.countP (·.1 == handle) = 1 := by
    have hcount := List.count_eq_one_of_mem h.handles hmem
    rwa [List.count, List.countP_map] at hcount
  have hsplit := List.length_eq_countP_add_countP (fun entry : UInt64 × α => entry.1 == handle)
    (l := r.live)
  have hrest : (r.without handle).length = r.live.countP fun entry => ¬ (entry.1 == handle) := by
    rw [without, ← List.countP_eq_length_filter]
    refine List.countP_congr fun entry _ => ?_
    simp
  omega

theorem remove (hit : log.Reaches handle callback) :
    (r.remove handle).2.Represents (log ++ [.removed handle]) := by
  -- the fields of `Represents` in order; only the count needs that the handle was live
  refine ⟨?_, ?_, ?_, ?_, ?_, ?_, ?_⟩
  · rw [Log.replay_removed, h.replay]
  · rw [Log.callbacks_removed]
    exact h.next
  · intro other x
    show (other, x) ∈ r.live.filter (·.1 != handle) ↔ _
    rw [List.mem_filter, bne_iff_ne, h.live, Log.reaches_removed, and_comm]
  · exact h.handles.sublist (List.filter_sublist.map _)
  · have hsize := h.size
    have hlen := h.length_without hit
    unfold Log.Counts at hsize ⊢
    rw [Log.removals_removed, Log.callbacks_removed, List.length_append, List.length_singleton]
    show (r.without handle).length + _ = _
    omega
  · intro other hmem
    rw [Log.removals_removed, List.mem_append, List.mem_singleton] at hmem
    rw [Log.callbacks_removed]
    rcases hmem with hmem | rfl
    · exact h.issued other hmem
    · exact hit.le
  · rw [Log.removals_removed, ← List.concat_eq_append]
    exact h.once.concat hit.kept

end Represents

end Registry

/-! ### Runs -/

mutual

def Reply.issued : Reply α → List UInt64
  | .handle h => [h]
  | .invoked _ inside => issuedAll inside
  | _ => []

def Reply.issuedAll : List (Reply α × Nat) → List UInt64
  | [] => []
  | (reply, _) :: replies => reply.issued ++ issuedAll replies

end

theorem Reply.issuedAll_append (replies others : List (Reply α × Nat)) :
    issuedAll (replies ++ others) = issuedAll replies ++ issuedAll others := by
  induction replies with
  | nil => rfl
  | cons entry replies ih =>
    rw [List.cons_append, issuedAll, issuedAll, ih, List.append_assoc]

namespace Log

/-- From the first log to the last one the handles were issued, each the number of its own
registration. -/
structure Issues (log last : Log α) (handles : List UInt64) : Prop where
  grown : log <+: last
  counted : last.callbacks.length = log.callbacks.length + handles.length
  numbered : handles.map (·.toNat) = List.range' (log.callbacks.length + 1) handles.length

theorem Issues.none (log : Log α) : log.Issues log [] :=
  ⟨List.prefix_rfl, rfl, rfl⟩

theorem Issues.registered {log : Log α} {handle : UInt64} (callback : α)
    (counted : handle.toNat = log.callbacks.length + 1) :
    log.Issues (log ++ [.registered callback]) [handle] where
  grown := List.prefix_append _ _
  counted := by rw [callbacks_registered, List.length_append]; rfl
  numbered := by rw [List.map_singleton, counted]; rfl

theorem Issues.removed (log : Log α) (handle : UInt64) :
    log.Issues (log ++ [.removed handle]) [] where
  grown := List.prefix_append _ _
  counted := by rw [callbacks_removed]; rfl
  numbered := rfl

theorem Issues.trans {log mid last : Log α} {earlier later : List UInt64}
    (first : log.Issues mid earlier) (rest : mid.Issues last later) :
    log.Issues last (earlier ++ later) where
  grown := first.grown.trans rest.grown
  counted := by rw [rest.counted, first.counted, List.length_append, Nat.add_assoc]
  numbered := by
    rw [List.map_append, first.numbered, rest.numbered, first.counted, List.length_append,
      ← List.range'_append_1, Nat.add_right_comm]

theorem AnswersAll.append {log mid last : Log α} {actions others : List (Action α)}
    {replies more : List (Reply α × Nat)} (first : log.AnswersAll actions replies mid)
    (rest : mid.AnswersAll others more last) :
    log.AnswersAll (actions ++ others) (replies ++ more) last := by
  induction actions generalizing log replies with
  | nil =>
    cases first
    exact rest
  | cons action actions ih =>
    cases first with
    | cons hfirst hcount hrest => exact .cons hfirst hcount (ih hrest)

end Log

namespace Action

theorem runAll_append (r : Registry α) (actions others : List (Action α)) :
    runAll r (actions ++ others) =
      ((runAll r actions).1 ++ (runAll (runAll r actions).2 others).1,
        (runAll (runAll r actions).2 others).2) := by
  induction actions generalizing r with
  | nil => rfl
  | cons action actions ih =>
    rw [List.cons_append, runAll]
    dsimp only
    rw [ih]
    rfl

mutual

/-- One action of a registry that stands for a log is answered by the log, and the registry then
stands for the log that tells of the action. -/
theorem run_answers {r : Registry α} {log : Log α} (h : r.Represents log) (action : Action α)
    (hbound : log.callbacks.length + (run r action).1.issued.length < UInt64.size) :
    ∃ last, log.Answers action (run r action).1 last ∧ (run r action).2.Represents last ∧
      log.Issues last (run r action).1.issued := by
  -- a handle is live or dead, which decides the answer; nested actions go on with the log they find
  match action with
  | .register callback =>
    have hnext := h.next_toNat hbound
    exact ⟨_, .register hnext, h.register hbound callback, .registered callback hnext⟩
  | .get handle =>
    rcases h.get?_cases handle with ⟨callback, hit, hget⟩ | ⟨miss, hget⟩
    · rw [run, hget]
      exact ⟨log, .get hit, h, .none log⟩
    · rw [run, hget]
      exact ⟨log, .getDead miss, h, .none log⟩
  | .remove handle =>
    have hrun : run r (.remove handle) = (.found (r.get? handle), (r.remove handle).2) := rfl
    rcases h.get?_cases handle with ⟨callback, hit, hget⟩ | ⟨miss, hget⟩
    · rw [hrun, hget]
      exact ⟨_, .remove hit, h.remove hit, .removed log handle⟩
    · rw [hrun, hget, h.remove_of_dead miss]
      exact ⟨log, .removeDead miss, h, .none log⟩
  | .size => exact ⟨log, .size h.size, h, .none log⟩
  | .isEmpty => exact ⟨log, .isEmpty h.isEmpty_iff, h, .none log⟩
  | .lookup handle =>
    rcases h.lookup_cases handle with ⟨callback, hit, hlookup⟩ | ⟨miss, hlookup⟩
    · rw [run, hlookup]
      exact ⟨log, .lookup hit, h, .none log⟩
    · rw [run, hlookup]
      exact ⟨log, .lookupDead miss, h, .none log⟩
  | .expectLive handle =>
    rcases h.lookup_cases handle with ⟨callback, hit, hlookup⟩ | ⟨miss, hlookup⟩
    · rw [run, hlookup]
      exact ⟨log, .expectLive hit, h, .none log⟩
    · rw [run, hlookup]
      exact ⟨log, .expectLiveDead miss, h, .none log⟩
  | .tryInvoke handle inside =>
    rcases h.lookup_cases handle with ⟨callback, hit, hlookup⟩ | ⟨miss, hlookup⟩
    · -- the actions of the callback go on with the registry as it is, and with its log
      rw [run, Registry.tryInvoke, hlookup] at hbound ⊢
      obtain ⟨last, hnested, hlast, hissued⟩ := runAll_answers h inside hbound
      exact ⟨last, .tryInvoke hit hnested, hlast, hissued⟩
    · rw [run, Registry.tryInvoke, hlookup]
      exact ⟨log, .tryInvokeDead miss, h, .none log⟩
  | .invoke handle inside =>
    rcases h.lookup_cases handle with ⟨callback, hit, hlookup⟩ | ⟨miss, hlookup⟩
    · rw [run, Registry.tryInvoke, hlookup] at hbound ⊢
      obtain ⟨last, hnested, hlast, hissued⟩ := runAll_answers h inside hbound
      exact ⟨last, .invoke hit hnested, hlast, hissued⟩
    · rw [run, Registry.tryInvoke, hlookup]
      exact ⟨log, .invokeDead miss, h, .none log⟩

/-- The same for actions one after the other: each goes on with the log of the one before. -/
theorem runAll_answers {r : Registry α} {log : Log α} (h : r.Represents log)
    (actions : List (Action α))
    (hbound : log.callbacks.length + (Reply.issuedAll (runAll r actions).1).length < UInt64.size) :
    ∃ last, log.AnswersAll actions (runAll r actions).1 last ∧
      (runAll r actions).2.Represents last ∧
      log.Issues last (Reply.issuedAll (runAll r actions).1) := by
  match actions with
  | [] => exact ⟨log, .nil, h, .none log⟩
  | action :: rest =>
    rw [runAll] at hbound ⊢
    rw [Reply.issuedAll, List.length_append] at hbound
    obtain ⟨mid, hfirst, hmid, hissued⟩ := run_answers h action (by omega)
    -- what the first action has issued is used up for the others
    have hcounted := hissued.counted
    obtain ⟨last, hrest, hlast, hlater⟩ := runAll_answers hmid rest (by omega)
    exact ⟨last, .cons hfirst hmid.size hrest, hlast, hissued.trans hlater⟩

end

/-- The log of a run on a new registry: it answers each action, nested ones included, and the
registry is left as the log says. -/
structure ToldBy (actions : List (Action α)) (log : Log α) : Prop where
  answers : Log.AnswersAll [] actions (runAll .empty actions).1 log
  replay : (runAll .empty actions).2 = log.replay
  /-- The handles are one, two and so on up to the number of registrations, in order. -/
  issued : (Reply.issuedAll (runAll .empty actions).1).map (·.toNat) =
    List.range' 1 log.callbacks.length
  positive : 0 ∉ Reply.issuedAll (runAll .empty actions).1
  reaches : ∀ handle callback,
    (runAll .empty actions).2.get? handle = some callback ↔ log.Reaches handle callback
  size : log.Counts (runAll .empty actions).2.size
  once : log.removals.Nodup

theorem toldBy_of_answers {actions : List (Action α)} {log : Log α}
    (answers : Log.AnswersAll [] actions (runAll .empty actions).1 log)
    (final : (runAll .empty actions).2.Represents log)
    (issued : Log.Issues [] log (Reply.issuedAll (runAll .empty actions).1)) :
    ToldBy actions log := by
  have hnumbered : (Reply.issuedAll (runAll .empty actions).1).map (·.toNat) =
      List.range' 1 log.callbacks.length := by
    rw [issued.counted, issued.numbered]
    show List.range' 1 _ = List.range' 1 (0 + _)
    rw [Nat.zero_add]
  refine ⟨answers, final.replay.symm, hnumbered, ?_, fun handle callback => final.get?_eq_some,
    final.size, final.once⟩
  intro hzero
  have hmem := List.mem_map_of_mem (f := (·.toNat)) hzero
  rw [hnumbered, List.mem_range'_1] at hmem
  exact absurd hmem.1 (by decide)

/-- Every run on a new registry is told by a log, at its end as at any point before, as long as
there is a handle for each registration. The log only grows, so what is removed at some point
stays dead. -/
theorem runAll_follows_log (before after : List (Action α))
    (hbound : (Reply.issuedAll (runAll .empty (before ++ after)).1).length < UInt64.size) :
    ∃ earlier log : Log α,
      ToldBy before earlier ∧ ToldBy (before ++ after) log ∧
      earlier.AnswersAll after (runAll (runAll .empty before).2 after).1 log ∧
      earlier <+: log ∧
      ∀ handle ∈ earlier.removals, (runAll .empty (before ++ after)).2.get? handle = none := by
  rw [runAll_append, Reply.issuedAll_append, List.length_append] at hbound
  -- the second half starts from the log of the first
  obtain ⟨earlier, hbefore, hmid, hissued⟩ :=
    runAll_answers Registry.represents_empty before (by show 0 + _ < _; omega)
  have hcounted : earlier.callbacks.length = 0 + _ := hissued.counted
  obtain ⟨log, hafter, hlast, hlater⟩ := runAll_answers hmid after (by omega)
  refine ⟨earlier, log, toldBy_of_answers hbefore hmid hissued, ?_, hafter, hlater.grown, ?_⟩
  · apply toldBy_of_answers
    · rw [runAll_append]
      exact hbefore.append hafter
    · rw [runAll_append]
      exact hlast
    · rw [runAll_append, Reply.issuedAll_append]
      exact hissued.trans hlater
  · -- logs only grow, so what is removed stays removed
    intro handle hremoved
    rw [runAll_append, hlast.get?_eq_none]
    exact Or.inr (Or.inr ((hlater.grown.filterMap _).subset hremoved))

/-- A callback that takes itself out, brings in another one and invokes that. -/
theorem runAll_follows_log_reentrant :
    ∃ earlier log : Log String,
      ToldBy [.register "first", .invoke 1 [.remove 1, .register "second",
        .tryInvoke 2 [.get 1, .size]]] earlier ∧
      ToldBy ([.register "first", .invoke 1 [.remove 1, .register "second",
        .tryInvoke 2 [.get 1, .size]]] ++ [.lookup 1, .remove 2, .isEmpty]) log ∧
      earlier.AnswersAll [.lookup 1, .remove 2, .isEmpty]
        (runAll (runAll .empty [.register "first", .invoke 1 [.remove 1, .register "second",
          .tryInvoke 2 [.get 1, .size]]]).2 [.lookup 1, .remove 2, .isEmpty]).1 log ∧
      earlier <+: log ∧
      ∀ handle ∈ earlier.removals,
        (runAll .empty ([.register "first", .invoke 1 [.remove 1, .register "second",
          .tryInvoke 2 [.get 1, .size]]] ++ [.lookup 1, .remove 2, .isEmpty])).2.get? handle =
          none :=
  runAll_follows_log _ _ (by decide)

example : (runAll .empty [.register "first", .invoke 1 [.remove 1, .get 1]]).1 =
    [(.handle 1, 1), (.invoked "first" [(.found (some "first"), 0), (.found none, 0)], 0)] := rfl

end Action

end HostBindings.Bridge
