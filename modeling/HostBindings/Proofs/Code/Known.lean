import HostBindings.Code.Check
import HostBindings.Proofs.Traversal

/-!
Known type names. The check of a file finds nothing exactly if each type that a member names is
imported or known where the member stands; the type parameters of a type are known inside it.
-/

namespace HostBindings.Code

def TypeRef.Known (known : String → Prop) (t : TypeRef) : Prop :=
  ∀ name args, .named name args none ∈ t.nodes → known name

def extended (known : String → Prop) (params : List TypeParam) (name : String) : Prop :=
  known name ∨ name ∈ params.map (·.name)

@[simp] theorem extended_nil (known : String → Prop) : extended known [] = known := by
  funext name
  simp [extended]

inductive Member.Known : (String → Prop) → Member → Prop where
  | field {known f} : f.type.Known known → Known known (.field f)
  | func {known f} : (∀ t ∈ f.refs, t.Known known) → Known known (.func f)
  | type {known head members} :
      (∀ t ∈ head.refs, t.Known (extended known head.typeParams)) →
      (∀ m ∈ members, Known (extended known head.typeParams) m) →
      Known known (.type head members)

/-! ### References -/

namespace TypeRef

variable {known : String → Prop}

theorem mem_nodesOfList {t : TypeRef} {ts : List TypeRef} :
    t ∈ nodesOfList ts ↔ ∃ u ∈ ts, t ∈ u.nodes :=
  mem_of_cons rfl fun _ _ => rfl

@[simp] theorem known_named {name : String} {args : List TypeRef} {provider : Option String} :
    (named name args provider).Known known ↔
      (provider = none → known name) ∧ ∀ t ∈ args, t.Known known := by
  simp only [Known, nodes, List.mem_cons, mem_nodesOfList]
  constructor
  · intro h
    refine ⟨?_, fun t ht n as hn => h n as (Or.inr ⟨t, ht, hn⟩)⟩
    rintro rfl
    exact h name args (Or.inl rfl)
  · rintro ⟨hname, hargs⟩ n as (heq | ⟨t, ht, hn⟩)
    · cases heq
      exact hname rfl
    · exact hargs t ht n as hn

@[simp] theorem known_array {t : TypeRef} : (array t).Known known ↔ t.Known known := by
  simp [Known, nodes]

@[simp] theorem known_map {k v : TypeRef} :
    (map k v).Known known ↔ k.Known known ∧ v.Known known := by
  simp only [Known, nodes, List.mem_cons, List.mem_append, reduceCtorEq, false_or]
  exact ⟨fun h => ⟨fun n as hn => h n as (Or.inl hn), fun n as hn => h n as (Or.inr hn)⟩,
    fun h n as hn => hn.elim (h.1 n as) (h.2 n as)⟩

@[simp] theorem known_optional {t : TypeRef} : (optional t).Known known ↔ t.Known known := by
  simp [Known, nodes]

@[simp] theorem known_function {params : List TypeRef} {result : TypeRef} {native : Bool} :
    (function params result native).Known known ↔
      (∀ t ∈ params, t.Known known) ∧ result.Known known := by
  simp only [Known, nodes, List.mem_cons, List.mem_append, reduceCtorEq, false_or, mem_nodesOfList]
  constructor
  · exact fun h => ⟨fun t ht n as hn => h n as (Or.inl ⟨t, ht, hn⟩),
      fun n as hn => h n as (Or.inr hn)⟩
  · rintro ⟨hparams, hresult⟩ n as (⟨t, ht, hn⟩ | hn)
    · exact hparams t ht n as hn
    · exact hresult n as hn

theorem known_plain {name : String} (h : known name) : (plain name).Known known := by
  simpa [plain] using h

theorem known_imported (name provider : String) : (imported name provider).Known known := by
  simp [imported]

end TypeRef

/-! ### The check -/

variable {known : String → Bool}

theorem unknown?_eq_none {t : TypeRef} :
    t.unknown? known = none ↔ ∀ name args, t = .named name args none → known name = true := by
  unfold TypeRef.unknown?
  split
  · rename_i name args
    simp
  · rename_i h
    simp only [true_iff]
    exact fun name args ht => absurd ht (h name args)

theorem unresolvedRefs?_eq_none {context : String} {refs : List TypeRef} :
    unresolvedRefs? known context refs = none ↔ ∀ t ∈ refs, t.Known (known · = true) := by
  unfold unresolvedRefs? TypeRef.Known
  simp only [List.findSome?_eq_none_iff, Option.map_eq_none_iff, unknown?_eq_none]
  constructor
  · exact fun h t ht name args hn => h t ht _ hn name args rfl
  · rintro h t ht _ hn name args rfl
    exact h t ht name args hn

namespace Member

variable {known : String → Prop}

theorem known_field {f : Field} : (field f).Known known ↔ f.type.Known known :=
  ⟨fun h => by cases h; assumption, .field⟩

theorem known_func {f : Func} : (func f).Known known ↔ ∀ t ∈ f.refs, t.Known known :=
  ⟨fun h => by cases h; assumption, .func⟩

theorem known_type {head : TypeHead} {members : List Member} :
    (type head members).Known known ↔
      (∀ t ∈ head.refs, t.Known (extended known head.typeParams)) ∧
        ∀ m ∈ members, m.Known (extended known head.typeParams) :=
  ⟨fun h => by cases h; exact ⟨‹_›, ‹_›⟩, fun h => .type h.1 h.2⟩

end Member

/-- A type without type parameters. -/
theorem Member.known_plainType {known : String → Prop} {head : TypeHead} {members : List Member}
    (hparams : head.typeParams = []) (hrefs : ∀ t ∈ head.refs, t.Known known)
    (hmembers : ∀ m ∈ members, m.Known known) : (Member.type head members).Known known := by
  rw [Member.known_type, hparams, extended_nil]
  exact ⟨hrefs, hmembers⟩

theorem Func.known_refs {known : String → Prop} {f : Func} (hp : ∀ q ∈ f.params, q.type.Known known)
    (hr : ∀ t, f.returns = some t → t.Known known) (ha : f.annotations = []) :
    ∀ t ∈ f.refs, t.Known known := by
  intro t ht
  rw [Func.refs, ha, List.append_nil, List.mem_append] at ht
  rcases ht with ht | ht
  · obtain ⟨q, hq, rfl⟩ := List.mem_map.mp ht
    exact hp q hq
  · exact hr t (Option.mem_toList.mp ht)

mutual

theorem Member.unresolved?_eq_none : ∀ (m : Member) (scope : List String) (context : String),
    m.unresolved? known scope context = none ↔ m.Known fun n => known n = true ∨ n ∈ scope
  | .field f, scope, context => by
    rw [Member.unresolved?, unresolvedRefs?_eq_none, List.forall_mem_singleton, known_field]
    simp only [Bool.or_eq_true, List.contains_iff_mem]
  | .func f, scope, context => by
    rw [Member.unresolved?, unresolvedRefs?_eq_none, known_func]
    simp only [Bool.or_eq_true, List.contains_iff_mem]
  | .type head members, scope, context => by
    -- the check puts type parameters into its scope, `Known` into what is known
    have hscope : extended (fun n => known n = true ∨ n ∈ scope) head.typeParams =
        fun n => known n = true ∨ n ∈ scope ++ head.typeParams.map (·.name) := by
      funext n
      rw [extended, List.mem_append, or_assoc]
    rw [Member.unresolved?, Option.or_eq_none_iff, unresolvedRefs?_eq_none,
      Member.unresolvedInList?_eq_none members, known_type, hscope]
    simp only [Bool.or_eq_true, List.contains_iff_mem]

theorem Member.unresolvedInList?_eq_none : ∀ (ms : List Member) (scope : List String)
    (context : String), Member.unresolvedInList? known scope context ms = none ↔
      ∀ m ∈ ms, m.Known fun n => known n = true ∨ n ∈ scope
  | [], _, _ => by simp [Member.unresolvedInList?]
  | m :: ms, scope, context => by
    rw [Member.unresolvedInList?, Option.or_eq_none_iff, Member.unresolved?_eq_none m,
      Member.unresolvedInList?_eq_none ms, List.forall_mem_cons]

end

theorem Member.mem_declaredInList {n : String} {ms : List Member} :
    n ∈ Member.declaredInList ms ↔ ∃ m ∈ ms, n ∈ m.declared :=
  mem_of_cons rfl fun _ _ => rfl

theorem Member.name_mem_declared (head : TypeHead) (members : List Member) :
    head.name ∈ (Member.type head members).declared := by
  rw [Member.declared]
  exact List.mem_cons_self

/-- The check of a file finds nothing exactly if all types named in it are known. -/
theorem SourceFile.unresolved?_eq_none {isBuiltin : String → Bool} {f : SourceFile} :
    f.unresolved? isBuiltin = none ↔ ∀ m ∈ f.members, m.Known fun n =>
      n ∈ Member.declaredInList f.members ∨ isBuiltin n = true := by
  -- the scope at the top of a file is empty
  rw [SourceFile.unresolved?, Member.unresolvedInList?_eq_none]
  simp only [Bool.or_eq_true, List.contains_iff_mem, List.not_mem_nil, or_false]

end HostBindings.Code
