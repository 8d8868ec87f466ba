import HostBindings.Proofs.Code.Known
import HostBindings.Settings

/-!
Readings of types. Where a type is written with marks of optional types behind it, the marks belong
to the result if the type is a function type. So a reader sees another type exactly if a function
type is optional, and only moved marks tell the two apart.
-/

namespace HostBindings

namespace Code.TypeRef

/-! ### Names -/

def signs : List Char :=
  ['<', '>', '[', ']', '(', ')', ',', ':', '?', '@']

structure IsTypeName (name : String) : Prop where
  nonempty : name ≠ ""
  plain : ∀ c ∈ name.toList, c ∉ signs

theorem isTypeName_of_isIdentifier {name : String}
    (h : Settings.isIdentifier name.toList = true) : IsTypeName name := by
  have hall : ∀ c ∈ name.toList, Settings.isIdentifierChar c = true := by
    revert h
    cases name.toList with
    | nil => simp
    | cons c cs =>
      simp only [Settings.isIdentifier, Settings.isIdentifierStart, Settings.isIdentifierChar,
        Char.isAlphanum, Bool.and_eq_true, Bool.or_eq_true, List.all_eq_true, List.forall_mem_cons]
      exact fun h => ⟨h.1.imp_left Or.inl, h.2⟩
  constructor
  · rintro rfl
    exact absurd h (by decide)
  · intro c hc hsign
    -- no sign of a written type is a character of an identifier
    have hother : signs.all (fun d => !Settings.isIdentifierChar d) = true := by decide
    have hno := List.all_eq_true.mp hother c hsign
    rw [hall c hc] at hno
    exact absurd hno (by decide)

inductive HasNames : TypeRef → Prop where
  | named {name args provider} (hname : IsTypeName name) (hargs : ∀ t ∈ args, HasNames t) :
      HasNames (.named name args provider)
  | array {element} (h : HasNames element) : HasNames (.array element)
  | map {key value} (hkey : HasNames key) (hvalue : HasNames value) : HasNames (.map key value)
  | optional {inner} (h : HasNames inner) : HasNames (.optional inner)
  | function {params result native} (hparams : ∀ t ∈ params, HasNames t)
      (hresult : HasNames result) : HasNames (.function params result native)

/-! ### Readings -/

def marked : Nat → TypeRef → TypeRef
  | 0, t => t
  | marks + 1, t => .optional (marked marks t)

mutual

/-- The type that is read where a type is written with a number of optional marks behind it: marks
behind a function type belong to its result. Imports are not written. -/
def readWith (marks : Nat) : TypeRef → TypeRef
  | .named name args _ => marked marks (.named name (readAll args) none)
  | .array element => marked marks (.array (readWith 0 element))
  | .map key value => marked marks (.map (readWith 0 key) (readWith 0 value))
  | .optional inner => readWith (marks + 1) inner
  | .function params result native => .function (readAll params) (readWith marks result) native

def readAll : List TypeRef → List TypeRef
  | [] => []
  | t :: ts => readWith 0 t :: readAll ts

end

def reading (t : TypeRef) : TypeRef :=
  t.readWith 0

mutual

def bare : TypeRef → TypeRef
  | .named name args _ => .named name (bareAll args) none
  | .array element => .array (bare element)
  | .map key value => .map (bare key) (bare value)
  | .optional inner => .optional (bare inner)
  | .function params result native => .function (bareAll params) (bare result) native

def bareAll : List TypeRef → List TypeRef
  | [] => []
  | t :: ts => bare t :: bareAll ts

end

def isFunction : TypeRef → Bool
  | .function _ _ _ => true
  | _ => false

def NoOptionalFunction (t : TypeRef) : Prop :=
  ∀ inner, .optional inner ∈ t.nodes → inner.isFunction = false

theorem readAll_eq_map (ts : List TypeRef) : readAll ts = ts.map (readWith 0) :=
  eq_map_of_cons rfl (fun _ _ => rfl) ts

theorem bareAll_eq_map (ts : List TypeRef) : bareAll ts = ts.map bare :=
  eq_map_of_cons rfl (fun _ _ => rfl) ts

theorem marked_optional (marks : Nat) (t : TypeRef) :
    marked marks (.optional t) = marked (marks + 1) t := by
  induction marks with
  | zero => rfl
  | succ marks ih =>
    rw [marked, ih]
    rfl

/-! ### Types without optional function types -/

theorem noOptionalFunction_named {name : String} {args : List TypeRef} {provider : Option String} :
    (named name args provider).NoOptionalFunction ↔ ∀ t ∈ args, t.NoOptionalFunction := by
  simp only [NoOptionalFunction, nodes, List.mem_cons, reduceCtorEq, false_or, mem_nodesOfList]
  constructor
  · exact fun h t ht inner hn => h inner ⟨t, ht, hn⟩
  · rintro h inner ⟨t, ht, hn⟩
    exact h t ht inner hn

theorem noOptionalFunction_array {t : TypeRef} :
    (array t).NoOptionalFunction ↔ t.NoOptionalFunction := by
  simp [NoOptionalFunction, nodes]

theorem noOptionalFunction_map {k v : TypeRef} :
    (map k v).NoOptionalFunction ↔ k.NoOptionalFunction ∧ v.NoOptionalFunction := by
  simp only [NoOptionalFunction, nodes, List.mem_cons, List.mem_append, reduceCtorEq, false_or]
  exact ⟨fun h => ⟨fun inner hn => h inner (Or.inl hn), fun inner hn => h inner (Or.inr hn)⟩,
    fun h inner hn => hn.elim (h.1 inner) (h.2 inner)⟩

theorem noOptionalFunction_optional {t : TypeRef} :
    (optional t).NoOptionalFunction ↔ t.isFunction = false ∧ t.NoOptionalFunction := by
  simp only [NoOptionalFunction, nodes, List.mem_cons, optional.injEq]
  constructor
  · exact fun h => ⟨h t (Or.inl rfl), fun inner hn => h inner (Or.inr hn)⟩
  · rintro ⟨ht, h⟩ inner (rfl | hn)
    · exact ht
    · exact h inner hn

theorem noOptionalFunction_function {params : List TypeRef} {result : TypeRef} {native : Bool} :
    (function params result native).NoOptionalFunction ↔
      (∀ t ∈ params, t.NoOptionalFunction) ∧ result.NoOptionalFunction := by
  simp only [NoOptionalFunction, nodes, List.mem_cons, List.mem_append, reduceCtorEq, false_or,
    mem_nodesOfList]
  constructor
  · exact fun h => ⟨fun t ht inner hn => h inner (Or.inl ⟨t, ht, hn⟩),
      fun inner hn => h inner (Or.inr hn)⟩
  · rintro ⟨hparams, hresult⟩ inner (⟨t, ht, hn⟩ | hn)
    · exact hparams t ht inner hn
    · exact hresult inner hn

/-- Behind a type that is no function type marks stay where they are. -/
theorem readWith_of_noOptionalFunction {t : TypeRef} (ht : t.HasNames)
    (h : t.NoOptionalFunction) {marks : Nat} (hmarks : marks = 0 ∨ t.isFunction = false) :
    t.readWith marks = marked marks t.bare := by
  -- only an optional type has marks behind its part, and that part is no function type
  induction ht generalizing marks with
  | named _ _ ih =>
    rw [noOptionalFunction_named] at h
    rw [readWith, bare, readAll_eq_map, bareAll_eq_map]
    congr 2
    exact List.map_congr_left fun t hmem => ih t hmem (h t hmem) (Or.inl rfl)
  | array _ ih =>
    rw [noOptionalFunction_array] at h
    rw [readWith, bare, ih h (Or.inl rfl)]
    rfl
  | map _ _ ihkey ihvalue =>
    rw [noOptionalFunction_map] at h
    rw [readWith, bare, ihkey h.1 (Or.inl rfl), ihvalue h.2 (Or.inl rfl)]
    rfl
  | optional _ ih =>
    rw [noOptionalFunction_optional] at h
    rw [readWith, bare, ih h.2 (Or.inr h.1), marked_optional]
  | function _ _ ihparams ihresult =>
    rw [noOptionalFunction_function] at h
    obtain rfl : marks = 0 := hmarks.resolve_right (by simp [isFunction])
    rw [readWith, bare, readAll_eq_map, bareAll_eq_map, ihresult h.2 (Or.inl rfl)]
    show TypeRef.function _ _ _ = TypeRef.function _ _ _
    congr 1
    exact List.map_congr_left fun t hmem => ihparams t hmem (h.1 t hmem) (Or.inl rfl)

end Code.TypeRef

end HostBindings
