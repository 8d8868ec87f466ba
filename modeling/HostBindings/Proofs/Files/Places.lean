import HostBindings.Files.Tree
import Mathlib.Data.List.Basic

/-!
Places of a tree. What putting something at a place and taking it away do is told by what stands at
each place: below the place of the change all is new, and elsewhere nothing changes.
-/

namespace HostBindings.Files.Tree

inductive Kind where
  | nothing
  | directory
  | file (octets : List UInt8)
  deriving DecidableEq, Repr

def kindAt (t : Tree) (place : List String) : Kind :=
  match t.at? place with
  | none => .nothing
  | some (.directory _) => .directory
  | some (.file octets) => .file octets

variable {t node : Tree} {entries : List (String × Tree)} {name : String}
  {place other : List String}

/-! ### Entries -/

theorem child?_file (octets : List UInt8) (name : String) : (file octets).child? name = none :=
  rfl

theorem child?_directory_nil (name : String) : (directory []).child? name = none :=
  rfl

theorem child?_directory_cons (e : String × Tree) (es : List (String × Tree)) (name : String) :
    (directory (e :: es)).child? name =
      if e.1 = name then some e.2 else (directory es).child? name := by
  unfold child?
  by_cases h : e.1 = name <;> simp [h]

/-- Changing all entries of one name changes what is found under it. -/
theorem child?_map (f : Tree → Tree) (name other : String) (entries : List (String × Tree)) :
    (directory (entries.map fun (n, t) => if n == name then (n, f t) else (n, t))).child? other =
      if other = name then ((directory entries).child? other).map f
      else (directory entries).child? other := by
  induction entries with
  | nil => simp [child?_directory_nil]
  | cons e es ih =>
    rw [List.map_cons, child?_directory_cons, child?_directory_cons, ih]
    by_cases hother : other = name
    · by_cases he : e.1 = name <;> simp [hother, he]
    · by_cases he : e.1 = name
      · simp [hother, he, Ne.symm hother]
      · simp [hother, he]

theorem child?_filter (name other : String) (entries : List (String × Tree)) :
    (directory (entries.filter (·.1 != name))).child? other =
      if other = name then none else (directory entries).child? other := by
  induction entries with
  | nil => simp [child?_directory_nil]
  | cons e es ih =>
    rw [List.filter_cons, child?_directory_cons]
    by_cases he : e.1 = name
    · rw [if_neg (by simpa using he), ih, he]
      by_cases hother : other = name
      · simp [hother]
      · simp [hother, Ne.symm hother]
    · rw [if_pos (by simpa using he), child?_directory_cons, ih]
      by_cases hother : other = name
      · simp [hother, he]
      · simp [hother]

theorem child?_append (name : String) (node : Tree) (other : String)
    (entries : List (String × Tree)) :
    (directory (entries ++ [(name, node)])).child? other =
      ((directory entries).child? other).or (if name = other then some node else none) := by
  induction entries with
  | nil => simp [child?_directory_cons, child?_directory_nil]
  | cons e es ih =>
    rw [List.cons_append, child?_directory_cons, child?_directory_cons, ih]
    by_cases he : e.1 = other <;> simp [he]

theorem any_eq_isSome_child? (entries : List (String × Tree)) (name : String) :
    (entries.any (·.1 == name)) = ((directory entries).child? name).isSome := by
  induction entries with
  | nil => rfl
  | cons e es ih =>
    rw [List.any_cons, child?_directory_cons, ih]
    by_cases he : e.1 = name <;> simp [he]

/-! ### Places -/

theorem at?_append (t : Tree) (place other : List String) :
    t.at? (place ++ other) = (t.at? place).bind (at? · other) := by
  induction place generalizing t with
  | nil => rfl
  | cons name place ih =>
    rw [List.cons_append, at?, at?, Option.bind_assoc]
    exact congrArg _ (funext fun child => ih child)

theorem kindAt_of_at? {node : Tree} (h : t.at? place = some node) (other : List String) :
    t.kindAt (place ++ other) = node.kindAt other := by
  unfold kindAt
  rw [at?_append, h]
  rfl

theorem kindAt_cons (t : Tree) (name : String) (place : List String) :
    t.kindAt (name :: place) =
      match t.child? name with
      | none => .nothing
      | some child => child.kindAt place := by
  unfold kindAt
  rw [at?]
  cases t.child? name <;> rfl

theorem kindAt_directory : t.kindAt place = .directory ↔
    ∃ entries, t.at? place = some (.directory entries) := by
  unfold kindAt
  split <;> simp_all

theorem kindAt_nothing : t.kindAt place = .nothing ↔ t.at? place = none := by
  unfold kindAt
  split <;> simp_all

/-- What something stands in is a directory. -/
theorem kindAt_of_append (h : t.kindAt (place ++ name :: other) ≠ .nothing) :
    t.kindAt place = .directory := by
  cases hplace : t.at? place with
  | none =>
    refine absurd (kindAt_nothing.mpr ?_) h
    rw [at?_append, hplace]
    rfl
  | some node =>
    rw [kindAt_of_at? hplace, kindAt_cons] at h
    cases node with
    | file octets => exact absurd rfl h
    | directory entries => exact kindAt_directory.mpr ⟨entries, hplace⟩

/-- Nothing stands in something that is not there. -/
theorem kindAt_of_within (h : t.kindAt place = .nothing) (hstart : place <+: other) :
    t.kindAt other = .nothing := by
  obtain ⟨rest, rfl⟩ := hstart
  rw [kindAt_nothing] at h ⊢
  rw [at?_append, h]
  rfl

/-! ### Changes -/

/-- The place can be taken: there is a directory that it stands in. -/
def Open (t : Tree) (place : List String) : Prop :=
  place ≠ [] → t.kindAt place.dropLast = .directory

theorem open_concat : t.Open (place ++ [name]) ↔ t.kindAt place = .directory := by
  unfold Open
  rw [List.dropLast_concat]
  exact forall_prop_of_true (List.concat_ne_nil name place)

theorem open_of_there (h : t.kindAt place ≠ .nothing) : t.Open place := by
  rcases List.eq_nil_or_concat place with rfl | ⟨init, last, rfl⟩
  · exact fun hne => absurd rfl hne
  · rw [List.concat_eq_append] at h ⊢
    exact open_concat.mpr (kindAt_of_append h)

theorem child?_put (node : Tree) (name : String) (place : List String)
    (entries : List (String × Tree)) (other : String) :
    (put node (name :: place) (directory entries)).child? other =
      match (directory entries).child? name with
      | some child =>
        if other = name then some (put node place child) else (directory entries).child? other
      | none =>
        if place = [] ∧ other = name then some node else (directory entries).child? other := by
  rw [put, any_eq_isSome_child?]
  cases hchild : (directory entries).child? name with
  | some child =>
    rw [Option.isSome_some, if_pos rfl, child?_map]
    by_cases hother : other = name
    · simp [hother, hchild]
    · simp [hother]
  | none =>
    by_cases hplace : place = []
    · by_cases hother : other = name
      · simp [child?_append, hplace, hother, hchild]
      · simp [child?_append, hplace, hother, Ne.symm hother]
    · simp [hplace]

theorem child?_drop (name : String) (place : List String) (entries : List (String × Tree))
    (other : String) :
    (drop (name :: place) (directory entries)).child? other =
      if other = name then
        if place = [] then none else ((directory entries).child? name).map (drop place)
      else (directory entries).child? other := by
  cases place with
  | nil => simp [drop, child?_filter]
  | cons next place =>
    have hdrop : drop (name :: next :: place) (directory entries) =
        directory (entries.map fun (n, t) =>
          if n == name then (n, drop (next :: place) t) else (n, t)) := rfl
    rw [hdrop, child?_map, if_neg (List.cons_ne_nil next place)]
    by_cases hother : other = name
    · rw [hother]
    · rw [if_neg hother, if_neg hother]

theorem kindAt_put_nil (node : Tree) (name : String) (place : List String)
    (entries : List (String × Tree)) :
    (put node (name :: place) (directory entries)).kindAt [] = .directory := by
  unfold put
  split
  · rfl
  · split <;> rfl

/-- What an open place stands in is a directory, and the place is open from its next one. -/
theorem Open.cases_cons (h : t.Open (name :: place)) :
    ∃ entries, t = .directory entries ∧
      (place ≠ [] → ∃ child, (directory entries).child? name = some child) ∧
      ∀ child, (directory entries).child? name = some child → child.Open place := by
  have hparent := h (List.cons_ne_nil name place)
  cases place with
  | nil =>
    obtain ⟨entries, hentries⟩ := kindAt_directory.mp hparent
    exact ⟨entries, Option.some.inj hentries, fun hne => absurd rfl hne,
      fun _ _ hne => absurd rfl hne⟩
  | cons next place =>
    rw [List.dropLast_cons_of_ne_nil (List.cons_ne_nil next place), kindAt_cons] at hparent
    cases t with
    | file octets => cases hparent
    | directory entries =>
      cases hchild : (directory entries).child? name with
      | none => simp [hchild] at hparent
      | some child =>
        refine ⟨entries, rfl, fun _ => ⟨child, hchild⟩, fun child' hchild' _ => ?_⟩
        rw [hchild] at hchild' hparent
        exact Option.some.inj hchild' ▸ hparent

/-- What is put at an open place is all that stands there and below. -/
theorem kindAt_put (h : t.Open place) (other : List String) :
    (put node place t).kindAt other =
      if place <+: other then node.kindAt (other.drop place.length) else t.kindAt other := by
  induction place generalizing t other with
  | nil => simp [put]
  | cons name place ih =>
    obtain ⟨entries, rfl, hdeep, hopen⟩ := h.cases_cons
    cases other with
    | nil =>
      rw [kindAt_put_nil, if_neg (by simp)]
      rfl
    | cons n rest =>
      simp only [kindAt_cons, child?_put, List.cons_prefix_cons, List.length_cons,
        List.drop_succ_cons]
      by_cases hn : n = name
      · subst hn
        cases hchild : (directory entries).child? n with
        | some child => simp [ih (hopen child hchild)]
        | none =>
          -- only the directory of the place itself may lack the name
          obtain rfl : place = [] := by
            by_contra hne
            obtain ⟨child, hchild'⟩ := hdeep hne
            rw [hchild] at hchild'
            cases hchild'
          simp
      · cases hchild : (directory entries).child? name <;> simp [hn, Ne.symm hn]

/-- Nothing is left at and below a place that is taken away. -/
theorem kindAt_drop (hplace : place ≠ []) (other : List String) :
    (drop place t).kindAt other = if place <+: other then .nothing else t.kindAt other := by
  -- by the place that is taken away: a name on the way to it changes one entry only
  induction place generalizing t other with
  | nil => exact absurd rfl hplace
  | cons name place ih =>
    cases t with
    | file octets =>
      have hdrop : drop (name :: place) (file octets) = file octets := by
        cases place <;> rfl
      rw [hdrop]
      cases other with
      | nil => simp
      | cons n rest => simp [kindAt_cons, child?_file]
    | directory entries =>
      cases other with
      | nil => cases place <;> simp [drop, kindAt, at?]
      | cons n rest =>
        simp only [kindAt_cons, child?_drop, List.cons_prefix_cons]
        by_cases hn : n = name
        · subst hn
          cases hchild : (directory entries).child? n with
          | none => simp
          | some child =>
            by_cases hne : place = []
            · simp [hne]
            · simp [hne, ih hne]
        · simp [hn, Ne.symm hn]

/-- Something put into a directory that has no entry of that name is its last entry. -/
theorem at?_put_concat (h : t.at? place = some (.directory entries))
    (hname : (directory entries).child? name = none) :
    (put node (place ++ [name]) t).at? place = some (.directory (entries ++ [(name, node)])) := by
  induction place generalizing t with
  | nil =>
    obtain rfl : t = directory entries := Option.some.inj h
    have hany : entries.any (·.1 == name) = false := by
      rw [any_eq_isSome_child?, hname]
      rfl
    simp [put, hany, at?]
  | cons n place ih =>
    rw [at?] at h
    obtain ⟨child, hchild, hplace⟩ := Option.bind_eq_some_iff.mp h
    cases t with
    | file octets => exact absurd hchild (by simp [child?_file])
    | directory es =>
      -- the step is there, so `put` goes into it
      have hany : es.any (·.1 == n) = true := by
        rw [any_eq_isSome_child?, hchild]
        rfl
      rw [List.cons_append, put, if_pos hany, at?, child?_map, if_pos rfl, hchild]
      exact ih hplace

/-- A directory with nothing in it has no entries. -/
theorem at?_of_bare (h : t.kindAt place = .directory)
    (hbare : ∀ name, t.kindAt (place ++ [name]) = .nothing) :
    t.at? place = some (.directory []) := by
  obtain ⟨entries, hentries⟩ := kindAt_directory.mp h
  cases entries with
  | nil => exact hentries
  | cons e es =>
    have hnothing := hbare e.1
    rw [kindAt_of_at? hentries, kindAt_nothing, at?, child?_directory_cons, if_pos rfl] at hnothing
    cases hnothing

end HostBindings.Files.Tree
