import HostBindings.Proofs.Files.Paths
import HostBindings.Proofs.Files.Places
import HostBindings.Proofs.Traversal

/-!
Straight paths. A path that never steps up leads to the place of its names, whatever the tree: if it
is found at all, operations on it change the tree at that place and nowhere else.
-/

namespace HostBindings.Files

namespace Path

def place (path : String) : List String :=
  (names path).filter (· != ".")

/-- A path that leads somewhere without stepping up. -/
structure Straight (path : String) : Prop where
  ne_empty : path ≠ ""
  up_notMem : ".." ∉ names path

theorem straight_iff {path : String} : Straight path ↔ path ≠ "" ∧ ".." ∉ names path :=
  ⟨fun h => ⟨h.ne_empty, h.up_notMem⟩, fun ⟨hne, hup⟩ => ⟨hne, hup⟩⟩

instance : DecidablePred Straight :=
  fun _ => decidable_of_iff' _ straight_iff

variable {path : String}

theorem steps_eq (path : String) : ∃ tail, (tail = [] ∨ tail = ["."]) ∧
    steps path = names path ++ tail := by
  unfold steps
  split
  · exact ⟨["."], Or.inr rfl, rfl⟩
  · exact ⟨[], Or.inl rfl, (List.append_nil _).symm⟩

theorem filter_steps (path : String) : (steps path).filter (· != ".") = place path := by
  obtain ⟨tail, rfl | rfl, hsteps⟩ := steps_eq path <;> rw [hsteps, List.filter_append] <;>
    exact List.append_nil _

theorem Straight.notMem_steps (h : Straight path) : ".." ∉ steps path := by
  obtain ⟨tail, rfl | rfl, hsteps⟩ := steps_eq path <;> rw [hsteps, List.mem_append] <;>
    exact fun hmem => hmem.elim h.up_notMem (by decide)

theorem take_steps {init : List String} {last : String} (h : names path = init ++ [last]) :
    (steps path).take ((names path).length - 1) = init := by
  obtain ⟨tail, _, hsteps⟩ := steps_eq path
  rw [hsteps, h, List.length_append, List.append_assoc]
  exact List.take_left

end Path

namespace Tree

open Files.Path

variable {t : Tree} {here steps there : List String} {path : String}

/-! ### Walking -/

theorem walk_append (t : Tree) (here first second : List String) :
    t.walk here (first ++ second) = t.walk here first >>= fun there => t.walk there second := by
  -- no branch of a step looks at the steps that are left
  induction first generalizing here with
  | nil => rfl
  | cons step first ih =>
    rw [List.cons_append, walk, walk]
    split
    · rfl
    · rfl
    · split
      · exact ih here
      · split
        · exact ih _
        · split
          · rfl
          · split
            · exact ih _
            · rfl

/-- Steps that do not lead up lead to the place of their names, and no name is too long. -/
theorem walk_straight (hup : ".." ∉ steps) (h : t.walk here steps = .ok there) :
    there = here ++ steps.filter (· != ".") ∧
      ∀ step ∈ steps.filter (· != "."), step.utf8ByteSize ≤ maxName := by
  induction steps generalizing here with
  | nil =>
    obtain rfl := Except.ok.inj h
    exact ⟨(List.append_nil _).symm, List.forall_mem_nil _⟩
  | cons step steps ih =>
    rw [List.mem_cons, not_or] at hup
    rw [walk] at h
    split at h
    · cases h
    · cases h
    · -- a dot stays where it is; every other step goes down by its name
      by_cases hdot : step = "."
      · rw [if_pos hdot] at h
        rw [List.filter_cons_of_neg (by simpa using hdot)]
        exact ih hup.2 h
      · rw [if_neg hdot, if_neg (Ne.symm hup.1)] at h
        rw [List.filter_cons_of_pos (by simpa using hdot)]
        split at h
        · cases h
        · next hlong =>
          split at h
          · obtain ⟨hthere, hshort⟩ := ih hup.2 h
            rw [List.append_assoc] at hthere
            exact ⟨hthere, List.forall_mem_cons.mpr ⟨Nat.le_of_not_lt hlong, hshort⟩⟩
          · cases h

theorem walk_stays (h : t.walk here (steps ++ ["."]) = .ok there) :
    t.walk here steps = .ok there ∧ t.kindAt there = .directory := by
  rw [walk_append] at h
  obtain ⟨there', hthere, hstay⟩ := bind_eq_ok.mp h
  rw [walk] at hstay
  split at hstay
  · cases hstay
  · cases hstay
  · next entries hentries =>
    rw [if_pos rfl] at hstay
    obtain rfl := Except.ok.inj hstay
    exact ⟨hthere, kindAt_directory.mpr ⟨entries, hentries⟩⟩

theorem walk_directory (hup : ".." ∉ steps)
    (hshort : ∀ step ∈ steps.filter (· != "."), step.utf8ByteSize ≤ maxName)
    (h : t.kindAt (here ++ steps.filter (· != ".")) = .directory) :
    t.walk here steps = .ok (here ++ steps.filter (· != ".")) := by
  induction steps generalizing here with
  | nil => rw [walk, List.filter_nil, List.append_nil]
  | cons step steps ih =>
    rw [List.mem_cons, not_or] at hup
    by_cases hdot : step = "."
    · rw [List.filter_cons_of_neg (by simpa using hdot)] at hshort h ⊢
      -- a directory is needed even to stay in place
      have hhere : t.kindAt here = .directory := by
        cases hsteps : steps.filter (· != ".") with
        | nil => rwa [hsteps, List.append_nil] at h
        | cons name names =>
          rw [hsteps] at h
          exact kindAt_of_append (by rw [h]; exact Kind.noConfusion)
      obtain ⟨entries, hentries⟩ := kindAt_directory.mp hhere
      rw [walk, hentries]
      exact (if_pos hdot).trans (ih hup.2 hshort h)
    · rw [List.filter_cons_of_pos (by simpa using hdot)] at hshort h ⊢
      rw [List.forall_mem_cons] at hshort
      obtain ⟨entries, hentries⟩ := kindAt_directory.mp
        (kindAt_of_append (by rw [h]; exact Kind.noConfusion))
      rw [List.append_cons] at h ⊢
      have hany : entries.any (·.1 == step) = true := by
        rw [any_eq_isSome_child?]
        -- without this entry nothing would stand at the end of the way
        by_contra hnone
        have hstep : t.kindAt (here ++ [step]) = .nothing := by
          rw [kindAt_of_at? hentries, kindAt_cons]
          simp only [Bool.not_eq_true, Option.isSome_eq_false_iff, Option.isNone_iff_eq_none]
            at hnone
          rw [hnone]
        rw [kindAt_of_within hstep (List.prefix_append _ _)] at h
        cases h
      rw [walk, hentries]
      show (if step = "." then _ else if step = ".." then _ else _) = _
      rw [if_neg hdot, if_neg (Ne.symm hup.1), if_neg (Nat.not_lt.mpr hshort.1), if_pos hany]
      exact ih hup.2 hshort.2 h

/-! ### Finding -/

theorem stepsOf_eq_ok (h : stepsOf path = .ok steps) : steps = Path.steps path := by
  unfold stepsOf at h
  split at h
  · cases h
  · split at h
    · cases h
    · split at h
      · cases h
      · exact (Except.ok.inj h).symm

/-- What the system accepts as the path of an entry it accepts up to the directory. -/
theorem stepsOf_join {dir name : String} (hs : Straight dir) (hname : IsName name)
    (h : stepsOf (join dir name) = .ok steps) : stepsOf dir = .ok (Path.steps dir) := by
  obtain ⟨tail, hjoin⟩ := exists_join_eq hs.ne_empty hname
  unfold stepsOf at h ⊢
  rw [hjoin] at h
  split at h
  · cases h
  · next hzero =>
    split at h
    · cases h
    · next hlong =>
      -- the directory passes the three checks, as the longer path does
      rw [if_neg, if_neg, if_neg]
      · simpa using hs.ne_empty
      · rw [String.utf8ByteSize_append] at hlong
        omega
      · simp only [String.toList_append, List.contains_eq_mem, List.mem_append,
          decide_eq_true_eq, not_or] at hzero ⊢
        exact hzero.1

theorem find_straight (hs : Straight path) (h : t.find path = .ok there) :
    there = place path ∧ t.kindAt there ≠ .nothing := by
  unfold find at h
  obtain ⟨steps, hsteps, h⟩ := bind_eq_ok.mp h
  obtain ⟨there', hwalk, h⟩ := bind_eq_ok.mp h
  split at h
  · next hsome =>
    obtain rfl := Except.ok.inj h
    rw [stepsOf_eq_ok hsteps] at hwalk
    have hplace := (walk_straight hs.notMem_steps hwalk).1
    rw [filter_steps, List.nil_append] at hplace
    refine ⟨hplace, fun hnothing => ?_⟩
    rw [kindAt_nothing.mp hnothing] at hsome
    cases hsome
  · cases h

theorem exists?_directory (hs : Straight path) (hsteps : stepsOf path = .ok (Path.steps path))
    (hshort : ∀ name ∈ place path, name.utf8ByteSize ≤ maxName)
    (h : t.kindAt (place path) = .directory) : t.exists? path = true := by
  have hwalk : t.walk [] (Path.steps path) = .ok ([] ++ (Path.steps path).filter (· != ".")) :=
    walk_directory hs.notMem_steps (by rwa [filter_steps])
      (by rwa [filter_steps, List.nil_append])
  rw [filter_steps, List.nil_append] at hwalk
  obtain ⟨entries, hentries⟩ := kindAt_directory.mp h
  have hfind : t.find path = .ok (place path) := by
    unfold find
    rw [hsteps, ok_bind, hwalk, ok_bind, hentries]
    rfl
  unfold exists? get
  rw [hfind, ok_bind, hentries]
  rfl

theorem parent_eq_ok {last : String} (h : t.parent path = .ok (there, last)) :
    stepsOf path = .ok (Path.steps path) ∧
      (last = "." ∨ ∃ init, names path = init ++ [last] ∧ t.walk [] (init ++ ["."]) = .ok there) := by
  unfold parent at h
  obtain ⟨steps, hsteps, h⟩ := bind_eq_ok.mp h
  obtain rfl := stepsOf_eq_ok hsteps
  refine ⟨hsteps, ?_⟩
  dsimp only at h
  rcases List.eq_nil_or_concat (names path) with hnames | ⟨init, name, hnames⟩
  · rw [hnames] at h
    cases h
    exact Or.inl rfl
  · rw [List.concat_eq_append] at hnames
    rw [take_steps hnames, hnames, List.getLast?_concat] at h
    obtain ⟨there', hwalk, h⟩ := bind_eq_ok.mp h
    cases h
    exact Or.inr ⟨init, hnames, hwalk⟩

/-- The last name of a straight path stands in the directory of the place before it. -/
theorem parent_straight (hs : Straight path) {last : String} (hdot : last ≠ ".")
    (h : t.parent path = .ok (there, last)) : place path = there ++ [last] ∧
      t.kindAt there = .directory ∧ ∀ name ∈ there, name.utf8ByteSize ≤ maxName := by
  obtain ⟨init, hnames, hwalk⟩ := (parent_eq_ok h).2.resolve_left hdot
  obtain ⟨hinit, hdirectory⟩ := walk_stays hwalk
  have hup : ".." ∉ init := fun hmem => hs.up_notMem (hnames ▸ List.mem_append_left _ hmem)
  obtain ⟨rfl, hshort⟩ := walk_straight hup hinit
  refine ⟨?_, hdirectory, by rwa [List.nil_append]⟩
  rw [place, hnames, List.filter_append, List.nil_append]
  exact congrArg _ (List.filter_cons_of_pos (by simpa using hdot))

/-! ### Changing -/

variable {target : List String} {t' t'' : Tree}

/-- Outside of a place nothing is changed, but missing directories that lead to it may be made. -/
def Spares (target : List String) (t t' : Tree) : Prop :=
  ∀ other, ¬ target <+: other → t'.kindAt other = t.kindAt other ∨
    other <+: target ∧ t.kindAt other = .nothing ∧ t'.kindAt other = .directory

theorem Spares.refl (target : List String) (t : Tree) : Spares target t t :=
  fun _ _ => Or.inl rfl

theorem Spares.trans (h : Spares target t t') (h' : Spares target t' t'') :
    Spares target t t'' := by
  intro other hother
  rcases h other hother with hsame | ⟨hstart, hnothing, hmade⟩
  · rw [← hsame]
    exact h' other hother
  · rcases h' other hother with hsame | ⟨_, hmissing, _⟩
    · exact Or.inr ⟨hstart, hnothing, hsame.trans hmade⟩
    · rw [hmade] at hmissing
      cases hmissing

/-- Something put at a place or below it. -/
theorem spares_put {there : List String} (h : t.Open there) (htarget : target <+: there) :
    Spares target t (put node there t) := by
  intro other hother
  rw [kindAt_put h, if_neg fun hstart => hother (htarget.trans hstart)]
  exact Or.inl rfl

theorem spares_drop (h : target ≠ []) : Spares target t (drop target t) := by
  intro other hother
  rw [kindAt_drop h, if_neg hother]
  exact Or.inl rfl

def Bare (target : List String) (t : Tree) : Prop :=
  ∀ name rest, t.kindAt (target ++ name :: rest) = .nothing

/-- Directories are made along the way to a place, and at most the place itself is one of them. -/
structure Makes (target : List String) (t t' : Tree) : Prop where
  spares : Spares target t t'
  bare : Bare target t → Bare target t'

theorem Makes.refl (target : List String) (t : Tree) : Makes target t t :=
  ⟨.refl target t, id⟩

theorem Makes.trans (h : Makes target t t') (h' : Makes target t' t'') : Makes target t t'' :=
  ⟨h.spares.trans h'.spares, h'.bare ∘ h.bare⟩

theorem makes_put_empty (hopen : t.Open there) (hmissing : t.kindAt there = .nothing)
    (htarget : there <+: target) : Makes target t (put empty there t) := by
  have hput : ∀ other, (put empty there t).kindAt other =
      if there <+: other then empty.kindAt (other.drop there.length) else t.kindAt other :=
    kindAt_put hopen
  constructor
  · intro other hother
    rw [hput]
    split
    · next hstart =>
      obtain ⟨rest, rfl⟩ := hstart
      rw [List.drop_left]
      -- the place itself, or one below it, where there was nothing
      cases rest with
      | nil =>
        rw [List.append_nil] at hother ⊢
        exact Or.inr ⟨htarget, hmissing, rfl⟩
      | cons name rest =>
        exact Or.inl (kindAt_of_within hmissing (List.prefix_append _ _)).symm
    · exact Or.inl rfl
  · intro hbare name rest
    obtain ⟨between, rfl⟩ := htarget
    rw [hput, List.append_assoc, if_pos (List.prefix_append _ _), List.drop_left]
    cases between <;> rfl

/-- Making the directory of a path that leads towards the target. -/
theorem makes_makeDirectory (hs : Straight path) (htarget : place path <+: target) (t : Tree) :
    Makes target t (t.makeDirectory path).2 := by
  unfold makeDirectory
  split
  · exact .refl target t
  · next there last hparent =>
    split
    · exact .refl target t
    · next hdots =>
      split
      · exact .refl target t
      · split
        · exact .refl target t
        · next hmissing =>
          -- in all other branches the tree stays as it is
          have hdot : last ≠ "." := fun h => hdots (by simp [h])
          obtain ⟨hplace, hdirectory, _⟩ := parent_straight hs hdot hparent
          refine makes_put_empty (open_concat.mpr hdirectory) ?_ (hplace ▸ htarget)
          exact kindAt_nothing.mpr (Option.not_isSome_iff_eq_none.mp hmissing)

/-- Removing a directory leaves nothing below its place, and all else as it is. -/
theorem removeDirectory_straight (hs : Straight path)
    (h : t.removeDirectory path = (.ok (), t')) :
    Spares (place path) t t' ∧ Bare (place path) t' := by
  unfold removeDirectory at h
  split at h
  · cases h
  · next there hfind =>
    obtain ⟨rfl, hthere⟩ := find_straight hs hfind
    have hopen := open_of_there hthere
    have hemptied : Spares (place path) t (put empty (place path) t) ∧
        Bare (place path) (put empty (place path) t) := by
      refine ⟨spares_put hopen List.prefix_rfl, fun name rest => ?_⟩
      rw [kindAt_put hopen, if_pos (List.prefix_append _ _), List.drop_left]
      rfl
    split at h
    · cases h
    · cases h
    · dsimp only at h
      -- emptied, the directory may no longer be found by its path, and then it stays
      split at h
      · cases h
        exact hemptied
      · cases h
      · next parent last hparent =>
        split at h
        · cases h
        · next hdot =>
          split at h
          · cases h
          · cases h
            have hplace := (parent_straight hs hdot hparent).1
            have hne : place path ≠ [] := hplace ▸ List.concat_ne_nil last parent
            rw [← hplace]
            refine ⟨hemptied.1.trans (spares_drop hne), fun name rest => ?_⟩
            rw [kindAt_drop hne, if_pos (List.prefix_append _ _)]

/-- A file is written into the directory that a straight path leads to, if that is there. -/
theorem write_entry {dir name : String} {octets : List UInt8} (hs : Straight dir)
    (hname : IsName name) (h : t.write (join dir name) octets = (.ok (), t')) :
    stepsOf (join dir name) = .ok (Path.steps (join dir name)) ∧
      t.kindAt (place dir) = .directory ∧
      (∀ name ∈ place dir, name.utf8ByteSize ≤ maxName) ∧
      t' = put (file octets) (place dir ++ [name]) t := by
  unfold write at h
  split at h
  · cases h
  · next there last hparent =>
    split at h
    · cases h
    · next hdots =>
      split at h
      · cases h
      · split at h
        · cases h
        · cases h
          have hdot : last ≠ "." := fun h => hdots (by simp [h])
          -- the directory is where all steps but the last one lead, and the last one is the name
          obtain ⟨hsteps, hnamed⟩ := parent_eq_ok hparent
          obtain ⟨init, hnames, hwalk⟩ := hnamed.resolve_left hdot
          rw [names_join dir hname] at hnames
          obtain ⟨rfl, hlast⟩ := List.append_inj' hnames rfl
          obtain rfl : name = last := List.singleton_inj.mp hlast
          obtain ⟨hwalk, hdirectory⟩ := walk_stays hwalk
          obtain ⟨rfl, hshort⟩ := walk_straight hs.up_notMem hwalk
          exact ⟨hsteps, hdirectory, hshort, rfl⟩

end Tree

end HostBindings.Files
