import HostBindings.Generate.Directory
import HostBindings.Proofs.Files.Reading
import HostBindings.Proofs.Files.Straight

/-!
Writing a generated file. Where a straight path leads, the directory of that path then holds the
file and nothing else, whatever it held before, and outside of it only missing directories are made.
-/

namespace HostBindings

namespace Files

open Files.Path Files.Tree

/-! ### Making directories -/

theorem Path.mem_ancestors {path p : String} (h : p ∈ ancestors path) :
    p = path ∨ ∃ n, 0 < n ∧ n < (place path).length ∧
      p = (if isAbsolute path then "/" else "") ++ "/".intercalate ((place path).take n) := by
  have hancestors : ancestors path =
      if (place path).isEmpty && (path.isEmpty || isAbsolute path) then []
      else path :: ((List.range (place path).length).reverse.filter (0 < ·)).map fun n =>
        (if isAbsolute path then "/" else "") ++ "/".intercalate ((place path).take n) := rfl
  rw [hancestors] at h
  split at h
  · cases h
  · rcases List.mem_cons.mp h with rfl | h
    · exact Or.inl rfl
    · obtain ⟨n, hn, rfl⟩ := List.mem_map.mp h
      simp only [List.mem_filter, List.mem_reverse, List.mem_range, decide_eq_true_eq] at hn
      exact Or.inr ⟨n, hn.2, hn.1, rfl⟩

/-- The directories that a straight path leads through have straight paths, and their places lead
to its own. -/
theorem Path.straight_of_mem_ancestors {path p : String} (hs : Straight path)
    (h : p ∈ ancestors path) : Straight p ∧ place p <+: place path := by
  rcases mem_ancestors h with rfl | ⟨n, hpos, hlt, rfl⟩
  · exact ⟨hs, List.prefix_rfl⟩
  · have hmem : ∀ name ∈ (place path).take n, name ∈ names path ∧ name ≠ "." := by
      intro name hname
      simpa [place] using List.mem_of_mem_take hname
    -- an ancestor is written with the first names of the path, and read with them again
    have hnames : names ((if isAbsolute path then "/" else "") ++
        "/".intercalate ((place path).take n)) = (place path).take n := by
      have hparts := names_intercalate fun name hname => isName_of_mem_names (hmem name hname).1
      split
      · rw [names_slash, hparts]
      · rw [String.empty_append, hparts]
    have hplace : place ((if isAbsolute path then "/" else "") ++
        "/".intercalate ((place path).take n)) = (place path).take n := by
      rw [place, hnames]
      exact List.filter_eq_self.mpr fun name hname => by simpa using (hmem name hname).2
    refine ⟨⟨fun hempty => ?_, fun hup => ?_⟩, by rw [hplace]; exact List.take_prefix n _⟩
    · have hlength : ((place path).take n).length = 0 := by
        rw [← hnames, hempty]
        rfl
      rw [List.length_take, Nat.min_eq_left hlt.le] at hlength
      exact absurd hlength hpos.ne'
    · exact hs.up_notMem (hmem _ (hnames ▸ hup)).1

def Making (target : List String) {α : Type} (x : StateM Tree α) : Prop :=
  ∀ t, Makes target t (x.run t).run.2

namespace Making

variable {target : List String} {α β : Type}

theorem pure (a : α) : Making target (Pure.pure a : StateM Tree α) :=
  fun t => .refl target t

theorem bind {x : StateM Tree α} {f : α → StateM Tree β} (hx : Making target x)
    (hf : ∀ a, Making target (f a)) : Making target (x >>= f) :=
  fun t => (hx t).trans (hf _ _)

variable {path : String} (hs : Path.Straight path) (htarget : Path.place path <+: target)

include hs htarget in
theorem ensureDirectory : Making target (ensureDirectory path : StateM Tree _) := by
  unfold Files.ensureDirectory
  refine bind (fun t => makes_makeDirectory hs htarget t) fun result => ?_
  split
  · refine bind (fun t => .refl target t) fun isDirectory => ?_
    split <;> exact pure _
  · exact pure _

theorem ensureAll {paths : List String}
    (h : ∀ p ∈ paths, Path.Straight p ∧ Path.place p <+: target) :
    Making target (ensureAll paths : StateM Tree _) := by
  induction paths with
  | nil => exact pure _
  | cons path outer ih =>
    rw [List.forall_mem_cons] at h
    have hpath := ensureDirectory h.1.1 h.1.2
    refine bind hpath fun result => ?_
    split
    · refine bind (ih h.2) fun result => ?_
      split
      · exact hpath
      · exact pure _
    · exact pure _

include hs in
theorem makeDirectories : Making (Path.place path) (makeDirectories path : StateM Tree _) :=
  ensureAll fun _ hp => straight_of_mem_ancestors hs hp

end Making

end Files

/-! ### Writing -/

namespace Generate

open Files Files.Path Files.Tree

variable {a : Artifact} {dir path : String} {t t' : Tree}

/-- A file is written in three steps: the directory is removed if it is there, it is made again,
and the file is written into it. -/
theorem write_eq_ok : runOn (a.write dir) t = (.ok path, t') ↔ ∃ t₁ t₂,
    (if t.exists? dir then t.removeDirectory dir = (.ok (), t₁) else t₁ = t) ∧
      ((makeDirectories dir : StateM Tree _).run t₁).run = (.ok (), t₂) ∧
      t₂.write (join dir a.fileName) (Text.encodeUtf8 a.contents) = (.ok (), t') ∧
      path = join dir a.fileName := by
  -- what follows the removal is the same whether there is one or not
  have hrest : ∀ t₁, runOn (do
      attempt (Error.io dir) (makeDirectories dir)
      attempt (Error.io (join dir a.fileName))
        (FileSystem.write (join dir a.fileName) (Text.encodeUtf8 a.contents))
      return join dir a.fileName) t₁ = (.ok path, t') ↔ ∃ t₂,
        ((makeDirectories dir : StateM Tree _).run t₁).run = (.ok (), t₂) ∧
        t₂.write (join dir a.fileName) (Text.encodeUtf8 a.contents) = (.ok (), t') ∧
        path = join dir a.fileName := by
    intro t₁
    simp only [runOn_bind_eq_ok, runOn_attempt_eq_ok, runOn_pure, Prod.mk.injEq, Except.ok.injEq]
    constructor
    · rintro ⟨_, t₂, hmake, _, _, hwrite, rfl, rfl⟩
      exact ⟨t₂, hmake, hwrite, rfl⟩
    · rintro ⟨t₂, hmake, hwrite, rfl⟩
      exact ⟨(), t₂, hmake, (), t', hwrite, rfl, rfl⟩
  have hwrite : runOn (a.write dir) t =
      runOn (do
        if t.exists? dir then attempt (Error.io dir) (FileSystem.removeDirectory dir)
        attempt (Error.io dir) (makeDirectories dir)
        attempt (Error.io (join dir a.fileName))
          (FileSystem.write (join dir a.fileName) (Text.encodeUtf8 a.contents))
        return join dir a.fileName) t := rfl
  rw [hwrite]
  split
  · rw [runOn_bind_eq_ok]
    constructor
    · rintro ⟨_, t₁, hremove, h⟩
      exact ⟨t₁, ((hrest t₁).mp h).imp fun _ h => ⟨runOn_attempt_eq_ok.mp hremove, h⟩⟩
    · rintro ⟨t₁, t₂, hremove, h⟩
      exact ⟨(), t₁, runOn_attempt_eq_ok.mpr hremove, (hrest t₁).mpr ⟨t₂, h⟩⟩
  · constructor
    · exact fun h => ⟨t, ((hrest t).mp h).imp fun _ h => ⟨rfl, h⟩⟩
    · rintro ⟨t₁, t₂, rfl, h⟩
      exact (hrest t₁).mpr ⟨t₂, h⟩

/-- Behind a straight path the file is then the only entry of the directory, whose way is made if it
is missing, and nothing else is changed. -/
theorem write_straight (hs : Straight dir) (hname : IsName a.fileName)
    (h : runOn (a.write dir) t = (.ok path, t')) :
    path = join dir a.fileName ∧
      t'.at? (place dir) =
        some (.directory [(a.fileName, .file (Text.encodeUtf8 a.contents))]) ∧
      Spares (place dir) t t' := by
  obtain ⟨t₁, t₂, hremoved, hmade, hwrite, rfl⟩ := write_eq_ok.mp h
  obtain ⟨hsteps, hdirectory, hshort, rfl⟩ := write_entry hs hname hwrite
  have hcleared : Spares (place dir) t t₁ ∧ Bare (place dir) t₁ := by
    split at hremoved
    · exact removeDirectory_straight hs hremoved
    · next hmissing =>
      -- a directory would have been found, and in anything else nothing stands
      subst hremoved
      refine ⟨.refl _ _, fun name rest => Decidable.by_contra fun hbelow => hmissing ?_⟩
      exact exists?_directory hs (stepsOf_join hs hname hsteps) hshort (kindAt_of_append hbelow)
  have hmakes : Makes (place dir) t₁ t₂ := by
    have hmaking := Making.makeDirectories hs t₁
    rwa [hmade] at hmaking
  have hempty := at?_of_bare hdirectory fun name => hmakes.bare hcleared.2 name []
  refine ⟨rfl, at?_put_concat hempty rfl, (hcleared.1.trans hmakes.spares).trans ?_⟩
  exact spares_put (open_concat.mpr hdirectory) (List.prefix_append _ _)

end Generate

end HostBindings
