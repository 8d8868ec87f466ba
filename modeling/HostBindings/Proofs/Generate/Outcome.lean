import HostBindings.Proofs.Files.Paths
import HostBindings.Proofs.Generate.HostNames
import HostBindings.Proofs.Generate.Types

/-!
Outcomes of generation. Settings, catalog and host names are checked in this order, and whatever
passes the three checks can be planned, generated and written: no later step fails.
-/

namespace HostBindings

open HostBindings.Code

/-- The name of a module that can be used consists of identifiers and dots. -/
theorem Settings.notMem_moduleName {s : Settings} (h : s.check = .ok ()) {c : Char}
    (hdot : c ≠ '.') (hc : isIdentifierStart c = false ∧ isIdentifierChar c = false) :
    c ∉ s.moduleName.toList := by
  intro hmem
  have hsplit : (c == '.') = false := beq_false_of_ne hdot
  obtain ⟨part, hpart, hmem⟩ := (Text.mem_iff_splitAtChar (p := (· == '.')) hsplit).mp hmem
  -- the check has passed, so the name is made of identifiers and dots
  have hpath : isIdentifierPath s.moduleName = true := by
    unfold check fault? at h
    by_contra hpath
    rw [Bool.not_eq_true] at hpath
    split at h
    · cases h
    · next hnone => simp [hpath] at hnone; split at hnone <;> cases hnone
  have hidentifier : isIdentifier part = true := List.all_eq_true.mp hpath part hpart
  cases part with
  | nil => cases hmem
  | cons d ds =>
    rw [isIdentifier, Bool.and_eq_true] at hidentifier
    rcases List.mem_cons.mp hmem with rfl | hmem
    · exact absurd hidentifier.1 (by simp [hc.1])
    · exact absurd (List.all_eq_true.mp hidentifier.2 _ hmem) (by simp [hc.2])

namespace Generate

variable {c : Catalog} {s : Settings} {f : SourceFile}

theorem isBuiltin_of_mem {lang : Lang} {n : String} (h : n ∈ lang.builtins) :
    lang.isBuiltin n = true :=
  List.contains_iff_mem.mpr h

/-- A file declares the types of its catalog. -/
theorem provides_file (h : file c s = .ok f) :
    Provides s.lang c fun n =>
      n ∈ Member.declaredInList f.members ∨ s.lang.isBuiltin n = true := by
  have hdeclared : ∀ head members, .type head members ∈ f.members →
      head.name ∈ Member.declaredInList f.members :=
    fun head members hmem => Member.mem_declaredInList.mpr
      ⟨_, hmem, Member.name_mem_declared head members⟩
  -- each name is that of a type at the top of the file
  refine ⟨fun n hn => Or.inr (isBuiltin_of_mem hn), ?_, ?_, ?_⟩
  · intro r hr
    have hname : (recordType s.lang r).head.name = r.name := by
      cases s.lang <;> rfl
    have hmem := hdeclared _ _ ((mem_members h).mpr (Or.inr (Or.inl ⟨r, hr, rfl⟩)))
    exact Or.inl (hname ▸ hmem)
  · intro i hi
    exact Or.inl (hdeclared _ _ ((mem_members h).mpr (Or.inr (Or.inr (Or.inl ⟨i, hi, rfl⟩)))))
  · intro hne
    have hmem := registryType_mem_members h hne
    left
    cases hl : s.lang <;> rw [hl] at hmem <;> exact hdeclared _ _ hmem

/-- Every type named in the file of a valid catalog is known. -/
theorem unresolved?_file (hc : c.Valid) (h : file c s = .ok f) :
    f.unresolved? s.lang.isBuiltin = none := by
  have hk := provides_file h
  rw [SourceFile.unresolved?_eq_none]
  intro d hd
  rcases (mem_members h).mp hd with hd | ⟨r, hr, rfl⟩ | ⟨i, hi, rfl⟩ |
    ⟨i, proxies, funcs, taken, made, hservice, hd⟩
  · exact known_registries hk d hd
  · exact known_record hk hc hr
  · exact known_callbackType hk hc hi
  · rcases hd with rfl | ⟨r, hr, rfl⟩
    · have hi := (Catalog.mem_services.mp (mem_proxyClaims hservice.claim).1).1
      exact known_service hk hc hi hservice.parts
    · obtain ⟨cb, _, hproxy⟩ := forall₂_exists_left hservice.parts.made hr
      exact known_proxy hk hc hproxy

theorem exists_renderFile (hc : c.Valid) (h : file c s = .ok f) :
    ∃ contents, Layout.renderFile s.lang s.indent f = .ok contents := by
  unfold Layout.renderFile
  rw [unresolved?_file hc h]
  exact ⟨_, rfl⟩

/-! ### Outcomes -/

theorem artifact_of_settings {e : SettingsError} (h : s.check = .error e) :
    artifact c s = .error (.settings e) := by
  unfold artifact
  rw [h]
  rfl

variable (hs : s.check = .ok ())

include hs

theorem artifact_of_catalog {e : CatalogError} (h : c.check = .error e) :
    artifact c s = .error (.catalog e) := by
  unfold artifact
  rw [hs, h]
  rfl

variable (hc : c.check = .ok ())

include hc

theorem artifact_of_collision {k : Collision} (h : catalogCollision? s.lang c = some k) :
    artifact c s = .error (.collision k) := by
  unfold artifact
  rw [hs, hc, h]
  rfl

/-- What passes the checks is generated. -/
theorem artifact_of_checks (h : catalogCollision? s.lang c = none) :
    ∃ f contents, file c s = .ok f ∧ Layout.renderFile s.lang s.indent f = .ok contents ∧
      artifact c s = .ok ⟨f.name, contents⟩ := by
  have hvalid := Catalog.check_eq_ok.mp hc
  -- valid catalogs have a file, and its types are known, so it is written out
  obtain ⟨f, hf⟩ := exists_file hvalid s
  obtain ⟨contents, hcontents⟩ := exists_renderFile hvalid hf
  refine ⟨f, contents, hf, hcontents, ?_⟩
  unfold artifact
  rw [hs, hc, h, hf]
  show (Except.mapError _ (Layout.renderFile s.lang s.indent f) >>= _) = _
  rw [hcontents]
  rfl

omit hs hc in
/-- The checks decide the outcome of generation. -/
theorem artifact_outcome (c : Catalog) (s : Settings) :
    (∀ e, artifact c s = .error (.settings e) ↔ s.check = .error e) ∧
    (∀ e, artifact c s = .error (.catalog e) ↔ s.check = .ok () ∧ c.check = .error e) ∧
    ((∃ k, artifact c s = .error (.collision k)) ↔
      s.check = .ok () ∧ c.check = .ok () ∧ ¬ DistinctNames s.lang c) ∧
    ((∃ a, artifact c s = .ok a) ↔
      s.check = .ok () ∧ c.check = .ok () ∧ DistinctNames s.lang c) ∧
    (∀ e, artifact c s ≠ .error (.plan e)) ∧ ∀ u, artifact c s ≠ .error (.unresolved u) := by
  -- each check that fails decides alone, whatever the later ones would say
  cases hs : s.check with
  | error e => simp [artifact_of_settings hs]
  | ok u =>
    cases hc : c.check with
    | error e => simp [artifact_of_catalog hs hc]
    | ok u =>
      rw [← catalogCollision?_eq_none]
      cases hn : catalogCollision? s.lang c with
      | some k => simp [artifact_of_collision hs hc hn]
      | none =>
        obtain ⟨f, contents, _, _, hok⟩ := artifact_of_checks hs hc hn
        simp [hok]

omit hs hc in
theorem check_of_artifact {a : Artifact} (h : artifact c s = .ok a) : s.check = .ok () := by
  cases hs : s.check with
  | error e =>
    rw [artifact_of_settings hs] at h
    cases h
  | ok u => rfl

omit hs hc in
/-- Generated text is the layout of the catalog's file. -/
theorem artifact_eq_ok {a : Artifact} (h : artifact c s = .ok a) :
    c.Valid ∧ DistinctNames s.lang c ∧
      ∃ f, file c s = .ok f ∧ Layout.renderFile s.lang s.indent f = .ok a.contents := by
  cases hs : s.check with
  | error e =>
    rw [artifact_of_settings hs] at h
    cases h
  | ok u =>
    cases hc : c.check with
    | error e =>
      rw [artifact_of_catalog hs hc] at h
      cases h
    | ok u =>
      cases hn : catalogCollision? s.lang c with
      | some k =>
        rw [artifact_of_collision hs hc hn] at h
        cases h
      | none =>
        obtain ⟨f, contents, hf, hcontents, hok⟩ := artifact_of_checks hs hc hn
        rw [hok] at h
        cases h
        exact ⟨Catalog.check_eq_ok.mp hc, catalogCollision?_eq_none.mp hn, f, hf, hcontents⟩

end Generate

end HostBindings
