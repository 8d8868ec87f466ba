import HostBindings.Catalog.Directory
import HostBindings.Proofs.Catalog.Verdict
import HostBindings.Proofs.Document.Errors
import HostBindings.Proofs.Files.Paths
import HostBindings.Proofs.Files.Reading
import Mathlib.Data.List.Sort

/-!
Loading a directory. `Catalog.ofDirectory_enumeration` says what comes of it in any order in which
the directory may be listed: the same in all of them, and which of several errors is reported is
decided by the order of the paths.
-/

namespace HostBindings

open HostBindings.Files

namespace Document

/-! ### Listing -/

/-- An entry that is taken for a document: a regular file with something before `.json`. -/
def IsDocument (e : Tree.Entry) : Prop :=
  e.isFile = true ∧ ∃ stem, stem ≠ "" ∧ e.name = stem ++ ".json"

theorem isDocument_iff {e : Tree.Entry} :
    IsDocument e ↔ (e.isFile && Path.hasExtension "json" e.name) = true := by
  have happend (stem : String) : stem ++ "." ++ "json" = stem ++ ".json" := String.append_assoc
  simp only [Bool.and_eq_true, Path.hasExtension_iff, happend, IsDocument]

instance : DecidablePred IsDocument :=
  fun _ => decidable_of_iff' _ isDocument_iff

structure Sorted (es : List Tree.Entry) (names : List String) : Prop where
  /-- Each document is named as often as it is an entry, and nothing else is. -/
  perm : names.Perm ((es.filter IsDocument).map (·.name))
  ordered : names.Pairwise (· ≤ ·)

/-- Entries have one sorted list of names, in whatever order they stand. -/
theorem Sorted.unique {es es' : List Tree.Entry} {names names' : List String}
    (h : Sorted es names) (h' : Sorted es' names') (hes : es.Perm es') : names = names' :=
  (h.perm.trans (((hes.filter _).map _).trans h'.perm.symm)).eq_of_pairwise' h.ordered h'.ordered

theorem exists_sorted (dir : String) (es : List Tree.Entry) :
    ∃ names, Sorted es names ∧ paths dir es = names.map (Path.join dir) := by
  have hfilter : (es.filter fun e => e.isFile && Path.hasExtension "json" e.name) =
      es.filter IsDocument :=
    List.filter_congr fun e _ => by rw [← Bool.coe_iff_coe, ← isDocument_iff, decide_eq_true_iff]
  refine ⟨_, ⟨?_, List.pairwise_mergeSort' (· ≤ ·) _⟩, rfl⟩
  rw [hfilter]
  exact List.mergeSort_perm _ _

/-- The paths of documents are in the order of paths. -/
theorem Sorted.paths_ordered {es : List Tree.Entry} {names : List String} (h : Sorted es names)
    (hes : ∀ e ∈ es, Path.IsName e.name) (dir : String) :
    (names.map (Path.join dir)).Pairwise Path.NotAfter := by
  have hname : ∀ n ∈ names, Path.IsName n := by
    intro n hn
    obtain ⟨e, he, rfl⟩ := List.mem_map.mp (h.perm.mem_iff.mp hn)
    exact hes e (List.mem_filter.mp he).1
  rw [List.pairwise_map]
  exact h.ordered.imp_of_mem fun ha hb hle =>
    (Path.notAfter_join dir (hname _ ha) (hname _ hb)).mpr hle

theorem paths_order (o : Enumeration) (dir : String) (es : List Tree.Entry) :
    paths dir (o.order es) = paths dir es := by
  obtain ⟨names, hnames, hpaths⟩ := exists_sorted dir (o.order es)
  obtain ⟨names', hnames', hpaths'⟩ := exists_sorted dir es
  rw [hpaths, hpaths', hnames.unique hnames' (o.perm es)]

def pathsIn (dir : String) (t : Tree) : Except CatalogError (List String) :=
  ((t.entries dir).mapError (.io dir)).map (paths dir)

theorem reads_list (o : Enumeration) (dir : String) :
    Reads (@list (StateM Tree) _ o.fileSystem dir) (pathsIn dir) := by
  have hentries : Reads (attempt (CatalogError.io dir) (o.fileSystem.entries dir)) fun t =>
      ((t.entries dir).map o.order).mapError (.io dir) :=
    .attempt _ fun _ => rfl
  refine (hentries.bind fun es => .pure (paths dir es)).of_eq fun t => ?_
  unfold pathsIn
  cases t.entries dir with
  | error fault => rfl
  | ok es => exact congrArg Except.ok (paths_order o dir es)

/-! ### Reading -/

/-- What the file of a path holds: an entity, or an error that names the file once. -/
def entityIn (path : String) (t : Tree) : Except CatalogError Entity :=
  match t.textOf path with
  | .error fault => .error (.io path fault)
  | .ok text =>
    match ofText text with
    | .error e => .error (.inFile path e)
    | .ok entity => .ok entity

variable {t : Tree} {path : String}

theorem paths_of_entityIn_eq_error {e : CatalogError} (h : entityIn path t = .error e) :
    e.paths = [path] := by
  unfold entityIn at h
  split at h
  · cases h
    rfl
  · next text _ =>
    split at h
    · next e' he' =>
      cases h
      rw [CatalogError.paths, pathless_ofText text e' he']
    · cases h

theorem entityIn_eq_bind : entityIn path t =
    (t.textOf path).mapError (.io path) >>= fun text =>
      (ofText text).mapError (CatalogError.atFile path) := by
  unfold entityIn
  cases t.textOf path with
  | error fault => rfl
  | ok text =>
    show (match ofText text with
      | .error e => .error (.inFile path e)
      | .ok entity => .ok entity) = (ofText text).mapError (CatalogError.atFile path)
    cases htext : ofText text with
    | ok entity => rfl
    | error e =>
      have hfile := CatalogError.atFile_of_paths_eq_nil (pathless_ofText text e htext) path
      exact congrArg Except.error hfile.symm

theorem reads_ofFile (o : Enumeration) (path : String) :
    Reads (@ofFile (StateM Tree) _ o.fileSystem path) (entityIn path) :=
  ((Reads.attempt (CatalogError.io path) (readText_run o path)).bind fun text =>
    .ofExcept ((ofText text).mapError (CatalogError.atFile path))).of_eq fun _ =>
      entityIn_eq_bind.symm

end Document

/-! ### Loading -/

def Entity.interface? : Entity → Option Interface
  | .interface i => some i
  | .record _ => none

def Entity.record? : Entity → Option Record
  | .interface _ => none
  | .record r => some r

namespace Catalog

theorem ofEntities_eq (entities : List Entity) :
    ofEntities entities =
      ⟨entities.filterMap Entity.interface?, entities.filterMap Entity.record?⟩ := by
  induction entities with
  | nil => rfl
  | cons e es ih => cases e <;> rw [ofEntities, ih] <;> rfl

inductive Loads (t : Tree) (paths : List String) : Except CatalogError Catalog → Prop where
  /-- All documents are read, and interfaces and records keep their order. -/
  | loaded (entities : List Entity) (c : Catalog)
    (read : List.Forall₂ (fun path entity => Document.entityIn path t = .ok entity) paths entities)
    (interfaces : c.interfaces = entities.filterMap Entity.interface?)
    (records : c.records = entities.filterMap Entity.record?) (valid : c.check = .ok ()) :
    Loads t paths (.ok c)
  /-- All documents are read, and the catalog does not hold together. -/
  | refused (entities : List Entity) (c : Catalog) (e : CatalogError)
    (read : List.Forall₂ (fun path entity => Document.entityIn path t = .ok entity) paths entities)
    (interfaces : c.interfaces = entities.filterMap Entity.interface?)
    (records : c.records = entities.filterMap Entity.record?) (invalid : c.check = .error e)
    (pathless : e.paths = []) : Loads t paths (.error e)
  /-- A document cannot be read, and it is the first one; the error names its file once. -/
  | broken (before : List String) (path : String) (after : List String) (e : CatalogError)
    (split : paths = before ++ path :: after)
    (read : ∀ p ∈ before, ∃ entity, Document.entityIn p t = .ok entity)
    (fault : Document.entityIn path t = .error e) (once : e.paths = [path]) :
    Loads t paths (.error e)

def ofPaths (paths : List String) (t : Tree) : Except CatalogError Catalog := do
  let entities ← paths.mapM (Document.entityIn · t)
  (ofEntities entities).check
  return ofEntities entities

theorem pathless_check (c : Catalog) : Pathless c.check := by
  intro e he
  cases exhibits_of_fault? (check_eq_error.mp he) <;> rfl

theorem loads_ofPaths (t : Tree) (paths : List String) : Loads t paths (ofPaths paths t) := by
  unfold ofPaths
  cases hread : paths.mapM (Document.entityIn · t) with
  | error e =>
    obtain ⟨before, path, after, hsplit, hbefore, hfault⟩ := mapM_eq_error hread
    exact .broken before path after e hsplit hbefore hfault
      (Document.paths_of_entityIn_eq_error hfault)
  | ok entities =>
    rw [mapM_eq_ok] at hread
    have hinterfaces := congrArg Catalog.interfaces (ofEntities_eq entities)
    have hrecords := congrArg Catalog.records (ofEntities_eq entities)
    rw [ok_bind]
    cases hcheck : (ofEntities entities).check with
    | error e =>
      exact .refused entities _ e hread hinterfaces hrecords hcheck (pathless_check _ e hcheck)
    | ok u => exact .loaded entities _ hread hinterfaces hrecords hcheck

def inDirectory (dir : String) (t : Tree) : Except CatalogError Catalog :=
  Document.pathsIn dir t >>= fun paths => ofPaths paths t

theorem reads_ofDirectory (o : Enumeration) (dir : String) :
    Reads (@ofDirectory (StateM Tree) _ o.fileSystem dir) (inDirectory dir) :=
  (Document.reads_list o dir).bind fun paths =>
    (Reads.mapM (Document.reads_ofFile o) paths).bind fun entities =>
      (Reads.ofExcept (ofEntities entities).check).bind fun _ => .pure (ofEntities entities)

/-- Whatever the order in which the entries of a directory are listed, the documents in it are
those entries that are documents, each once and in the order of paths, and loading them gives the
same catalog or the same error. -/
theorem ofDirectory_enumeration (t : Tree) (dir : String) (o o' : Enumeration) :
    runOn (@Document.list (StateM Tree) _ o.fileSystem dir) t =
        runOn (@Document.list (StateM Tree) _ o'.fileSystem dir) t ∧
      runOn (@ofDirectory (StateM Tree) _ o.fileSystem dir) t =
        runOn (@ofDirectory (StateM Tree) _ o'.fileSystem dir) t ∧
      match t.entries dir with
      | .error fault =>
        runOn (@Document.list (StateM Tree) _ o.fileSystem dir) t = (.error (.io dir fault), t) ∧
          runOn (@ofDirectory (StateM Tree) _ o.fileSystem dir) t = (.error (.io dir fault), t)
      | .ok es => ∃ names, Document.Sorted es names ∧
          ((∀ e ∈ es, Path.IsName e.name) →
            (names.map (Path.join dir)).Pairwise Path.NotAfter) ∧
          runOn (@Document.list (StateM Tree) _ o.fileSystem dir) t =
            (.ok (names.map (Path.join dir)), t) ∧
          ∃ outcome, runOn (@ofDirectory (StateM Tree) _ o.fileSystem dir) t = (outcome, t) ∧
            Loads t (names.map (Path.join dir)) outcome := by
  have hlist (o : Enumeration) := Document.reads_list o dir t
  have hload (o : Enumeration) := reads_ofDirectory o dir t
  -- both are readings of the tree, and no reading mentions the enumeration
  simp only [hlist, hload, true_and]
  unfold inDirectory Document.pathsIn
  cases t.entries dir with
  | error fault => exact ⟨rfl, rfl⟩
  | ok es =>
    obtain ⟨names, hnames, hpaths⟩ := Document.exists_sorted dir es
    refine ⟨names, hnames, fun hes => hnames.paths_ordered hes dir, ?_, _, rfl, ?_⟩
    · show (Except.ok (Document.paths dir es), t) = _
      rw [hpaths]
    · show Loads t _ (ofPaths (Document.paths dir es) t)
      rw [hpaths]
      exact loads_ofPaths t _

def unreadableTree : Tree :=
  .directory
    [("ast", .directory [("b.json", .file []), ("notes.txt", .file []), ("a.json", .file [255])])]

/-- Listed the other way round, the directory gives the error of the file that comes first in the
order of paths. -/
theorem ofDirectory_enumeration_reversed :
    ["ast/a.json", "ast/b.json"].Pairwise Path.NotAfter ∧
      runOn (@Document.list (StateM Tree) _ Enumeration.reversed.fileSystem "ast")
        unreadableTree = (.ok ["ast/a.json", "ast/b.json"], unreadableTree) ∧
      runOn (@ofDirectory (StateM Tree) _ Enumeration.reversed.fileSystem "ast")
        unreadableTree = (.error (.io "ast/a.json" .notText), unreadableTree) := by
  have hentries : unreadableTree.entries "ast" =
      .ok [⟨"b.json", true⟩, ⟨"notes.txt", true⟩, ⟨"a.json", true⟩] := by decide
  have hbroken : Document.entityIn "ast/a.json" unreadableTree =
      .error (.io "ast/a.json" .notText) := rfl
  obtain ⟨_, _, h⟩ := ofDirectory_enumeration unreadableTree "ast" .reversed .asStored
  rw [hentries] at h
  obtain ⟨names, hnames, hordered, hlist, outcome, hrun, hloads⟩ := h
  have hsorted : Document.Sorted [⟨"b.json", true⟩, ⟨"notes.txt", true⟩, ⟨"a.json", true⟩]
      ["a.json", "b.json"] := ⟨by decide, by decide⟩
  obtain rfl : names = ["a.json", "b.json"] := hnames.unique hsorted (.refl _)
  have hpaths : ["a.json", "b.json"].map (Path.join "ast") = ["ast/a.json", "ast/b.json"] := by
    decide
  rw [hpaths] at hordered hlist hloads
  refine ⟨hordered (by decide), hlist, ?_⟩
  rw [hrun]
  cases hloads with
  | loaded entities c read =>
    cases read with
    | cons hread _ => cases hbroken.symm.trans hread
  | refused entities c e read =>
    cases read with
    | cons hread _ => cases hbroken.symm.trans hread
  | broken before path after e split read fault =>
    -- nothing can be read before the first file
    cases before with
    | nil =>
      obtain ⟨rfl, _⟩ := List.cons.inj split
      rw [Except.error.inj (hbroken.symm.trans fault)]
    | cons p before =>
      obtain ⟨rfl, _⟩ := List.cons.inj split
      obtain ⟨entity, hread⟩ := read _ List.mem_cons_self
      cases hbroken.symm.trans hread

end Catalog

end HostBindings
