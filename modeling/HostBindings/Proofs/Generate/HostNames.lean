import HostBindings.Generate.HostNames
import HostBindings.Proofs.Traversal
import Mathlib.Data.List.Nodup

/-!
Collisions of host names. A collision is reported exactly if two names of one scope have the same
image. It is the first one: in the first scope that has a collision, `Generate.collisions_exact`
finds the earliest name whose image is taken, together with the name that took it.
-/

namespace HostBindings.Generate

variable {image : String → String} {names : List String}

/-- No image is that of an earlier name, and none has been seen before. -/
theorem firstClash?_eq_none {seen : List (String × String)} :
    firstClash? image seen names = none ↔
      (names.map image).Nodup ∧ ∀ n ∈ names, image n ∉ seen.map (·.1) := by
  -- the names seen grow along the list
  induction names generalizing seen with
  | nil => simp [firstClash?]
  | cons n names ih =>
    unfold firstClash?
    split
    · rename_i key first hfound
      have hkey : key = image n := by simpa using List.find?_some hfound
      have hmem : image n ∈ seen.map (·.1) :=
        List.mem_map.mpr ⟨_, List.mem_of_find?_eq_some hfound, hkey⟩
      simp only [reduceCtorEq, false_iff, not_and]
      exact fun _ h => h n List.mem_cons_self hmem
    · rename_i hfound
      have hfresh : image n ∉ seen.map (·.1) := by
        rw [List.find?_eq_none] at hfound
        intro hmem
        obtain ⟨entry, hentry, heq⟩ := List.mem_map.mp hmem
        exact hfound entry hentry (beq_iff_eq.mpr heq)
      rw [ih, List.map_cons, List.map_cons, List.nodup_cons, List.forall_mem_cons]
      simp only [List.mem_cons, not_or, List.mem_map (l := names)]
      constructor
      · rintro ⟨hnd, hnew⟩
        exact ⟨⟨fun ⟨n', hn', heq⟩ => (hnew n' hn').1 heq, hnd⟩, hfresh,
          fun n' hn' => (hnew n' hn').2⟩
      · rintro ⟨⟨hnot, hnd⟩, _, hnew⟩
        exact ⟨hnd, fun n' hn' => ⟨fun heq => hnot ⟨n', hn', heq⟩, hnew n' hn'⟩⟩

theorem collision?_eq_none {scope : String} :
    collision? scope image names = none ↔ (names.map image).Nodup := by
  unfold collision?
  rw [Option.map_eq_none_iff, firstClash?_eq_none]
  simp

/-- In each scope of a catalog names stay apart: the host names of the methods of an interface, the
host names of the arguments that a method passes, and the names of the fields of a record. -/
structure DistinctNames (lang : Lang) (c : Catalog) : Prop where
  methods : ∀ i ∈ c.interfaces, (i.methods.map fun m => lang.hostName m.name).Nodup
  arguments : ∀ i ∈ c.interfaces, ∀ m ∈ i.methods,
    (m.passed.map fun s => lang.hostName s.name).Nodup
  fields : ∀ r ∈ c.records, (r.fields.map (·.name)).Nodup

/-- Host names collide exactly if they are not distinct in one of their scopes. -/
theorem catalogCollision?_eq_none {lang : Lang} {c : Catalog} :
    catalogCollision? lang c = none ↔ DistinctNames lang c := by
  simp only [catalogCollision?, interfaceCollision?, Option.or_eq_none_iff,
    List.findSome?_eq_none_iff, collision?_eq_none, List.map_map, Function.comp_def, id_eq]
  constructor
  · rintro ⟨hi, hr⟩
    exact ⟨fun i h => (hi i h).1, fun i h => (hi i h).2, hr⟩
  · rintro ⟨hm, ha, hr⟩
    exact ⟨fun i h => ⟨hm i h, ha i h⟩, hr⟩

/-! ### Which collision is reported -/

structure NameScope where
  label : String
  image : String → String
  names : List String

namespace NameScope

variable {s : NameScope} {k l : Collision}

def Distinct (s : NameScope) : Prop :=
  (s.names.map s.image).Nodup

/-- The first clash of a scope: `second` is the earliest name that has the image of an earlier one,
and `first` is the only earlier name with that image. -/
def FirstClash (s : NameScope) (k : Collision) : Prop :=
  k.scope = s.label ∧ s.image k.second = k.name ∧
    ∃ before rest, s.names = before ++ k.second :: rest ∧ (before.map s.image).Nodup ∧
      before.filter (s.image · = k.name) = [k.first]

def collision? (s : NameScope) : Option Collision :=
  Generate.collision? s.label s.image s.names

end NameScope

/-- The name that is found has the image of a name among the earlier ones, whose images differ. -/
theorem firstClash?_eq_some {earlier : List String} {first second name : String}
    (hearlier : (earlier.map image).Nodup)
    (h : firstClash? image (earlier.map fun n => (image n, n)) names = some (first, second, name)) :
    image second = name ∧ image first = name ∧
      ∃ before rest, names = before ++ second :: rest ∧
        ((before.reverse ++ earlier).map image).Nodup ∧ first ∈ before.reverse ++ earlier := by
  -- the earlier names grow by the head, which then stands before the second name
  induction names generalizing earlier with
  | nil => cases h
  | cons n names ih =>
    unfold firstClash? at h
    split at h
    · rename_i key found hfound
      obtain ⟨m, hm, heq⟩ := List.mem_map.mp (List.mem_of_find?_eq_some hfound)
      have hkey : key = image n := by simpa using List.find?_some hfound
      cases heq
      cases h
      exact ⟨rfl, hkey, [], names, rfl, hearlier, hm⟩
    · rename_i hfound
      have hfresh : image n ∉ earlier.map image := by
        intro hmem
        obtain ⟨m, hm, heq⟩ := List.mem_map.mp hmem
        exact List.find?_eq_none.mp hfound _ (List.mem_map_of_mem hm) (beq_iff_eq.mpr heq)
      have hnodup : ((n :: earlier).map image).Nodup := List.nodup_cons.mpr ⟨hfresh, hearlier⟩
      obtain ⟨hsecond, hfirst, before, rest, rfl, hbefore, hmem⟩ := ih hnodup h
      refine ⟨hsecond, hfirst, n :: before, rest, rfl, ?_, ?_⟩
      · rwa [List.reverse_cons, List.append_assoc]
      · rwa [List.reverse_cons, List.append_assoc]

/-- Of names with distinct images only one has a given image. -/
theorem filter_image_eq {first : String} (hnodup : (names.map image).Nodup)
    (hmem : first ∈ names) :
    names.filter (image · = image first) = [first] := by
  obtain ⟨before, after, rfl⟩ := List.append_of_mem hmem
  have hother : ∀ n, n ∈ before ∨ n ∈ after → image n ≠ image first := by
    rw [List.map_append, List.map_cons, List.nodup_middle, List.nodup_cons, List.mem_append,
      List.mem_map, List.mem_map, not_or] at hnodup
    rintro n (hn | hn) heq
    · exact hnodup.1.1 ⟨n, hn, heq⟩
    · exact hnodup.1.2 ⟨n, hn, heq⟩
  have hbefore : before.filter (image · = image first) = [] := by
    rw [List.filter_eq_nil_iff]
    exact fun n hn => by simpa using hother n (Or.inl hn)
  have hafter : after.filter (image · = image first) = [] := by
    rw [List.filter_eq_nil_iff]
    exact fun n hn => by simpa using hother n (Or.inr hn)
  rw [List.filter_append, List.filter_cons_of_pos (by simp), hbefore, hafter, List.nil_append]

namespace NameScope

variable {s : NameScope} {k l : Collision}

theorem firstClash_of_collision? (h : s.collision? = some k) : s.FirstClash k := by
  obtain ⟨⟨first, second, name⟩, hclash, rfl⟩ := Option.map_eq_some_iff.mp h
  obtain ⟨hsecond, hfirst, before, rest, hnames, hnodup, hmem⟩ :=
    firstClash?_eq_some (show (([] : List String).map s.image).Nodup from List.nodup_nil) hclash
  rw [List.append_nil, List.map_reverse, List.nodup_reverse] at hnodup
  rw [List.append_nil, List.mem_reverse] at hmem
  refine ⟨rfl, hsecond, before, rest, hnames, hnodup, ?_⟩
  simpa only [hfirst] using filter_image_eq hnodup hmem

theorem first_mem {before : List String} (h : before.filter (s.image · = k.name) = [k.first]) :
    k.first ∈ before ∧ s.image k.first = k.name := by
  have hmem : k.first ∈ before.filter (s.image · = k.name) := h ▸ List.mem_singleton_self _
  rwa [List.mem_filter, decide_eq_true_eq] at hmem

/-- Names with distinct images do not reach as far as the second name of a clash. -/
theorem not_nodup_of_firstClash {before rest : List String}
    (hfirst : before.filter (s.image · = k.name) = [k.first])
    (hsecond : s.image k.second = k.name) :
    ¬ ((before ++ k.second :: rest).map s.image).Nodup := by
  intro hnodup
  obtain ⟨hmem, himage⟩ := first_mem hfirst
  rw [List.map_append, List.map_cons, List.nodup_middle, List.nodup_cons] at hnodup
  exact hnodup.1 (List.mem_append_left _
    (List.mem_map.mpr ⟨k.first, hmem, himage.trans hsecond.symm⟩))

theorem FirstClash.not_distinct (h : s.FirstClash k) : ¬ s.Distinct := by
  obtain ⟨_, hsecond, before, rest, hnames, _, hfirst⟩ := h
  rw [Distinct, hnames]
  exact not_nodup_of_firstClash hfirst hsecond

/-- The two names of a clash have one image. -/
theorem FirstClash.image_eq (h : s.FirstClash k) : s.image k.first = s.image k.second := by
  obtain ⟨_, hsecond, _, _, _, _, hfirst⟩ := h
  exact (first_mem hfirst).2.trans hsecond.symm

/-- A scope has one first clash. -/
theorem FirstClash.unique (hk : s.FirstClash k) (hl : s.FirstClash l) : k = l := by
  obtain ⟨hkscope, hksecond, before, rest, hnames, hnodup, hkfirst⟩ := hk
  obtain ⟨hlscope, hlsecond, before', rest', hnames', hnodup', hlfirst⟩ := hl
  -- neither name stands before the other, for the names before each have distinct images
  have hsplit : before = before' ∧ k.second = l.second := by
    have happend : before ++ k.second :: rest = before' ++ l.second :: rest' := hnames ▸ hnames'
    rcases List.append_eq_append_iff.mp happend with ⟨mid, hmid, hrest⟩ | ⟨mid, hmid, hrest⟩
    · cases mid with
      | nil => exact ⟨by rw [hmid, List.append_nil], (List.cons.inj hrest).1⟩
      | cons n mid =>
        obtain ⟨rfl, -⟩ := List.cons.inj hrest
        exact absurd (hmid ▸ hnodup') (not_nodup_of_firstClash hkfirst hksecond)
    · cases mid with
      | nil => exact ⟨by rw [hmid, List.append_nil], (List.cons.inj hrest).1.symm⟩
      | cons n mid =>
        obtain ⟨rfl, -⟩ := List.cons.inj hrest
        exact absurd (hmid ▸ hnodup) (not_nodup_of_firstClash hlfirst hlsecond)
  obtain ⟨rfl, hsecond⟩ := hsplit
  have hname : k.name = l.name := by rw [← hksecond, ← hlsecond, hsecond]
  have hfirst : k.first = l.first := by
    rw [hname, hlfirst] at hkfirst
    exact (List.singleton_inj.mp hkfirst).symm
  calc k = ⟨k.scope, k.first, k.second, k.name⟩ := rfl
    _ = ⟨l.scope, l.first, l.second, l.name⟩ := by rw [hkscope, hlscope, hfirst, hsecond, hname]
    _ = l := rfl

theorem collision?_eq_some : s.collision? = some k ↔ s.FirstClash k := by
  refine ⟨firstClash_of_collision?, fun h => ?_⟩
  cases hs : s.collision? with
  | none => exact absurd (collision?_eq_none.mp hs) h.not_distinct
  | some l => exact congrArg some ((firstClash_of_collision? hs).unique h)

end NameScope

def interfaceScopes (lang : Lang) (i : Interface) : List NameScope :=
  ⟨i.name, lang.hostName, i.methods.map (·.name)⟩ ::
    i.methods.map fun m => ⟨i.name ++ "." ++ m.name, lang.hostName, m.passed.map (·.name)⟩

/-- The scopes of a catalog in the order in which they are checked: those of each interface, then
the fields of each record. -/
def nameScopes (lang : Lang) (c : Catalog) : List NameScope :=
  c.interfaces.flatMap (interfaceScopes lang) ++
    c.records.map fun r => ⟨r.name, id, r.fields.map (·.name)⟩

/-- Methods and arguments get host names, fields keep their native ones. -/
theorem image_of_mem_nameScopes {lang : Lang} {c : Catalog} {s : NameScope}
    (h : s ∈ nameScopes lang c) : s.image = lang.hostName ∨ s.image = id := by
  rcases List.mem_append.mp h with h | h
  · obtain ⟨i, _, h⟩ := List.mem_flatMap.mp h
    rcases List.mem_cons.mp h with rfl | h
    · exact Or.inl rfl
    · obtain ⟨m, _, rfl⟩ := List.mem_map.mp h
      exact Or.inl rfl
  · obtain ⟨r, _, rfl⟩ := List.mem_map.mp h
    exact Or.inr rfl

theorem interfaceCollision?_eq (lang : Lang) (i : Interface) :
    interfaceCollision? lang i = (interfaceScopes lang i).findSome? NameScope.collision? := by
  rw [interfaceScopes, List.findSome?_cons, List.findSome?_map, interfaceCollision?]
  show (NameScope.collision? ⟨i.name, lang.hostName, i.methods.map (·.name)⟩).or _ = _
  cases NameScope.collision? ⟨i.name, lang.hostName, i.methods.map (·.name)⟩ <;> rfl

theorem catalogCollision?_eq (lang : Lang) (c : Catalog) :
    catalogCollision? lang c = (nameScopes lang c).findSome? NameScope.collision? := by
  rw [nameScopes, List.findSome?_append, findSome?_flatMap, List.findSome?_map]
  simp only [← interfaceCollision?_eq]
  rfl

/-- What is reported about names. Names with distinct images have no collision, and other names have
their first one: the earliest name with the image of an earlier name, the only such earlier name,
and the image. In a catalog, a collision is reported exactly if some scope has one, and it is the
first clash of the first such scope, where the scopes are the methods of each interface and the
arguments that each of them passes, in order, and then the fields of each record. -/
theorem collisions_exact :
    (∀ (scope : String) (image : String → String) (names : List String),
      (collision? scope image names = none ↔ (names.map image).Nodup) ∧
        ∀ k, collision? scope image names = some k ↔
          NameScope.FirstClash ⟨scope, image, names⟩ k) ∧
    ∀ (lang : Lang) (c : Catalog),
      (catalogCollision? lang c = none ↔ ∀ s ∈ nameScopes lang c, s.Distinct) ∧
        ∀ k, catalogCollision? lang c = some k ↔
          ∃ before s after, nameScopes lang c = before ++ s :: after ∧
            (∀ t ∈ before, t.Distinct) ∧ s.FirstClash k := by
  refine ⟨fun scope image names => ⟨collision?_eq_none, fun k => ?_⟩,
    fun lang c => ⟨?_, fun k => ?_⟩⟩
  · exact NameScope.collision?_eq_some (s := ⟨scope, image, names⟩)
  · rw [catalogCollision?_eq, List.findSome?_eq_none_iff]
    exact forall₂_congr fun s _ => collision?_eq_none
  · rw [catalogCollision?_eq, List.findSome?_eq_some_iff]
    constructor
    · rintro ⟨before, s, after, hscopes, hs, hbefore⟩
      exact ⟨before, s, after, hscopes, fun t ht => collision?_eq_none.mp (hbefore t ht),
        NameScope.collision?_eq_some.mp hs⟩
    · rintro ⟨before, s, after, hscopes, hbefore, hs⟩
      exact ⟨before, s, after, hscopes, NameScope.collision?_eq_some.mpr hs,
        fun t ht => collision?_eq_none.mpr (hbefore t ht)⟩

/-- The third name is the first one whose image is taken, and the fourth comes too late. -/
example : collision? "Tank" Lang.swift.hostName ["fill_up", "drain", "fillUp", "drain"] =
    some { scope := "Tank", first := "fill_up", second := "fillUp", name := "fillUp" } := by
  decide +kernel

end HostBindings.Generate
