import HostBindings.Proofs.Catalog
import Mathlib.Data.Prod.Lex

/-!
The callbacks of an interface in the order of their first uses. A callback is used at a place: it is
returned by a method of some number, or taken by an argument of some number in that method.
`Catalog.firstUses_listed` says that the lists of callbacks of an interface are the only ones that
hold each callback in use once and in order, and what they hold in a catalog that passes its check.
-/

namespace HostBindings

section Places

variable {ι : Type*} [Preorder ι] {use : ι → String → Prop} {names names' : List String}

def UsedBefore (use : ι → String → Prop) (a b : String) : Prop :=
  ∃ p, use p a ∧ ∀ q, use q b → p < q

/-- The names in use, each once, by the places of their first uses. -/
structure InFirstUse (use : ι → String → Prop) (names : List String) : Prop where
  nodup : names.Nodup
  mem_iff : ∀ name, name ∈ names ↔ ∃ p, use p name
  ordered : names.Pairwise (UsedBefore use)

theorem UsedBefore.asymm {a b : String} (hab : UsedBefore use a b) : ¬ UsedBefore use b a := by
  rintro ⟨q, hq, hba⟩
  obtain ⟨p, hp, hab⟩ := hab
  exact lt_asymm (hab q hq) (hba p hp)

/-- The uses determine the list. -/
theorem InFirstUse.unique (h : InFirstUse use names) (h' : InFirstUse use names') :
    names = names' := by
  have hperm : names.Perm names' := (List.perm_ext_iff_of_nodup h.nodup h'.nodup).mpr
    fun name => (h.mem_iff name).trans (h'.mem_iff name).symm
  exact hperm.eq_of_pairwise (fun _ _ _ _ hab hba => absurd hba hab.asymm) h.ordered h'.ordered

/-! ### Reading uses in order -/

variable {done uses : List (ι × String)} {seen : List String}

theorem UsedBefore.snoc {a b name : String} {p : ι}
    (h : UsedBefore (fun q n => (q, n) ∈ done) a b) (hlast : ∀ u ∈ done, u.1 < p) :
    UsedBefore (fun q n => (q, n) ∈ done ++ [(p, name)]) a b := by
  obtain ⟨q, hq, hbefore⟩ := h
  refine ⟨q, List.mem_append_left _ hq, fun r hr => ?_⟩
  rcases List.mem_append.mp hr with hr | hr
  · exact hbefore r hr
  · cases List.mem_singleton.mp hr
    exact hlast _ hq

/-- A new name is used after all names in use. -/
theorem usedBefore_new {a name : String} {p q : ι} (hq : (q, a) ∈ done)
    (hlast : ∀ u ∈ done, u.1 < p) (hnew : ¬ ∃ r, (r, name) ∈ done) :
    UsedBefore (fun q n => (q, n) ∈ done ++ [(p, name)]) a name := by
  refine ⟨q, List.mem_append_left _ hq, fun r hr => ?_⟩
  rcases List.mem_append.mp hr with hr | hr
  · exact absurd ⟨r, hr⟩ hnew
  · cases List.mem_singleton.mp hr
    exact hlast _ hq

/-- Reading one more use, behind all others, appends its name if it is new. -/
theorem inFirstUse_addNew {p : ι} {name : String}
    (h : InFirstUse (fun q n => (q, n) ∈ done) seen) (hlast : ∀ u ∈ done, u.1 < p) :
    InFirstUse (fun q n => (q, n) ∈ done ++ [(p, name)]) (addNew seen name) where
  nodup := nodup_addNew h.nodup
  mem_iff n := by
    simp only [mem_addNew, h.mem_iff, List.mem_append, List.mem_singleton, Prod.mk.injEq,
      exists_or, exists_eq_left]
  ordered := by
    have hseen : seen.Pairwise (UsedBefore fun q n => (q, n) ∈ done ++ [(p, name)]) :=
      h.ordered.imp fun hab => hab.snoc hlast
    unfold addNew
    split
    · exact hseen
    · rename_i hname
      refine List.pairwise_append.mpr ⟨hseen, List.pairwise_singleton _ _, fun a ha b hb => ?_⟩
      rw [List.mem_singleton.mp hb]
      obtain ⟨q, hq⟩ := (h.mem_iff a).mp ha
      exact usedBefore_new hq hlast fun hused => hname ((h.mem_iff name).mpr hused)

theorem inFirstUse_foldl_addNew (h : InFirstUse (fun p n => (p, n) ∈ done) seen)
    (hsorted : (done ++ uses).Pairwise fun u v => u.1 < v.1) :
    InFirstUse (fun p n => (p, n) ∈ done ++ uses) ((uses.map Prod.snd).foldl addNew seen) := by
  -- what has been read grows by the head of what is left
  induction uses generalizing done seen with
  | nil => rwa [List.append_nil]
  | cons u uses ih =>
    have hlast : ∀ v ∈ done, v.1 < u.1 := fun v hv =>
      (List.pairwise_append.mp hsorted).2.2 v hv u List.mem_cons_self
    rw [List.append_cons] at hsorted ⊢
    exact ih (inFirstUse_addNew h hlast) hsorted

/-- Names read in the order of their places are in first use. -/
theorem inFirstUse_of_sorted (hsorted : uses.Pairwise fun u v => u.1 < v.1) :
    InFirstUse (fun p n => (p, n) ∈ uses) ((uses.map Prod.snd).foldl addNew []) := by
  have hnone : InFirstUse (fun p n => (p, n) ∈ ([] : List (ι × String))) [] :=
    ⟨List.nodup_nil, by simp, List.Pairwise.nil⟩
  exact inFirstUse_foldl_addNew hnone hsorted

end Places

/-! ### Numbered places -/

section Numbered

variable {α : Type*} {name? : α → Option String} {l : List α}

def numbered (name? : α → Option String) (l : List α) : List (ℕ × String) :=
  l.zipIdx.filterMap fun x => (name? x.1).map (x.2, ·)

theorem mem_numbered {k : ℕ} {name : String} :
    (k, name) ∈ numbered name? l ↔ ∃ x, l[k]? = some x ∧ name? x = some name := by
  simp only [numbered, List.mem_filterMap, Option.map_eq_some_iff, Prod.mk.injEq]
  constructor
  · rintro ⟨⟨x, _⟩, hx, _, hname, rfl, rfl⟩
    exact ⟨x, List.mem_zipIdx_iff_getElem?.mp hx, hname⟩
  · rintro ⟨x, hx, hname⟩
    exact ⟨(x, k), List.mem_zipIdx_iff_getElem?.mpr hx, name, hname, rfl, rfl⟩

theorem map_snd_numbered : (numbered name? l).map Prod.snd = l.filterMap name? := by
  have hname : (fun x : α × ℕ => ((name? x.1).map (x.2, ·)).map Prod.snd) = name? ∘ Prod.fst := by
    funext x
    simp [Option.map_map, Function.comp_def]
  rw [numbered, List.map_filterMap, hname, ← List.filterMap_map, List.zipIdx_map_fst]

theorem pairwise_zipIdx (l : List α) : l.zipIdx.Pairwise fun x y => x.2 < y.2 := by
  have hnumbers : (l.zipIdx.map Prod.snd).Pairwise (· < ·) := by
    rw [List.zipIdx_map_snd]
    exact List.pairwise_lt_range'
  exact List.pairwise_map.mp hnumbers

theorem pairwise_numbered : (numbered name? l).Pairwise fun u v => u.1 < v.1 := by
  refine List.pairwise_filterMap.mpr ((pairwise_zipIdx l).imp fun hlt u hu v hv => ?_)
  obtain ⟨_, _, rfl⟩ := Option.map_eq_some_iff.mp hu
  obtain ⟨_, _, rfl⟩ := Option.map_eq_some_iff.mp hv
  exact hlt

end Numbered

/-! ### Callbacks of an interface -/

namespace Interface

variable {i : Interface}

/-- A callback is taken at the place of an argument: the number of the method, then that of the
argument in it. -/
def Takes (i : Interface) (p : ℕ ×ₗ ℕ) (name : String) : Prop :=
  ∃ m, i.methods[(ofLex p).1]? = some m ∧
    ∃ s, m.params[(ofLex p).2]? = some s ∧ s.type = .callback name

def Returns (i : Interface) (k : ℕ) (name : String) : Prop :=
  ∃ m, i.methods[k]? = some m ∧ m.returns = .callback name

def takings (i : Interface) : List ((ℕ ×ₗ ℕ) × String) :=
  i.methods.zipIdx.flatMap fun x =>
    (numbered (·.type.callbackName?) x.1.params).map fun u => (toLex (x.2, u.1), u.2)

def returnings (i : Interface) : List (ℕ × String) :=
  numbered (·.returns.callbackName?) i.methods

theorem mem_takings {p : ℕ ×ₗ ℕ} {name : String} : (p, name) ∈ i.takings ↔ i.Takes p name := by
  simp only [takings, List.mem_flatMap, List.mem_map, Prod.mk.injEq, Takes]
  constructor
  · rintro ⟨⟨m, k⟩, hm, ⟨l, _⟩, hu, rfl, rfl⟩
    obtain ⟨s, hs, hname⟩ := mem_numbered.mp hu
    exact ⟨m, List.mem_zipIdx_iff_getElem?.mp hm, s, hs,
      BoundaryType.callbackName?_eq_some.mp hname⟩
  · rintro ⟨m, hm, s, hs, htype⟩
    exact ⟨(m, (ofLex p).1), List.mem_zipIdx_iff_getElem?.mpr hm, ((ofLex p).2, name),
      mem_numbered.mpr ⟨s, hs, BoundaryType.callbackName?_eq_some.mpr htype⟩, rfl, rfl⟩

theorem mem_returnings {k : ℕ} {name : String} :
    (k, name) ∈ i.returnings ↔ i.Returns k name := by
  simp only [returnings, mem_numbered, BoundaryType.callbackName?_eq_some, Returns]

theorem map_snd_takings :
    i.takings.map Prod.snd =
      i.methods.flatMap fun m => m.params.filterMap (·.type.callbackName?) := by
  have hmethod : ∀ x : Method × ℕ,
      ((numbered (·.type.callbackName?) x.1.params).map fun u => (toLex (x.2, u.1), u.2)).map
        Prod.snd = x.1.params.filterMap (·.type.callbackName?) := by
    intro x
    rw [List.map_map, ← map_snd_numbered]
    rfl
  rw [takings, List.map_flatMap]
  simp only [hmethod]
  rw [← List.zipIdx_map_fst 0 i.methods, List.flatMap_map, List.zipIdx_map_fst]

/-- Methods are read in order, and in each the arguments in order. -/
theorem pairwise_takings : i.takings.Pairwise fun u v => u.1 < v.1 := by
  refine List.pairwise_flatMap.mpr ⟨fun x _ => ?_, (pairwise_zipIdx _).imp fun hlt u hu v hv => ?_⟩
  · have hplace : ∀ {u v : ℕ × String}, u.1 < v.1 →
        (toLex (x.2, u.1) : ℕ ×ₗ ℕ) < toLex (x.2, v.1) :=
      fun hlt => Prod.Lex.toLex_lt_toLex.mpr (Or.inr ⟨rfl, hlt⟩)
    exact List.pairwise_map.mpr (pairwise_numbered.imp hplace)
  · obtain ⟨_, _, rfl⟩ := List.mem_map.mp hu
    obtain ⟨_, _, rfl⟩ := List.mem_map.mp hv
    exact Prod.Lex.toLex_lt_toLex.mpr (Or.inl hlt)

theorem inFirstUse_callbackParams (i : Interface) : InFirstUse i.Takes i.callbackParams := by
  have hlist : InFirstUse (fun p name => (p, name) ∈ i.takings) i.callbackParams := by
    rw [callbackParams, ← map_snd_takings]
    exact inFirstUse_of_sorted pairwise_takings
  simp only [mem_takings] at hlist
  exact hlist

theorem inFirstUse_callbackReturns (i : Interface) : InFirstUse i.Returns i.callbackReturns := by
  have hlist : InFirstUse (fun k name => (k, name) ∈ i.returnings) i.callbackReturns := by
    rw [callbackReturns, ← map_snd_numbered]
    exact inFirstUse_of_sorted pairwise_numbered
  simp only [mem_returnings] at hlist
  exact hlist

end Interface

namespace Catalog

/-- The callbacks that an interface takes are listed each once, in the order of the arguments that
take them first, and no other list is so; likewise those that its methods return. In a catalog that
passes its check, both lists hold only names of declared callback interfaces, and both are empty
for a callback interface. -/
theorem firstUses_listed (i : Interface) :
    (∀ names, names = i.callbackParams ↔ InFirstUse i.Takes names) ∧
    (∀ names, names = i.callbackReturns ↔ InFirstUse i.Returns names) ∧
    ∀ c : Catalog, c.check = .ok () → i ∈ c.interfaces →
      (∀ name, name ∈ i.callbackParams ∨ name ∈ i.callbackReturns →
        ∃ j ∈ c.interfaces, j.name = name ∧ j.isCallback = true) ∧
      (i.isCallback = true → i.callbackParams = [] ∧ i.callbackReturns = []) := by
  have hparams := i.inFirstUse_callbackParams
  have hreturns := i.inFirstUse_callbackReturns
  refine ⟨fun names => ⟨fun h => h ▸ hparams, fun h => h.unique hparams⟩,
    fun names => ⟨fun h => h ▸ hreturns, fun h => h.unique hreturns⟩, fun c hcheck hi => ?_⟩
  have hc : c.Valid := check_eq_ok.mp hcheck
  have huse : ∀ name, name ∈ i.callbackParams ∨ name ∈ i.callbackReturns →
      i.isCallback = false ∧ ∃ j ∈ c.callbacks, j.name = name := fun name hname =>
    hname.elim (hc.of_mem_callbackParams hi) (hc.of_mem_callbackReturns hi)
  constructor
  · intro name hname
    obtain ⟨_, j, hj, hn⟩ := huse name hname
    exact ⟨j, (mem_callbacks.mp hj).1, hn, (mem_callbacks.mp hj).2⟩
  · -- a name in either list would make the interface a service
    intro hk
    have hunused : ∀ name, ¬ (name ∈ i.callbackParams ∨ name ∈ i.callbackReturns) := by
      intro name hname
      rw [(huse name hname).1] at hk
      cases hk
    exact ⟨List.eq_nil_iff_forall_not_mem.mpr fun name h => hunused name (Or.inl h),
      List.eq_nil_iff_forall_not_mem.mpr fun name h => hunused name (Or.inr h)⟩

/-- A service that takes its callbacks in one order and returns them in the other, each of them
again. -/
def watcher : Interface :=
  ⟨"Watch", "lib", "lib", false,
    [⟨"start", .callback "Closer", "Box<dyn Closer>",
      [⟨"listener", .callback "Listener", "Box<dyn Listener>"⟩,
       ⟨"limit", .single (.numeric .int), "i32"⟩,
       ⟨"closer", .callback "Closer", "Box<dyn Closer>"⟩]⟩,
     ⟨"replace", .callback "Listener", "Box<dyn Listener>",
      [⟨"closer", .callback "Closer", "Box<dyn Closer>"⟩,
       ⟨"listener", .callback "Listener", "Box<dyn Listener>"⟩]⟩,
     ⟨"stop", .callback "Closer", "Box<dyn Closer>", []⟩]⟩

def listener : Interface :=
  ⟨"Listener", "lib", "lib", true,
    [⟨"on_data", .void, "()", [⟨"data", .vec (.numeric .byte), "Vec<i8>"⟩]⟩]⟩

def watchCatalog : Catalog where
  interfaces := [watcher, ⟨"Closer", "lib", "lib", true, []⟩, listener]
  records := []

theorem firstUses_listed_watch :
    watchCatalog.check = .ok () ∧
      InFirstUse watcher.Takes ["Listener", "Closer"] ∧
      InFirstUse watcher.Returns ["Closer", "Listener"] ∧
      (∀ name ∈ ["Listener", "Closer"],
        ∃ j ∈ watchCatalog.interfaces, j.name = name ∧ j.isCallback = true) ∧
      listener.callbackParams = [] ∧ listener.callbackReturns = [] := by
  have hcheck : watchCatalog.check = .ok () := rfl
  obtain ⟨htaken, hreturned, hservice⟩ := firstUses_listed watcher
  obtain ⟨hdeclared, _⟩ := hservice watchCatalog hcheck List.mem_cons_self
  obtain ⟨_, _, hcallback⟩ := firstUses_listed listener
  obtain ⟨_, hempty⟩ := hcallback watchCatalog hcheck (by decide)
  exact ⟨hcheck, (htaken _).mp (by decide), (hreturned _).mp (by decide),
    fun name hname => hdeclared name (Or.inl hname), hempty rfl⟩

end Catalog

end HostBindings
