import HostBindings.Proofs.Generate.Listing
import Mathlib.Data.List.Perm.Basic

/-!
Names at the top of a generated file. The check of a catalog keeps the names of its entities apart,
but a file also declares the type of registries, a registry for each callback interface and the
proxies, under names of their own. What the checks leave open is stated here as `TopNamesApart`.
-/

namespace HostBindings.Generate

open HostBindings.Code

/-- The names that a file declares besides those of the entities stay apart from these and from
each other. -/
structure TopNamesApart (c : Catalog) : Prop where
  /-- Callback interfaces have registries of different names. -/
  registries : (c.callbacks.map fun i => Naming.registryName i.name).Nodup
  /-- No entity is called as the type of registries, if there is one. -/
  registryType : c.callbacks ≠ [] → "CallbackRegistry" ∉ c.names
  /-- No entity is called as a registry. -/
  registry : ∀ i ∈ c.callbacks, Naming.registryName i.name ∉ c.names
  /-- No entity is called as the proxy of a callback that some service returns. -/
  proxy : ∀ i ∈ c.services, ∀ callback ∈ i.returned, Naming.proxyName callback ∉ c.names

theorem topNamesApart_iff {c : Catalog} :
    TopNamesApart c ↔ (c.callbacks.map fun i => Naming.registryName i.name).Nodup ∧
      (c.callbacks ≠ [] → "CallbackRegistry" ∉ c.names) ∧
      (∀ i ∈ c.callbacks, Naming.registryName i.name ∉ c.names) ∧
      ∀ i ∈ c.services, ∀ callback ∈ i.returned, Naming.proxyName callback ∉ c.names :=
  ⟨fun h => ⟨h.registries, h.registryType, h.registry, h.proxy⟩,
    fun ⟨hregistries, htype, hregistry, hproxy⟩ => ⟨hregistries, htype, hregistry, hproxy⟩⟩

instance : DecidablePred TopNamesApart :=
  fun _ => decidable_of_iff' _ topNamesApart_iff

/-! ### Names of entries -/

def Entry.name : Entry → String
  | .registryType => "CallbackRegistry"
  | .registry i => Naming.registryName i.name
  | .record r => r.name
  | .interface i => i.name
  | .service i => i.name
  | .proxy callback => Naming.proxyName callback

theorem Entry.StandsFor.name_eq {lang : Lang} {c : Catalog} {e : Entry} {d : Member}
    (h : e.StandsFor lang c d) : d.name = e.name := by
  cases h with
  | registryType name => exact name
  | registry name type => exact name
  | record kind name properties => exact name
  | interface kind name methods => exact name
  | service kind name methods trampolines => exact name
  | proxy kind name implements => exact name

variable {c : Catalog}

def registryNames (c : Catalog) : List String :=
  if c.callbacks = [] then []
  else "CallbackRegistry" :: c.callbacks.map fun i => Naming.registryName i.name

def proxied (c : Catalog) : List String :=
  (firstReturns [] c.services).flatMap (·.2)

theorem firstReturns_fst (earlier is : List Interface) :
    (firstReturns earlier is).map (·.1) = is := by
  induction is generalizing earlier with
  | nil => rfl
  | cons i is ih => rw [firstReturns, List.map_cons, ih]

theorem count_proxied (c : Catalog) (callback : String) :
    (proxied c).count callback = if ∃ i ∈ c.services, callback ∈ i.returned then 1 else 0 := by
  rw [proxied, count_firstReturns]
  simp

theorem mem_proxied {callback : String} :
    callback ∈ proxied c ↔ ∃ i ∈ c.services, callback ∈ i.returned := by
  rw [← List.count_pos_iff, count_proxied]
  split <;> simp_all

theorem nodup_proxied (c : Catalog) : (proxied c).Nodup := by
  rw [List.nodup_iff_count_le_one]
  intro callback
  rw [count_proxied]
  split <;> decide

/-- With the proxies moved behind them the services stand in order. -/
theorem serviceEntries_perm (c : Catalog) :
    (serviceEntries c).Perm (c.services.map .service ++ (proxied c).map .proxy) := by
  have hservices : (firstReturns [] c.services).flatMap (fun first => [Entry.service first.1]) =
      c.services.map .service := by
    conv_rhs => rw [← firstReturns_fst [] c.services]
    rw [← List.map_eq_flatMap, List.map_map]
    rfl
  have hproxies : (firstReturns [] c.services).flatMap (fun first => first.2.map Entry.proxy) =
      (proxied c).map .proxy := by
    rw [proxied, List.map_flatMap]
  have hperm := List.flatMap_append_perm (firstReturns [] c.services)
    (fun first => [Entry.service first.1]) (fun first => first.2.map Entry.proxy)
  rw [hservices, hproxies] at hperm
  exact hperm.symm

/-- The names of a file are those of registries, of all entities of the catalog and of proxies. -/
theorem entryNames_perm (c : Catalog) :
    ((entries c).map Entry.name).Perm
      (registryNames c ++ (c.names ++ (proxied c).map Naming.proxyName)) := by
  have hregistries : (if c.callbacks = [] then []
      else Entry.registryType :: c.callbacks.map .registry).map Entry.name = registryNames c := by
    unfold registryNames
    split
    · rfl
    · rw [List.map_cons, List.map_map]
      rfl
  have hservices : ((serviceEntries c).map Entry.name).Perm
      (c.services.map (·.name) ++ (proxied c).map Naming.proxyName) := by
    have hperm := (serviceEntries_perm c).map Entry.name
    rw [List.map_append, List.map_map, List.map_map] at hperm
    exact hperm
  -- each interface is a callback or a service
  have hinterfaces : (c.callbacks.map (·.name) ++ c.services.map (·.name)).Perm
      (c.interfaces.map (·.name)) := by
    rw [← List.map_append]
    exact (List.filter_append_perm (·.isCallback) c.interfaces).map _
  have hnames : (c.records.map (·.name) ++
      (c.callbacks.map (·.name) ++ c.services.map (·.name))).Perm c.names :=
    List.perm_append_comm.trans (hinterfaces.append_right _)
  have hentries : (entries c).map Entry.name =
      registryNames c ++ (c.records.map (·.name) ++
        (c.callbacks.map (·.name) ++ (serviceEntries c).map Entry.name)) := by
    rw [entries, List.map_append, List.map_append, List.map_append, hregistries, List.map_map,
      List.map_map, List.append_assoc, List.append_assoc]
    rfl
  rw [hentries]
  apply List.Perm.append_left
  calc
    List.Perm _ (c.records.map (·.name) ++ (c.callbacks.map (·.name) ++
        (c.services.map (·.name) ++ (proxied c).map Naming.proxyName))) :=
      (hservices.append_left _).append_left _
    _ = c.records.map (·.name) ++ (c.callbacks.map (·.name) ++ c.services.map (·.name)) ++
        (proxied c).map Naming.proxyName := by
      rw [List.append_assoc, List.append_assoc]
    List.Perm _ (c.names ++ (proxied c).map Naming.proxyName) := hnames.append_right _

/-! ### Distinct names -/

theorem mem_registryNames {n : String} :
    n ∈ registryNames c ↔ (c.callbacks ≠ [] ∧ n = "CallbackRegistry") ∨
      ∃ i ∈ c.callbacks, Naming.registryName i.name = n := by
  unfold registryNames
  by_cases h : c.callbacks = []
  · simp [h]
  · rw [if_neg h, List.mem_cons, List.mem_map]
    simp [h]

theorem nodup_registryNames :
    (registryNames c).Nodup ↔ (c.callbacks.map fun i => Naming.registryName i.name).Nodup := by
  unfold registryNames
  by_cases h : c.callbacks = []
  · simp [h]
  · have htype : "CallbackRegistry" ∉ c.callbacks.map fun i => Naming.registryName i.name := by
      intro hmem
      obtain ⟨i, _, hname⟩ := List.mem_map.mp hmem
      exact Naming.registryName_ne_registryType i.name hname
    rw [if_neg h, List.nodup_cons]
    exact and_iff_right htype

/-- Registries and proxies have different endings. -/
theorem registryNames_disjoint_proxies :
    (registryNames c).Disjoint ((proxied c).map Naming.proxyName) := by
  intro n hregistry hproxy
  obtain ⟨callback, _, rfl⟩ := List.mem_map.mp hproxy
  rcases mem_registryNames.mp hregistry with ⟨_, hname⟩ | ⟨i, _, hname⟩
  · exact Naming.proxyName_ne_registryType callback hname
  · exact Naming.registryName_ne_proxyName i.name callback hname

theorem nodup_entryNames (hc : c.Valid) :
    ((entries c).map Entry.name).Nodup ↔ TopNamesApart c := by
  have hproxies : ((proxied c).map Naming.proxyName).Nodup :=
    (nodup_proxied c).map Naming.proxyName_injective
  -- registries, declared names and proxies, each distinct by itself and apart from the others
  rw [(entryNames_perm c).nodup_iff, List.nodup_append', List.nodup_append', nodup_registryNames]
  constructor
  · rintro ⟨hregistries, ⟨_, _, hnames⟩, hfixed⟩
    have hregistry : ∀ n ∈ registryNames c, n ∉ c.names :=
      fun n hn hname => hfixed hn (List.mem_append_left _ hname)
    refine ⟨hregistries, fun hne => ?_, fun i hi => ?_, fun i hi callback hcb hname => ?_⟩
    · exact hregistry _ (mem_registryNames.mpr (Or.inl ⟨hne, rfl⟩))
    · exact hregistry _ (mem_registryNames.mpr (Or.inr ⟨i, hi, rfl⟩))
    · exact hnames hname (List.mem_map_of_mem (mem_proxied.mpr ⟨i, hi, hcb⟩))
  · intro h
    refine ⟨h.registries, ⟨hc.names_nodup, hproxies, ?_⟩, ?_⟩
    · intro n hname hproxy
      obtain ⟨callback, hcb, rfl⟩ := List.mem_map.mp hproxy
      obtain ⟨i, hi, hreturned⟩ := mem_proxied.mp hcb
      exact h.proxy i hi callback hreturned hname
    · intro n hn hother
      rcases List.mem_append.mp hother with hname | hproxy
      · rcases mem_registryNames.mp hn with ⟨hne, rfl⟩ | ⟨i, hi, rfl⟩
        · exact h.registryType hne hname
        · exact h.registry i hi hname
      · exact registryNames_disjoint_proxies hn hproxy

theorem memberNames_top {s : Settings} {f : SourceFile} (hc : c.Valid) (hf : file c s = .ok f) :
    f.members.map Member.name = (entries c).map Entry.name :=
  map_congr_of_forall₂ ((standsFor_members hc hf).imp fun _ _ hd => hd.name_eq)

/-- The checks accept a catalog without looking at the names that a file declares besides those of
the entities. In the file generated for it the names at the top are distinct exactly if these are
apart in the sense of `TopNamesApart`. -/
theorem topNames_distinct {s : Settings} {a : Artifact} (h : artifact c s = .ok a) :
    ∃ f, file c s = .ok f ∧ Layout.renderFile s.lang s.indent f = .ok a.contents ∧
      ((f.members.map Member.name).Nodup ↔ TopNamesApart c) := by
  obtain ⟨hc, _, f, hf, hcontents⟩ := artifact_eq_ok h
  refine ⟨f, hf, hcontents, ?_⟩
  rw [memberNames_top hc hf]
  exact nodup_entryNames hc

def pairCatalog (first second record : String) : Catalog where
  interfaces :=
    [⟨first, "lib", "lib", true, []⟩, ⟨second, "lib", "lib", true, []⟩,
     ⟨"Store", "lib", "lib", false, [⟨"lend", .callback first, "Box<dyn " ++ first ++ ">", []⟩]⟩]
  records := [⟨record, "lib", "lib", [⟨"id", .single (.numeric .int), "i32"⟩]⟩]

def pairSettings (lang : Lang) : Settings :=
  { Settings.forModule "demo" with lang := lang }

theorem topNames_distinct_pair :
    ∃ a f, artifact (pairCatalog "Listener" "Sink" "Item") (pairSettings .kotlin) = .ok a ∧
      file (pairCatalog "Listener" "Sink" "Item") (pairSettings .kotlin) = .ok f ∧
      (f.members.map Member.name).Nodup := by
  have hs : (pairSettings .kotlin).check = .ok () := by decide
  have hc : (pairCatalog "Listener" "Sink" "Item").check = .ok () := by decide
  have hn : catalogCollision? (pairSettings .kotlin).lang (pairCatalog "Listener" "Sink" "Item") =
      none := by decide
  obtain ⟨_, _, _, _, ha⟩ := artifact_of_checks hs hc hn
  obtain ⟨f, hf, _, hiff⟩ := topNames_distinct ha
  have hapart : TopNamesApart (pairCatalog "Listener" "Sink" "Item") := by decide
  exact ⟨_, f, ha, hf, hiff.mpr hapart⟩

/-- Two callback interfaces whose names differ in the case of the first letter pass the checks, and
have one name for their two registries. -/
theorem topNames_clash_registries :
    ∃ a f, artifact (pairCatalog "Listener" "listener" "Item") (pairSettings .swift) = .ok a ∧
      file (pairCatalog "Listener" "listener" "Item") (pairSettings .swift) = .ok f ∧
      (f.members.map Member.name).count "listenerRegistry" = 2 ∧
      ¬ (f.members.map Member.name).Nodup := by
  have hs : (pairSettings .swift).check = .ok () := by decide
  have hc : (pairCatalog "Listener" "listener" "Item").check = .ok () := by decide
  have hn : catalogCollision? (pairSettings .swift).lang
      (pairCatalog "Listener" "listener" "Item") = none := by decide
  obtain ⟨f, _, hf, _, ha⟩ := artifact_of_checks hs hc hn
  refine ⟨_, f, ha, hf, ?_⟩
  rw [memberNames_top (Catalog.check_eq_ok.mp hc) hf]
  decide

/-- Each of the other names is in the way of a record that the checks let through. -/
example :
    ¬ TopNamesApart (pairCatalog "Listener" "Sink" "CallbackRegistry") ∧
      ¬ TopNamesApart (pairCatalog "Listener" "Sink" "listenerRegistry") ∧
      ¬ TopNamesApart (pairCatalog "Listener" "Sink" "ListenerProxy") := by
  decide

end HostBindings.Generate
