import HostBindings.Proofs.Generate.Inventory

/-!
The shapes of all members of a generated file, at any depth. Whatever holds for each shape holds
throughout a file, by induction on `Made`.
-/

namespace HostBindings.Generate

open HostBindings.Code

inductive MadeHead (c : Catalog) (s : Settings) : TypeHead → Prop where
  | record {r} (hr : r ∈ c.records) : MadeHead c s (recordType s.lang r).head
  | interface {i} (hi : i ∈ c.callbacks) : MadeHead c s (callbackType s.lang i).head
  | service {i} (hi : i ∈ c.services) : MadeHead c s (serviceHead i)
  | proxy {j} (hj : j ∈ c.callbacks) : MadeHead c s (proxyHead s.lang j.name)

/-- A member of a file or of one of its types. What is generated for callbacks stands in the place
of a service `k`. -/
inductive Made (c : Catalog) (s : Settings) : Member → Prop where
  | registryType : Made c s s.lang.registryType
  | registry {i} (hi : i ∈ c.callbacks) : Made c s (.field (s.lang.registryField i.name))
  | declared {i m} (hi : i ∈ c.callbacks) (hm : m ∈ i.methods) :
      Made c s (.func (hostFunc s.lang m))
  /-- A function that calls native code. -/
  | called {k i m p symbol leading modifiers body} (hk : k ∈ c.services) (hi : i ∈ c.interfaces)
      (hm : m ∈ i.methods) (hplan : Marshal.nativeCall s.lang.ownership m = .ok p)
      (hsymbol : symbol = .method m.name ∨ symbol = .callbackMethod i.name m.name)
      (hleading : leading ⊆ [nativeHandle])
      (hbody : nativeCallBody s.lang (.ofInterface c s k) p symbol leading = .ok body) :
      Made c s (.func { hostFunc s.lang m with modifiers, body := some (s.lang.block body) })
  | trampoline {k j m p body} (hk : k ∈ c.services) (hj : j ∈ c.callbacks) (hm : m ∈ j.methods)
      (hplan : Marshal.trampoline s.lang.ownership m = .ok p)
      (hbody : trampolineBody s.lang (.ofInterface c s k) p j.name = .ok body) :
      Made c s (s.lang.trampoline (Naming.trampolineName j.name m.name)
        (handleParam s.lang callbackHandle :: wireParams s.lang (.ofInterface c s k) p)
        (s.lang.wireType (.ofInterface c s k) p.result) (s.lang.block body))
  | releaseTrampoline {j} (hj : j ∈ c.callbacks) : Made c s (releaseTrampoline s.lang j.name)
  | loader {k fn} (hk : k ∈ c.services) (h : s.lang.loader? (.ofInterface c s k) = some fn) :
      Made c s (.func fn)
  /-- The declaration of a native function. -/
  | native {k i m p symbol visibility leading fn} (hk : k ∈ c.services) (hi : i ∈ c.interfaces)
      (hm : m ∈ i.methods) (hplan : Marshal.nativeCall s.lang.ownership m = .ok p)
      (hsymbol : symbol = .method m.name ∨ symbol = .callbackMethod i.name m.name)
      (hleading : leading ⊆ [handleParam s.lang "handle"])
      (h : nativeDecl? s.lang (.ofInterface c s k) symbol visibility leading p = some fn) :
      Made c s (.func fn)
  | releaseDecl {k j fn} (hk : k ∈ c.services) (hj : j ∈ c.callbacks)
      (h : releaseDecl? s.lang (.ofInterface c s k) j.name = some fn) : Made c s (.func fn)
  | proxyRelease {k j d} (hk : k ∈ c.services) (hj : j ∈ c.callbacks)
      (h : d ∈ s.lang.proxyRelease (.stmt (releaseCall (.ofInterface c s k) j.name))) : Made c s d
  | type {head members} (hhead : MadeHead c s head) (hmembers : ∀ d ∈ members, Made c s d) :
      Made c s (.type head members)

variable {c : Catalog} {s : Settings} {k i j : Interface} {callback : String}

theorem made_registries {d : Member} (h : d ∈ registries s.lang c) : Made c s d := by
  obtain ⟨_, rfl | ⟨i, hi, rfl⟩⟩ := mem_registries.mp h
  · exact .registryType
  · exact .registry hi

theorem made_callbackType (hi : i ∈ c.callbacks) : Made c s (callbackType s.lang i).member := by
  refine .type (.interface hi) fun d hd => ?_
  obtain ⟨m, hm, rfl⟩ := List.mem_map.mp hd
  exact .declared hi hm

section Place

variable (hk : k ∈ c.services)

include hk

theorem made_trampolineMember {d : Member} (hfound : c.callback? callback = some j)
    (h : TrampolineMember s.lang (.ofInterface c s k) callback j d) : Made c s d := by
  obtain ⟨hj, rfl⟩ := Catalog.callback?_eq_some hfound
  cases h with
  | method hm hplan hbody => exact .trampoline hk hj hm hplan hbody
  | release => exact .releaseTrampoline hj

theorem made_proxy {r : TypeDecl × List Func}
    (h : proxy s.lang (.ofInterface c s k) callback = .ok r) : Made c s r.1.member := by
  obtain ⟨j, members, hfound, hr, hmembers, _⟩ := proxy_cases h
  obtain ⟨hj, rfl⟩ := Catalog.callback?_eq_some hfound
  rw [hr]
  refine .type (.proxy hj) fun d hd => ?_
  cases hmembers d hd with
  | method hm hplan hbody =>
    exact .called hk (Catalog.mem_callbacks.mp hj).1 hm hplan (Or.inr rfl) (List.Subset.refl _)
      hbody
  | release hd => exact .proxyRelease hk hj hd

theorem made_native {i : Interface} {proxies : List String} {fn : Func} (hi : i ∈ c.interfaces)
    (h : ServiceNative s.lang (.ofInterface c s k) i proxies fn) : Made c s (.func fn) := by
  cases h with
  | method hm hplan h => exact .native hk hi hm hplan (Or.inl rfl) (List.nil_subset _) h
  | proxy _ hfound h =>
    obtain ⟨hj, rfl⟩ := Catalog.callback?_eq_some hfound
    cases h with
    | method hm hplan h =>
      exact .native hk (Catalog.mem_callbacks.mp hj).1 hm hplan (Or.inr rfl) (List.Subset.refl _) h
    | release h => exact .releaseDecl hk hj h

theorem made_service {proxies : List String} {funcs : List (Func × Option Func)}
    {taken : List (List Member)} {made : List (TypeDecl × List Func)}
    (hs : ServiceParts s.lang (.ofInterface c s k) k proxies funcs taken made) :
    Made c s
      (.type (serviceHead k) (serviceMembers s.lang (.ofInterface c s k) funcs taken made)) := by
  have hinterface := (Catalog.mem_services.mp hk).1
  refine .type (.service hk) fun d hd => ?_
  cases hs.member_of_mem hd with
  | loader h => exact .loader hk h
  | method hm hplan hbody =>
    exact .called hk hinterface hm hplan (Or.inl rfl) (List.nil_subset _) hbody
  | trampoline _ hj h => exact made_trampolineMember hk hj h
  | native h => exact made_native hk hinterface h

end Place

/-- Every member of a file has one of the shapes. -/
theorem made_members {f : SourceFile} (hf : file c s = .ok f) : ∀ d ∈ f.members, Made c s d := by
  intro d hd
  rcases (mem_members hf).mp hd with hd | ⟨r, hr, rfl⟩ | ⟨i, hi, rfl⟩ |
    ⟨i, proxies, funcs, taken, made, hs, hd⟩
  · exact made_registries hd
  · exact .type (.record hr) fun d hd => absurd hd List.not_mem_nil
  · exact made_callbackType hi
  · have hi := (mem_proxyClaims hs.claim).1
    rcases hd with rfl | ⟨r, hr, rfl⟩
    · exact made_service hi hs.parts
    · obtain ⟨callback, _, hok⟩ := forall₂_exists_left hs.parts.made hr
      exact made_proxy hi hok

end HostBindings.Generate
