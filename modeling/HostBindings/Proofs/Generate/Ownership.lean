import HostBindings.Proofs.Generate.Buffers
import HostBindings.Proofs.Generate.Members
import HostBindings.Proofs.Generate.Outcome

/-!
Ownership of native buffers in generated files. In Swift every function of a service, every
trampoline and every method of a proxy keeps to it; in Kotlin no code deals with raw memory.
-/

namespace HostBindings.Generate

open HostBindings.Code

variable {c : Catalog} {s : Settings} {f : SourceFile} {ctx : Context} {i : Interface}
  {callback : String}

/-! ### Swift -/

def HasBody (name : String) (P : List Stmt → Prop) (d : Member) : Prop :=
  d.name = name ∧ ∃ body, d.leaves = body.map .stmt ∧ P body

/-- The type of a service in Swift: a function for each method, and for each callback interface
that it takes a trampoline for each method and the one that releases. -/
def SwiftService (c : Catalog) (i : Interface) (d : Member) : Prop :=
  ∃ funcs groups, d = .type (serviceHead i) (funcs ++ groups.flatten) ∧
    List.Forall₂ (fun m => HasBody (Lang.swift.hostName m.name) (CallBuffers m)) i.methods funcs ∧
    List.Forall₂
      (fun cb ts => ∃ j ds, c.callback? cb = some j ∧ ts = ds ++ [releaseTrampoline .swift cb] ∧
        List.Forall₂
          (fun m => HasBody (Naming.trampolineName cb m.name) (TrampolineBuffers m)) j.methods ds)
      i.callbackParams groups

def SwiftProxy (ctx : Context) (callback : String) (d : Member) : Prop :=
  ∃ j ds, ctx.catalog.callback? callback = some j ∧
    d = .type (proxyHead .swift callback)
      (ds ++ Lang.swift.proxyRelease (.stmt (releaseCall ctx callback))) ∧
    List.Forall₂ (fun m => HasBody (Lang.swift.hostName m.name) (CallBuffers m)) j.methods ds

theorem hasBody_hostFunc {m : Method} {modifiers : List Modifier} {body : List Stmt}
    {P : List Stmt → Prop} (h : P body) :
    HasBody (Lang.swift.hostName m.name) P
      (.func { hostFunc .swift m with modifiers, body := some (Lang.swift.block body) }) :=
  ⟨rfl, body, leaves_hostFunc modifiers body, h⟩

/-- Swift needs no native declarations: native functions are imported. -/
theorem serviceMembers_swift {proxies : List String} {funcs : List (Func × Option Func)}
    {taken : List (List Member)} {made : List (TypeDecl × List Func)}
    (hs : ServiceParts .swift ctx i proxies funcs taken made) :
    serviceMembers .swift ctx funcs taken made = funcs.map (.func ·.1) ++ taken.flatten := by
  have hnatives : funcs.filterMap (·.2) ++ made.flatMap (·.2) = [] := by
    refine List.eq_nil_iff_forall_not_mem.mpr fun fn hfn => ?_
    obtain ⟨_, _, _, _, h⟩ := (hs.native_of_mem hfn).declaration
    cases h
  unfold serviceMembers
  rw [hnatives, List.map_nil, List.append_nil]
  rfl

section Names

variable (hd : DistinctNames .swift ctx.catalog)

theorem swift_trampolines {ts : List Member} (h : trampolines .swift ctx callback = .ok ts) :
    ∃ j ds, ctx.catalog.callback? callback = some j ∧
      ts = ds ++ [releaseTrampoline .swift callback] ∧
      List.Forall₂ (fun m => HasBody (Naming.trampolineName callback m.name) (TrampolineBuffers m))
        j.methods ds := by
  obtain ⟨j, ms, hj, hms, rfl⟩ := trampolines_eq_ok.mp h
  refine ⟨j, ms, hj, rfl, hms.imp ?_⟩
  intro m d hok
  obtain ⟨p, body, hplan, hbody, rfl⟩ := methodTrampoline_eq_ok.mp hok
  exact ⟨trampoline_name .., body, leaves_trampoline .., trampolineBody_buffers hplan hbody⟩

include hd

theorem swift_service (hi : i ∈ ctx.catalog.interfaces) {proxies : List String}
    {funcs : List (Func × Option Func)} {taken : List (List Member)}
    {made : List (TypeDecl × List Func)}
    (hs : ServiceParts .swift ctx i proxies funcs taken made) :
    SwiftService ctx.catalog i
      (.type (serviceHead i) (serviceMembers .swift ctx funcs taken made)) := by
  refine ⟨funcs.map (.func ·.1), taken, by rw [serviceMembers_swift hs], ?_, ?_⟩
  · rw [List.forall₂_map_right_iff]
    -- the buffers of a method are told apart by the host names of its arguments
    have hnames := hd.arguments i hi
    apply ((List.forall₂_and_left _ _).mpr ⟨hnames, hs.methods⟩).imp
    rintro m r ⟨hm, hok⟩
    obtain ⟨p, body, hplan, hbody, rfl⟩ := serviceMethod_eq_ok.mp hok
    exact hasBody_hostFunc (nativeCallBody_buffers hm (List.nil_subset _) hplan hbody)
  · exact hs.taken.imp fun cb ts hok => swift_trampolines hok

theorem swift_proxy {r : TypeDecl × List Func} (h : proxy .swift ctx callback = .ok r) :
    SwiftProxy ctx callback r.1.member := by
  obtain ⟨j, fs, hj, hfs, rfl⟩ := proxy_eq_ok.mp h
  refine ⟨j, fs.map (.func ·.1), hj, rfl, ?_⟩
  rw [List.forall₂_map_right_iff]
  have hnames := hd.arguments j (Catalog.mem_callbacks.mp (Catalog.callback?_eq_some hj).1).1
  apply ((List.forall₂_and_left _ _).mpr ⟨hnames, hfs⟩).imp
  rintro m r ⟨hm, hok⟩
  obtain ⟨p, body, hplan, hbody, rfl⟩ := proxyFunc_eq_ok.mp hok
  exact hasBody_hostFunc (nativeCallBody_buffers hm (List.Subset.refl _) hplan hbody)

end Names

/-! ### Kotlin -/

section Kotlin

variable {p : CallPlan} {body : List Stmt}

theorem kotlin_argBlocks {slotLocal : ArgPlan → String} {args : List ArgPlan}
    {blocks : List (List Stmt)} (h : ArgBlocks .kotlin ctx slotLocal args blocks) :
    ∀ st ∈ blocks.flatten, st.isRaw = false := by
  refine forall_argBlocks (P := fun st => st.isRaw = false) h ?_
  intro q _ b hb
  cases hb
  exact Kotlin.isRaw_convert

theorem kotlin_finish {result : Crossing} {call : Expr} {raw cooked : String}
    (h : finish .kotlin ctx result call raw cooked = .ok body) (hcall : call.isRaw = false) :
    ∀ st ∈ body, st.isRaw = false := by
  refine forall_finish (P := fun st => st.isRaw = false) h ⟨hcall, hcall⟩ rfl ?_
  intro b hb
  cases hb
  exact Kotlin.isRaw_convert

theorem kotlin_nativeCallBody {symbol : Symbol} {leading : List String}
    (h : nativeCallBody .kotlin ctx p symbol leading = .ok body)
    (hcall : (nativeCallExpr ctx p symbol leading).isRaw = false) :
    ∀ st ∈ body, st.isRaw = false := by
  obtain ⟨blocks, rest, hblocks, hrest, rfl⟩ := nativeCallBody_eq_ok.mp h
  exact List.forall_mem_append.mpr ⟨kotlin_argBlocks hblocks, kotlin_finish hrest hcall⟩

theorem kotlin_trampolineBody (h : trampolineBody .kotlin ctx p callback = .ok body) :
    ∀ st ∈ body, st.isRaw = false := by
  obtain ⟨blocks, rest, hblocks, hrest, rfl⟩ := trampolineBody_eq_ok.mp h
  rw [List.forall_mem_cons, List.forall_mem_append]
  exact ⟨rfl, kotlin_argBlocks hblocks, kotlin_finish hrest rfl⟩

end Kotlin

/-! ### Files -/

section Swift

variable (hf : file c s = .ok f) (hd : DistinctNames s.lang c) (hl : s.lang = .swift)

include hd hl

theorem swift_hasService {proxies : List String} {funcs : List (Func × Option Func)}
    {taken : List (List Member)} {made : List (TypeDecl × List Func)}
    (hs : HasService c s i proxies funcs taken made) :
    SwiftService c i
      (.type (serviceHead i) (serviceMembers s.lang (.ofInterface c s i) funcs taken made)) := by
  have hparts := hs.parts
  have hi := (Catalog.mem_services.mp (mem_proxyClaims hs.claim).1).1
  rw [hl] at hd hparts ⊢
  exact swift_service hd hi hparts

theorem swift_hasProxy {r : TypeDecl × List Func}
    (h : proxy s.lang (.ofInterface c s i) callback = .ok r) :
    SwiftProxy (.ofInterface c s i) callback r.1.member := by
  rw [hl] at hd h
  exact swift_proxy hd h

include hf

/-- All code of a Swift file is that of services and proxies that keep to their buffers. -/
theorem swift_members {d : Member} (hmem : d ∈ f.members) :
    d = s.lang.registryType ∨ d.leaves = [] ∨ (∃ i ∈ c.services, SwiftService c i d) ∨
      ∃ i ∈ c.services, ∃ cb ∈ i.callbackReturns, SwiftProxy (.ofInterface c s i) cb d := by
  refine (leaves_members hf hmem).imp_right fun hcode => hcode.imp_right ?_
  rintro ⟨i, proxies, funcs, taken, made, hs, hcode⟩
  obtain ⟨hi, hproxies⟩ := mem_proxyClaims hs.claim
  rcases hcode with rfl | ⟨cb, hcb, r, hproxy, rfl⟩
  · exact Or.inl ⟨i, hi, swift_hasService hd hl hs⟩
  · exact Or.inr ⟨i, hi, cb, hproxies hcb, swift_hasProxy hd hl hproxy⟩

theorem exists_swiftService (hi : i ∈ c.services) : ∃ d ∈ f.members, SwiftService c i d := by
  obtain ⟨proxies, funcs, taken, made, hs⟩ := exists_hasService hf hi
  exact ⟨_, service_mem_members hf hs, swift_hasService hd hl hs⟩

/-- The proxy of a callback that is returned may stand with another service. -/
theorem exists_swiftProxy (hi : i ∈ c.services) (hcb : callback ∈ i.callbackReturns) :
    ∃ k ∈ c.services, ∃ d ∈ f.members, SwiftProxy (.ofInterface c s k) callback d := by
  obtain ⟨k, hk, r, hproxy, hmem⟩ := exists_returnedProxy hf hi hcb
  exact ⟨k, hk, _, hmem, swift_hasProxy hd hl hproxy⟩

end Swift

/-- No code of a Kotlin file deals with raw memory. -/
theorem kotlin_members (hf : file c s = .ok f) (hl : s.lang = .kotlin) {d : Member}
    (hmem : d ∈ f.members) : d = s.lang.registryType ∨ d.Runs fun st => st.isRaw = false := by
  refine runs_members hf hmem ?_ ?_
  · rintro i proxies funcs taken made hs rfl
    refine runs_service hs.parts (fun _ => rfl) ?_ ?_ fun _ _ => rfl
    · intro m _ p body _ hbody
      rw [hl] at hbody
      exact kotlin_nativeCallBody hbody rfl
    · intro cb _ j _ m _ p body _ hbody
      rw [hl] at hbody
      exact kotlin_trampolineBody hbody
  · rintro i proxies funcs taken made _ cb _ r hproxy rfl
    refine runs_proxy hproxy ?_ rfl
    intro j _ m _ p body _ hbody
    rw [hl] at hbody
    exact kotlin_nativeCallBody hbody rfl

/-- In every generated file native buffers have one owner. In Swift all code is that of services and
proxies, whose bodies release what they have to and nothing else; each service is there, and so is
the proxy of each callback that a service returns. In Kotlin no code deals with raw memory. The type
of registries aside, whose code is written out in lines. -/
theorem buffers_owned {a : Artifact} (h : artifact c s = .ok a) :
    ∃ f, file c s = .ok f ∧ Layout.renderFile s.lang s.indent f = .ok a.contents ∧
      (s.lang = .swift →
        (∀ d ∈ f.members, d = s.lang.registryType ∨ d.leaves = [] ∨
          (∃ i ∈ c.services, SwiftService c i d) ∨
          ∃ i ∈ c.services, ∃ cb ∈ i.callbackReturns, SwiftProxy (.ofInterface c s i) cb d) ∧
        (∀ i ∈ c.services, ∃ d ∈ f.members, SwiftService c i d) ∧
        ∀ i ∈ c.services, ∀ cb ∈ i.callbackReturns,
          ∃ k ∈ c.services, ∃ d ∈ f.members, SwiftProxy (.ofInterface c s k) cb d) ∧
      (s.lang = .kotlin →
        ∀ d ∈ f.members, d = s.lang.registryType ∨ d.Runs fun st => st.isRaw = false) := by
  obtain ⟨_, hd, f, hf, hcontents⟩ := artifact_eq_ok h
  refine ⟨f, hf, hcontents, fun hl => ⟨?_, ?_, ?_⟩, fun hl => ?_⟩
  · exact fun d hmem => swift_members hf hd hl hmem
  · exact fun i hi => exists_swiftService hf hd hl hi
  · exact fun i hi cb hcb => exists_swiftProxy hf hd hl hi hcb
  · exact fun d hmem => kotlin_members hf hl hmem

def storeService : Interface :=
  ⟨"Store", "lib", "lib", false,
    [⟨"swap", .vec (.numeric .byte), "Vec<u8>",
      [⟨"data", .vec (.numeric .byte), "Vec<u8>"⟩, ⟨"info", .single (.record "Info"), "Info"⟩]⟩,
     ⟨"watch", .callback "Watcher", "Box<dyn Watcher>",
      [⟨"watcher", .callback "Watcher", "Box<dyn Watcher>"⟩]⟩]⟩

def storeCatalog : Catalog where
  interfaces :=
    [⟨"Watcher", "lib", "lib", true,
      [⟨"rename", .single .string, "String", [⟨"old", .single .string, "String"⟩]⟩]⟩,
     storeService]
  records := [⟨"Info", "lib", "lib", [⟨"name", .single .string, "String"⟩]⟩]

theorem buffers_owned_store :
    ∃ a f members fn body, artifact storeCatalog (.forModule "Demo") = .ok a ∧
      file storeCatalog (.forModule "Demo") = .ok f ∧
      .type (serviceHead storeService) members ∈ f.members ∧ fn ∈ members ∧
      fn.leaves = body.map .stmt ∧ ReleasedOnce Bridge.releaseBytesSymbol "native_ret" body ∧
      (memoryOps body).filter (·.makes) = [.allocate "w_data_buf" "data"] := by
  have hs : (Settings.forModule "Demo").check = .ok () := by decide
  have hc : storeCatalog.check = .ok () := by decide
  have hn : catalogCollision? .swift storeCatalog = none := by decide
  obtain ⟨_, _, _, _, ha⟩ := artifact_of_checks hs hc hn
  obtain ⟨f, hf, _, hswift, _⟩ := buffers_owned ha
  have hi : storeService ∈ storeCatalog.services := by decide
  obtain ⟨_, hmem, funcs, groups, rfl, hfuncs, _⟩ := (hswift rfl).2.1 storeService hi
  cases hfuncs with
  | @cons _ fn _ _ hfn _ =>
    obtain ⟨_, body, hleaves, hbuffers⟩ := hfn
    exact ⟨_, f, _, fn, body, ha, hf, hmem, List.mem_cons_self, hleaves, hbuffers.bytes rfl,
      hbuffers.made⟩

end HostBindings.Generate
