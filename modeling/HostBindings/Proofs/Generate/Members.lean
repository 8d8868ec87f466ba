import HostBindings.Proofs.Generate.Inventory

/-!
The code of generated members. All code of a service or of a proxy consists of statements: those
of bodies, and single ones that load libraries and release callbacks. A condition that these
satisfy holds in every member.
-/

namespace HostBindings.Generate

open HostBindings.Code

variable {lang : Lang} {ctx : Context} {m : Method} {i : Interface} {callback : String}
  {P : Stmt → Prop}

/-! ### Single members -/

/-- The code of a host method is its body. -/
theorem leaves_hostFunc (modifiers : List Modifier) (body : List Stmt) :
    (Member.func { hostFunc lang m with modifiers, body := some (lang.block body) }).leaves =
      body.map .stmt :=
  Block.leaves_block lang body

theorem leaves_trampoline (name : String) (params : List Param) (returns : Option TypeRef)
    (body : List Stmt) :
    (lang.trampoline name params returns (lang.block body)).leaves = body.map .stmt := by
  rw [← Block.leaves_block lang]
  cases lang <;> rfl

theorem trampoline_name (name : String) (params : List Param) (returns : Option TypeRef)
    (body : Block) : (lang.trampoline name params returns body).name = name := by
  cases lang <;> rfl

/-- A native declaration has no code. -/
theorem runs_nativeDeclaration {name : String} {visibility : Modifier} {params : List Param}
    {returns : Option TypeRef} {fn : Func}
    (h : lang.nativeDeclaration? name visibility params returns = some fn) :
    (Member.func fn).Runs P := by
  cases lang with
  | swift => cases h
  | kotlin =>
    cases h
    exact Member.runs_nil rfl

theorem runs_loader {fn : Func} (h : lang.loader? ctx = some fn)
    (hload : ∀ library, P (.loadLibrary library)) : (Member.func fn).Runs P := by
  cases lang with
  | swift => cases h
  | kotlin =>
    cases h
    -- the statements stand in the block that runs on loading
    have hleaves : (Member.func (Kotlin.loader ctx)).leaves =
        ((ctx.settings.mainLibrary ctx.package :: ctx.settings.furtherLibraries).map
          Stmt.loadLibrary).map .stmt := by
      rw [← Item.leavesOfList_stmts, List.map_map]
      rfl
    apply Member.runs_stmts hleaves
    intro st hst
    obtain ⟨library, _, rfl⟩ := List.mem_map.mp hst
    exact hload library

theorem runs_proxyRelease {st : Stmt} (h : P st) :
    ∀ d ∈ lang.proxyRelease (.stmt st), d.Runs P := by
  have hst : ∀ st' ∈ [st], P st' := List.forall_mem_singleton.mpr h
  intro d hd
  cases lang with
  | swift =>
    rw [List.mem_singleton.mp hd]
    exact Member.runs_stmts rfl hst
  | kotlin =>
    rcases List.mem_cons.mp hd with rfl | hd
    · exact Member.runs_nil rfl
    · rw [List.mem_singleton.mp hd]
      exact Member.runs_stmts rfl hst

/-! ### Types -/

theorem runs_trampolineMember {j : Interface} {d : Member}
    (h : TrampolineMember lang ctx callback j d)
    (hmethod : ∀ m ∈ j.methods, ∀ p body, Marshal.trampoline lang.ownership m = .ok p →
      trampolineBody lang ctx p callback = .ok body → ∀ st ∈ body, P st)
    (hremove : P (.run (.remove callback callbackHandle))) : d.Runs P := by
  cases h with
  | method hm hplan hbody =>
    exact Member.runs_stmts (leaves_trampoline ..) (hmethod _ hm _ _ hplan hbody)
  | release =>
    exact Member.runs_stmts (leaves_trampoline ..) (List.forall_mem_singleton.mpr hremove)

/-- The code of a proxy is that of its methods and the call that releases. -/
theorem runs_proxy {r : TypeDecl × List Func} (h : proxy lang ctx callback = .ok r)
    (hmethod : ∀ j, ctx.catalog.callback? callback = some j → ∀ m ∈ j.methods, ∀ p body,
      Marshal.nativeCall lang.ownership m = .ok p →
      nativeCallBody lang ctx p (.callbackMethod callback m.name) [nativeHandle] = .ok body →
        ∀ st ∈ body, P st)
    (hrelease : P (releaseCall ctx callback)) : r.1.member.Runs P := by
  obtain ⟨j, members, hj, hr, hmembers, _⟩ := proxy_cases h
  rw [hr]
  apply Member.runs_type.mpr
  intro d hd
  cases hmembers d hd with
  | method hm hplan hbody =>
    exact Member.runs_stmts (leaves_hostFunc ..) (hmethod j hj _ hm _ _ hplan hbody)
  | release hd => exact runs_proxyRelease hrelease d hd

/-- The code of a service is that of its methods and trampolines, and loads libraries. -/
theorem runs_service {proxies : List String} {funcs : List (Func × Option Func)}
    {taken : List (List Member)} {made : List (TypeDecl × List Func)}
    (hs : ServiceParts lang ctx i proxies funcs taken made)
    (hload : ∀ library, P (.loadLibrary library))
    (hmethod : ∀ m ∈ i.methods, ∀ p body, Marshal.nativeCall lang.ownership m = .ok p →
      nativeCallBody lang ctx p (.method m.name) [] = .ok body → ∀ st ∈ body, P st)
    (htrampoline : ∀ cb ∈ i.callbackParams, ∀ j, ctx.catalog.callback? cb = some j →
      ∀ m ∈ j.methods, ∀ p body, Marshal.trampoline lang.ownership m = .ok p →
        trampolineBody lang ctx p cb = .ok body → ∀ st ∈ body, P st)
    (hremove : ∀ cb ∈ i.callbackParams, P (.run (.remove cb callbackHandle))) :
    (Member.type (serviceHead i) (serviceMembers lang ctx funcs taken made)).Runs P := by
  apply Member.runs_type.mpr
  intro d hd
  cases hs.member_of_mem hd with
  | loader h => exact runs_loader h hload
  | method hm hplan hbody =>
    exact Member.runs_stmts (leaves_hostFunc ..) (hmethod _ hm _ _ hplan hbody)
  | trampoline hcb hj h =>
    exact runs_trampolineMember h (htrampoline _ hcb _ hj) (hremove _ hcb)
  | native h =>
    -- native functions are only declared
    obtain ⟨_, _, _, _, h⟩ := h.declaration
    exact runs_nativeDeclaration h

/-! ### Files -/

section File

variable {c : Catalog} {s : Settings} {f : SourceFile} {d : Member}

theorem leaves_registries (h : d ∈ registries s.lang c) :
    d = s.lang.registryType ∨ d.leaves = [] := by
  obtain ⟨_, rfl | ⟨i, _, rfl⟩⟩ := mem_registries.mp h
  · exact Or.inl rfl
  · right
    cases s.lang <;> rfl

/-- The code of registries is written out in lines. -/
theorem stmt_notMem_registryType (lang : Lang) (st : Stmt) :
    .stmt st ∉ lang.registryType.leaves := by
  have hlines : (lang.registryType.leaves.all fun item => item matches .line _) = true := by
    cases lang <;> rfl
  intro hst
  cases List.all_eq_true.mp hlines _ hst

/-- What holds for all code outside of registries holds for each statement. -/
theorem of_stmt_mem_leaves {st : Stmt} (h : d = lang.registryType ∨ d.Runs P)
    (hst : .stmt st ∈ d.leaves) : P st := by
  rcases h with rfl | hruns
  · exact absurd hst (stmt_notMem_registryType lang st)
  · obtain ⟨_, heq, h⟩ := hruns _ hst
    cases heq
    exact h

theorem leaves_callbackType (i : Interface) : (callbackType lang i).member.leaves = [] := by
  apply Member.leaves_eq_nil
  apply Member.runs_type.mpr
  intro d hd
  obtain ⟨m, _, rfl⟩ := List.mem_map.mp hd
  exact Member.runs_nil rfl

variable (h : file c s = .ok f) (hd : d ∈ f.members)

include h hd

/-- The declarations of a file that have code are services and proxies, besides the type of
registries, which is written out in lines. -/
theorem leaves_members :
    d = s.lang.registryType ∨ d.leaves = [] ∨
      ∃ i proxies funcs taken made, HasService c s i proxies funcs taken made ∧
        (d = .type (serviceHead i)
            (serviceMembers s.lang (.ofInterface c s i) funcs taken made) ∨
          ∃ cb ∈ proxies, ∃ r, proxy s.lang (.ofInterface c s i) cb = .ok r ∧ d = r.1.member) := by
  rcases (mem_members h).mp hd with hd | ⟨r, _, rfl⟩ | ⟨i, _, rfl⟩ |
    ⟨i, proxies, funcs, taken, made, hs, hd | ⟨r, hr, hd⟩⟩
  · exact (leaves_registries hd).imp_right Or.inl
  · exact Or.inr (Or.inl rfl)
  · exact Or.inr (Or.inl (leaves_callbackType i))
  · exact Or.inr (Or.inr ⟨i, proxies, funcs, taken, made, hs, Or.inl hd⟩)
  · obtain ⟨cb, hcb, hok⟩ := forall₂_exists_left hs.parts.made hr
    exact Or.inr (Or.inr ⟨i, proxies, funcs, taken, made, hs, Or.inr ⟨cb, hcb, r, hok, hd⟩⟩)

/-- What holds for the code of services and proxies holds for all code of a file. -/
theorem runs_members
    (hservice : ∀ i proxies funcs taken made, HasService c s i proxies funcs taken made →
      d = .type (serviceHead i) (serviceMembers s.lang (.ofInterface c s i) funcs taken made) →
        d.Runs P)
    (hproxy : ∀ i proxies funcs taken made, HasService c s i proxies funcs taken made →
      ∀ cb ∈ proxies, ∀ r, proxy s.lang (.ofInterface c s i) cb = .ok r → d = r.1.member →
        d.Runs P) :
    d = s.lang.registryType ∨ d.Runs P := by
  rcases leaves_members h hd with hd | hd | ⟨i, proxies, funcs, taken, made, hs, hd⟩
  · exact Or.inl hd
  · exact Or.inr (Member.runs_nil hd)
  · rcases hd with hd | ⟨cb, hcb, r, hok, hd⟩
    · exact Or.inr (hservice i proxies funcs taken made hs hd)
    · exact Or.inr (hproxy i proxies funcs taken made hs cb hcb r hok hd)

end File

end HostBindings.Generate
