import HostBindings.Proofs.Generate.Members
import HostBindings.Proofs.Generate.References

/-!
The models that the code of a Swift file makes. They are those of the callbacks that services take,
so what holds for the methods of these callbacks holds for the labels of all models, and only for
them.
-/

namespace HostBindings

open HostBindings.Code

def Code.Reference.OnModel (P : List String → Prop) : Reference → Prop
  | .model _ _ methods _ => P methods
  | _ => True

def LabelsApart (methods : List String) : Prop :=
  methods.Nodup ∧ ∀ m ∈ methods, m ≠ "free_callback" ∧ m ≠ "index"

/-- The arguments of a model have a label for each method and two more. -/
theorem Swift.modelArgs_nodup {owner callback handle : String} {methods : List String} :
    ((Swift.modelArgs owner callback methods handle).map (·.label)).Nodup ↔
      LabelsApart methods := by
  unfold LabelsApart
  have hlabels : (Swift.modelArgs owner callback methods handle).map (·.label) =
      (methods ++ ["free_callback", "index"]).map some := by
    simp [Swift.modelArgs]
  have hinj : Function.Injective (some : String → Option String) := fun _ _ => Option.some.inj
  have hfixed : ["free_callback", "index"].Nodup := by decide
  rw [hlabels, List.nodup_map_iff hinj, List.nodup_append']
  simp only [hfixed, true_and, List.disjoint_left, List.mem_cons, List.not_mem_nil, or_false,
    not_or, ne_eq]

namespace Generate

variable {lang : Lang} {ctx : Context} {m : Method} {p : CallPlan} {callback : String}
  {j : Interface}

/-- The call of a method that takes a callback makes a model of it. -/
theorem exists_model (hplan : Marshal.nativeCall Lang.swift.ownership m = .ok p) {symbol : Symbol}
    {leading : List String} {body : List Stmt}
    (hbody : nativeCallBody .swift ctx p symbol leading = .ok body) {slot : Slot}
    (hslot : slot ∈ m.params) (htype : slot.type = .callback callback)
    (hj : ctx.catalog.callback? callback = some j) :
    ∃ st ∈ body, ∃ handle,
      .model ctx.scope callback (j.methods.map (·.name)) handle ∈ st.references := by
  obtain ⟨blocks, rest, hblocks, _, rfl⟩ := nativeCallBody_eq_ok.mp hbody
  -- the argument is passed, planned as a registration, and converted in a block of its own
  have hpassed : slot ∈ m.passed := List.mem_filter.mpr ⟨hslot, by rw [htype]; rfl⟩
  obtain ⟨q, hq, rfl, hx⟩ := forall₂_exists_right (Marshal.planMethod_args hplan) hpassed
  have hconv : q.crossing.conversion = .registerCallback callback := by
    rw [Marshal.plan_conversion hx, htype]
    rfl
  obtain ⟨b, hb, hconvert⟩ := forall₂_exists_right hblocks hq
  -- the block binds a handle, and then the model made with it
  unfold Lang.convert Swift.convert at hconvert
  simp only [hconv, hj, Except.ok.injEq] at hconvert
  subst hconvert
  exact ⟨_, List.mem_append_left _ (List.mem_flatten.mpr
    ⟨_, hb, List.mem_cons_of_mem _ List.mem_cons_self⟩), wireLocal q ++ "_handle",
    List.mem_cons_self⟩

section File

variable {c : Catalog} {s : Settings} {f : SourceFile} {i : Interface}

def TakenCallbacks (c : Catalog) (P : List String → Prop) : Prop :=
  ∀ i ∈ c.services, ∀ callback ∈ i.callbackParams, ∀ j, c.callback? callback = some j →
    P (j.methods.map (·.name))

variable (hc : c.Valid) (hf : file c s = .ok f) {P : List String → Prop}

include hc hf

/-- A condition on the callbacks that services take holds for all models of the file. -/
theorem onModel_of_taken (hP : TakenCallbacks c P) {d : Member} (hd : d ∈ f.members) {st : Stmt}
    (hst : .stmt st ∈ d.leaves) : ∀ r ∈ st.references, r.OnModel P := by
  refine of_stmt_mem_leaves (P := fun st => ∀ r ∈ st.references, r.OnModel P)
    (runs_members hf hd ?_ ?_) hst
  · rintro i proxies funcs taken made hs rfl
    have hi := (mem_proxyClaims hs.claim).1
    refine runs_service hs.parts ?_ ?_ ?_ ?_
    · exact fun _ r hr => absurd hr List.not_mem_nil
    · intro m hm p body hplan hbody
      refine refersTo_nativeCallBody hplan hbody (fun _ _ _ => trivial) trivial ?_
        fun _ _ => trivial
      intro slot hslot cb ht
      have hcb : cb ∈ i.callbackParams := Interface.mem_callbackParams.mpr
        ⟨m, hm, slot, hslot, BoundaryType.callbackName?_eq_some.mpr ht⟩
      exact ⟨trivial, fun j handle hj => hP i hi cb hcb j hj⟩
    · intro cb _ j hj m hm p body hplan hbody
      exact refersTo_trampolineBody hplan hbody
        (hc.callback_flat j (Catalog.callback?_eq_some hj).1 m hm) (fun _ _ _ => trivial) trivial
    · intro cb _ r hr
      rw [List.mem_singleton.mp hr]
      trivial
  · rintro i proxies funcs taken made hs cb hcb r hproxy rfl
    refine runs_proxy hproxy ?_ ?_
    · intro j hj m hm p body hplan hbody
      -- methods of a proxy take no callbacks
      refine refersTo_nativeCallBody hplan hbody (fun _ _ _ => trivial) trivial ?_
        fun _ _ => trivial
      intro slot hslot cb ht
      have hflat := hc.callback_flat j (Catalog.callback?_eq_some hj).1 m hm _
        (Method.mem_types_of_mem_params hslot)
      rw [ht] at hflat
      cases hflat
    · intro r hr
      rw [List.mem_singleton.mp hr]
      trivial

omit hc in
/-- In Swift each callback that a service takes has a model in the file. -/
theorem taken_of_onModel (hl : s.lang = .swift)
    (h : ∀ d ∈ f.members, ∀ st, .stmt st ∈ d.leaves → ∀ r ∈ st.references, r.OnModel P) :
    TakenCallbacks c P := by
  intro i hi callback hcb j hj
  obtain ⟨m, hm, slot, hslot, htype⟩ := Interface.mem_callbackParams.mp hcb
  obtain ⟨proxies, funcs, taken, made, hs⟩ := exists_hasService hf hi
  obtain ⟨r, hr, hok⟩ := forall₂_exists_right hs.parts.methods hm
  obtain ⟨p, body, hplan, hbody, rfl⟩ := serviceMethod_eq_ok.mp hok
  rw [hl] at hplan hbody
  obtain ⟨st, hst, handle, href⟩ :=
    exists_model hplan hbody hslot (BoundaryType.callbackName?_eq_some.mp htype) hj
  refine h _ (service_mem_members hf hs) st ?_ _ href
  -- the statement stands in the function of the method
  rw [Member.mem_leaves_type]
  refine ⟨_, mem_serviceMembers_of_method hr, ?_⟩
  rw [leaves_hostFunc]
  exact List.mem_map_of_mem hst

end File

end Generate

end HostBindings
