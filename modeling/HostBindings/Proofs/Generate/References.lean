import HostBindings.Proofs.Generate.Body

/-!
Generated names in the bodies of generated functions. Each statement is about any condition `D` on
references, and says which references have to satisfy it.
-/

namespace HostBindings.Generate

open HostBindings.Code

variable {lang : Lang} {ctx : Context} {x : Crossing} {input output : String} {b : List Stmt}
  {p : CallPlan} {m : Method} {D : Reference → Prop}

/-- The conversions of planned values refer to declared names if those of callbacks do. -/
theorem refersTo_convert {o : Ownership} {t : BoundaryType} {pos : Position}
    (hplan : Marshal.plan o t pos = .ok x) (h : lang.convert ctx x input output = .ok b)
    (hswift : lang = .swift → ∀ symbol n, D (.native ctx.scope symbol n))
    (hentry : ∀ cb, t = .callback cb → pos.direction = .entry → D (.registry cb) ∧
      ∀ j handle, ctx.catalog.callback? cb = some j →
        D (.model ctx.scope cb (j.methods.map (·.name)) handle))
    (hexit : ∀ cb, t = .callback cb → pos.direction = .exit → D (.proxy cb)) :
    RefersTo D b := by
  intro st hst r hr
  have hconv := Marshal.plan_conversion hplan
  -- callbacks are registered on the way in and wrapped on the way out
  cases references_convert h st hst r hr with
  | registry hk =>
    obtain ⟨ht, hd⟩ := Marshal.conversion_eq_registerCallback.mp (hconv ▸ hk)
    exact (hentry _ ht hd).1
  | model handle hk hj =>
    obtain ⟨ht, hd⟩ := Marshal.conversion_eq_registerCallback.mp (hconv ▸ hk)
    exact (hentry _ ht hd).2 _ handle hj
  | proxy hk =>
    obtain ⟨ht, hd⟩ := Marshal.conversion_eq_wrapProxy.mp (hconv ▸ hk)
    exact hexit _ ht hd
  | release hl symbol => exact hswift hl symbol 1

/-- A body that calls native code refers to declared names if its call, the callbacks that it
registers and the proxy that it returns are declared. -/
theorem refersTo_nativeCallBody {symbol : Symbol} {leading : List String} {body : List Stmt}
    (hplan : Marshal.nativeCall lang.ownership m = .ok p)
    (hbody : nativeCallBody lang ctx p symbol leading = .ok body)
    (hswift : lang = .swift → ∀ symbol n, D (.native ctx.scope symbol n))
    (hcall : D (.native ctx.scope symbol (leading.length + m.passed.length)))
    (hentry : ∀ s ∈ m.params, ∀ cb, s.type = .callback cb → D (.registry cb) ∧
      ∀ j handle, ctx.catalog.callback? cb = some j →
        D (.model ctx.scope cb (j.methods.map (·.name)) handle))
    (hexit : ∀ cb, m.returns = .callback cb → D (.proxy cb)) :
    RefersTo D body := by
  -- a body refers to what its conversions refer to, and to what it calls
  obtain ⟨blocks, rest, hblocks, hrest, rfl⟩ := nativeCallBody_eq_ok.mp hbody
  have hargs : RefersTo D blocks.flatten := by
    refine forall_argBlocks (P := fun st => ∀ r ∈ st.references, D r) hblocks ?_
    intro q hq b hb
    obtain ⟨hs, hq⟩ := Marshal.planMethod_arg hplan hq
    apply refersTo_convert hq hb hswift
    · exact fun cb ht _ => hentry _ (Method.mem_params_of_mem_passed hs) cb ht
    · intro cb _ hd
      cases hd
  have hend : RefersTo D rest := by
    have hnative : ∀ r ∈ (nativeCallExpr ctx p symbol leading).references, D r := by
      intro r hr
      have hlen : p.args.length = m.passed.length := by
        rw [← Marshal.planMethod_slots hplan, List.length_map]
      rw [nativeCallExpr, Expr.references, List.mem_singleton, List.length_append,
        List.length_map, hlen] at hr
      rw [hr]
      exact hcall
    refine forall_finish (P := fun st => ∀ r ∈ st.references, D r) hrest ⟨hnative, hnative⟩ ?_ ?_
    · exact fun r hr => absurd hr List.not_mem_nil
    · intro b hb
      refine refersTo_convert (Marshal.planMethod_result hplan) hb hswift ?_ ?_
      · intro cb _ hd
        cases hd
      · exact fun cb ht _ => hexit cb ht
  exact refersTo_append.mpr ⟨hargs, hend⟩

/-- A body that invokes a callback without passing further callbacks refers to its registry. -/
theorem refersTo_trampolineBody {callback : String} {body : List Stmt}
    (hplan : Marshal.trampoline lang.ownership m = .ok p)
    (hbody : trampolineBody lang ctx p callback = .ok body)
    (hflat : ∀ t ∈ m.types, t.callbackName? = none)
    (hswift : lang = .swift → ∀ symbol n, D (.native ctx.scope symbol n))
    (hregistry : D (.registry callback)) : RefersTo D body := by
  obtain ⟨blocks, rest, hblocks, hrest, rfl⟩ := trampolineBody_eq_ok.mp hbody
  -- no type of the method is a callback, so conversions refer to nothing
  have hvalue : ∀ t ∈ m.types, ∀ pos x input output b,
      Marshal.plan lang.ownership t pos = .ok x → lang.convert ctx x input output = .ok b →
        RefersTo D b := by
    intro t ht pos x input output b hx hb
    refine refersTo_convert hx hb hswift ?_ ?_
    · intro cb hcb
      rw [hcb] at ht
      cases hflat _ ht
    · intro cb hcb
      rw [hcb] at ht
      cases hflat _ ht
  have hargs : RefersTo D blocks.flatten := by
    refine forall_argBlocks (P := fun st => ∀ r ∈ st.references, D r) hblocks ?_
    intro q hq b hb
    obtain ⟨hs, hq⟩ := Marshal.planMethod_arg hplan hq
    exact hvalue _ (Method.mem_types_of_mem_passed hs) _ _ _ _ b
      hq hb
  have hend : RefersTo D rest := by
    have hnone : ∀ r ∈ (invokeExpr lang p).references, D r :=
      fun r hr => absurd hr List.not_mem_nil
    refine forall_finish (P := fun st => ∀ r ∈ st.references, D r) hrest ⟨hnone, hnone⟩ ?_ ?_
    · exact fun r hr => absurd hr List.not_mem_nil
    · exact fun b hb => hvalue _ m.returns_mem_types _ _ _ _ b
        (Marshal.planMethod_result hplan) hb
  have hstart : ∀ r ∈ (lookupStmt callback).references, D r := by
    intro r hr
    rw [List.mem_singleton.mp hr]
    exact hregistry
  exact refersTo_cons.mpr ⟨hstart, refersTo_append.mpr ⟨hargs, hend⟩⟩

end HostBindings.Generate
