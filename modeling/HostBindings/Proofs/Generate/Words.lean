import HostBindings.Proofs.Generate.Body
import HostBindings.Proofs.Target.Brackets

/-!
The words that descriptions put into generated code. If the names of a method and of its place have
no brackets, then no word of the bodies generated for it has any.
-/

namespace HostBindings

open HostBindings.Code HostBindings.Text

/-! ### Words of descriptions -/

def Slot.words (slot : Slot) : List String :=
  slot.name :: slot.type.words

def Method.words (m : Method) : List String :=
  m.name :: (m.params.flatMap Slot.words ++ m.returns.words)

def Interface.words (i : Interface) : List String :=
  [i.name, i.module, i.package] ++ i.methods.flatMap Method.words

def Record.words (r : Record) : List String :=
  [r.name, r.module, r.package] ++ r.fields.flatMap Slot.words

def Catalog.words (c : Catalog) : List String :=
  c.interfaces.flatMap Interface.words ++ c.records.flatMap Record.words

def Settings.words (s : Settings) : List String :=
  s.moduleName :: (s.header.toList ++ s.libraryName.toList ++ s.extraLibraries)

def Crossing.words (x : Crossing) : List String :=
  x.type.words ++
    (match x.conversion with
      | .registerCallback callback => [callback]
      | .wrapProxy callback => [callback]
      | _ => []) ++
    match x.wire with
    | .model callback => [callback]
    | _ => []

theorem Method.words_subset_of_passed {m : Method} {slot : Slot} (h : slot ∈ m.passed) :
    slot.words ⊆ m.words :=
  fun _ hw => List.mem_cons_of_mem _ (List.mem_append_left _
    (List.mem_flatMap_of_mem (Method.mem_params_of_mem_passed h) hw))

theorem Method.returns_words_subset (m : Method) : m.returns.words ⊆ m.words :=
  fun _ hw => List.mem_cons_of_mem _ (List.mem_append_right _ hw)

namespace Marshal

variable {o : Ownership} {t : BoundaryType} {pos : Position} {x : Crossing}

/-- A value that crosses refers to what its type names. -/
theorem plan_words (h : plan o t pos = .ok x) : x.words ⊆ t.words := by
  have hcallback : ∀ name, t = .callback name → name ∈ t.words := by
    rintro name rfl
    exact List.mem_cons_self
  obtain ⟨wire, hwire, rfl⟩ := plan_eq_ok.mp h
  unfold Crossing.words
  refine List.append_subset.mpr ⟨List.append_subset.mpr ⟨List.Subset.refl _, ?_⟩, ?_⟩
  · dsimp only
    split
    · rename_i callback hconv
      rw [List.cons_subset]
      exact ⟨hcallback callback (conversion_eq_registerCallback.mp hconv).1, List.nil_subset _⟩
    · rename_i callback hconv
      rw [List.cons_subset]
      exact ⟨hcallback callback (conversion_eq_wrapProxy.mp hconv).1, List.nil_subset _⟩
    · exact List.nil_subset _
  · dsimp only
    split
    · rename_i callback
      rw [List.cons_subset]
      exact ⟨hcallback callback (wireType_eq_model hwire), List.nil_subset _⟩
    · exact List.nil_subset _

variable {a r : Position} {m : Method} {p : CallPlan}

theorem planMethod_arg_words (h : planMethod o a r m = .ok p) {q : ArgPlan} (hq : q ∈ p.args) :
    q.slot.name ∈ m.words ∧ q.crossing.words ⊆ m.words := by
  obtain ⟨hslot, hplan⟩ := planMethod_arg h hq
  have hsub := Method.words_subset_of_passed hslot
  exact ⟨hsub List.mem_cons_self,
    fun w hw => hsub (List.mem_cons_of_mem _ (plan_words hplan hw))⟩

theorem planMethod_result_words (h : planMethod o a r m = .ok p) : p.result.words ⊆ m.words :=
  fun _ hw => m.returns_words_subset (plan_words (planMethod_result h) hw)

end Marshal

def Context.words (ctx : Context) : List String :=
  [ctx.settings.moduleName, ctx.module, ctx.owner] ++ ctx.catalog.callbacks.flatMap Interface.words

namespace Context

variable {ctx : Context} (hctx : ∀ w ∈ ctx.words, BracketFree w)

include hctx

theorem bracketFree_module : BracketFree ctx.module :=
  hctx _ (by simp [words])

theorem bracketFree_owner : BracketFree ctx.owner :=
  hctx _ (by simp [words])

theorem bracketFree_methods {callback : String} {j : Interface}
    (hj : ctx.catalog.callback? callback = some j) : ∀ m ∈ j.methods, BracketFree m.name :=
  fun _ hm => hctx _ (List.mem_append_right _
    (List.mem_flatMap_of_mem (Catalog.callback?_eq_some hj).1
      (List.mem_append_right _ (List.mem_flatMap_of_mem hm List.mem_cons_self))))

end Context

section Place

variable {lang : Lang} {ctx : Context} {x : Crossing}

/-! ### Types and conversions -/

theorem wellBracketed_wireType (hctx : ∀ w ∈ ctx.words, BracketFree w)
    (hx : ∀ w ∈ x.words, BracketFree w) : ∀ t ∈ lang.wireType ctx x, t.WellBracketed := by
  have hmodule : BracketFree ctx.settings.moduleName := hctx _ (by simp [Context.words])
  have hhandle : lang.handleType.WellBracketed := Lang.wellBracketed_handleType
  intro t ht
  cases lang with
  | swift =>
    change Swift.wireType ctx x = some t at ht
    unfold Swift.wireType at ht
    split at ht <;> cases ht
    · exact .plain (Swift.bracketFree_numericName _)
    · exact hhandle
    · -- a pointer to characters
      refine .optional (.named ?_ (List.forall_mem_singleton.mpr (.plain (by decide))) nofun)
      cases x.position <;> decide
    · exact .imported (by decide) hmodule
    · rename_i callback hwire
      have hcallback : BracketFree callback := hx _ (by simp [Crossing.words, hwire])
      have hplace := Context.bracketFree_module hctx
      refine .imported ?_ hmodule
      simp only [Swift.modelName, BracketFree, brackets_append, hplace, hcallback]
      decide
  | kotlin =>
    change Kotlin.wireType x = some t at ht
    unfold Kotlin.wireType at ht
    split at ht <;> cases ht
    · exact .plain (Kotlin.bracketFree_numericName _)
    · exact hhandle
    · exact hhandle
    · exact .plain (by decide)
    · exact .plain (by decide)

theorem Swift.words_owned (e : Expr) : (Swift.owned x e).words = e.words := by
  unfold Swift.owned
  split <;> rfl

theorem Swift.bracketFree_release {symbol : Symbol} {y : String}
    (hctx : ∀ w ∈ ctx.words, BracketFree w) (hsymbol : symbol.words = []) (hy : BracketFree y) :
    ∀ st ∈ Swift.release ctx x symbol y, ∀ w ∈ st.words, BracketFree w := by
  have hmodule := Context.bracketFree_module hctx
  have howner := Context.bracketFree_owner hctx
  unfold Swift.release
  split
  · simp [Stmt.words, Expr.words, hsymbol, BracketFree, hy, Context.scope, hmodule, howner]
  · exact List.forall_mem_nil _

section Conversion

variable {input output : String} {b : List Stmt} (hctx : ∀ w ∈ ctx.words, BracketFree w)
  (hx : ∀ w ∈ x.words, BracketFree w)

include hx

theorem bracketFree_type : ∀ w ∈ x.type.words, BracketFree w :=
  fun w hw => hx w (List.mem_append_left _ (List.mem_append_left _ hw))

theorem bracketFree_registered {callback : String}
    (hk : x.conversion = .registerCallback callback) : BracketFree callback :=
  hx _ (by simp [Crossing.words, hk])

theorem bracketFree_wrapped {callback : String} (hk : x.conversion = .wrapProxy callback) :
    BracketFree callback :=
  hx _ (by simp [Crossing.words, hk])

variable (hinput : BracketFree input) (houtput : BracketFree output)

include hinput houtput

theorem Kotlin.bracketFree_convert (h : Kotlin.convert x input output = b) :
    ∀ st ∈ b, ∀ w ∈ st.words, BracketFree w := by
  cases Kotlin.convert_cases h with
  | jsonDecode hk =>
    simpa [Stmt.words, Expr.words, BracketFree, hinput, houtput] using bracketFree_type hx
  | registerCallback hk =>
    simp [Stmt.words, Expr.words, BracketFree, hinput, houtput, bracketFree_registered hx hk]
  | wrapProxy hk =>
    simp [Stmt.words, Expr.words, BracketFree, hinput, houtput, bracketFree_wrapped hx hk]
  | _ => simp [Stmt.words, Expr.words, BracketFree, hinput, houtput]

include hctx

theorem Swift.bracketFree_convert (h : Swift.convert ctx x input output = .ok b) :
    ∀ st ∈ b, ∀ w ∈ st.words, BracketFree w := by
  have hjson : BracketFree (output ++ "_json") := houtput.append (by decide)
  have hbuffer : BracketFree (output ++ "_buf") := houtput.append (by decide)
  have hhandle : BracketFree (output ++ "_handle") := houtput.append (by decide)
  cases Swift.convert_cases h with
  | jsonDecode hk =>
    rw [List.forall_mem_append, List.forall_mem_append]
    refine ⟨⟨?_, Swift.bracketFree_release hctx rfl hinput⟩, ?_⟩
    · simp [Stmt.words, Expr.words, BracketFree, hinput, hjson]
    · simpa [Stmt.words, Expr.words, BracketFree, hjson, houtput] using bracketFree_type hx
  | copyString hk | wireToBytes hk =>
    rw [List.forall_mem_append]
    refine ⟨?_, Swift.bracketFree_release hctx rfl hinput⟩
    simp [Stmt.words, Expr.words, BracketFree, hinput, houtput]
  | registerCallback hk hj =>
    -- the model names the place and the methods of the interface
    simpa [Stmt.words, Expr.words, BracketFree, hinput, houtput, hhandle,
      bracketFree_registered hx hk, Context.scope, Context.bracketFree_module hctx,
      Context.bracketFree_owner hctx] using Context.bracketFree_methods hctx hj
  | wrapProxy hk =>
    simp [Stmt.words, Expr.words, BracketFree, hinput, houtput, bracketFree_wrapped hx hk]
  | _ =>
    simp [Stmt.words, Expr.words, BracketFree, hinput, houtput, hbuffer, Swift.words_owned]

end Conversion

/-- The words of a conversion are those of its place, of its type and of its ends. -/
theorem bracketFree_convert {input output : String} {b : List Stmt}
    (hctx : ∀ w ∈ ctx.words, BracketFree w) (hx : ∀ w ∈ x.words, BracketFree w)
    (hinput : BracketFree input) (houtput : BracketFree output)
    (h : lang.convert ctx x input output = .ok b) : ∀ st ∈ b, ∀ w ∈ st.words, BracketFree w := by
  cases lang with
  | kotlin => exact Kotlin.bracketFree_convert hx hinput houtput (Except.ok.inj h)
  | swift => exact Swift.bracketFree_convert hctx hx hinput houtput h

/-! ### Bodies -/

section Bodies

variable {a r : Position} {m : Method} {p : CallPlan} (hctx : ∀ w ∈ ctx.words, BracketFree w)
  (hm : ∀ w ∈ m.words, BracketFree w)
  (hplan : Marshal.planMethod lang.ownership a r m = .ok p)

include hm hplan

theorem bracketFree_argLocal (side : String) (hside : BracketFree side) :
    ∀ q ∈ p.args, BracketFree (Generate.argLocal side q.slot.name) := by
  intro q hq
  have hname := Naming.bracketFree_camelCase (hm _ (Marshal.planMethod_arg_words hplan hq).1)
  simp only [Generate.argLocal, BracketFree, brackets_append, hside, hname]
  decide

include hctx

theorem bracketFree_argBlocks {side : String} (hside : BracketFree side) {blocks : List (List Stmt)}
    (h : Generate.ArgBlocks lang ctx (fun q => Generate.argLocal side q.slot.name) p.args blocks) :
    ∀ st ∈ blocks.flatten, ∀ w ∈ st.words, BracketFree w := by
  refine Generate.forall_argBlocks h fun q hq b hb => ?_
  obtain ⟨hname, hwords⟩ := Marshal.planMethod_arg_words hplan hq
  exact bracketFree_convert hctx (fun w hw => hm w (hwords hw))
    (bracketFree_hostName lang (hm _ hname)) (bracketFree_argLocal hm hplan side hside q hq) hb

theorem bracketFree_finish {call : Expr} {raw cooked : String} {rest : List Stmt}
    (hcall : ∀ w ∈ call.words, BracketFree w) (hraw : BracketFree raw)
    (hcooked : BracketFree cooked)
    (h : Generate.finish lang ctx p.result call raw cooked = .ok rest) :
    ∀ st ∈ rest, ∀ w ∈ st.words, BracketFree w := by
  refine Generate.forall_finish h ⟨hcall, ?_⟩ (List.forall_mem_singleton.mpr hcooked) fun b hb => ?_
  · exact List.forall_mem_cons.mpr ⟨hraw, hcall⟩
  · have hresult := Marshal.planMethod_result_words hplan
    exact bracketFree_convert hctx (fun w hw => hm w (hresult hw)) hraw hcooked hb

theorem bracketFree_nativeCallBody {symbol : Symbol} {leading : List String} {body : List Stmt}
    (hsymbol : ∀ w ∈ symbol.words, BracketFree w) (hleading : ∀ n ∈ leading, BracketFree n)
    (h : Generate.nativeCallBody lang ctx p symbol leading = .ok body) :
    ∀ st ∈ body, ∀ w ∈ st.words, BracketFree w := by
  obtain ⟨blocks, rest, hblocks, hrest, rfl⟩ := Generate.nativeCallBody_eq_ok.mp h
  have hmodule := Context.bracketFree_module hctx
  have howner := Context.bracketFree_owner hctx
  have hlocals := bracketFree_argLocal hm hplan "w" (by decide)
  have hcall : ∀ w ∈ (Generate.nativeCallExpr ctx p symbol leading).words, BracketFree w := by
    simp only [Generate.nativeCallExpr, Expr.words, List.forall_mem_append, List.forall_mem_map]
    refine ⟨⟨?_, hsymbol⟩, hleading, hlocals⟩
    exact List.forall_mem_cons.mpr ⟨hmodule, List.forall_mem_singleton.mpr howner⟩
  rw [List.forall_mem_append]
  exact ⟨bracketFree_argBlocks hctx hm hplan (by decide) hblocks,
    bracketFree_finish hctx hm hplan hcall (by decide) (by decide) hrest⟩

theorem bracketFree_trampolineBody {callback : String} {body : List Stmt}
    (hcallback : BracketFree callback)
    (h : Generate.trampolineBody lang ctx p callback = .ok body) :
    ∀ st ∈ body, ∀ w ∈ st.words, BracketFree w := by
  obtain ⟨blocks, rest, hblocks, hrest, rfl⟩ := Generate.trampolineBody_eq_ok.mp h
  have hlocals := bracketFree_argLocal hm hplan "h" (by decide)
  have hcall : ∀ w ∈ (Generate.invokeExpr lang p).words, BracketFree w := by
    simp only [Generate.invokeExpr, Expr.words, List.forall_mem_append, List.forall_mem_map,
      List.forall_mem_cons]
    refine ⟨⟨by decide, ?_, List.forall_mem_nil _⟩, fun q hq => ?_, hlocals⟩
    · rw [Marshal.planMethod_method hplan]
      exact bracketFree_hostName lang (hm _ List.mem_cons_self)
    · exact bracketFree_hostName lang (hm _ (Marshal.planMethod_arg_words hplan hq).1)
  have hlookup : ∀ w ∈ (Generate.lookupStmt callback).words, BracketFree w := by
    simp only [Generate.lookupStmt, Stmt.words, Expr.words, List.forall_mem_cons]
    exact ⟨by decide, hcallback, by decide, List.forall_mem_nil _⟩
  rw [List.forall_mem_cons, List.forall_mem_append]
  exact ⟨hlookup, bracketFree_argBlocks hctx hm hplan (by decide) hblocks,
    bracketFree_finish hctx hm hplan hcall (by decide) (by decide) hrest⟩

end Bodies

end Place

end HostBindings
