import HostBindings.Proofs.Target.Brackets.Kotlin
import HostBindings.Proofs.Target.Brackets.Swift

/-!
The brackets of the texts that a language writes. A declaration without stray brackets is written
without any: each text is balanced, or holds the one brace that the layout closes.
-/

namespace HostBindings

open HostBindings.Code HostBindings.Target HostBindings.Text

namespace Lang

variable {lang : Lang}

/-! ### Texts -/

theorem wellBracketed_hostType {t : BoundaryType} (h : ∀ w ∈ t.words, BracketFree w) :
    (lang.hostType t).WellBracketed := by
  cases lang with
  | swift => exact Swift.wellBracketed_hostType h
  | kotlin => exact Kotlin.wellBracketed_hostType h

theorem wellBracketed_handleType : lang.handleType.WellBracketed := by
  cases lang with
  | swift => exact .plain (by decide)
  | kotlin => exact .plain (by decide)

theorem balanced_stmtText {st : Stmt} (h : ∀ w ∈ st.words, BracketFree w) :
    Balanced (brackets (lang.stmtText st)) := by
  cases lang with
  | swift => exact Swift.balanced_stmtText h
  | kotlin => exact Kotlin.balanced_stmtText h

theorem bracketFree_stmtImports (lang : Lang) (st : Stmt) :
    ∀ i ∈ lang.stmtImports st, BracketFree i := by
  have hexpr : ∀ e : Expr, ∀ i ∈ Kotlin.exprImports e, BracketFree i := by
    intro e
    unfold Kotlin.exprImports
    split <;> decide
  cases lang with
  | swift => exact fun i hi => absurd hi List.not_mem_nil
  | kotlin =>
    show ∀ i ∈ Kotlin.stmtImports st, BracketFree i
    unfold Kotlin.stmtImports
    split
    · exact hexpr _
    · exact hexpr _
    · exact fun i hi => absurd hi List.not_mem_nil

theorem wellBracketed_block {stmts : List Stmt} (h : ∀ st ∈ stmts, ∀ w ∈ st.words, BracketFree w) :
    (lang.block stmts).WellBracketed where
  items := List.forall_mem_map.mpr fun st hst => .stmt (h st hst)
  imports := by
    intro i hi
    obtain ⟨st, _, hi⟩ := List.mem_flatMap.mp hi
    exact bracketFree_stmtImports lang st i hi

theorem balanced_docLines {docs : List String} (h : ∀ line ∈ docs, Balanced (brackets line)) :
    ∀ line ∈ lang.docLines docs, Balanced (brackets line) := by
  cases lang with
  | swift =>
    exact List.forall_mem_map.mpr fun line hline => balanced_append (by decide) (h line hline)
  | kotlin =>
    show ∀ line ∈ Kotlin.docLines docs, Balanced (brackets line)
    unfold Kotlin.docLines
    split
    · exact h
    · rw [List.forall_mem_singleton] at h ⊢
      exact balanced_around h (by decide)
    · rw [List.forall_mem_append, List.forall_mem_append, List.forall_mem_map]
      exact ⟨⟨by decide, fun line hline => balanced_append (by decide) (h line hline)⟩, by decide⟩

theorem balanced_annotationText {t : TypeRef} (h : t.WellBracketed) :
    Balanced (brackets (lang.annotationText t)) := by
  cases lang with
  | swift => exact balanced_append (by decide) (Swift.balanced_typeText h)
  | kotlin => exact balanced_append (by decide) (Kotlin.balanced_typeText h)

theorem balanced_fieldText {f : Field} (h : f.WellBracketed) :
    Balanced (brackets (lang.fieldText f)) := by
  cases lang with
  | swift => exact Swift.balanced_fieldText h
  | kotlin => exact Kotlin.balanced_fieldText h

theorem balanced_signature {f : Func} (h : f.WellBracketed) :
    Balanced (brackets (lang.signature f)) := by
  cases lang with
  | swift => exact Swift.balanced_signature h
  | kotlin => exact Kotlin.balanced_signature h

theorem balanced_leadingLines {f : Func} (h : f.WellBracketed) :
    ∀ line ∈ lang.leadingLines f, Balanced (brackets line) := by
  cases lang with
  | swift =>
    exact List.forall_mem_map.mpr fun t ht =>
      balanced_append (by decide) (Swift.balanced_typeText (h.annotations t ht))
  | kotlin =>
    refine List.forall_mem_append.mpr ⟨List.forall_mem_map.mpr fun t ht => ?_, ?_⟩
    · exact balanced_append (by decide) (Kotlin.balanced_typeText (h.annotations t ht))
    · split <;> decide

/-- A closure opens with a brace. -/
theorem brackets_closureOpen {params : List String} (h : ∀ n ∈ params, BracketFree n) :
    brackets (lang.closureOpen params) = ['\x7b'] := by
  have hparams : BracketFree (commas params) := by
    rw [BracketFree, brackets_commas]
    exact flatMap_brackets_eq_nil h
  cases lang with
  | swift =>
    show brackets (Swift.closureOpen params) = _
    unfold Swift.closureOpen
    split
    · decide
    · simp only [brackets_append, hparams]
      decide
  | kotlin =>
    show brackets (Kotlin.closureOpen params) = _
    unfold Kotlin.closureOpen
    split
    · decide
    · simp only [brackets_append, hparams]
      decide

section Head

variable {h : TypeHead} (hh : h.WellBracketed)

include hh

theorem balanced_lead : Balanced (brackets (lang.typeHeader h).lead) := by
  cases lang with
  | swift => exact Swift.balanced_lead hh
  | kotlin => exact Kotlin.balanced_lead hh

theorem balanced_headerParams : ∀ p ∈ (lang.typeHeader h).params, Balanced (brackets p) := by
  cases lang with
  | swift => exact fun p hp => absurd hp List.not_mem_nil
  | kotlin =>
    exact List.forall_mem_map.mpr fun p hp => Kotlin.balanced_fieldText (hh.properties p hp)

theorem balanced_tail : Balanced (brackets (lang.typeHeader h).tail) := by
  cases lang with
  | swift =>
    exact balanced_behind (by decide) fun t ht => Swift.balanced_typeText (hh.supertypes t ht)
  | kotlin =>
    exact balanced_behind (by decide) fun t ht => Kotlin.balanced_typeText (hh.supertypes t ht)

theorem wellBracketed_impliedFields : ∀ f ∈ lang.impliedFields h, f.WellBracketed := by
  cases lang with
  | swift => exact hh.properties
  | kotlin => exact fun f hf => absurd hf List.not_mem_nil

theorem wellBracketed_impliedConstructor :
    ∀ f ∈ lang.impliedConstructor? h, f.WellBracketed := by
  cases lang with
  | swift => exact fun f hf => Swift.wellBracketed_implied hh hf
  | kotlin => exact fun f hf => absurd hf (Option.not_mem_none f)

end Head

/-! ### Members -/

theorem wellBracketed_registryField {callback : String} (h : BracketFree callback) :
    (lang.registryField callback).WellBracketed := by
  have htype : ((TypeRef.plain "CallbackRegistry").withArgs [.plain callback]).WellBracketed :=
    .named (by decide) (List.forall_mem_singleton.mpr (.plain h)) nofun
  cases lang with
  | swift =>
    refine .ofExpr (Naming.bracketFree_registryName h) htype rfl ?_ rfl
    simp only [brackets_append, h]
    decide
  | kotlin =>
    exact .ofExpr (Naming.bracketFree_registryName h) htype rfl (by decide) rfl

theorem wellBracketed_trampoline {name : String} {params : List Param} {returns : Option TypeRef}
    {body : Block} (hname : BracketFree name) (hparams : ∀ p ∈ params, p.WellBracketed)
    (hreturns : ∀ t ∈ returns, t.WellBracketed) (hbody : body.WellBracketed) :
    (lang.trampoline name params returns body).WellBracketed := by
  cases lang with
  | swift =>
    refine .field ⟨hname,
      .function (List.forall_mem_map.mpr fun p hp => (hparams p hp).type) ?_, ?_,
      List.forall_mem_nil _⟩
    · cases returns with
      | none => exact .plain (by decide)
      | some t => exact hreturns t rfl
    · rintro i ⟨⟩
      exact .closure (List.forall_mem_map.mpr fun p hp => (hparams p hp).name) hbody
  | kotlin =>
    refine .func ⟨hname, List.forall_mem_nil _, hparams, hreturns, ?_, List.forall_mem_nil _⟩
    rintro b ⟨⟩
    exact hbody

theorem wellBracketed_nativeDeclaration {name : String} {visibility : Modifier}
    {params : List Param} {returns : Option TypeRef} {fn : Func} (hname : BracketFree name)
    (hparams : ∀ p ∈ params, p.WellBracketed) (hreturns : ∀ t ∈ returns, t.WellBracketed)
    (h : lang.nativeDeclaration? name visibility params returns = some fn) : fn.WellBracketed := by
  cases lang with
  | swift => cases h
  | kotlin =>
    cases h
    exact ⟨hname, List.forall_mem_nil _, hparams, hreturns, nofun, List.forall_mem_nil _⟩

theorem wellBracketed_loader {ctx : Context} {fn : Func}
    (hlibraries : ∀ l ∈ ctx.settings.mainLibrary ctx.package :: ctx.settings.furtherLibraries,
      BracketFree l) (h : lang.loader? ctx = some fn) : fn.WellBracketed := by
  cases lang with
  | swift => cases h
  | kotlin =>
    cases h
    refine ⟨show BracketFree "init" by decide, List.forall_mem_nil _, List.forall_mem_nil _, nofun,
      ?_, List.forall_mem_nil _⟩
    rintro b ⟨⟩
    refine ⟨List.forall_mem_map.mpr fun l hl => .stmt ?_, List.forall_mem_nil _⟩
    exact List.forall_mem_singleton.mpr (hlibraries l hl)

theorem bracketFree_symbolName {scope : Scope} {symbol : Symbol}
    (hmodule : BracketFree scope.module) (h : ∀ w ∈ symbol.words, BracketFree w) :
    BracketFree (lang.symbolName scope symbol) := by
  cases lang with
  | swift => exact Swift.bracketFree_symbolName hmodule h
  | kotlin => exact Kotlin.bracketFree_symbolName h

theorem wellBracketed_proxyRelease {call : Item} (hcall : call.WellBracketed) :
    ∀ d ∈ lang.proxyRelease call, d.WellBracketed := by
  cases lang with
  | swift =>
    refine List.forall_mem_singleton.mpr (.func ?_)
    refine ⟨show BracketFree "deinit" by decide, List.forall_mem_nil _, List.forall_mem_nil _,
      nofun, ?_, List.forall_mem_nil _⟩
    rintro b ⟨⟩
    exact ⟨List.forall_mem_singleton.mpr hcall, List.forall_mem_nil _⟩
  | kotlin =>
    refine List.forall_mem_cons.mpr ⟨.field ?_, List.forall_mem_singleton.mpr (.func ?_)⟩
    · exact .ofExpr (by decide) (.imported (by decide) (by decide)) rfl (by decide) rfl
    · refine ⟨show BracketFree "close" by decide, List.forall_mem_nil _, List.forall_mem_nil _,
        nofun, ?_, List.forall_mem_nil _⟩
      rintro b ⟨⟩
      exact ⟨List.forall_mem_singleton.mpr (.block (by decide) (List.forall_mem_nil _)
        (List.forall_mem_singleton.mpr hcall)), List.forall_mem_nil _⟩

end Lang

end HostBindings
