import HostBindings.Proofs.Target.Brackets.Common

/-!
The brackets of Kotlin texts. Calls, conditions and lists of parameters close the brackets that they
open; the layout closes those of a constructor.
-/

namespace HostBindings

open HostBindings.Code HostBindings.Target HostBindings.Text

namespace Kotlin

/-! ### Types -/

theorem bracketFree_numericName (n : Numeric) : BracketFree (numericName n) := by
  cases n <;> decide

theorem wellBracketed_elementType {e : Element} (h : ∀ w ∈ e.recordName?, BracketFree w) :
    (elementType e).WellBracketed := by
  cases e with
  | numeric n => exact .plain (bracketFree_numericName n)
  | boolean => exact .plain (by decide)
  | string => exact .plain (by decide)
  | record name => exact .plain (h name rfl)

theorem wellBracketed_hostType {t : BoundaryType} (h : ∀ w ∈ t.words, BracketFree w) :
    (hostType t).WellBracketed := by
  rw [BoundaryType.words, List.forall_mem_append] at h
  unfold hostType
  split
  · exact .plain (by decide)
  · exact wellBracketed_elementType fun w hw => h.1 w (Option.mem_toList.mpr hw)
  · exact .plain (by decide)
  · exact .array (wellBracketed_elementType fun w hw => h.1 w (Option.mem_toList.mpr hw))
  · exact .plain (h.2 _ List.mem_cons_self)

theorem typeTexts_eq_map (ts : List TypeRef) : typeTexts ts = ts.map typeText :=
  eq_map_of_cons rfl (fun _ _ => rfl) ts

theorem balanced_typeText {t : TypeRef} (h : t.WellBracketed) :
    Balanced (brackets (typeText t)) := by
  induction h with
  | @named name args provider hname hargs hprovider ih =>
    cases args with
    | nil => exact hname.balanced
    | cons t ts =>
      rw [typeText, typeTexts_eq_map]
      · refine balanced_around (balanced_commas_map ih) ?_
        simp only [brackets_append, hname]
        decide
      · exact List.cons_ne_nil t ts
  | array h ih => exact balanced_around ih (by decide)
  | map hkey hvalue ihkey ihvalue =>
    refine balanced_around ihvalue ?_
    rw [String.append_assoc]
    exact balanced_around ihkey (by decide)
  | optional h ih => exact balanced_append ih (by decide)
  | function hparams hresult ihparams ihresult =>
    rw [typeText, typeTexts_eq_map]
    exact balanced_append (balanced_around (balanced_commas_map ihparams) (by decide)) ihresult

/-! ### Expressions -/

theorem bracketFree_symbolName {symbol : Symbol} (h : ∀ w ∈ symbol.words, BracketFree w) :
    BracketFree (symbolName symbol) := by
  cases symbol <;>
    simp only [Symbol.words, List.forall_mem_cons, List.not_mem_nil, false_implies, implies_true,
      and_true] at h <;>
    simp only [symbolName, BracketFree, brackets_append, h] <;> decide

theorem balanced_plainCall {callee : String} {args : List String} (hcallee : BracketFree callee)
    (hargs : ∀ a ∈ args, BracketFree a) : Balanced (brackets (plainCall callee args)) := by
  refine balanced_around (balanced_commas ?_) ?_
  · simpa only [List.forall_mem_map] using fun a ha => (hargs a ha).balanced
  · simp only [brackets_append, hcallee]
    decide

theorem balanced_exprText {e : Expr} (h : ∀ w ∈ e.words, BracketFree w) :
    Balanced (brackets (exprText e)) := by
  induction e with
  | duplicate e ih =>
    unfold exprText
    exact ih h
  | jsonDecode type x =>
    rw [Expr.words, List.forall_mem_cons] at h
    -- the type is balanced, and the text around it is without it
    have htype := balanced_typeText (wellBracketed_hostType h.2)
    unfold exprText
    simp only [brackets_append, h.1, List.append_nil]
    rw [List.append_assoc, htype.insert]
    decide
  | wireBytes buffer x => exact (h x (by simp [Expr.words])).balanced
  | register callback x | lookup callback x | remove callback x =>
    rw [Expr.words, List.forall_mem_cons] at h
    unfold exprText
    exact balanced_plainCall ((Naming.bracketFree_registryName h.1).append (by decide)) h.2
  | model scope callback methods handle => exact (h handle (by simp [Expr.words])).balanced
  | proxy callback x =>
    rw [Expr.words, List.forall_mem_cons] at h
    unfold exprText
    exact balanced_plainCall (Naming.bracketFree_proxyName h.1) h.2
  | native scope symbol args =>
    simp only [Expr.words, List.forall_mem_append, List.forall_mem_cons, List.not_mem_nil,
      false_implies, implies_true, and_true] at h
    have hsymbol := bracketFree_symbolName h.1.2
    unfold exprText
    refine balanced_plainCall ?_ h.2
    simp only [symbolCallee, BracketFree, brackets_append, h.1.1.2, hsymbol]
    decide
  | invoke receiver method args =>
    simp only [Expr.words, List.forall_mem_append, List.forall_mem_cons, List.not_mem_nil,
      false_implies, implies_true, and_true] at h
    obtain ⟨⟨hreceiver, hmethod⟩, -, hvalues⟩ := h
    unfold exprText
    refine balanced_plainCall ?_ hvalues
    simp only [BracketFree, brackets_append, hreceiver, hmethod]
    decide
  | cast target x =>
    rw [Expr.words, List.forall_mem_singleton] at h
    unfold exprText
    simp only [brackets_append, h, bracketFree_numericName]
    decide
  | _ =>
    rw [Expr.words, List.forall_mem_singleton] at h
    unfold exprText
    simp only [brackets_append, h]
    decide

theorem balanced_stmtText {st : Stmt} (h : ∀ w ∈ st.words, BracketFree w) :
    Balanced (brackets (stmtText st)) := by
  cases st with
  | bind x value =>
    rw [Stmt.words, List.forall_mem_cons] at h
    refine balanced_append ?_ (balanced_exprText h.2)
    simp only [brackets_append, h.1]
    decide
  | fill buffer x => exact Balanced.nil
  | run value => exact balanced_exprText h
  | _ =>
    rw [Stmt.words, List.forall_mem_singleton] at h
    unfold stmtText
    simp only [brackets_append, h]
    decide

/-! ### Declarations -/

theorem bracketFree_modifiers (ms : List Modifier) : BracketFree (modifiers ms) :=
  bracketFree_modifierText (by decide) ms

theorem balanced_paramsText {ps : List Param} (h : ∀ p ∈ ps, p.WellBracketed) :
    Balanced (brackets (paramsText ps)) := by
  refine balanced_commas_map fun p hp => ?_
  refine balanced_append ?_ (balanced_typeText (h p hp).type)
  simp only [brackets_append, (h p hp).name]
  decide

theorem balanced_typeParamText {p : TypeParam} (h : p.WellBracketed) :
    Balanced (brackets (typeParamText p)) := by
  unfold typeParamText
  split
  · rename_i bound hbound
    refine balanced_append ?_ (balanced_typeText (h.bound bound hbound))
    simp only [brackets_append, h.name]
    decide
  · exact h.name.balanced

theorem balanced_typeParamsText {ps : List TypeParam} (h : ∀ p ∈ ps, p.WellBracketed) :
    Balanced (brackets (typeParamsText ps)) :=
  balanced_angles fun p hp => balanced_typeParamText (h p hp)

theorem balanced_fieldText {f : Field} (h : f.WellBracketed) :
    Balanced (brackets (fieldText f)) := by
  have hmodifiers := bracketFree_modifiers f.modifiers
  have hname := h.name
  unfold fieldText
  refine balanced_append ?_ (balanced_typeText h.type)
  simp only [brackets_append, hmodifiers, hname]
  cases f.isMutable <;> decide

theorem balanced_signature {f : Func} (h : f.WellBracketed) :
    Balanced (brackets (signature f)) := by
  have hmodifiers := bracketFree_modifiers f.modifiers
  have hname := h.name
  have hparams := balanced_paramsText h.params
  unfold signature
  split
  · refine balanced_append (balanced_around hparams ?_) (balanced_getD fun t ht => ?_)
    · simp only [brackets_append, hmodifiers, hname]
      decide
    · exact balanced_append (by decide) (balanced_typeText (h.returns t ht))
  · refine balanced_around hparams ?_
    simp only [brackets_append, hmodifiers]
    decide
  · decide
  · decide

theorem balanced_lead {h : TypeHead} (hh : h.WellBracketed) : Balanced (brackets (leadText h)) := by
  have hmodifiers := bracketFree_modifiers h.modifiers
  have hconstructor := bracketFree_modifiers h.constructorModifiers
  have hname := hh.name
  have htyped : Balanced (brackets (h.name ++ typeParamsText h.typeParams)) :=
    balanced_append hname.balanced (balanced_typeParamsText hh.typeParams)
  have hstart : ∀ word, BracketFree word → Balanced (brackets (modifiers h.modifiers ++ word)) :=
    fun word hword => (hmodifiers.append hword).balanced
  unfold leadText
  dsimp only
  split
  · exact balanced_append (hstart _ (by decide)) htyped
  · exact balanced_append (hstart _ (by decide)) htyped
  · exact balanced_append (hstart _ (by decide)) hname.balanced
  · split
    · exact balanced_append (hstart _ (by decide)) htyped
    · -- the modifiers of a constructor need the word behind them
      have hbefore := balanced_append (hstart "class " (by decide)) htyped
      refine balanced_append (balanced_append (balanced_append hbefore ?_) ?_) ?_
      · decide
      · exact hconstructor.balanced
      · decide

/-! ### Members -/

theorem wellBracketed_ofLines {f : Func} {name type : String} {lines : List String}
    (hf : f = { Func.plain f.name with
      params := [.plain name (.plain type)], returns := f.returns, body := some (.ofLines lines) })
    (hname : BracketFree f.name) (hparam : BracketFree name) (htype : BracketFree type)
    (hreturns : ∀ t ∈ f.returns, t.WellBracketed)
    (hlines : ∀ line ∈ lines, Balanced (brackets line)) : f.WellBracketed := by
  rw [hf]
  refine ⟨hname, List.forall_mem_nil _,
    List.forall_mem_singleton.mpr (.plain hparam (.plain htype)), hreturns, ?_,
    List.forall_mem_nil _⟩
  rintro b ⟨⟩
  exact ⟨Item.wellBracketed_lines hlines, List.forall_mem_nil _⟩

theorem wellBracketed_registryType : registryType.WellBracketed := by
  refine .type ⟨by decide, List.forall_mem_nil _,
    List.forall_mem_singleton.mpr ⟨by decide, wellBracketed_returned (by decide)⟩,
    List.forall_mem_nil _, List.forall_mem_nil _, List.forall_mem_nil _⟩ ?_
  simp only [List.forall_mem_cons]
  refine ⟨.field ?_, .field ?_, .func ?_, .func ?_, .func ?_, List.forall_mem_nil _⟩
  · exact .ofExpr (by decide) (.imported (by decide) (by decide)) rfl (by decide) rfl
  · refine .ofExpr (by decide) (.named (by decide) ?_ ?_) rfl (by decide) rfl
    · exact List.forall_mem_cons.mpr
        ⟨.plain (by decide), List.forall_mem_singleton.mpr (.plain (by decide))⟩
    · rintro p ⟨⟩
      decide
  · exact wellBracketed_ofLines rfl (by decide) (by decide) (by decide)
      (wellBracketed_returned (by decide)) (by decide)
  · exact wellBracketed_ofLines rfl (by decide) (by decide) (by decide)
      (wellBracketed_returned (by decide)) (by decide)
  · exact wellBracketed_ofLines rfl (by decide) (by decide) (by decide) nofun (by decide)

end Kotlin

end HostBindings
