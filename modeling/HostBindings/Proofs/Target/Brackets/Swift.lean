import HostBindings.Proofs.Target.Brackets.Common

/-!
The brackets of Swift texts. Calls, types and lists of parameters close the brackets that they open,
and what stands in them has none of its own.
-/

namespace HostBindings

open HostBindings.Code HostBindings.Target HostBindings.Text

namespace Swift

/-! ### Types -/

theorem bracketFree_numericName (n : Numeric) : BracketFree (numericName n) := by
  cases n <;> decide

theorem wellBracketed_elementType {e : Element} (h : ∀ w ∈ e.recordName?, BracketFree w) :
    (elementType e).WellBracketed := by
  cases e with
  | numeric n => exact .plain (bracketFree_numericName n)
  | boolean => exact .plain (by decide)
  | string => exact .plain (by decide)
  | record name => exact .plain (h name rfl)

theorem typeTexts_eq_map (ts : List TypeRef) : typeTexts ts = ts.map typeText :=
  eq_map_of_cons rfl (fun _ _ => rfl) ts

theorem balanced_typeText {t : TypeRef} (h : t.WellBracketed) :
    Balanced (brackets (typeText t)) := by
  induction h with
  | @named name args provider hname hargs hprovider ih =>
    cases args with
    | nil => exact hname.balanced
    | cons t ts =>
      rw [typeText, typeTexts_eq_map]
      · refine balanced_around (balanced_commas_map ih) ?_
        simp only [brackets_append, hname]
        decide
      · exact List.cons_ne_nil t ts
  | array h ih => exact balanced_around ih (by decide)
  | map hkey hvalue ihkey ihvalue =>
    refine balanced_around ihvalue ?_
    rw [String.append_assoc]
    exact balanced_around ihkey (by decide)
  | optional h ih => exact balanced_append ih (by decide)
  | @function params result native hparams hresult ihparams ihresult =>
    rw [typeText, typeTexts_eq_map]
    refine balanced_append (balanced_around (balanced_commas_map ihparams) ?_) ihresult
    cases native <;> decide

/-! ### Expressions -/

theorem wellBracketed_hostType {t : BoundaryType} (h : ∀ w ∈ t.words, BracketFree w) :
    (hostType t).WellBracketed := by
  rw [BoundaryType.words, List.forall_mem_append] at h
  cases t with
  | void => exact .plain (by decide)
  | single e => exact wellBracketed_elementType fun w hw => h.1 w (Option.mem_toList.mpr hw)
  | vec e => exact .array (wellBracketed_elementType fun w hw => h.1 w (Option.mem_toList.mpr hw))
  | callback name => exact .plain (h.2 name List.mem_cons_self)

theorem bracketFree_symbolName {scope : Scope} {symbol : Symbol}
    (hmodule : BracketFree scope.module) (h : ∀ w ∈ symbol.words, BracketFree w) :
    BracketFree (symbolName scope symbol) := by
  cases symbol <;>
    simp only [Symbol.words, List.forall_mem_cons, List.not_mem_nil, false_implies, implies_true,
      and_true] at h <;>
    simp only [symbolName, BracketFree, brackets_append, hmodule, h] <;> decide

theorem balanced_callText {callee : String} {args : List CallArg} (hcallee : BracketFree callee)
    (hargs : ∀ a ∈ args, Balanced (brackets (argText a))) :
    Balanced (brackets (callText callee args)) := by
  refine balanced_around (balanced_commas_map hargs) ?_
  simp only [brackets_append, hcallee]
  decide

theorem balanced_plainCall {callee : String} {args : List String} (hcallee : BracketFree callee)
    (hargs : ∀ a ∈ args, BracketFree a) : Balanced (brackets (plainCall callee args)) :=
  balanced_callText hcallee (List.forall_mem_map.mpr fun a ha => (hargs a ha).balanced)

theorem bracketFree_modelArgs {owner callback handle : String} {methods : List String}
    (howner : BracketFree owner) (hcallback : BracketFree callback) (hhandle : BracketFree handle)
    (hmethods : ∀ m ∈ methods, BracketFree m) :
    ∀ a ∈ modelArgs owner callback methods handle, BracketFree (argText a) := by
  have hrelease := Naming.bracketFree_releaseTrampolineName hcallback
  unfold modelArgs
  rw [List.forall_mem_append, List.forall_mem_map, List.forall_mem_cons, List.forall_mem_singleton]
  refine ⟨fun m hm => ?_, ?_, ?_⟩
  · have hinvoke := Naming.bracketFree_trampolineName hcallback (hmethods m hm)
    simp only [argText, BracketFree, brackets_append, hmethods m hm, howner, hinvoke]
    decide
  · simp only [argText, BracketFree, brackets_append, howner, hrelease]
    decide
  · simp only [argText, BracketFree, brackets_append, hhandle]
    decide

theorem balanced_exprText {e : Expr} (h : ∀ w ∈ e.words, BracketFree w) :
    Balanced (brackets (exprText e)) := by
  induction e with
  | duplicate e ih =>
    unfold exprText
    exact balanced_around (ih h) (by decide)
  | jsonDecode type x =>
    rw [Expr.words, List.forall_mem_cons] at h
    -- the type is balanced, and the text around it is without it
    have htype := balanced_typeText (wellBracketed_hostType h.2)
    unfold exprText
    simp only [brackets_append, h.1, List.append_nil]
    rw [List.append_assoc, htype.insert]
    decide
  | wireBytes buffer x =>
    simp only [Expr.words, List.forall_mem_cons, List.not_mem_nil, false_implies, implies_true,
      and_true] at h
    unfold exprText
    refine balanced_callText (by decide) ?_
    simp only [List.forall_mem_cons, List.not_mem_nil, false_implies, implies_true, and_true,
      argText, brackets_append, h]
    decide
  | register callback x | lookup callback x | remove callback x =>
    rw [Expr.words, List.forall_mem_cons] at h
    unfold exprText
    exact balanced_plainCall ((Naming.bracketFree_registryName h.1).append (by decide)) h.2
  | model scope callback methods handle =>
    simp only [Expr.words, List.forall_mem_append, List.forall_mem_cons, List.not_mem_nil,
      false_implies, implies_true, and_true] at h
    obtain ⟨⟨hmodule, howner, hcallback, hhandle⟩, hmethods⟩ := h
    unfold exprText
    refine balanced_callText ?_ fun a ha =>
      (bracketFree_modelArgs howner hcallback hhandle hmethods a ha).balanced
    simp only [modelName, BracketFree, brackets_append, hmodule, hcallback]
    decide
  | proxy callback x =>
    rw [Expr.words, List.forall_mem_cons, List.forall_mem_singleton] at h
    unfold exprText
    refine balanced_callText (Naming.bracketFree_proxyName h.1) ?_
    rw [List.forall_mem_singleton]
    simp only [argText, brackets_append, h.2]
    decide
  | native scope symbol args =>
    simp only [Expr.words, List.forall_mem_append, List.forall_mem_cons, List.not_mem_nil,
      false_implies, implies_true, and_true] at h
    unfold exprText
    exact balanced_plainCall (bracketFree_symbolName h.1.1.1 h.1.2) h.2
  | invoke receiver method args =>
    simp only [Expr.words, List.forall_mem_append, List.forall_mem_cons, List.not_mem_nil,
      false_implies, implies_true, and_true, List.forall_mem_map] at h
    obtain ⟨⟨hreceiver, hmethod⟩, hlabels, hvalues⟩ := h
    unfold exprText
    refine balanced_callText ?_ (List.forall_mem_map.mpr fun a ha => ?_)
    · simp only [BracketFree, brackets_append, hreceiver, hmethod]
      decide
    · simp only [argText, brackets_append, hlabels a ha, hvalues a ha]
      decide
  | cast target x =>
    rw [Expr.words, List.forall_mem_singleton] at h
    unfold exprText
    simp only [brackets_append, h, bracketFree_numericName]
    decide
  | _ =>
    -- one word among texts that are balanced together
    rw [Expr.words, List.forall_mem_singleton] at h
    unfold exprText
    simp only [brackets_append, h]
    decide

theorem balanced_stmtText {st : Stmt} (h : ∀ w ∈ st.words, BracketFree w) :
    Balanced (brackets (stmtText st)) := by
  cases st with
  | bind x value =>
    rw [Stmt.words, List.forall_mem_cons] at h
    have hvalue := balanced_exprText h.2
    unfold stmtText
    -- a truth value as an integer is bound with its type
    split
    · rename_i x' y heq
      cases heq
      refine balanced_append ?_ hvalue
      simp only [brackets_append, h.1]
      decide
    · rename_i x' value' _ heq
      cases heq
      refine balanced_append ?_ hvalue
      simp only [brackets_append, h.1]
      decide
    all_goals rename_i heq; cases heq
  | run value =>
    unfold stmtText
    exact balanced_exprText h
  | fill buffer x =>
    rw [Stmt.words, List.forall_mem_cons, List.forall_mem_singleton] at h
    unfold stmtText
    simp only [brackets_append, h]
    decide
  | _ =>
    rw [Stmt.words, List.forall_mem_singleton] at h
    unfold stmtText
    simp only [brackets_append, h]
    decide

/-! ### Declarations -/

theorem bracketFree_modifiers (ms : List Modifier) : BracketFree (modifiers ms) :=
  bracketFree_modifierText (by decide) ms

theorem balanced_paramText {p : Param} (h : p.WellBracketed) :
    Balanced (brackets (paramText p)) := by
  have hname := h.name
  unfold paramText
  split
  · rename_i label hlabel
    have hlabel := h.label label hlabel
    refine balanced_append ?_ (balanced_typeText h.type)
    simp only [brackets_append, hlabel, hname]
    decide
  · refine balanced_append ?_ (balanced_typeText h.type)
    simp only [brackets_append, hname]
    decide

theorem balanced_paramsText {ps : List Param} (h : ∀ p ∈ ps, p.WellBracketed) :
    Balanced (brackets (paramsText ps)) :=
  balanced_commas_map fun p hp => balanced_paramText (h p hp)

theorem balanced_typeParamText {p : TypeParam} (h : p.WellBracketed) :
    Balanced (brackets (typeParamText p)) := by
  unfold typeParamText
  split
  · rename_i bound hbound
    refine balanced_append ?_ (balanced_typeText (h.bound bound hbound))
    simp only [brackets_append, h.name]
    decide
  · exact h.name.balanced

theorem balanced_typeParamsText {ps : List TypeParam} (h : ∀ p ∈ ps, p.WellBracketed) :
    Balanced (brackets (typeParamsText ps)) :=
  balanced_angles fun p hp => balanced_typeParamText (h p hp)

theorem balanced_fieldText {f : Field} (h : f.WellBracketed) :
    Balanced (brackets (fieldText f)) := by
  have hmodifiers := bracketFree_modifiers f.modifiers
  have hname := h.name
  unfold fieldText
  refine balanced_append ?_ (balanced_typeText h.type)
  simp only [brackets_append, hmodifiers, hname]
  cases f.isMutable <;> decide

theorem balanced_signature {f : Func} (h : f.WellBracketed) :
    Balanced (brackets (signature f)) := by
  have hmodifiers := bracketFree_modifiers f.modifiers
  have hname := h.name
  have hparams := balanced_paramsText h.params
  unfold signature
  split
  · refine balanced_append (balanced_around hparams ?_) (balanced_getD fun t ht => ?_)
    · simp only [brackets_append, hmodifiers, hname]
      decide
    · exact balanced_append (by decide) (balanced_typeText (h.returns t ht))
  · refine balanced_around hparams ?_
    simp only [brackets_append, hmodifiers]
    decide
  · decide
  · simp only [brackets_append, hmodifiers]
    decide

theorem balanced_lead {h : TypeHead} (hh : h.WellBracketed) :
    Balanced (brackets (typeHeader h).lead) := by
  have hmodifiers := bracketFree_modifiers h.modifiers
  have hname := hh.name
  have hkind : BracketFree (kindWord h.kind) := by
    cases h.kind <;> decide
  refine balanced_append ?_ (balanced_typeParamsText hh.typeParams)
  simp only [brackets_append, hmodifiers, hname, hkind]
  decide

theorem wellBracketed_implied {h : TypeHead} {f : Func} (hh : h.WellBracketed)
    (hf : implied? h = some f) : f.WellBracketed := by
  unfold implied? at hf
  split at hf
  · obtain rfl := Option.some.inj hf
    refine ⟨(by decide : BracketFree "init"), fun t ht => absurd ht List.not_mem_nil, ?_,
      fun t ht => absurd ht (Option.not_mem_none t), ?_, fun t ht => absurd ht List.not_mem_nil⟩
    · refine List.forall_mem_map.mpr fun p hp => ?_
      have hp := hh.properties p hp
      exact ⟨hp.name, fun l hl => absurd hl (Option.not_mem_none l), hp.type⟩
    · rintro b ⟨⟩
      refine ⟨List.forall_mem_map.mpr (List.forall_mem_map.mpr fun p hp => .line ?_),
        fun i hi => absurd hi List.not_mem_nil⟩
      have hname := (hh.properties p hp).name
      simp only [brackets_append, hname]
      decide
  · cases hf

/-! ### Members -/

theorem wellBracketed_locked {items : List Item} (h : ∀ item ∈ items, item.WellBracketed) :
    ∀ b ∈ locked items, b.WellBracketed := by
  rintro b ⟨⟩
  refine ⟨List.forall_mem_append.mpr ⟨?_, h⟩, List.forall_mem_nil _⟩
  exact List.forall_mem_cons.mpr
    ⟨.line (by decide), List.forall_mem_singleton.mpr (.line (by decide))⟩

theorem wellBracketed_unlabeled {name type : String} (hname : BracketFree name)
    (htype : BracketFree type) :
    ∀ p ∈ [(⟨name, some "_", .plain type⟩ : Param)], p.WellBracketed := by
  refine List.forall_mem_singleton.mpr ⟨hname, ?_, .plain htype⟩
  rintro l ⟨⟩
  show BracketFree "_"
  decide

theorem wellBracketed_registerFunc : registerFunc.WellBracketed := by
  have hlines : ∀ line ∈ ["lastHandle += 1", "entries[lastHandle] = callback", "return lastHandle"],
      Balanced (brackets line) := by decide
  exact ⟨by decide, List.forall_mem_nil _, wellBracketed_unlabeled (by decide) (by decide),
    wellBracketed_returned (by decide), wellBracketed_locked (Item.wellBracketed_lines hlines),
    List.forall_mem_nil _⟩

theorem wellBracketed_lookupFunc : lookupFunc.WellBracketed := by
  refine ⟨by decide, List.forall_mem_nil _, wellBracketed_unlabeled (by decide) (by decide),
    wellBracketed_returned (by decide), wellBracketed_locked ?_, List.forall_mem_nil _⟩
  refine List.forall_mem_cons.mpr ⟨.block (by decide) (List.forall_mem_nil _) ?_,
    List.forall_mem_singleton.mpr (.line (by decide))⟩
  exact List.forall_mem_singleton.mpr (.line (by decide))

theorem wellBracketed_removeFunc : removeFunc.WellBracketed := by
  have hlines : ∀ line ∈ ["entries.removeValue(forKey: handle)"], Balanced (brackets line) := by
    decide
  exact ⟨by decide, List.forall_mem_nil _, wellBracketed_unlabeled (by decide) (by decide), nofun,
    wellBracketed_locked (Item.wellBracketed_lines hlines), List.forall_mem_nil _⟩

theorem wellBracketed_registryType : registryType.WellBracketed := by
  refine .type ⟨by decide, List.forall_mem_nil _,
    List.forall_mem_singleton.mpr ⟨by decide, nofun⟩, List.forall_mem_nil _, List.forall_mem_nil _,
    List.forall_mem_nil _⟩ ?_
  simp only [List.forall_mem_cons]
  refine ⟨.field ?_, .field ?_, .field ?_, .func wellBracketed_registerFunc,
    .func wellBracketed_lookupFunc, .func wellBracketed_removeFunc, List.forall_mem_nil _⟩
  · exact .ofExpr (by decide) (.imported (by decide) (by decide)) rfl (by decide) rfl
  · exact .ofExpr (by decide) (.plain (by decide)) rfl (by decide) rfl
  · exact .ofExpr (by decide) (.map (.plain (by decide)) (.plain (by decide))) rfl (by decide) rfl

end Swift

end HostBindings
