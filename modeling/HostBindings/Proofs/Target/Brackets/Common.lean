import HostBindings.Proofs.Code.Brackets
import HostBindings.Proofs.Naming

/-!
The brackets of texts that both languages build alike: names, which take over no brackets but those
of the native name, and lists of texts.
-/

namespace HostBindings

open HostBindings.Code HostBindings.Target HostBindings.Text

/-! ### Names -/

namespace Text

theorem isSign_of_isBracket {c : Char} (h : isBracket c = true) : IsSign c := by
  unfold isBracket closer? isCloser at h
  split at h
  · decide
  · decide
  · decide
  · simp only [Option.isSome_none, Bool.false_or, Bool.or_eq_true, beq_iff_eq] at h
    rcases h with (rfl | rfl) | rfl <;> decide

theorem bracketFree_of_mem {text source : String}
    (h : ∀ c, isBracket c = true → c ∈ text.toList → c ∈ source.toList)
    (hsource : BracketFree source) : BracketFree text := by
  rw [bracketFree_iff] at hsource ⊢
  intro c hc
  by_contra hne
  have hbracket : isBracket c = true := by simpa using hne
  rw [hsource c (h c hbracket hc)] at hbracket
  cases hbracket

end Text

namespace Naming

theorem bracketFree_camelCase {name : String} (h : BracketFree name) :
    BracketFree (camelCase name) :=
  bracketFree_of_mem (fun _ hc hmem => (sign_mem_camelCase (isSign_of_isBracket hc) hmem).2) h

theorem bracketFree_registryName {callback : String} (h : BracketFree callback) :
    BracketFree (registryName callback) := by
  refine BracketFree.append (bracketFree_of_mem (fun c hc hmem => ?_) h) (by decide)
  rw [decapitalize, String.toList_ofList] at hmem
  cases hchars : callback.toList with
  | nil =>
    rw [hchars] at hmem
    exact absurd hmem List.not_mem_nil
  | cons d ds =>
    rw [hchars, decapitalizeChars] at hmem
    rcases List.mem_append.mp hmem with hmem | hmem
    · -- no other character has a bracket as its lower case
      have hself : d = c :=
        Decidable.by_contra fun hne => sign_notMem_lower (isSign_of_isBracket hc) hne hmem
      exact hself ▸ List.mem_cons_self
    · exact List.mem_cons_of_mem d hmem

theorem bracketFree_trampolineName {callback method : String} (hcallback : BracketFree callback)
    (hmethod : BracketFree method) : BracketFree (trampolineName callback method) := by
  simp only [trampolineName, BracketFree, brackets_append, hcallback, hmethod]
  decide

theorem bracketFree_releaseTrampolineName {callback : String} (h : BracketFree callback) :
    BracketFree (releaseTrampolineName callback) := by
  simp only [releaseTrampolineName, BracketFree, brackets_append, h]
  decide

theorem bracketFree_proxyName {callback : String} (h : BracketFree callback) :
    BracketFree (proxyName callback) := by
  simp only [proxyName, BracketFree, brackets_append, h]
  decide

end Naming

theorem bracketFree_hostName (lang : Lang) {name : String} (h : BracketFree name) :
    BracketFree (lang.hostName name) := by
  have hcamel := Naming.bracketFree_camelCase h
  unfold Lang.hostName Naming.escapeKeyword
  split
  · simp only [BracketFree, brackets_append, hcamel]
    decide
  · exact hcamel

/-! ### Lists of texts -/

namespace Target

theorem brackets_commas (parts : List String) :
    brackets (commas parts) = parts.flatMap brackets := by
  induction parts with
  | nil => rfl
  | cons part parts ih =>
    cases parts with
    | nil => simp [commas, String.intercalate_singleton]
    | cons next parts =>
      have hcomma : BracketFree ", " := by decide
      rw [commas] at ih
      rw [commas, String.intercalate_cons_cons, brackets_append, brackets_append, ih, hcomma,
        List.append_nil]
      rfl

theorem balanced_commas {parts : List String} (h : ∀ part ∈ parts, Balanced (brackets part)) :
    Balanced (brackets (commas parts)) := by
  rw [brackets_commas]
  exact Balanced.flatMap h

theorem balanced_commas_map {α : Type} {f : α → String} {as : List α}
    (h : ∀ a ∈ as, Balanced (brackets (f a))) : Balanced (brackets (commas (as.map f))) :=
  balanced_commas (List.forall_mem_map.mpr h)

theorem balanced_angles {α : Type} {f : α → String} {as : List α}
    (h : ∀ a ∈ as, Balanced (brackets (f a))) :
    Balanced (brackets (if as.isEmpty then "" else "<" ++ commas (as.map f) ++ ">")) := by
  split
  · decide
  · exact balanced_around (balanced_commas_map h) (by decide)

theorem balanced_behind {α : Type} {f : α → String} {as : List α} {front : String}
    (hfront : BracketFree front) (h : ∀ a ∈ as, Balanced (brackets (f a))) :
    Balanced (brackets (if as.isEmpty then "" else front ++ commas (as.map f))) := by
  split
  · decide
  · exact balanced_append hfront.balanced (balanced_commas_map h)

theorem balanced_getD {α : Type} {f : α → String} {o : Option α}
    (h : ∀ a ∈ o, Balanced (brackets (f a))) : Balanced (brackets ((o.map f).getD "")) := by
  cases o with
  | none =>
    show Balanced (brackets "")
    decide
  | some a => exact h a rfl

theorem bracketFree_modifierText {words : List (Modifier × String)}
    (h : ∀ w ∈ words, BracketFree w.2) (modifiers : List Modifier) :
    BracketFree (modifierText words modifiers) := by
  unfold modifierText
  rw [BracketFree, brackets_join]
  refine flatMap_brackets_eq_nil (List.forall_mem_map.mpr fun w hw => ?_)
  exact (h w (List.mem_of_mem_filter hw)).append (by decide)

end Target

end HostBindings
