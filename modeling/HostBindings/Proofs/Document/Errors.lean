import HostBindings.Document
import HostBindings.Proofs.Traversal

/-!
Errors of documents. Reading the text of a document knows nothing of the file it comes from, so its
errors carry no path, and the file is named exactly once.
-/

namespace HostBindings

namespace CatalogError

def paths : CatalogError → List String
  | .io path _ => [path]
  | .inFile path e => path :: e.paths
  | _ => []

theorem atFile_of_paths_eq_nil {e : CatalogError} (h : e.paths = []) (path : String) :
    e.atFile path = .inFile path e := by
  cases e with
  | inFile p e => cases h
  | _ => rfl

end CatalogError

def Pathless {α : Type} (x : Except CatalogError α) : Prop :=
  ∀ e, x = .error e → e.paths = []

namespace Pathless

variable {α β : Type}

theorem ok (a : α) : Pathless (.ok a) :=
  fun _ h => nomatch h

theorem error {e : CatalogError} (h : e.paths = []) : Pathless (α := α) (.error e) :=
  fun _ he => Except.error.inj he ▸ h

theorem bind {x : Except CatalogError α} {f : α → Except CatalogError β} (hx : Pathless x)
    (hf : ∀ a, Pathless (f a)) : Pathless (x >>= f) := by
  cases x with
  | error e => exact error (hx e rfl)
  | ok a => exact hf a

theorem map {x : Except CatalogError α} (hx : Pathless x) (f : α → β) : Pathless (x.map f) := by
  cases x with
  | error e => exact error (hx e rfl)
  | ok a => exact ok (f a)

theorem ite {p : Prop} [Decidable p] {x y : Except CatalogError α} (hx : Pathless x)
    (hy : Pathless y) : Pathless (if p then x else y) := by
  split
  · exact hx
  · exact hy

theorem mapM {f : α → Except CatalogError β} (hf : ∀ a, Pathless (f a)) (as : List α) :
    Pathless (as.mapM f) := by
  induction as with
  | nil => exact ok []
  | cons a as ih =>
    rw [List.mapM_cons]
    exact (hf a).bind fun b => ih.bind fun bs => ok (b :: bs)

end Pathless

namespace Spelling

theorem pathless_read (spelling : String) : Pathless (read spelling) := by
  unfold read
  split
  · exact .ok _
  · exact .error rfl

theorem pathless_elementName (spelling : String) : Pathless (elementName spelling) := by
  unfold elementName
  split
  · exact .error (pathless_read spelling _ ‹_›)
  · split
    · exact .ite (.error rfl) (.ite (.error rfl) (.ite (.error rfl) (.ok _)))
    · exact .error rfl

theorem pathless_callbackName (spelling : String) : Pathless (callbackName spelling) := by
  unfold callbackName
  split
  · exact .error (pathless_read spelling _ ‹_›)
  · exact .ite (.error rfl) (.ok _)

theorem pathless_recordName (spelling : String) : Pathless (recordName spelling) := by
  unfold recordName
  split
  · exact .error (pathless_read spelling _ ‹_›)
  · exact .ite (.error rfl) (.ite (.error rfl) (.ok _))

end Spelling

namespace Document

open HostBindings.Json

variable (fields : Fields) (key context : String) (v : Value)

theorem pathless_field : Pathless (field fields key context) := by
  unfold field
  split
  · exact .ok _
  · exact .error rfl

theorem pathless_textField : Pathless (textField fields key context) := by
  refine (pathless_field fields key context).bind fun v => ?_
  split
  · exact .ok _
  · exact .error rfl

theorem pathless_boolField : Pathless (boolField fields key context) := by
  refine (pathless_field fields key context).bind fun v => ?_
  split
  · exact .ok _
  · exact .error rfl

theorem pathless_listField : Pathless (listField fields key context) := by
  refine (pathless_field fields key context).bind fun v => ?_
  split
  · exact .ok _
  · exact .error rfl

theorem pathless_objectFields : Pathless (objectFields v key context) := by
  unfold objectFields
  split
  · exact .ok _
  · exact .error rfl

theorem pathless_typeOfTag (tag spelling : String) : Pathless (typeOfTag tag spelling context) := by
  unfold typeOfTag
  split
  · exact .ok _
  · split
    · exact .ok _
    · exact (Spelling.pathless_recordName spelling).map _
    · exact (Spelling.pathless_callbackName spelling).map _
    · exact .error rfl
    · exact .error rfl

theorem pathless_elementOfTag (tag spelling : String) :
    Pathless (elementOfTag tag spelling context) := by
  unfold elementOfTag
  split
  · exact .ok _
  · split
    · exact (Spelling.pathless_elementName spelling).map _
    all_goals exact .error rfl

theorem pathless_readType (spelling : String) : Pathless (readType v spelling context) := by
  unfold readType
  split
  · exact pathless_typeOfTag context _ spelling
  · exact (pathless_elementOfTag context _ spelling).map _
  · split
    · exact .error rfl
    · exact .error rfl
  · exact .error rfl

theorem pathless_readSlot (owner : String) : Pathless (readSlot owner v) :=
  (pathless_objectFields _ _ v).bind fun fields =>
    (pathless_textField fields _ _).bind fun _ =>
    (pathless_textField fields _ _).bind fun spelling =>
    (pathless_field fields _ _).bind fun type =>
    (pathless_readType _ type spelling).bind fun _ => .ok _

theorem pathless_readMethod (interface : String) : Pathless (readMethod interface v) :=
  (pathless_objectFields _ _ v).bind fun fields =>
    (pathless_textField fields _ _).bind fun _ =>
    (pathless_textField fields _ _).bind fun spelling =>
    (pathless_field fields _ _).bind fun type =>
    (pathless_readType _ type spelling).bind fun _ =>
    (pathless_listField fields _ _).bind fun params =>
    (Pathless.mapM (fun param => pathless_readSlot param _) params).bind fun _ => .ok _

theorem pathless_readInterface : Pathless (readInterface fields) :=
  (pathless_textField fields _ _).bind fun _ =>
    (pathless_listField fields _ _).bind fun methods =>
    (Pathless.mapM (fun method => pathless_readMethod method _) methods).bind fun _ =>
    (pathless_textField fields _ _).bind fun _ =>
    (pathless_textField fields _ _).bind fun _ =>
    (pathless_boolField fields _ _).bind fun _ => .ok _

theorem pathless_readRecord : Pathless (readRecord fields) :=
  (pathless_textField fields _ _).bind fun _ =>
    (pathless_listField fields _ _).bind fun slots =>
    (Pathless.mapM (fun slot => pathless_readSlot slot _) slots).bind fun _ =>
    (pathless_textField fields _ _).bind fun _ =>
    (pathless_textField fields _ _).bind fun _ => .ok _

theorem pathless_ofValue : Pathless (ofValue v) := by
  refine (pathless_objectFields _ _ v).bind fun fields => ?_
  refine (pathless_textField fields _ _).bind fun kind => ?_
  split
  · exact (pathless_readInterface fields).map _
  · exact (pathless_readRecord fields).map _
  · exact .error rfl

theorem pathless_ofText (text : String) : Pathless (ofText text) := by
  unfold ofText
  split
  · exact pathless_ofValue _
  · exact .error rfl

end Document

end HostBindings
