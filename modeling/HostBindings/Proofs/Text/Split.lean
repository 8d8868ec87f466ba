import HostBindings.Text.Split
import Mathlib.Data.List.Basic
import Mathlib.Data.String.Basic

/-!
Texts in parts. The parts have no separator in them, they have all other characters of the text, and
with separators between them they make up the text again.
-/

namespace HostBindings.Text

variable {p : Char → Bool}

theorem splitAtChar_ne_nil (cs : List Char) : splitAtChar p cs ≠ [] := by
  cases cs with
  | nil => exact List.cons_ne_nil _ _
  | cons c cs =>
    unfold splitAtChar
    split
    · exact List.cons_ne_nil _ _
    · split <;> exact List.cons_ne_nil _ _

theorem splitAtChar_append (before after : List Char) {c : Char} (hc : p c = true) :
    splitAtChar p (before ++ c :: after) = splitAtChar p before ++ splitAtChar p after := by
  induction before with
  | nil => simp [splitAtChar, hc]
  | cons b before ih =>
    rw [List.cons_append, splitAtChar, splitAtChar, ih]
    split
    · rfl
    · obtain ⟨part, parts, hparts⟩ := List.exists_cons_of_ne_nil (splitAtChar_ne_nil (p := p) before)
      rw [hparts]
      rfl

theorem splitAtChar_of_forall {cs : List Char} (h : ∀ c ∈ cs, p c = false) :
    splitAtChar p cs = [cs] := by
  induction cs with
  | nil => rfl
  | cons c cs ih =>
    rw [List.forall_mem_cons] at h
    rw [splitAtChar, h.1, ih h.2]
    rfl

theorem notMem_of_mem_splitAtChar {cs part : List Char} (h : part ∈ splitAtChar p cs) :
    ∀ c ∈ part, p c = false := by
  induction cs generalizing part with
  | nil =>
    rw [splitAtChar, List.mem_singleton] at h
    rw [h]
    exact List.forall_mem_nil _
  | cons c cs ih =>
    obtain ⟨first, parts, hparts⟩ := List.exists_cons_of_ne_nil (splitAtChar_ne_nil (p := p) cs)
    have hfirst := ih (hparts ▸ List.mem_cons_self)
    have hothers : ∀ part ∈ parts, ∀ c ∈ part, p c = false :=
      fun part hpart => ih (hparts ▸ List.mem_cons_of_mem first hpart)
    rw [splitAtChar, hparts] at h
    -- a separator starts a new part, any other character goes on with the first one
    split at h
    · rcases List.mem_cons.mp h with rfl | h
      · exact List.forall_mem_nil _
      · exact (List.mem_cons.mp h).elim (fun h => h ▸ hfirst) (hothers part)
    · next hc =>
      rcases List.mem_cons.mp h with rfl | h
      · exact List.forall_mem_cons.mpr ⟨Bool.eq_false_iff.mpr hc, hfirst⟩
      · exact hothers part h

theorem splitAtChar_join {separator : Char} {cs part : List Char} {parts : List (List Char)}
    (h : splitAtChar (· == separator) cs = part :: parts) :
    part ++ parts.flatMap (separator :: ·) = cs := by
  induction cs generalizing part parts with
  | nil =>
    obtain ⟨rfl, rfl⟩ := List.cons.inj h
    rfl
  | cons c cs ih =>
    obtain ⟨first, others, hothers⟩ :=
      List.exists_cons_of_ne_nil (splitAtChar_ne_nil (p := (· == separator)) cs)
    rw [splitAtChar, hothers] at h
    split at h
    · next hc =>
      obtain ⟨rfl, rfl⟩ := List.cons.inj h
      rw [beq_iff_eq.mp hc, List.nil_append, List.flatMap_cons, List.cons_append, ih hothers]
    · obtain ⟨rfl, rfl⟩ := List.cons.inj h
      rw [List.cons_append, ih hothers]

/-- The parts of a text with one separating character are the only ones that have none of it and
make up the text with separators between them. -/
theorem splitAtChar_eq_iff {separator : Char} {text : String} {parts : List String} :
    (splitAtChar (· == separator) text.toList).map String.ofList = parts ↔
      parts ≠ [] ∧ (∀ part ∈ parts, separator ∉ part.toList) ∧
        text = (String.singleton separator).intercalate parts := by
  constructor
  · rintro rfl
    refine ⟨by simpa using splitAtChar_ne_nil _, ?_, ?_⟩
    · intro part hpart hmem
      obtain ⟨cs, hcs, rfl⟩ := List.mem_map.mp hpart
      rw [String.toList_ofList] at hmem
      exact absurd (notMem_of_mem_splitAtChar hcs separator hmem) (by simp)
    · obtain ⟨first, others, hparts⟩ :=
        List.exists_cons_of_ne_nil (splitAtChar_ne_nil (p := (· == separator)) text.toList)
      have hjoin := splitAtChar_join hparts
      rw [← String.toList_inj, hparts, ← hjoin, String.toList_intercalate,
        String.toList_singleton, List.map_map]
      clear hparts hjoin
      -- each further part stands behind one separator
      induction others generalizing first with
      | nil => simp
      | cons next others ih => simpa [List.intercalate_cons_cons] using ih next
  · rintro ⟨hne, hfree, rfl⟩
    have hwhole (part : String) (h : separator ∉ part.toList) :
        splitAtChar (· == separator) part.toList = [part.toList] :=
      splitAtChar_of_forall fun c hc => beq_eq_false_iff_ne.mpr fun heq => h (heq ▸ hc)
    induction parts with
    | nil => exact absurd rfl hne
    | cons part parts ih =>
      rw [List.forall_mem_cons] at hfree
      cases parts with
      | nil => simp [hwhole part hfree.1]
      | cons next parts =>
        have htext : ((String.singleton separator).intercalate (part :: next :: parts)).toList =
            part.toList ++ separator :: ((String.singleton separator).intercalate
              (next :: parts)).toList := by
          simp [String.intercalate_cons_cons]
        rw [htext, splitAtChar_append _ _ (by simp), hwhole part hfree.1, List.map_append,
          ih (List.cons_ne_nil _ _) hfree.2]
        simp

/-- The characters of a text are those of its parts and the separating ones. -/
theorem mem_iff_splitAtChar {cs : List Char} {c : Char} (hc : p c = false) :
    c ∈ cs ↔ ∃ part ∈ splitAtChar p cs, c ∈ part := by
  induction cs with
  | nil => simp [splitAtChar]
  | cons b cs ih =>
    rw [List.mem_cons, ih, splitAtChar]
    split
    · next hb =>
      have hne : c ≠ b := by
        rintro rfl
        rw [hb] at hc
        cases hc
      simp [hne]
    · obtain ⟨first, parts, hparts⟩ := List.exists_cons_of_ne_nil (splitAtChar_ne_nil (p := p) cs)
      rw [hparts]
      simp [or_assoc]

end HostBindings.Text
