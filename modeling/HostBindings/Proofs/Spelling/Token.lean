import HostBindings.Proofs.Traversal
import HostBindings.Spelling.Token
import Mathlib.Data.List.TakeWhile

/-!
The tokens of a spelling, as a relation. `Spelling.scan_eq_ok` says that a text is taken apart
exactly in the way that the relation allows, so it has one list of tokens at most.
-/

namespace HostBindings

/-! ### Character classes -/

namespace Text

def blankCodes : List Nat :=
  [0x9, 0xA, 0xB, 0xC, 0xD, 0x20, 0x85, 0xA0, 0x1680, 0x2000, 0x2001, 0x2002, 0x2003, 0x2004,
   0x2005, 0x2006, 0x2007, 0x2008, 0x2009, 0x200A, 0x2028, 0x2029, 0x202F, 0x205F, 0x3000]

theorem toNat_mem_blankCodes {c : Char} (h : isBlank c) : c.toNat ∈ blankCodes := by
  simp only [isBlank, Bool.or_eq_true, Bool.and_eq_true, decide_eq_true_eq, beq_iff_eq] at h
  simp only [blankCodes, List.mem_cons, List.not_mem_nil, or_false]
  omega

theorem isWordChar_of_isBlank {c : Char} (h : isBlank c) : isWordChar c = false := by
  have hnone : ∀ n ∈ blankCodes, isWordChar (Char.ofNat n) = false := by decide +kernel
  rw [← Char.ofNat_toNat c]
  exact hnone _ (toNat_mem_blankCodes h)

end Text

namespace Spelling

open HostBindings.Text

theorem classes_of_ofChar? {c : Char} {t : Token} (h : Token.ofChar? c = some t) :
    isBlank c = false ∧ isWordChar c = false := by
  unfold Token.ofChar? at h
  split at h
  case h_6 => cases h
  all_goals decide

/-- The classes that are tried before words hold no character of a word. -/
theorem classes_of_isWordChar {c : Char} (h : isWordChar c) :
    isBlank c = false ∧ Token.ofChar? c = none ∧ c ≠ ':' ∧ c ≠ '\'' := by
  refine ⟨?_, ?_, ?_, ?_⟩
  · by_contra hb
    rw [isWordChar_of_isBlank (Bool.not_eq_false _ ▸ hb)] at h
    cases h
  · cases ht : Token.ofChar? c with
    | none => rfl
    | some t =>
      rw [(classes_of_ofChar? ht).2] at h
      cases h
  · rintro rfl
    exact absurd h (by decide)
  · rintro rfl
    exact absurd h (by decide)

/-! ### Tokens -/

/-- All letters, digits and underscores from here to the rest. -/
structure IsRun (run rest : List Char) : Prop where
  inside : ∀ c ∈ run, isWordChar c = true
  behind : ∀ c ∈ rest.head?, isWordChar c = false

theorem isRun_takeWhile (cs : List Char) :
    IsRun (cs.takeWhile isWordChar) (cs.dropWhile isWordChar) where
  inside := fun _ hc => List.mem_takeWhile_imp hc
  behind := by
    intro c hc
    have h := List.head?_dropWhile_not isWordChar cs
    rw [Option.mem_def.mp hc] at h
    simpa using h

theorem IsRun.takeWhile_append {run rest : List Char} (h : IsRun run rest) :
    (run ++ rest).takeWhile isWordChar = run ∧ (run ++ rest).dropWhile isWordChar = rest := by
  have hrest : rest.takeWhile isWordChar = [] ∧ rest.dropWhile isWordChar = rest := by
    cases rest with
    | nil => exact ⟨rfl, rfl⟩
    | cons c cs =>
      have hc := h.behind c rfl
      exact ⟨by rw [List.takeWhile_cons, hc]; rfl, by rw [List.dropWhile_cons, hc]; rfl⟩
  rw [List.takeWhile_append_of_pos h.inside, List.dropWhile_append_of_pos h.inside, hrest.1,
    hrest.2, List.append_nil]
  exact ⟨rfl, rfl⟩

/-- The token lists of texts. A word and a lifetime reach as far as they can. -/
inductive Lexes : List Char → List Token → Prop
  | nil : Lexes [] []
  | blank {c : Char} {cs : List Char} {ts : List Token} :
    isBlank c = true → Lexes cs ts → Lexes (c :: cs) ts
  | mark {c : Char} {t : Token} {cs : List Char} {ts : List Token} :
    Token.ofChar? c = some t → Lexes cs ts → Lexes (c :: cs) (t :: ts)
  | separator {cs : List Char} {ts : List Token} :
    Lexes cs ts → Lexes (':' :: ':' :: cs) (.separator :: ts)
  | lifetime {run cs : List Char} {ts : List Token} :
    IsRun run cs → Lexes cs ts → Lexes ('\'' :: (run ++ cs)) (.lifetime :: ts)
  | word {c : Char} {run cs : List Char} {ts : List Token} :
    IsRun (c :: run) cs → Lexes cs ts →
      Lexes (c :: (run ++ cs)) (.word (String.ofList (c :: run)) :: ts)

theorem scan_of_lexes {cs : List Char} {ts : List Token} (h : Lexes cs ts) :
    scan cs = .ok ts := by
  -- the classes of characters are disjoint, so each case skips the tests of the others
  induction h with
  | nil => rw [scan.eq_def]
  | blank hc _ ih =>
    rw [scan.eq_def]
    dsimp only
    rw [if_pos hc, ih]
  | mark ht _ ih =>
    rw [scan.eq_def]
    dsimp only
    rw [if_neg (by rw [(classes_of_ofChar? ht).1]; decide), ht]
    simp only [ih]
    rfl
  | separator _ ih =>
    rw [scan.eq_def]
    dsimp only
    rw [if_neg (by decide)]
    simp only [Token.ofChar?, ih]
    rfl
  | lifetime hrun _ ih =>
    rw [scan.eq_def]
    dsimp only
    rw [if_neg (by decide)]
    simp only [Token.ofChar?, hrun.takeWhile_append.2, ih]
    rfl
  | @word c run cs ts hrun _ ih =>
    have hc := hrun.inside c List.mem_cons_self
    obtain ⟨hb, ht, hcolon, hquote⟩ := classes_of_isWordChar hc
    have hrest : IsRun run cs := ⟨fun d hd => hrun.inside d (List.mem_cons_of_mem c hd), hrun.behind⟩
    rw [scan.eq_def]
    dsimp only
    rw [if_neg (by rw [hb]; decide), ht]
    simp only [if_neg hcolon, if_neg hquote, if_pos hc, hrest.takeWhile_append.1,
      hrest.takeWhile_append.2, ih]
    rfl

theorem lexes_of_scan {cs : List Char} {ts : List Token} (h : scan cs = .ok ts) :
    Lexes cs ts := by
  -- a run is what `takeWhile` takes, so it is followed by no character of a word
  fun_induction scan cs generalizing ts with
  | case1 =>
    cases h
    exact .nil
  | case2 c rest hb ih => exact .blank hb (ih h)
  | case3 c rest _ t ht ih =>
    obtain ⟨ts, hts, rfl⟩ := map_eq_ok.mp h
    exact .mark ht (ih hts)
  | case4 _ _ rest ih =>
    obtain ⟨ts, hts, rfl⟩ := map_eq_ok.mp h
    exact .separator (ih hts)
  | case5 => cases h
  | case6 rest _ _ _ _ ih =>
    obtain ⟨ts, hts, rfl⟩ := map_eq_ok.mp h
    have hrun := Lexes.lifetime (isRun_takeWhile rest) (ih hts)
    rwa [List.takeWhile_append_dropWhile] at hrun
  | case7 c rest _ _ _ _ hc _ ih =>
    obtain ⟨ts, hts, rfl⟩ := map_eq_ok.mp h
    have hrun := isRun_takeWhile rest
    have hword : IsRun (c :: rest.takeWhile isWordChar) (rest.dropWhile isWordChar) :=
      ⟨List.forall_mem_cons.mpr ⟨hc, hrun.inside⟩, hrun.behind⟩
    have hlexes := Lexes.word hword (ih hts)
    rwa [List.takeWhile_append_dropWhile] at hlexes
  | case8 => cases h

/-- A text is taken apart exactly as the relation says. -/
theorem scan_eq_ok {cs : List Char} {ts : List Token} : scan cs = .ok ts ↔ Lexes cs ts :=
  ⟨lexes_of_scan, scan_of_lexes⟩

end Spelling

end HostBindings
