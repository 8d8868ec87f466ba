import HostBindings.Proofs.Spelling.Grammar
import Mathlib.Data.List.Chain

/-!
Canonical spellings. A type is written as its path with `::` between the words, and its arguments
in angle brackets with `, ` between them. `Spelling.canonical_round_trip` says that whatever is
read can be written in this way, and that a type is read back from its canonical spelling and from
every looser one, which has white space around its tokens or commas behind its last arguments.
-/

namespace HostBindings.Spelling

open HostBindings.Text

/-! ### Types that can be written -/

structure IsWord (w : String) : Prop where
  nonempty : w ≠ ""
  inside : ∀ c ∈ w.toList, isWordChar c = true

instance (w : String) : Decidable (IsWord w) :=
  decidable_of_iff (w ≠ "" ∧ w.toList.all isWordChar = true)
    ⟨fun h => ⟨h.1, List.all_eq_true.mp h.2⟩, fun h => ⟨h.nonempty, List.all_eq_true.mpr h.inside⟩⟩

theorem isBlank_space : isBlank ' ' = true := by decide

/-- Each path in the type has a word, consists of words and does not begin with the keyword. -/
inductive Expr.WellFormed : Expr → Prop where
  | mk {path : List String} {args : List Expr} (hne : path ≠ []) (hwords : ∀ w ∈ path, IsWord w)
      (hkeyword : path.head? ≠ some "dyn") (hargs : ∀ e ∈ args, WellFormed e) :
      WellFormed ⟨path, args⟩

mutual

def Expr.canonical : Expr → String
  | ⟨path, []⟩ => String.intercalate "::" path
  | ⟨path, e :: es⟩ =>
    String.intercalate "::" path ++ "<" ++ String.intercalate ", " (Expr.canonicals (e :: es)) ++ ">"

def Expr.canonicals : List Expr → List String
  | [] => []
  | e :: es => e.canonical :: Expr.canonicals es

end

/-! ### Looser spellings -/

def Token.text : Token → String
  | .word w => w
  | .lifetime => "'"
  | .less => "<"
  | .greater => ">"
  | .comma => ","
  | .separator => "::"
  | .ampersand => "&"
  | .plus => "+"

/-- Texts of tokens with any white space before each token and at the end. -/
inductive Spaced : List Token → List Char → Prop where
  | nil {gap : List Char} (hgap : ∀ c ∈ gap, isBlank c = true) : Spaced [] gap
  | cons {t : Token} {ts : List Token} {gap cs : List Char} (hgap : ∀ c ∈ gap, isBlank c = true)
      (h : Spaced ts cs) : Spaced (t :: ts) (gap ++ (t.text.toList ++ cs))

/-- The same tokens with commas before some closing brackets. -/
inductive WithCommas : List Token → List Token → Prop where
  | nil : WithCommas [] []
  | keep {ts us : List Token} (t : Token) (h : WithCommas ts us) : WithCommas (t :: ts) (t :: us)
  | comma {ts us : List Token} (h : WithCommas ts us) :
      WithCommas (.greater :: ts) (.comma :: .greater :: us)

/-- The text has the tokens of the spelling in their order, with any white space around them, and
it may have a comma before each closing bracket. -/
def Loosens (spelling text : String) : Prop :=
  ∃ ts us, Lexes spelling.toList ts ∧ WithCommas ts us ∧ Spaced us text.toList

/-! ### Words are read -/

theorem IsWord.exists_cons {w : String} (h : IsWord w) :
    ∃ c run, w = String.ofList (c :: run) ∧ ∀ d ∈ c :: run, isWordChar d = true := by
  cases hw : w.toList with
  | nil => exact absurd (String.toList_eq_nil_iff.mp hw) h.nonempty
  | cons c run => exact ⟨c, run, by rw [← hw, String.ofList_toList], hw ▸ h.inside⟩

theorem Lexes.isWord {cs : List Char} {ts : List Token} (h : Lexes cs ts) :
    ∀ w, .word w ∈ ts → IsWord w := by
  induction h with
  | nil => exact fun w hw => absurd hw List.not_mem_nil
  | blank _ _ ih => exact ih
  | mark ht _ ih =>
    rename_i c t cs ts
    intro w hw
    refine ih w ((List.mem_cons.mp hw).resolve_left ?_)
    -- a mark is no word
    rintro rfl
    unfold Token.ofChar? at ht
    split at ht <;> cases ht
  | separator _ ih | lifetime _ _ ih => exact fun w hw => ih w (by simpa using hw)
  | word hrun _ ih =>
    rename_i c run cs ts
    intro w hw
    rcases List.mem_cons.mp hw with heq | hw
    · cases heq
      exact ⟨by simp, by simpa using hrun.inside⟩
    · exact ih w hw

theorem IsPath.words {names : List String} {ts : List Token} (h : IsPath names ts) :
    names ≠ [] ∧ ∀ w, w ∈ names ↔ .word w ∈ ts := by
  induction h with
  | word w => simp
  | cons w _ ih => exact ⟨List.cons_ne_nil _ _, fun v => by simp [ih.2 v]⟩

def Phrase.WellFormed : Phrase → Prop
  | .type e => e.WellFormed
  | .bounds => True
  | .args es => ∀ e ∈ es, e.WellFormed

theorem Derives.wellFormed {p : Phrase} {ts : List Token} (h : Derives p ts)
    (hwords : ∀ w, .word w ∈ ts → IsWord w) : p.WellFormed := by
  induction h with
  | reference _ _ _ ih => exact ih fun w hw => hwords w (by simp [hw])
  | mutReference _ _ ih => exact ih fun w hw => hwords w (by simp [hw])
  | dyn _ _ ih _ => exact ih fun w hw => hwords w (by simp [hw])
  | path hpath hhead =>
    exact .mk hpath.words.1 (fun w hw => hwords w ((hpath.words.2 w).mp hw)) hhead
      (List.forall_mem_nil _)
  | generic hpath hhead _ ih =>
    exact .mk hpath.words.1
      (fun w hw => hwords w (List.mem_append_left _ ((hpath.words.2 w).mp hw))) hhead
      (ih fun w hw => hwords w (by simp [hw]))
  | noBounds => trivial
  | bound => trivial
  | lastArg _ ih => exact List.forall_mem_singleton.mpr (ih hwords)
  | lastArgComma _ ih =>
    exact List.forall_mem_singleton.mpr (ih fun w hw => hwords w (List.mem_append_left _ hw))
  | arg _ _ ih ihas =>
    exact List.forall_mem_cons.mpr
      ⟨ih fun w hw => hwords w (List.mem_append_left _ hw), ihas fun w hw => hwords w (by simp [hw])⟩

theorem read_eq_ok {spelling : String} {e : Expr} :
    read spelling = .ok e ↔ ∃ ts, Lexes spelling.toList ts ∧ Derives (.type e) ts := by
  rw [← parse_eq_ok]
  unfold read
  cases parse spelling <;> simp

theorem wellFormed_of_read {spelling : String} {e : Expr} (h : read spelling = .ok e) :
    e.WellFormed := by
  obtain ⟨ts, hlexes, hderives⟩ := read_eq_ok.mp h
  exact hderives.wellFormed hlexes.isWord

/-! ### Spaced tokens are read -/

def Token.IsMark : Token → Prop
  | .word _ => False
  | .lifetime => False
  | _ => True

def Apart (ts : List Token) : Prop :=
  ts.IsChain fun t u => t.IsMark ∨ u.IsMark

theorem Apart.glue {ts us : List Token} {t : Token} (ht : t.IsMark) (hts : Apart ts)
    (hus : Apart us) : Apart (ts ++ t :: us) := by
  refine List.isChain_append.mpr ⟨hts, List.isChain_cons.mpr ⟨fun _ _ => Or.inl ht, hus⟩, ?_⟩
  rintro _ _ _ ⟨⟩
  exact Or.inr ht

theorem Lexes.gap {gap cs : List Char} {ts : List Token} (hgap : ∀ c ∈ gap, isBlank c = true)
    (h : Lexes cs ts) : Lexes (gap ++ cs) ts := by
  induction gap with
  | nil => exact h
  | cons c gap ih =>
    rw [List.forall_mem_cons] at hgap
    exact .blank hgap.1 (ih hgap.2)

theorem Lexes.token {t : Token} {cs : List Char} {ts : List Token} (h : Lexes cs ts)
    (hword : ∀ w, t = .word w → IsWord w)
    (hend : t.IsMark ∨ ∀ c ∈ cs.head?, isWordChar c = false) :
    Lexes (t.text.toList ++ cs) (t :: ts) := by
  cases t with
  | word w =>
    obtain ⟨c, run, rfl, hrun⟩ := (hword w rfl).exists_cons
    rw [Token.text, String.toList_ofList]
    exact .word ⟨hrun, hend.resolve_left id⟩ h
  | lifetime =>
    have hrun : IsRun [] cs := ⟨List.forall_mem_nil _, hend.resolve_left id⟩
    exact .lifetime hrun h
  | separator => exact .separator h
  | less | greater | comma | ampersand | plus => exact .mark rfl h

theorem Spaced.gap {gap cs : List Char} {ts : List Token} (hgap : ∀ c ∈ gap, isBlank c = true)
    (h : Spaced ts cs) : Spaced ts (gap ++ cs) := by
  cases h with
  | nil hend => exact .nil (List.forall_mem_append.mpr ⟨hgap, hend⟩)
  | cons hfirst h =>
    rw [← List.append_assoc]
    exact .cons (List.forall_mem_append.mpr ⟨hgap, hfirst⟩) h

/-- A text that begins with a mark continues no word before it. -/
theorem Spaced.head {ts : List Token} {cs : List Char} (h : Spaced ts cs)
    (hmark : ∀ t ∈ ts.head?, t.IsMark) : ∀ c ∈ cs.head?, isWordChar c = false := by
  -- a gap is blank; without one the text goes on with what follows
  have hblank : ∀ {gap rest : List Char}, (∀ c ∈ gap, isBlank c = true) →
      (∀ c ∈ rest.head?, isWordChar c = false) →
        ∀ c ∈ (gap ++ rest).head?, isWordChar c = false := by
    intro gap rest hgap hrest
    cases gap with
    | nil => exact hrest
    | cons d gap =>
      rintro _ ⟨⟩
      exact isWordChar_of_isBlank (hgap d List.mem_cons_self)
  cases h with
  | nil hgap =>
    have h := @hblank cs [] hgap nofun
    rwa [List.append_nil] at h
  | cons hgap h =>
    rename_i t ts gap cs
    refine hblank hgap ?_
    have ht := hmark t rfl
    cases t with
    | word w => exact ht.elim
    | lifetime => exact ht.elim
    | less | greater | comma | separator | ampersand | plus =>
      rintro _ ⟨⟩
      decide

theorem lexes_of_spaced {ts : List Token} {cs : List Char} (h : Spaced ts cs) (hapart : Apart ts)
    (hwords : ∀ w, .word w ∈ ts → IsWord w) : Lexes cs ts := by
  induction h with
  | nil hgap =>
    rename_i gap
    rw [← List.append_nil gap]
    exact .gap hgap .nil
  | @cons t ts gap cs hgap h ih =>
    obtain ⟨hnext, hrest⟩ := List.isChain_cons.mp hapart
    have hlexes := ih hrest fun w hw => hwords w (List.mem_cons_of_mem t hw)
    refine .gap hgap (hlexes.token (fun w hw => hwords w (hw ▸ List.mem_cons_self)) ?_)
    by_cases ht : t.IsMark
    · exact Or.inl ht
    · exact Or.inr (h.head fun u hu => (hnext u hu).resolve_left ht)

/-! ### More commas -/

theorem WithCommas.refl (ts : List Token) : WithCommas ts ts := by
  induction ts with
  | nil => exact .nil
  | cons t ts ih => exact ih.keep t

theorem WithCommas.mem {ts us : List Token} (h : WithCommas ts us) :
    ∀ t ∈ us, t ∈ ts ∨ t = .comma := by
  induction h with
  | nil => exact fun t ht => Or.inl ht
  | keep t _ ih =>
    intro u hu
    rcases List.mem_cons.mp hu with rfl | hu
    · exact Or.inl List.mem_cons_self
    · exact (ih u hu).imp_left (List.mem_cons_of_mem t)
  | comma _ ih =>
    intro u hu
    rw [List.mem_cons, List.mem_cons] at hu
    rcases hu with rfl | rfl | hu
    · exact Or.inr rfl
    · exact Or.inl List.mem_cons_self
    · exact (ih u hu).imp_left (List.mem_cons_of_mem _)

theorem WithCommas.apart {ts us : List Token} (h : WithCommas ts us) (hts : Apart ts) :
    Apart us ∧ ∀ u ∈ us.head?, u ∈ ts.head? ∨ u.IsMark := by
  induction h with
  | nil => exact ⟨hts, nofun⟩
  | keep t _ ih =>
    obtain ⟨hnext, hrest⟩ := List.isChain_cons.mp hts
    obtain ⟨hus, hhead⟩ := ih hrest
    refine ⟨List.isChain_cons.mpr ⟨fun u hu => ?_, hus⟩, fun u hu => Or.inl hu⟩
    rcases hhead u hu with hu | hu
    · exact hnext u hu
    · exact Or.inr hu
  | comma _ ih =>
    obtain ⟨hus, _⟩ := ih (List.isChain_cons.mp hts).2
    refine ⟨List.isChain_cons.mpr ⟨fun _ _ => Or.inl trivial, ?_⟩, ?_⟩
    · exact List.isChain_cons.mpr ⟨fun _ _ => Or.inl trivial, hus⟩
    · rintro _ ⟨⟩
      exact Or.inr trivial

theorem WithCommas.exists_append {a b us : List Token} (h : WithCommas (a ++ b) us) :
    ∃ x y, us = x ++ y ∧ WithCommas a x ∧ WithCommas b y := by
  induction a generalizing us with
  | nil => exact ⟨[], us, rfl, .nil, h⟩
  | cons t a ih =>
    cases h with
    | keep _ h =>
      obtain ⟨x, y, rfl, hx, hy⟩ := ih h
      exact ⟨t :: x, y, rfl, hx.keep t, hy⟩
    | comma h =>
      obtain ⟨x, y, rfl, hx, hy⟩ := ih h
      exact ⟨.comma :: .greater :: x, y, rfl, hx.comma, hy⟩

theorem WithCommas.eq_of_notMem {ts us : List Token} (h : WithCommas ts us)
    (hts : .greater ∉ ts) : us = ts := by
  induction h with
  | nil => rfl
  | keep t _ ih => rw [ih fun hmem => hts (List.mem_cons_of_mem t hmem)]
  | comma => exact absurd List.mem_cons_self hts

/-! ### The tokens of a type -/

def pathTokens (path : List String) : List Token :=
  (path.map Token.word).intersperse .separator

mutual

def Expr.tokens : Expr → List Token
  | ⟨path, []⟩ => pathTokens path
  | ⟨path, e :: es⟩ => pathTokens path ++ .less :: (argTokens (e :: es) ++ [.greater])

def argTokens : List Expr → List Token
  | [] => []
  | [e] => e.tokens
  | e :: e' :: es => e.tokens ++ .comma :: argTokens (e' :: es)

end

theorem isPath_pathTokens {path : List String} (h : path ≠ []) :
    IsPath path (pathTokens path) := by
  induction path with
  | nil => exact absurd rfl h
  | cons w path ih =>
    cases path with
    | nil => exact .word w
    | cons v path => exact .cons w (ih (List.cons_ne_nil _ _))

theorem IsPath.tokens {names : List String} {ts : List Token} (h : IsPath names ts) :
    Apart ts ∧ .greater ∉ ts := by
  induction h with
  | word w => exact ⟨List.isChain_singleton _, by simp⟩
  | cons w _ ih =>
    refine ⟨List.isChain_cons.mpr ⟨?_, List.isChain_cons.mpr ⟨fun _ _ => Or.inl trivial, ih.1⟩⟩, ?_⟩
    · rintro _ ⟨⟩
      exact Or.inr trivial
    · simpa using ih.2

theorem Spaced.append {ts us : List Token} {cs ds : List Char} (h : Spaced ts cs)
    (hus : Spaced us ds) : Spaced (ts ++ us) (cs ++ ds) := by
  induction h with
  | nil hgap => exact hus.gap hgap
  | cons hgap _ ih =>
    rw [List.append_assoc, List.append_assoc]
    exact .cons hgap ih

theorem Spaced.empty : Spaced [] [] :=
  .nil (List.forall_mem_nil _)

/-- A token right behind what stands before it. -/
theorem Spaced.token (t : Token) {ts : List Token} {cs : List Char} (h : Spaced ts cs) :
    Spaced (t :: ts) (t.text.toList ++ cs) :=
  @Spaced.cons t ts [] cs (List.forall_mem_nil _) h

theorem spaced_pathTokens (path : List String) :
    Spaced (pathTokens path) (String.intercalate "::" path).toList := by
  induction path with
  | nil => exact .empty
  | cons w path ih =>
    cases path with
    | nil =>
      have h := Spaced.empty.token (.word w)
      rw [List.append_nil] at h
      exact h
    | cons v path =>
      rw [String.intercalate_cons_cons, String.toList_append, String.toList_append,
        List.append_assoc]
      exact (ih.token .separator).token (.word w)

theorem spaced_argTokens {es : List Expr} (h : ∀ e ∈ es, Spaced e.tokens e.canonical.toList) :
    Spaced (argTokens es) (String.intercalate ", " (Expr.canonicals es)).toList := by
  induction es with
  | nil => exact .empty
  | cons e es ih =>
    obtain ⟨he, hes⟩ := List.forall_mem_cons.mp h
    cases es with
    | nil => exact he
    | cons e' es =>
      have hgap : ∀ c ∈ [' '], isBlank c = true := List.forall_mem_singleton.mpr isBlank_space
      rw [Expr.canonicals, Expr.canonicals, String.intercalate_cons_cons, String.toList_append,
        String.toList_append, List.append_assoc]
      exact he.append (((ih hes).gap hgap).token .comma)

theorem WithCommas.of_greater {us : List Token} (h : WithCommas [.greater] us) :
    us = [.greater] ∨ us = [.comma, .greater] := by
  cases h with
  | keep _ h => cases h; exact Or.inl rfl
  | comma h => cases h; exact Or.inr rfl

structure Expr.Canonical (e : Expr) : Prop where
  spaced : Spaced e.tokens e.canonical.toList
  apart : Apart e.tokens
  words : ∀ w, .word w ∈ e.tokens → IsWord w
  derives : ∀ us, WithCommas e.tokens us → Derives (.type e) us

section Args

variable {es : List Expr}

theorem words_argTokens (h : ∀ e ∈ es, e.Canonical) : ∀ w, .word w ∈ argTokens es → IsWord w := by
  induction es with
  | nil => exact fun _ hw => absurd hw List.not_mem_nil
  | cons e es ih =>
    obtain ⟨he, hes⟩ := List.forall_mem_cons.mp h
    cases es with
    | nil => exact he.words
    | cons e' es =>
      intro w hw
      rcases List.mem_append.mp hw with hw | hw
      · exact he.words w hw
      · exact ih hes w ((List.mem_cons.mp hw).resolve_left nofun)

theorem apart_argTokens (h : ∀ e ∈ es, e.Canonical) : Apart (argTokens es) := by
  induction es with
  | nil => exact List.isChain_nil
  | cons e es ih =>
    obtain ⟨he, hes⟩ := List.forall_mem_cons.mp h
    cases es with
    | nil => exact he.apart
    | cons e' es => exact he.apart.glue trivial (ih hes)

/-- The last argument may have a comma behind it. -/
theorem derives_argTokens (h : ∀ e ∈ es, e.Canonical) (hne : es ≠ []) :
    ∀ us, WithCommas (argTokens es) us →
      Derives (.args es) us ∧ Derives (.args es) (us ++ [.comma]) := by
  induction es with
  | nil => exact absurd rfl hne
  | cons e es ih =>
    obtain ⟨he, hes⟩ := List.forall_mem_cons.mp h
    intro us hus
    cases es with
    | nil => exact ⟨.lastArg (he.derives us hus), .lastArgComma (he.derives us hus)⟩
    | cons e' es =>
      obtain ⟨x, y, rfl, hx, hy⟩ := hus.exists_append
      cases hy with
      | keep _ hy =>
        obtain ⟨hlast, hcomma⟩ := ih hes (List.cons_ne_nil _ _) _ hy
        refine ⟨.arg (he.derives x hx) hlast, ?_⟩
        rw [List.append_assoc]
        exact .arg (he.derives x hx) hcomma

end Args

section Canonical

variable {path : List String} {e : Expr} {es : List Expr}

theorem canonical_path (hpath : IsPath path (pathTokens path)) (hwords : ∀ w ∈ path, IsWord w)
    (hkeyword : path.head? ≠ some "dyn") : Expr.Canonical ⟨path, []⟩ where
  spaced := spaced_pathTokens path
  apart := hpath.tokens.1
  words w hw := hwords w ((hpath.words.2 w).mpr hw)
  derives us hus := by
    rw [hus.eq_of_notMem hpath.tokens.2]
    exact .path hpath hkeyword

theorem canonical_generic (hpath : IsPath path (pathTokens path)) (hwords : ∀ w ∈ path, IsWord w)
    (hkeyword : path.head? ≠ some "dyn") (hargs : ∀ a ∈ e :: es, a.Canonical) :
    Expr.Canonical ⟨path, e :: es⟩ where
  spaced := by
    have hlast : Spaced [.greater] ">".toList := Spaced.empty.token .greater
    rw [Expr.canonical, String.toList_append, String.toList_append, String.toList_append,
      List.append_assoc, List.append_assoc]
    exact (spaced_pathTokens path).append
      (((spaced_argTokens fun a ha => (hargs a ha).spaced).append hlast).token .less)
  apart := hpath.tokens.1.glue trivial ((apart_argTokens hargs).glue trivial List.isChain_nil)
  words w hw := by
    rcases List.mem_append.mp hw with hw | hw
    · exact hwords w ((hpath.words.2 w).mpr hw)
    · exact words_argTokens hargs w (by simpa using hw)
  derives us hus := by
    obtain ⟨x, y, rfl, hx, hy⟩ := hus.exists_append
    rw [hx.eq_of_notMem hpath.tokens.2]
    cases hy with
    | keep _ hy =>
      obtain ⟨as, z, rfl, has, hz⟩ := hy.exists_append
      obtain ⟨hlast, hcomma⟩ := derives_argTokens hargs (List.cons_ne_nil _ _) as has
      -- a comma may stand before the closing bracket
      rcases hz.of_greater with rfl | rfl
      · exact .generic hpath hkeyword hlast
      · have h := Derives.generic hpath hkeyword hcomma
        rwa [List.append_assoc] at h

theorem Expr.WellFormed.canonical (h : e.WellFormed) : Expr.Canonical e := by
  induction h with
  | @mk path args hne hwords hkeyword _ ih =>
    have hpath := isPath_pathTokens hne
    cases args with
    | nil => exact canonical_path hpath hwords hkeyword
    | cons e es => exact canonical_generic hpath hwords hkeyword ih

/-- The canonical spelling has one list of tokens. -/
theorem Expr.Canonical.lexes (h : Expr.Canonical e) :
    ∀ ts, Lexes e.canonical.toList ts ↔ ts = e.tokens := by
  have htokens := lexes_of_spaced h.spaced h.apart h.words
  refine fun ts => ⟨fun hts => ?_, fun hts => hts ▸ htokens⟩
  exact Except.ok.inj ((scan_eq_ok.mpr hts).symm.trans (scan_eq_ok.mpr htokens))

theorem Expr.Canonical.loosens (h : Expr.Canonical e) : Loosens e.canonical e.canonical :=
  ⟨e.tokens, e.tokens, (h.lexes _).mpr rfl, .refl _, h.spaced⟩

theorem Expr.Canonical.read_of_loosens (h : Expr.Canonical e) {text : String}
    (htext : Loosens e.canonical text) : read text = .ok e := by
  obtain ⟨ts, us, hts, hus, hspaced⟩ := htext
  obtain rfl := (h.lexes ts).mp hts
  refine read_eq_ok.mpr ⟨us, lexes_of_spaced hspaced (hus.apart h.apart).1 ?_, h.derives us hus⟩
  exact fun w hw => h.words w ((hus.mem _ hw).resolve_right nofun)

end Canonical

/-- What is read can be written, and what can be written is read back from its canonical spelling
and from every looser one. -/
theorem canonical_round_trip :
    (∀ spelling e, read spelling = .ok e → e.WellFormed) ∧
    ∀ e : Expr, e.WellFormed → read e.canonical = .ok e ∧
      ∀ text, Loosens e.canonical text → read text = .ok e := by
  refine ⟨fun _ _ => wellFormed_of_read, fun e he => ?_⟩
  exact ⟨he.canonical.read_of_loosens he.canonical.loosens, fun _ => he.canonical.read_of_loosens⟩

/-- A list of items, with white space of two kinds and a comma behind the argument. -/
theorem canonical_round_trip_list :
    let list : Expr := ⟨["Vec"], [⟨["demo", "Item"], []⟩]⟩
    list.WellFormed ∧ list.canonical = "Vec<demo::Item>" ∧ read "Vec<demo::Item>" = .ok list ∧
      read " Vec < demo ::Item\t,\u2003> " = .ok list := by
  intro list
  have hitem : Expr.WellFormed ⟨["demo", "Item"], []⟩ :=
    .mk (by decide) (by decide) (by decide) (List.forall_mem_nil _)
  have hwell : list.WellFormed :=
    .mk (by decide) (by decide) (by decide) (List.forall_mem_singleton.mpr hitem)
  have hcanonical : list.canonical = "Vec<demo::Item>" := by decide
  obtain ⟨hread, hloose⟩ := canonical_round_trip.2 list hwell
  refine ⟨hwell, hcanonical, hcanonical ▸ hread, hloose _ ?_⟩
  refine ⟨list.tokens, [.word "Vec", .less, .word "demo", .separator, .word "Item", .comma, .greater],
    (hwell.canonical.lexes _).mpr rfl, ?_, ?_⟩
  · exact (((((WithCommas.nil.comma).keep _).keep _).keep _).keep _).keep _
  · have hgap : ∀ gap : List Char, gap.all isBlank = true → ∀ c ∈ gap, isBlank c = true :=
      fun _ => List.all_eq_true.mp
    exact .cons (hgap [' '] rfl) <| .cons (hgap [' '] rfl) <| .cons (hgap [' '] rfl) <|
      .cons (hgap [' '] rfl) <| .cons (hgap [] rfl) <| .cons (hgap ['\t'] rfl) <|
      .cons (hgap ['\u2003'] rfl) <| .nil (hgap [' '] rfl)

end HostBindings.Spelling
