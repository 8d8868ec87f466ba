import HostBindings.Proofs.Spelling.Reading
import HostBindings.Proofs.Spelling.Token

/-!
The grammar of spellings as a relation. Nothing in it says how far a part reaches: in
`dyn A + dyn B + C` the last bound may belong to either `dyn`. `Spelling.read_verdict` says that
reading, which always takes the longest part, accepts exactly the spellings that the grammar
derives, and gives the type that they stand for.
-/

namespace HostBindings.Spelling

inductive IsPath : List String → List Token → Prop
  | word (w : String) : IsPath [w] [.word w]
  | cons (w : String) {names : List String} {ts : List Token} :
    IsPath names ts → IsPath (w :: names) (.word w :: .separator :: ts)

/-- What tokens may stand for: a type, further bounds of a `dyn` type, or the arguments between
two brackets. -/
inductive Phrase where
  | type (e : Expr)
  | bounds
  | args (es : List Expr)

/-- The tokens of a phrase. A reference stands for the type behind it and a `dyn` type for its
first bound. The word `dyn` opens no path, and a type behind a reference without `mut` does not
begin with that word. -/
inductive Derives : Phrase → List Token → Prop
  | reference {lifetime ts : List Token} {e : Expr} :
    lifetime = [] ∨ lifetime = [.lifetime] → ts.head? ≠ some (.word "mut") →
      Derives (.type e) ts → Derives (.type e) (.ampersand :: (lifetime ++ ts))
  | mutReference {lifetime ts : List Token} {e : Expr} :
    lifetime = [] ∨ lifetime = [.lifetime] →
      Derives (.type e) ts → Derives (.type e) (.ampersand :: (lifetime ++ .word "mut" :: ts))
  | dyn {ts bs : List Token} {e : Expr} :
    Derives (.type e) ts → Derives .bounds bs → Derives (.type e) (.word "dyn" :: (ts ++ bs))
  | path {names : List String} {ts : List Token} :
    IsPath names ts → names.head? ≠ some "dyn" → Derives (.type ⟨names, []⟩) ts
  | generic {names : List String} {ts as : List Token} {es : List Expr} :
    IsPath names ts → names.head? ≠ some "dyn" → Derives (.args es) as →
      Derives (.type ⟨names, es⟩) (ts ++ .less :: (as ++ [.greater]))
  | noBounds : Derives .bounds []
  | bound {ts bs : List Token} {e : Expr} :
    Derives (.type e) ts → Derives .bounds bs → Derives .bounds (.plus :: (ts ++ bs))
  | lastArg {ts : List Token} {e : Expr} : Derives (.type e) ts → Derives (.args [e]) ts
  | lastArgComma {ts : List Token} {e : Expr} :
    Derives (.type e) ts → Derives (.args [e]) (ts ++ [.comma])
  | arg {ts as : List Token} {e : Expr} {es : List Expr} :
    Derives (.type e) ts → Derives (.args es) as → Derives (.args (e :: es)) (ts ++ .comma :: as)

/-! ### Paths -/

theorem isPath_of_parsePath {tokens after : List Token} {names : List String}
    (h : parsePath tokens = .ok (names, after)) :
    ∃ ts, tokens = ts ++ after ∧ ∀ w, IsPath (w :: names) (.word w :: ts) := by
  fun_induction parsePath tokens generalizing names after with
  | case1 v rest words r hr ih =>
    cases h
    obtain ⟨ts, rfl, hpath⟩ := ih hr
    exact ⟨.separator :: .word v :: ts, rfl, fun w => .cons w (hpath v)⟩
  | case2 => cases h
  | case3 => cases h
  | case4 tokens =>
    cases h
    exact ⟨[], rfl, .word⟩

theorem parsePath_stop {tokens : List Token} (h : tokens.head? ≠ some .separator) :
    parsePath tokens = .ok ([], tokens) := by
  unfold parsePath
  split
  · exact absurd rfl h
  · exact absurd rfl h
  · rfl

theorem parsePath_of_isPath {names : List String} {ts after : List Token} (h : IsPath names ts)
    (hafter : after.head? ≠ some .separator) :
    ∃ w more rest, names = w :: more ∧ ts = .word w :: rest ∧
      parsePath (rest ++ after) = .ok (more, after) := by
  induction h with
  | word w => exact ⟨w, [], [], rfl, rfl, parsePath_stop hafter⟩
  | cons w _ ih =>
    obtain ⟨v, more, rest, rfl, rfl, hparse⟩ := ih
    refine ⟨w, v :: more, .separator :: .word v :: rest, rfl, rfl, ?_⟩
    rw [List.cons_append, List.cons_append, parsePath, hparse]

/-! ### What is read is derived -/

theorem exists_skipped (tokens : List Token) :
    ∃ lifetime, (lifetime = [] ∨ lifetime = [.lifetime]) ∧
      ((skipMut (skipLifetime tokens)).head? ≠ some (.word "mut") ∧
          tokens = lifetime ++ skipMut (skipLifetime tokens) ∨
        tokens = lifetime ++ .word "mut" :: skipMut (skipLifetime tokens)) := by
  have hlifetime : ∃ lifetime, (lifetime = [] ∨ lifetime = [.lifetime]) ∧
      tokens = lifetime ++ skipLifetime tokens := by
    unfold skipLifetime
    split
    · exact ⟨[.lifetime], Or.inr rfl, rfl⟩
    · exact ⟨[], Or.inl rfl, rfl⟩
  obtain ⟨lifetime, hopt, htokens⟩ := hlifetime
  refine ⟨lifetime, hopt, ?_⟩
  generalize skipLifetime tokens = ts at htokens ⊢
  subst htokens
  unfold skipMut
  split
  · exact Or.inr rfl
  · rename_i hmut
    refine Or.inl ⟨fun hhead => ?_, rfl⟩
    obtain ⟨rest, rfl⟩ := List.head?_eq_some_iff.mp hhead
    exact hmut rest rfl

structure SoundBelow (n : Nat) : Prop where
  type : ∀ {tokens rest : List Token} {e : Expr}, tokens.length < n → ReadsType tokens e rest →
    ∃ ts, tokens = ts ++ rest ∧ Derives (.type e) ts
  bounds : ∀ {tokens rest : List Token}, tokens.length < n → ReadsBounds tokens rest →
    ∃ bs, tokens = bs ++ rest ∧ Derives .bounds bs
  args : ∀ {tokens rest : List Token} {es : List Expr}, tokens.length < n →
    ReadsArgs tokens es rest → (es = [] ∧ tokens = .greater :: rest) ∨
      ∃ as, tokens = as ++ .greater :: rest ∧ Derives (.args es) as

section Sound

variable {n : Nat} {tokens rest : List Token} {e : Expr} {es : List Expr}

theorem SoundBelow.reference (hn : SoundBelow n) (hlt : tokens.length < n)
    (h : ReadsType (.ampersand :: tokens) e rest) :
    ∃ ts, .ampersand :: tokens = ts ++ rest ∧ Derives (.type e) ts := by
  have hlen := length_skipLifetime_le tokens
  have hmut := length_skipMut_le (skipLifetime tokens)
  obtain ⟨ts, hts, hderives⟩ := hn.type (by omega) (readsType_ampersand.mp h)
  obtain ⟨lifetime, hopt, ⟨hhead, htokens⟩ | htokens⟩ := exists_skipped tokens
  · rw [hts] at htokens hhead
    refine ⟨.ampersand :: (lifetime ++ ts), by rw [htokens]; simp, .reference hopt ?_ hderives⟩
    cases ts with
    | nil => exact fun hnil => by cases hnil
    | cons t ts => exact hhead
  · rw [hts] at htokens
    exact ⟨.ampersand :: (lifetime ++ .word "mut" :: ts), by rw [htokens]; simp,
      .mutReference hopt hderives⟩

theorem SoundBelow.word (hn : SoundBelow n) {w : String} (hlt : tokens.length < n)
    (h : ReadsType (.word w :: tokens) e rest) :
    ∃ ts, .word w :: tokens = ts ++ rest ∧ Derives (.type e) ts := by
  by_cases hw : w = "dyn"
  · subst hw
    -- the first bound is the type, the others are dropped
    obtain ⟨between, htype, hbounds⟩ := readsType_dyn.mp h
    have hbetween := htype.length_lt
    obtain ⟨ts, rfl, hderives⟩ := hn.type hlt htype
    obtain ⟨bs, rfl, hbs⟩ := hn.bounds (by omega) hbounds
    exact ⟨.word "dyn" :: (ts ++ bs), by simp, .dyn hderives hbs⟩
  · have hhead : ∀ names : List String, (w :: names).head? ≠ some "dyn" :=
      fun _ heq => hw (Option.some.inj heq)
    obtain ⟨names, between, hparse, hbetween⟩ := (readsType_word hw).mp h
    have hlen := length_of_parsePath hparse
    obtain ⟨ts, rfl, hpath⟩ := isPath_of_parsePath hparse
    rcases hbetween with ⟨_, rfl, rfl⟩ | ⟨inner, es, rfl, hargs, hne, rfl⟩
    · exact ⟨.word w :: ts, rfl, .path (hpath w) (hhead _)⟩
    · rw [List.length_cons] at hlen
      -- an empty list of arguments is refused
      obtain ⟨as, rfl, has⟩ := (hn.args (by omega) hargs).resolve_left fun hnil => hne hnil.1
      exact ⟨.word w :: ts ++ .less :: (as ++ [.greater]), by simp,
        .generic (hpath w) (hhead _) has⟩

theorem SoundBelow.plus (hn : SoundBelow n) (hlt : tokens.length < n)
    (h : ReadsBounds (.plus :: tokens) rest) :
    ∃ bs, .plus :: tokens = bs ++ rest ∧ Derives .bounds bs := by
  obtain ⟨e, between, htype, hbounds⟩ := readsBounds_plus.mp h
  have hbetween := htype.length_lt
  obtain ⟨ts, rfl, hderives⟩ := hn.type hlt htype
  obtain ⟨bs, rfl, hbs⟩ := hn.bounds (by omega) hbounds
  exact ⟨.plus :: (ts ++ bs), by simp, .bound hderives hbs⟩

/-- The first argument is read off all the tokens, the others off fewer. -/
theorem SoundBelow.list (hn : SoundBelow n)
    (htype : ∀ {e : Expr} {after : List Token}, ReadsType tokens e after →
      ∃ ts, tokens = ts ++ after ∧ Derives (.type e) ts)
    (hlt : tokens.length < n + 1) (hgreater : ∀ ts, tokens ≠ .greater :: ts)
    (h : ReadsArgs tokens es rest) :
    ∃ as, tokens = as ++ .greater :: rest ∧ Derives (.args es) as := by
  obtain ⟨e, ⟨hfirst, rfl⟩ | ⟨more, es', hfirst, hmore, rfl⟩⟩ := (readsArgs_type hgreater).mp h
  · obtain ⟨ts, rfl, hderives⟩ := htype hfirst
    exact ⟨ts, rfl, .lastArg hderives⟩
  · have hlen := hfirst.length_lt
    rw [List.length_cons] at hlen
    obtain ⟨ts, rfl, hderives⟩ := htype hfirst
    rcases hn.args (by omega) hmore with ⟨rfl, rfl⟩ | ⟨as, rfl, has⟩
    · exact ⟨ts ++ [.comma], by simp, .lastArgComma hderives⟩
    · exact ⟨ts ++ .comma :: as, by simp, .arg hderives has⟩

end Sound

theorem soundBelow (n : Nat) : SoundBelow n := by
  -- on the number of tokens: what a reader leaves is shorter
  induction n with
  | zero => exact ⟨fun h => absurd h (Nat.not_lt_zero _), fun h => absurd h (Nat.not_lt_zero _),
      fun h => absurd h (Nat.not_lt_zero _)⟩
  | succ n ih =>
    have htype : ∀ {tokens rest : List Token} {e : Expr}, tokens.length < n + 1 →
        ReadsType tokens e rest → ∃ ts, tokens = ts ++ rest ∧ Derives (.type e) ts := by
      intro tokens rest e hlt h
      rcases h.head with ⟨ts, rfl⟩ | ⟨w, ts, rfl⟩
      · exact ih.reference (Nat.lt_of_succ_lt_succ hlt) h
      · exact ih.word (Nat.lt_of_succ_lt_succ hlt) h
    refine ⟨htype, ?_, ?_⟩
    · intro tokens rest hlt h
      by_cases hplus : ∃ ts, tokens = .plus :: ts
      · obtain ⟨ts, rfl⟩ := hplus
        exact ih.plus (Nat.lt_of_succ_lt_succ hlt) h
      · rw [not_exists] at hplus
        exact ⟨[], ((readsBounds_stop hplus).mp h).symm, .noBounds⟩
    · intro tokens rest es hlt h
      by_cases hgreater : ∃ ts, tokens = .greater :: ts
      · obtain ⟨ts, rfl⟩ := hgreater
        obtain ⟨rfl, rfl⟩ := readsArgs_greater.mp h
        exact Or.inl ⟨rfl, rfl⟩
      · rw [not_exists] at hgreater
        exact Or.inr (ih.list (htype hlt) hlt hgreater h)

/-! ### What is derived is read -/

def ExtendsPath (tokens : List Token) : Prop :=
  tokens.head? = some .separator ∨ tokens.head? = some .less

theorem Derives.head {ts : List Token} {e : Expr} (h : Derives (.type e) ts) :
    (∃ rest, ts = .ampersand :: rest) ∨ ∃ w rest, ts = .word w :: rest := by
  have hpath : ∀ {names ts}, IsPath names ts → ∃ w rest, ts = .word w :: rest := by
    rintro _ _ (w | ⟨w, _⟩)
    · exact ⟨w, _, rfl⟩
    · exact ⟨w, _, rfl⟩
  cases h with
  | reference _ _ _ => exact Or.inl ⟨_, rfl⟩
  | mutReference _ _ => exact Or.inl ⟨_, rfl⟩
  | dyn _ _ => exact Or.inr ⟨_, _, rfl⟩
  | path hp _ => exact Or.inr (hpath hp)
  | generic hp _ _ =>
    obtain ⟨w, rest, rfl⟩ := hpath hp
    exact Or.inr ⟨w, _, rfl⟩

/-- Further bounds begin with a plus. -/
theorem not_extendsPath_bounds {bs tail : List Token} (h : Derives .bounds bs)
    (htail : ¬ ExtendsPath tail) : ¬ ExtendsPath (bs ++ tail) := by
  cases h with
  | noBounds => exact htail
  | bound _ _ =>
    rintro (hhead | hhead)
    · cases hhead
    · cases hhead

/-- How the readers take a phrase that stands before a tail, if `after` is left of the tail behind
further bounds. A type may be read with the bounds of the tail, namely by a `dyn` at its end, or
without them; either way they are gone once the reader of bounds has run. -/
def IsRead (tail after : List Token) : Phrase → List Token → Prop
  | .type e, ts => ∃ rest, ReadsType (ts ++ tail) e rest ∧ (rest = tail ∨ rest = after)
  | .bounds, bs => ReadsBounds (bs ++ tail) after
  | .args es, as => ∀ rest, ReadsArgs (as ++ .greater :: rest) es rest ∧ es ≠ []

theorem ReadsBounds.again {tail after rest : List Token} (h : ReadsBounds tail after)
    (hrest : rest = tail ∨ rest = after) : ReadsBounds rest after := by
  rcases hrest with rfl | rfl
  · exact h
  · exact (readsBounds_stop h.stop).mpr rfl

theorem skipLifetime_of_head {ts : List Token} (h : ts.head? ≠ some .lifetime) :
    skipLifetime ts = ts := by
  unfold skipLifetime
  split
  · exact absurd rfl h
  · rfl

theorem skipMut_of_head {ts : List Token} (h : ts.head? ≠ some (.word "mut")) :
    skipMut ts = ts := by
  unfold skipMut
  split
  · exact absurd rfl h
  · rfl

/-- Where a type may stand, no lifetime is passed over by mistake. -/
theorem skipLifetime_append {lifetime ts : List Token}
    (hopt : lifetime = [] ∨ lifetime = [.lifetime]) (h : ts.head? ≠ some .lifetime) :
    skipLifetime (lifetime ++ ts) = ts := by
  rcases hopt with rfl | rfl
  · exact skipLifetime_of_head h
  · rfl

theorem Derives.head?_append {ts : List Token} {e : Expr} (h : Derives (.type e) ts)
    (tail : List Token) : (ts ++ tail).head? = ts.head? ∧ ts.head? ≠ some .lifetime := by
  rcases h.head with ⟨rest, rfl⟩ | ⟨w, rest, rfl⟩
  · exact ⟨rfl, fun heq => by cases heq⟩
  · exact ⟨rfl, fun heq => by cases heq⟩

section Complete

variable {tail after ts : List Token} {e : Expr}

/-- A type before a bracket or comma is read to there. -/
theorem readsType_before {t : Token} {rest : List Token} (ht : t = .greater ∨ t = .comma)
    (h : ∀ tail after, ¬ ExtendsPath tail → ReadsBounds tail after →
      IsRead tail after (.type e) ts) : ReadsType (ts ++ t :: rest) e (t :: rest) := by
  have htail : ¬ ExtendsPath (t :: rest) := by
    rcases ht with rfl | rfl
    · rintro (heq | heq) <;> cases heq
    · rintro (heq | heq) <;> cases heq
  have hplus : ∀ more, t :: rest ≠ .plus :: more := by
    rcases ht with rfl | rfl
    · exact fun _ heq => by cases heq
    · exact fun _ heq => by cases heq
  obtain ⟨rest', hread, hrest⟩ := h _ _ htail ((readsBounds_stop hplus).mpr rfl)
  rwa [hrest.elim id id] at hread

theorem isRead_of_derives {p : Phrase} (h : Derives p ts) :
    ∀ tail after, ¬ ExtendsPath tail → ReadsBounds tail after → IsRead tail after p ts := by
  -- the tail is general, since the bounds of a `dyn` type are the tail of its first bound
  induction h with
  | @reference lifetime ts e hopt hmut hderives ih =>
    intro tail after htail hafter
    obtain ⟨rest, hread, hrest⟩ := ih tail after htail hafter
    obtain ⟨hhead, hlifetime⟩ := hderives.head?_append tail
    refine ⟨rest, readsType_ampersand.mpr ?_, hrest⟩
    rw [List.append_eq, List.append_assoc, skipLifetime_append hopt (hhead ▸ hlifetime),
      skipMut_of_head (hhead ▸ hmut)]
    exact hread
  | mutReference hopt _ ih =>
    intro tail after htail hafter
    obtain ⟨rest, hread, hrest⟩ := ih tail after htail hafter
    refine ⟨rest, readsType_ampersand.mpr ?_, hrest⟩
    rw [List.append_eq, List.append_assoc,
      skipLifetime_append hopt fun heq => by cases heq]
    exact hread
  | dyn _ hbs ihfirst ihbs =>
    intro tail after htail hafter
    have hbounds := ihbs tail after htail hafter
    obtain ⟨rest, hread, hrest⟩ :=
      ihfirst _ after (not_extendsPath_bounds hbs htail) hbounds
    refine ⟨after, readsType_dyn.mpr ⟨rest, ?_, hbounds.again hrest⟩, Or.inr rfl⟩
    rw [List.append_eq, List.append_assoc]
    exact hread
  | @path names ts hpath hhead =>
    intro tail after htail _
    obtain ⟨w, more, rest, rfl, rfl, hparse⟩ :=
      parsePath_of_isPath hpath fun heq => htail (Or.inl heq)
    have hw : w ≠ "dyn" := fun heq => hhead (congrArg some heq)
    refine ⟨tail, (readsType_word hw).mpr ⟨more, tail, hparse, Or.inl ⟨?_, rfl, rfl⟩⟩, Or.inl rfl⟩
    rintro inner rfl
    exact htail (Or.inr rfl)
  | @generic names ts as es hpath hhead _ ih =>
    intro tail after htail hafter
    obtain ⟨hread, hne⟩ := ih tail after htail hafter tail
    have hnext : (.less :: (as ++ .greater :: tail) : List Token).head? ≠ some .separator :=
      fun heq => by cases heq
    obtain ⟨w, more, rest, rfl, rfl, hparse⟩ := parsePath_of_isPath hpath hnext
    have hw : w ≠ "dyn" := fun heq => hhead (congrArg some heq)
    refine ⟨tail, ?_, Or.inl rfl⟩
    have htokens : .word w :: rest ++ .less :: (as ++ [.greater]) ++ tail =
        .word w :: (rest ++ .less :: (as ++ .greater :: tail)) := by simp
    rw [htokens]
    exact (readsType_word hw).mpr
      ⟨more, _, hparse, Or.inr ⟨_, es, rfl, hread, hne, rfl⟩⟩
  | noBounds => exact fun tail after _ hafter => hafter
  | @bound ts bs e _ hbs ih ihbs =>
    intro tail after htail hafter
    have hbounds := ihbs tail after htail hafter
    obtain ⟨rest, hread, hrest⟩ := ih _ after (not_extendsPath_bounds hbs htail) hbounds
    refine readsBounds_plus.mpr ⟨e, rest, ?_, hbounds.again hrest⟩
    rw [List.append_eq, List.append_assoc]
    exact hread
  | lastArg _ ih =>
    intro _ _ _ _ rest
    exact ⟨(readsType_before (Or.inl rfl) ih).lastArg, List.cons_ne_nil _ _⟩
  | lastArgComma _ ih =>
    intro _ _ _ _ rest
    rw [List.append_assoc]
    exact ⟨(readsType_before (Or.inr rfl) ih).arg (readsArgs_greater.mpr ⟨rfl, rfl⟩),
      List.cons_ne_nil _ _⟩
  | arg _ _ ih ihas =>
    intro tail after htail hafter rest
    rw [List.append_assoc]
    exact ⟨(readsType_before (Or.inr rfl) ih).arg (ihas tail after htail hafter rest).1,
      List.cons_ne_nil _ _⟩

end Complete

/-! ### Spellings -/

theorem ofTokens_eq_ok {ts : List Token} {e : Expr} :
    ofTokens ts = .ok e ↔ Derives (.type e) ts := by
  rw [ofTokens_eq_ok_iff_readsType]
  constructor
  · intro h
    obtain ⟨ts', rfl, hderives⟩ := (soundBelow (ts.length + 1)).type (Nat.lt_succ_self _) h
    rwa [List.append_nil]
  · intro h
    have htail : ¬ ExtendsPath [] := by rintro (heq | heq) <;> cases heq
    have hstop : ReadsBounds [] [] := (readsBounds_stop fun _ heq => by cases heq).mpr rfl
    obtain ⟨rest, hread, hrest⟩ := isRead_of_derives h [] [] htail hstop
    rwa [hrest.elim id id, List.append_nil] at hread

theorem parse_eq_ok {spelling : String} {e : Expr} :
    parse spelling = .ok e ↔ ∃ ts, Lexes spelling.toList ts ∧ Derives (.type e) ts := by
  unfold parse
  constructor
  · intro h
    split at h
    · cases h
    · rename_i ts hts
      exact ⟨ts, scan_eq_ok.mp hts, ofTokens_eq_ok.mp h⟩
  · rintro ⟨ts, hlexes, hderives⟩
    rw [scan_eq_ok.mpr hlexes]
    exact ofTokens_eq_ok.mpr hderives

/-- A spelling is read as a type exactly if its tokens derive that type, and otherwise it is
reported as no spelling of a type. -/
theorem read_verdict (spelling : String) :
    (∀ e, read spelling = .ok e ↔
      ∃ ts, Lexes spelling.toList ts ∧ Derives (.type e) ts) ∧
    ((∃ e, read spelling = .ok e) ∨ ∃ f, read spelling = .error (.invalidSpelling spelling f)) := by
  have hread : ∀ e, read spelling = .ok e ↔ parse spelling = .ok e := by
    intro e
    unfold read
    cases parse spelling <;> simp
  refine ⟨fun e => (hread e).trans parse_eq_ok, ?_⟩
  cases h : parse spelling with
  | ok e => exact Or.inl ⟨e, (hread e).mpr h⟩
  | error f =>
    refine Or.inr ⟨f, ?_⟩
    unfold read
    rw [h]

end HostBindings.Spelling
