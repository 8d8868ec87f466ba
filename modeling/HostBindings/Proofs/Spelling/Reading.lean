import HostBindings.Spelling.Names

/-!
The readers of types as relations between the tokens read and those left over, with one lemma for
each form that the tokens may have. The bounds that the readers carry for their own termination
are dropped here.
-/

namespace HostBindings.Spelling

/-- A type is read off the tokens, and the rest is left over. -/
def ReadsType (tokens : List Token) (e : Expr) (rest : List Token) : Prop :=
  ∃ h, parseType tokens = .ok ⟨e, rest, h⟩

def ReadsBounds (tokens rest : List Token) : Prop :=
  ∃ h, parseBounds tokens = .ok ⟨rest, h⟩

def ReadsArgs (tokens : List Token) (es : List Expr) (rest : List Token) : Prop :=
  ∃ h, parseArgs tokens = .ok ⟨es, rest, h⟩

variable {tokens rest : List Token} {e : Expr} {es : List Expr}

theorem ReadsType.length_lt (h : ReadsType tokens e rest) : rest.length < tokens.length :=
  h.1

/-! ### Types -/

theorem readsType_ampersand :
    ReadsType (.ampersand :: tokens) e rest ↔
      ReadsType (skipMut (skipLifetime tokens)) e rest := by
  unfold ReadsType
  rw [parseType.eq_1]
  constructor
  · rintro ⟨_, h⟩
    split at h
    · cases h
    · rename_i t ht
      cases h
      exact ⟨t.shorter, ht⟩
  · rintro ⟨hlt, h⟩
    have hlen := length_skipLifetime_le tokens
    have hmut := length_skipMut_le (skipLifetime tokens)
    rw [h]
    exact ⟨by rw [List.length_cons]; omega, rfl⟩

theorem readsType_dyn :
    ReadsType (.word "dyn" :: tokens) e rest ↔
      ∃ between, ReadsType tokens e between ∧ ReadsBounds between rest := by
  unfold ReadsType ReadsBounds
  rw [parseType.eq_2, if_pos rfl]
  constructor
  · rintro ⟨_, h⟩
    split at h
    · cases h
    · rename_i first hfirst
      dsimp only at h
      split at h
      · cases h
      · rename_i after hafter
        cases h
        exact ⟨first.rest, ⟨first.shorter, hfirst⟩, after.2, hafter⟩
  · rintro ⟨between, ⟨hlt, hfirst⟩, hle, hafter⟩
    rw [hfirst]
    dsimp only
    rw [hafter]
    exact ⟨by rw [List.length_cons]; omega, rfl⟩

theorem readsType_word {w : String} (hw : w ≠ "dyn") :
    ReadsType (.word w :: tokens) e rest ↔
      ∃ names after, parsePath tokens = .ok (names, after) ∧
        ((∀ inner, after ≠ .less :: inner) ∧ e = ⟨w :: names, []⟩ ∧ rest = after ∨
          ∃ inner es, after = .less :: inner ∧ ReadsArgs inner es rest ∧ es ≠ [] ∧
            e = ⟨w :: names, es⟩) := by
  unfold ReadsType ReadsArgs
  rw [parseType.eq_2, if_neg hw]
  constructor
  · rintro ⟨_, h⟩
    split at h
    · cases h
    · rename_i names after hpath
      refine ⟨names, after, hpath, ?_⟩
      dsimp only at h
      by_cases hless : ∃ inner, after = .less :: inner
      · obtain ⟨inner, rfl⟩ := hless
        dsimp only at h
        split at h
        · cases h
        · rename_i args hargs
          split at h
          · cases h
          · rename_i hne
            cases h
            exact Or.inr ⟨inner, args.value, rfl, ⟨args.shorter, hargs⟩, by simpa using hne, rfl⟩
      · rw [not_exists] at hless
        split at h
        · exact absurd rfl (hless _)
        · cases h
          exact Or.inl ⟨hless, rfl, rfl⟩
  · rintro ⟨names, after, hpath, h⟩
    -- each result carries a proof that tokens were used up; these are the lengths for it
    have hlen := length_of_parsePath hpath
    split
    · rename_i heq
      rw [hpath] at heq
      cases heq
    · rename_i path after heq
      rw [hpath] at heq
      cases heq
      dsimp only
      rcases h with ⟨hless, rfl, rfl⟩ | ⟨inner, es, rfl, ⟨hlt, hargs⟩, hne, rfl⟩
      · split
        · exact absurd rfl (hless _)
        · exact ⟨by rw [List.length_cons]; omega, rfl⟩
      · dsimp only
        rw [hargs]
        dsimp only
        rw [if_neg (by simpa using hne)]
        exact ⟨by simp only [List.length_cons] at hlen ⊢; omega, rfl⟩

theorem ReadsType.head (h : ReadsType tokens e rest) :
    (∃ ts, tokens = .ampersand :: ts) ∨ ∃ w ts, tokens = .word w :: ts := by
  refine Classical.byContradiction fun hne => ?_
  rw [not_or] at hne
  obtain ⟨_, h⟩ := h
  rw [parseType.eq_3 tokens (fun ts hts => hne.1 ⟨ts, hts⟩)
    fun w ts hts => hne.2 ⟨w, ts, hts⟩] at h
  cases h

/-! ### Bounds -/

theorem readsBounds_plus :
    ReadsBounds (.plus :: tokens) rest ↔
      ∃ e between, ReadsType tokens e between ∧ ReadsBounds between rest := by
  unfold ReadsType ReadsBounds
  rw [parseBounds.eq_1]
  constructor
  · rintro ⟨_, h⟩
    split at h
    · cases h
    · rename_i bound hbound
      dsimp only at h
      split at h
      · cases h
      · rename_i after hafter
        cases h
        exact ⟨bound.value, bound.rest, ⟨bound.shorter, hbound⟩, after.2, hafter⟩
  · rintro ⟨e, between, ⟨hlt, hbound⟩, hle, hafter⟩
    rw [hbound]
    dsimp only
    rw [hafter]
    exact ⟨by rw [List.length_cons]; omega, rfl⟩

theorem readsBounds_stop (h : ∀ ts, tokens ≠ .plus :: ts) :
    ReadsBounds tokens rest ↔ rest = tokens := by
  unfold ReadsBounds
  rw [parseBounds.eq_2 tokens h]
  constructor
  · rintro ⟨_, h⟩
    cases h
    rfl
  · rintro rfl
    exact ⟨Nat.le_refl _, rfl⟩

theorem ReadsBounds.stop (h : ReadsBounds tokens rest) : ∀ ts, rest ≠ .plus :: ts := by
  -- each bound leaves fewer tokens
  induction hn : tokens.length using Nat.strongRecOn generalizing tokens with
  | _ n ih =>
    by_cases hp : ∃ ts, tokens = .plus :: ts
    · obtain ⟨ts, rfl⟩ := hp
      obtain ⟨e, between, htype, hbounds⟩ := readsBounds_plus.mp h
      have hlt := htype.length_lt
      exact ih _ (by rw [← hn, List.length_cons]; omega) hbounds rfl
    · rw [not_exists] at hp
      rw [(readsBounds_stop hp).mp h]
      exact hp

/-! ### Arguments -/

theorem readsArgs_greater : ReadsArgs (.greater :: tokens) es rest ↔ es = [] ∧ rest = tokens := by
  unfold ReadsArgs
  rw [parseArgs.eq_2]
  constructor
  · rintro ⟨_, h⟩
    cases h
    exact ⟨rfl, rfl⟩
  · rintro ⟨rfl, rfl⟩
    exact ⟨by simp, rfl⟩

/-- Behind the first argument stands a comma or the closing bracket. -/
theorem readsArgs_type (hne : ∀ ts, tokens ≠ .greater :: ts) :
    ReadsArgs tokens es rest ↔
      ∃ e, (ReadsType tokens e (.greater :: rest) ∧ es = [e]) ∨
        ∃ more es', ReadsType tokens e (.comma :: more) ∧ ReadsArgs more es' rest ∧
          es = e :: es' := by
  -- the arguments are read by what stands behind the first one
  unfold ReadsArgs
  match tokens with
  | [] =>
    constructor
    · rintro ⟨hlt, _⟩
      exact absurd hlt (Nat.not_lt_zero _)
    · rintro ⟨e, ⟨⟨hlt, _⟩, _⟩ | ⟨_, _, ⟨hlt, _⟩, _⟩⟩
      · exact absurd hlt (Nat.not_lt_zero _)
      · exact absurd hlt (Nat.not_lt_zero _)
  | t :: ts =>
    rw [parseArgs.eq_3 t ts fun ht => hne ts (by rw [ht])]
    constructor
    · rintro ⟨_, h⟩
      split at h
      · cases h
      · rename_i first more hlt hfirst
        split at h
        · cases h
        · rename_i args hargs
          cases h
          exact ⟨first, Or.inr ⟨more, args.value, ⟨hlt, hfirst⟩, ⟨args.shorter, hargs⟩, rfl⟩⟩
      · rename_i first more hlt hfirst
        cases h
        exact ⟨first, Or.inl ⟨⟨hlt, hfirst⟩, rfl⟩⟩
      · cases h
    · rintro ⟨e, ⟨⟨hlt, hfirst⟩, rfl⟩ | ⟨more, es', ⟨hlt, hfirst⟩, ⟨hargs, hmore⟩, rfl⟩⟩
      · rw [hfirst]
        exact ⟨by simp only [List.length_cons] at hlt ⊢; omega, rfl⟩
      · rw [hfirst]
        dsimp only
        rw [hmore]
        exact ⟨by simp only [List.length_cons] at hlt ⊢; omega, rfl⟩

theorem ReadsType.ne_greater (h : ReadsType tokens e rest) : ∀ ts, tokens ≠ .greater :: ts := by
  rintro ts rfl
  rcases h.head with ⟨_, heq⟩ | ⟨_, _, heq⟩
  · cases heq
  · cases heq

theorem ReadsType.lastArg (h : ReadsType tokens e (.greater :: rest)) :
    ReadsArgs tokens [e] rest :=
  (readsArgs_type h.ne_greater).mpr ⟨e, Or.inl ⟨h, rfl⟩⟩

theorem ReadsType.arg {more : List Token} (h : ReadsType tokens e (.comma :: more))
    (hmore : ReadsArgs more es rest) : ReadsArgs tokens (e :: es) rest :=
  (readsArgs_type h.ne_greater).mpr ⟨e, Or.inr ⟨more, es, h, hmore, rfl⟩⟩

/-! ### All tokens -/

theorem ofTokens_eq_ok_iff_readsType : ofTokens tokens = .ok e ↔ ReadsType tokens e [] := by
  unfold ofTokens ReadsType
  cases tokens with
  | nil =>
    constructor
    · intro h
      cases h
    · rintro ⟨hlt, _⟩
      exact absurd hlt (Nat.not_lt_zero _)
  | cons t ts =>
    rw [if_neg (by simp)]
    constructor
    · intro h
      split at h
      · cases h
      · rename_i r hr
        split at h
        · rename_i hrest
          cases h
          obtain ⟨value, rest, hlt⟩ := r
          obtain rfl := List.isEmpty_iff.mp hrest
          exact ⟨hlt, hr⟩
        · cases h
    · rintro ⟨hlt, h⟩
      rw [h]
      rfl

end HostBindings.Spelling
