import HostBindings.Proofs.Json.Numerals

/-!
The tokens of written values. The text of a value is taken apart into the tokens that the value is
made of, strings included: every character is written so that it is found again, and none below the
space is written as it is.
-/

namespace HostBindings.Json

namespace Token

/-! ### Strings -/

/-- How a character is written in a string, and the piece it is read as. -/
inductive Escapes (c : Char) : List Char → Piece → Prop where
  | letter {e : Char} (h : escaped? e = some c) : Escapes c ['\\', e] (.char c)
  | code (h : c.toNat < 0x20) :
      Escapes c ['\\', 'u', '0', '0', hexChar (c.toNat / 16), hexChar (c.toNat % 16)]
        (.unit c.toNat)
  | plain (hquote : c ≠ '"') (hslash : c ≠ '\\') (hcontrol : 0x20 ≤ c.toNat) :
      Escapes c [c] (.char c)

theorem exists_escapes (c : Char) : ∃ p, Escapes c (escapeChar c) p := by
  unfold escapeChar
  -- the characters with a letter of their own
  iterate 7
    split
    · subst c
      exact ⟨_, .letter rfl⟩
  split
  · rename_i hcontrol
    exact ⟨_, .code hcontrol⟩
  · rename_i hquote hslash _ _ _ _ _ hcontrol
    exact ⟨_, .plain hquote hslash (Nat.not_lt.mp hcontrol)⟩

theorem hexValue?_hexChars {n : Nat} (h : n < 0x20) :
    Text.hexValue? ['0', '0', hexChar (n / 16), hexChar (n % 16)] = some n := by
  have hall : ∀ n < 0x20,
      Text.hexValue? ['0', '0', hexChar (n / 16), hexChar (n % 16)] = some n := by decide
  exact hall n h

theorem Escapes.pieces? {c : Char} {written : List Char} {p : Piece} (h : Escapes c written p)
    {cs after : List Char} {ps : List Piece} (hcs : Token.pieces? cs = some (ps, after)) :
    Token.pieces? (written ++ cs) = some (p :: ps, after) := by
  cases h with
  | @letter e he =>
    have hunit : e ≠ 'u' := by
      rintro rfl
      cases he
    simp [Token.pieces?, hunit, he, hcs]
  | code hcontrol => simp [Token.pieces?, hexValue?_hexChars hcontrol, hcs]
  | plain hquote hslash hcontrol =>
    simp [Token.pieces?, hslash, Nat.not_lt.mpr hcontrol, hcs]

theorem Escapes.joinPieces? {c : Char} {written : List Char} {p : Piece} (h : Escapes c written p)
    (ps : List Piece) : Token.joinPieces? (p :: ps) = (Token.joinPieces? ps).map (c :: ·) := by
  cases h with
  | letter _ => rfl
  | plain _ _ _ => rfl
  | code hcontrol =>
    -- the code of a control character is half of no pair, whatever follows
    have hhigh : ¬0xD800 ≤ c.toNat := by omega
    have hlow : ¬0xDC00 ≤ c.toNat := by omega
    cases ps with
    | nil => simp [Token.joinPieces?, hhigh, Char.ofNat_toNat]
    | cons q ps =>
      cases q with
      | char d => simp [Token.joinPieces?, hhigh, Char.ofNat_toNat]
      | unit m => simp [Token.joinPieces?, hhigh, hlow, Char.ofNat_toNat]

/-- A control character is never written as it is. -/
theorem Escapes.printable {c : Char} {written : List Char} {p : Piece} (h : Escapes c written p) :
    ∀ d ∈ written, 0x20 ≤ d.toNat := by
  cases h with
  | @letter e he =>
    have hletter : 0x20 ≤ e.toNat := by
      unfold escaped? at he
      split at he <;> first | decide | cases he
    simpa using hletter
  | code hcontrol =>
    have hhex : ∀ n < 0x10, 0x20 ≤ (hexChar n).toNat := by decide
    simpa using ⟨hhex (c.toNat / 16) (by omega), hhex (c.toNat % 16) (by omega)⟩
  | plain _ _ hcontrol => simpa using hcontrol

theorem exists_pieces (cs after : List Char) : ∃ ps,
    Token.pieces? (cs.flatMap escapeChar ++ '"' :: after) = some (ps, after) ∧
      Token.joinPieces? ps = some cs := by
  induction cs with
  | nil => exact ⟨[], rfl, rfl⟩
  | cons c cs ih =>
    obtain ⟨p, hp⟩ := exists_escapes c
    obtain ⟨ps, hps, hjoin⟩ := ih
    refine ⟨p :: ps, ?_, ?_⟩
    · rw [List.flatMap_cons, List.append_assoc]
      exact hp.pieces? hps
    · rw [hp.joinPieces?, hjoin]
      rfl

/-! ### One token -/

def Ends (cs : List Char) : Prop :=
  ∀ c ∈ cs.head?, isWordChar c = false

theorem ends_nil : Ends [] := by
  rintro _ ⟨⟩

theorem ends_cons {c : Char} (h : isWordChar c = false) (cs : List Char) : Ends (c :: cs) := by
  rintro _ ⟨⟩
  exact h

theorem scan?_punctuation {c : Char} {t : Token} (h : punctuation? c = some t) (cs : List Char) :
    scan? (c :: cs) = (scan? cs).map (t :: ·) := by
  have hclasses : isSpace c = false ∧ (c == '"') = false := by
    unfold punctuation? at h
    split at h
    case h_7 => cases h
    all_goals decide
  rw [scan?]
  simp [hclasses, h]

theorem scan?_quote (s : String) (cs : List Char) :
    scan? ((quote s).toList ++ cs) = (scan? cs).map (.text (some s) :: ·) := by
  obtain ⟨ps, hps, hjoin⟩ := exists_pieces s.toList cs
  have hchars : (quote s).toList ++ cs = '"' :: (s.toList.flatMap escapeChar ++ '"' :: cs) := by
    simp [quote]
  rw [hchars, scan?, if_neg (by decide), if_pos (by decide)]
  split
  · rename_i hnone
    rw [hps] at hnone
    cases hnone
  · rename_i qs rest hsome
    rw [hps] at hsome
    obtain ⟨rfl, rfl⟩ := Prod.mk.inj (Option.some.inj hsome)
    rw [hjoin, Option.map_some, String.ofList_toList]

theorem classes_of_isWordChar {c : Char} (h : isWordChar c = true) :
    isSpace c = false ∧ (c == '"') = false ∧ punctuation? c = none := by
  refine ⟨?_, ?_, ?_⟩
  · rw [Bool.eq_false_iff]
    intro hspace
    simp only [isSpace, Bool.or_eq_true, beq_iff_eq] at hspace
    rcases hspace with ((rfl | rfl) | rfl) | rfl <;> exact absurd h (by decide)
  · rw [beq_eq_false_iff_ne]
    rintro rfl
    exact absurd h (by decide)
  · unfold punctuation?
    split
    case h_7 => rfl
    all_goals exact absurd h (by decide)

theorem scan?_word {w cs : List Char} (hne : w ≠ []) (hw : ∀ c ∈ w, isWordChar c = true)
    (hcs : Ends cs) : scan? (w ++ cs) = (scan? cs).map (.word w :: ·) := by
  obtain ⟨c, rest, rfl⟩ := List.exists_cons_of_ne_nil hne
  rw [List.forall_mem_cons] at hw
  obtain ⟨hspace, hquote, hnone⟩ := classes_of_isWordChar hw.1
  obtain ⟨htake, hdrop⟩ := takeWhile_run hw.2 hcs
  rw [List.cons_append, scan?]
  simp [hspace, hquote, hnone, hw.1, htake, hdrop]

/-- The characters that close a container, behind the texts of its further parts. -/
def behind (close : Char) : List String → List Char
  | [] => [close]
  | t :: ts => ',' :: (t.toList ++ behind close ts)

theorem toList_intercalate (close : Char) (t : String) (ts : List String) :
    (",".intercalate (t :: ts)).toList ++ [close] = t.toList ++ behind close ts := by
  induction ts generalizing t with
  | nil => simp [behind]
  | cons u ts ih =>
    rw [String.intercalate_cons_cons, String.toList_append, String.toList_append,
      List.append_assoc, ih, behind]
    simp

theorem ends_behind {close : Char} (h : isWordChar close = false) (ts : List String)
    (cs : List Char) : Ends (behind close ts ++ cs) := by
  cases ts with
  | nil => exact ends_cons h cs
  | cons t ts => exact ends_cons (by decide) _

end Token

namespace Value

open Token

/-! ### Values -/

mutual

def tokens : Value → List Token
  | .null => [.word ['n', 'u', 'l', 'l']]
  | .bool b => [.word (if b then ['t', 'r', 'u', 'e'] else ['f', 'a', 'l', 's', 'e'])]
  | .number n => [.word n.text.toList]
  | .text s => [.text (some s)]
  | .list [] => [.listOpen, .listClose]
  | .list (v :: vs) => .listOpen :: (tokens v ++ itemTokens vs)
  | .record [] => [.recordOpen, .recordClose]
  | .record ((key, v) :: fields) =>
    .recordOpen :: .text (some key) :: .colon :: (tokens v ++ fieldTokens fields)

def itemTokens : List Value → List Token
  | [] => [.listClose]
  | v :: vs => .comma :: (tokens v ++ itemTokens vs)

def fieldTokens : List (String × Value) → List Token
  | [] => [.recordClose]
  | (key, v) :: fields =>
    .comma :: .text (some key) :: .colon :: (tokens v ++ fieldTokens fields)

end

theorem toList_write_list (v : Value) (vs : List Value) :
    (write (.list (v :: vs))).toList = '[' :: (v.write.toList ++ behind ']' (itemTexts vs)) := by
  rw [← toList_intercalate, write, itemTexts]
  simp

theorem toList_write_record (key : String) (v : Value) (fields : List (String × Value)) :
    (write (.record ((key, v) :: fields))).toList =
      '\x7b' :: ((quote key).toList ++
        ':' :: (v.write.toList ++ behind '\x7d' (fieldTexts fields))) := by
  have hfield : (quote key ++ ":" ++ v.write).toList ++ behind '\x7d' (fieldTexts fields) =
      (quote key).toList ++ ':' :: (v.write.toList ++ behind '\x7d' (fieldTexts fields)) := by
    simp
  rw [← hfield, ← toList_intercalate, write, fieldTexts]
  simp

mutual

/-- A written value is taken apart into its tokens, whatever follows. -/
theorem scan?_write : ∀ (v : Value) {cs : List Char}, Ends cs →
    scan? (v.write.toList ++ cs) = (scan? cs).map (v.tokens ++ ·)
  | .null, _, h => scan?_word (by decide) (List.all_eq_true.mp (by decide)) h
  | .bool true, _, h => scan?_word (by decide) (List.all_eq_true.mp (by decide)) h
  | .bool false, _, h => scan?_word (by decide) (List.all_eq_true.mp (by decide)) h
  | .number n, _, h => scan?_word n.isWord_text.1 n.isWord_text.2 h
  | .text s, cs, _ => scan?_quote s cs
  | .list [], cs, _ => by
    show scan? ('[' :: ']' :: cs) = _
    rw [scan?_punctuation rfl, scan?_punctuation rfl, Option.map_map]
    rfl
  | .list (v :: vs), cs, _ => by
    rw [toList_write_list, List.cons_append, List.append_assoc, scan?_punctuation rfl,
      scan?_write v (ends_behind (by decide) _ _), scan?_items vs cs, Option.map_map,
      Option.map_map, tokens]
    simp [Function.comp_def]
  | .record [], cs, _ => by
    show scan? ('\x7b' :: '\x7d' :: cs) = _
    rw [scan?_punctuation rfl, scan?_punctuation rfl, Option.map_map]
    rfl
  | .record ((key, v) :: fields), cs, _ => by
    rw [toList_write_record, List.cons_append, List.append_assoc, List.cons_append,
      List.append_assoc, scan?_punctuation rfl, scan?_quote, scan?_punctuation rfl,
      scan?_write v (ends_behind (by decide) _ _), scan?_fields fields cs, tokens]
    simp [Function.comp_def]

theorem scan?_items : ∀ (vs : List Value) (cs : List Char),
    scan? (behind ']' (itemTexts vs) ++ cs) = (scan? cs).map (itemTokens vs ++ ·)
  | [], cs => scan?_punctuation rfl cs
  | v :: vs, cs => by
    rw [itemTexts, behind, List.cons_append, List.append_assoc, scan?_punctuation rfl,
      scan?_write v (ends_behind (by decide) _ _), scan?_items vs cs, itemTokens]
    simp [Function.comp_def]

theorem scan?_fields : ∀ (fields : List (String × Value)) (cs : List Char),
    scan? (behind '\x7d' (fieldTexts fields) ++ cs) = (scan? cs).map (fieldTokens fields ++ ·)
  | [], cs => scan?_punctuation rfl cs
  | (key, v) :: fields, cs => by
    have hfield : (quote key ++ ":" ++ v.write).toList =
        (quote key).toList ++ ':' :: v.write.toList := by simp
    rw [fieldTexts, behind, hfield, List.cons_append, List.append_assoc, List.append_assoc,
      List.cons_append, scan?_punctuation rfl, scan?_quote, scan?_punctuation rfl,
      scan?_write v (ends_behind (by decide) _ _), scan?_fields fields cs, fieldTokens]
    simp [Function.comp_def]

end

/-! ### Control characters -/

def Printable (cs : List Char) : Prop :=
  ∀ c ∈ cs, 0x20 ≤ c.toNat

theorem printable_append {cs ds : List Char} :
    Printable (cs ++ ds) ↔ Printable cs ∧ Printable ds :=
  List.forall_mem_append

theorem printable_cons {c : Char} {cs : List Char} :
    Printable (c :: cs) ↔ 0x20 ≤ c.toNat ∧ Printable cs :=
  List.forall_mem_cons

theorem printable_word {w : List Char} (h : ∀ c ∈ w, isWordChar c = true) : Printable w := by
  have hcontrol : ∀ n < 0x20, isWordChar (Char.ofNat n) = false := by decide
  intro c hc
  refine Nat.not_lt.mp fun hless => ?_
  have hno := hcontrol c.toNat hless
  rw [Char.ofNat_toNat, h c hc] at hno
  cases hno

theorem printable_quote (s : String) : Printable (quote s).toList := by
  rw [quote, String.toList_ofList, List.cons_append, printable_cons, printable_append]
  refine ⟨by decide, fun d hd => ?_, by simp [Printable]⟩
  obtain ⟨c, _, hc⟩ := List.mem_flatMap.mp hd
  obtain ⟨p, hp⟩ := exists_escapes c
  exact hp.printable d hc

mutual

/-- The text of a value has no control characters; those in its strings are escaped. -/
theorem printable_write : ∀ v : Value, Printable v.write.toList
  | .null => printable_word (List.all_eq_true.mp (by decide))
  | .bool true => printable_word (List.all_eq_true.mp (by decide))
  | .bool false => printable_word (List.all_eq_true.mp (by decide))
  | .number n => printable_word n.isWord_text.2
  | .text s => printable_quote s
  | .list [] => by simp [write, itemTexts, Printable]
  | .list (v :: vs) => by
    rw [toList_write_list, printable_cons, printable_append]
    exact ⟨by decide, printable_write v, printable_items vs⟩
  | .record [] => by simp [write, fieldTexts, Printable]
  | .record ((key, v) :: fields) => by
    rw [toList_write_record, printable_cons, printable_append, printable_cons, printable_append]
    exact ⟨by decide, printable_quote key, by decide, printable_write v, printable_fields fields⟩

theorem printable_items : ∀ vs : List Value, Printable (behind ']' (itemTexts vs))
  | [] => by simp [itemTexts, behind, Printable]
  | v :: vs => by
    rw [itemTexts, behind, printable_cons, printable_append]
    exact ⟨by decide, printable_write v, printable_items vs⟩

theorem printable_fields : ∀ fields : List (String × Value),
    Printable (behind '\x7d' (fieldTexts fields))
  | [] => by simp [fieldTexts, behind, Printable]
  | (key, v) :: fields => by
    have hcolon : Printable ":".toList := by simp [Printable]
    rw [fieldTexts, behind, printable_cons, printable_append, String.toList_append,
      String.toList_append, printable_append, printable_append]
    exact ⟨by decide, ⟨⟨printable_quote key, hcolon⟩, printable_write v⟩, printable_fields fields⟩

end

end Value

end HostBindings.Json
