import HostBindings.Bridge.Payload
import HostBindings.Proofs.Json.Rereading
import HostBindings.Proofs.Text.Utf8
import HostBindings.Proofs.Traversal

/-!
Texts across the boundary. A text is refused if it holds the character zero, and else read back from
its buffer as it is. Values cross as JSON texts, in which every control character is escaped, so
those are never refused, and a value that its own text gives back is given back by the buffer.
-/

namespace HostBindings.Bridge

open HostBindings.Text

/-! ### Texts -/

namespace WireText

variable {s : String} {body rest : List UInt8}

/-- Exactly the texts without the character zero are taken over. -/
theorem ofText_eq_ok {w : WireText} :
    ofText s = .ok w ↔ '\x00' ∉ s.toList ∧ w.octets = encodeUtf8 s := by
  rw [← zero_mem_encodeUtf8]
  unfold ofText
  split
  · rename_i hzero
    simp [hzero]
  · rename_i hzero
    cases w
    simp [hzero, eq_comm]

theorem exists_ofText (h : '\x00' ∉ s.toList) : ∃ w, ofText s = .ok w :=
  ⟨⟨encodeUtf8 s, mt zero_mem_encodeUtf8.mp h⟩, ofText_eq_ok.mpr ⟨h, rfl⟩⟩

theorem text_eq {w : WireText} (h : w.octets = encodeUtf8 s) : w.text = s := by
  rw [text, h, decodeUtf8_eq_ok.mpr rfl]

/-- A text is refused with the octet at which its first character zero stands. -/
theorem ofText_eq_error {e : Error} : ofText s = .error e ↔
    ∃ before after, s.toList = before ++ '\x00' :: after ∧ '\x00' ∉ before ∧
      e = .invalidText (.terminator (encodeUtf8 (String.ofList before)).length) := by
  -- no octet before the character is zero, so `idxOf` stops at its own octet
  have hrefused {before after : List Char} (hs : s.toList = before ++ '\x00' :: after)
      (hbefore : '\x00' ∉ before) : ofText s =
        .error (.invalidText (.terminator (encodeUtf8 (String.ofList before)).length)) := by
    have hoctets : encodeUtf8 s = encodeUtf8 (String.ofList before) ++
        0 :: encodeUtf8 (String.ofList after) := by
      rw [encodeUtf8_eq, encodeUtf8_eq, encodeUtf8_eq, hs, String.toList_ofList,
        String.toList_ofList, List.flatMap_append, List.flatMap_cons]
      rfl
    have hzero : 0 ∉ encodeUtf8 (String.ofList before) := by
      rwa [zero_mem_encodeUtf8, String.toList_ofList]
    have hindex : (encodeUtf8 s).idxOf 0 = (encodeUtf8 (String.ofList before)).length := by
      rw [hoctets, List.idxOf_append_of_notMem hzero, List.idxOf_cons_self, Nat.add_zero]
    have hmem : 0 ∈ encodeUtf8 s := by
      rw [hoctets]
      exact List.mem_append_right _ List.mem_cons_self
    rw [ofText, dif_pos hmem, hindex]
  constructor
  · intro h
    have hmem : '\x00' ∈ s.toList := by
      by_contra hno
      obtain ⟨w, hw⟩ := exists_ofText hno
      rw [hw] at h
      cases h
    obtain ⟨before, after, hs, hbefore⟩ := List.eq_append_cons_of_mem hmem
    rw [hrefused hs hbefore] at h
    exact ⟨before, after, hs, hbefore, (Except.error.inj h).symm⟩
  · rintro ⟨before, after, hs, hbefore, rfl⟩
    exact hrefused hs hbefore

theorem takeWhile_body (h : 0 ∉ body) (rest : List UInt8) :
    (body ++ 0 :: rest).takeWhile (· != 0) = body := by
  refine (Json.takeWhile_run (fun octet hoctet => ?_) ?_).1
  · rw [bne_iff_ne]
    exact ne_of_mem_of_not_mem hoctet h
  · rintro _ ⟨⟩
    rfl

/-- What is read out of a buffer is what the octets before the first zero encode. -/
theorem borrow_eq_ok (h : 0 ∉ body) :
    borrow (some (body ++ 0 :: rest)) = .ok s ↔ encodeUtf8 s = body := by
  rw [borrow, takeWhile_body h, mapError_eq_ok, decodeUtf8_eq_ok]

theorem borrow_buffer {w : WireText} : borrow (some w.buffer) = .ok s ↔ w.octets = encodeUtf8 s := by
  rw [buffer, borrow_eq_ok w.zero_notMem, eq_comm]

/-- What is taken back is what stands before the first zero. -/
theorem ofBuffer?_octets (w : WireText) (rest : List UInt8) :
    ofBuffer? (w.octets ++ 0 :: rest) = some w := by
  have hzero : 0 ∈ w.octets ++ 0 :: rest := List.mem_append_right _ List.mem_cons_self
  rw [ofBuffer?, if_pos hzero]
  congr 1
  cases w
  congr
  exact takeWhile_body ‹_› rest

end WireText

/-! ### Payloads -/

namespace Payload

open HostBindings.Json

variable {α : Type} [Payload α]

def ReadsBack (v : α) : Prop :=
  (Tree.ofText? (toValue v).write).bind ofTree? = some v

theorem readsBack_iff {v : α} : ReadsBack v ↔ ofTree? (toValue v).tree = some v := by
  rw [ReadsBack, Tree.ofText?_write, Option.bind_some]

/-- Writing escapes the character zero, so no value is refused. -/
theorem encode_eq_ok (v : α) :
    ∃ w, encode v = .ok w ∧ w.octets = encodeUtf8 (toValue v).write := by
  have hzero : '\x00' ∉ (toValue v).write.toList := fun hmem =>
    absurd (Value.printable_write (toValue v) _ hmem) (by decide)
  obtain ⟨w, hw⟩ := WireText.exists_ofText hzero
  exact ⟨w, hw, (WireText.ofText_eq_ok.mp hw).2⟩

theorem decode_buffer {w : WireText} {s : String} (h : w.octets = encodeUtf8 s) {v : α} :
    decode (some w.buffer) = .ok v ↔ (Tree.ofText? s).bind ofTree? = some v := by
  rw [decode, WireText.borrow_buffer.mpr h, ok_bind]
  split
  · rename_i u hu
    rw [hu, Except.ok.injEq, Option.some.injEq]
  · rename_i hnone
    rw [hnone]
    simp

theorem readsBack_bool (b : Bool) : ReadsBack b :=
  readsBack_iff.mpr rfl

theorem readsBack_text (s : String) : ReadsBack s :=
  readsBack_iff.mpr rfl

theorem word?_tree {bits : Nat} {i : Int} (hbits : bits ≤ 64)
    (hleast : -Nat.pow 2 (bits - 1) ≤ i) (hgreatest : i < Nat.pow 2 (bits - 1)) :
    word? bits (Value.number (.int i)).tree = some i := by
  have hsmall : Nat.pow 2 (bits - 1) ≤ 0x8000000000000000 :=
    Nat.pow_le_pow_right (n := 2) (j := 63) (by decide) (by omega)
  have hnumber : (Numeral.ofInt i).number? = some (.int i) :=
    Number.restored_int (by omega) (by omega)
  show int? _ _ (.number (Numeral.ofInt i)) = some i
  rw [int?, hnumber]
  simp only [Bool.and_eq_true, decide_eq_true_eq]
  rw [if_pos ⟨hleast, by omega⟩]

/-- A word with sign is read back, by the number of its bits. -/
theorem readsBack_of_word {bits : Nat} {v : α} {i : Int} {ofInt : Int → α} (hbits : bits ≤ 64)
    (hleast : -Nat.pow 2 (bits - 1) ≤ i) (hgreatest : i < Nat.pow 2 (bits - 1))
    (hvalue : toValue v = .number (.int i)) (hread : ∀ t, ofTree? t = (word? bits t).map ofInt)
    (hofInt : ofInt i = v) : ReadsBack v := by
  rw [readsBack_iff, hvalue, hread, word?_tree hbits hleast hgreatest, Option.map_some, hofInt]

theorem readsBack_int8 (n : Int8) : ReadsBack n :=
  readsBack_of_word (by decide) n.le_toInt n.toInt_lt rfl (fun _ => rfl)
    (Int8.ofInt_toInt n)

theorem readsBack_int16 (n : Int16) : ReadsBack n :=
  readsBack_of_word (by decide) n.le_toInt n.toInt_lt rfl (fun _ => rfl)
    (Int16.ofInt_toInt n)

theorem readsBack_int32 (n : Int32) : ReadsBack n :=
  readsBack_of_word (by decide) n.le_toInt n.toInt_lt rfl (fun _ => rfl)
    (Int32.ofInt_toInt n)

theorem readsBack_int64 (n : Int64) : ReadsBack n :=
  readsBack_of_word (by decide) n.le_toInt n.toInt_lt rfl (fun _ => rfl)
    (Int64.ofInt_toInt n)

theorem readsBack_list_cons {v : α} {vs : List α} :
    ReadsBack (v :: vs) ↔ ReadsBack v ∧ ReadsBack vs := by
  simp only [readsBack_iff]
  show List.mapM ofTree? ((toValue v).tree :: Value.treesOfItems (vs.map toValue)) =
      some (v :: vs) ↔
    _ ∧ List.mapM ofTree? (Value.treesOfItems (vs.map toValue)) = some vs
  rw [List.mapM_cons]
  cases ofTree? (α := α) (toValue v).tree <;>
    cases List.mapM (ofTree? (α := α)) (Value.treesOfItems (vs.map toValue)) <;> simp

theorem readsBack_list {vs : List α} : ReadsBack vs ↔ ∀ v ∈ vs, ReadsBack v := by
  induction vs with
  | nil => exact iff_of_true (readsBack_iff.mpr rfl) (List.forall_mem_nil _)
  | cons v vs ih => rw [readsBack_list_cons, ih, List.forall_mem_cons]

theorem readsBack_value {v : Value} : ReadsBack v ↔ v.Exact Value.maxDepth :=
  readsBack_iff.trans (Value.ofTree?_tree v Value.maxDepth)

end Payload

/-! ### All texts -/

open Payload

/-- Texts cross without loss or are refused. A text is refused exactly if it holds the character
zero, and is read back from its buffer otherwise; a buffer is read exactly if the octets before the
first zero are UTF-8, as the text that they encode; without a buffer there is an error. Values cross
as JSON texts, which are never refused, and every value that its own text gives back is given back
by the buffer: texts with any characters, words, truth values, lists of such, and JSON values in
which nothing is lost. -/
theorem texts_lossless :
    (∀ s : String,
      ((∃ fault, WireText.ofText s = .error (.invalidText fault)) ↔ '\x00' ∈ s.toList) ∧
      ('\x00' ∉ s.toList → ∃ w, WireText.ofText s = .ok w ∧ w.text = s ∧
        WireText.borrow (some w.buffer) = .ok s ∧ WireText.ofBuffer? w.buffer = some w)) ∧
    (∀ body rest : List UInt8, 0 ∉ body →
      ((∃ s, WireText.borrow (some (body ++ 0 :: rest)) = .ok s) ↔
        ByteArray.IsValidUTF8 ⟨body.toArray⟩) ∧
      ∀ s, WireText.borrow (some (body ++ 0 :: rest)) = .ok s ↔ encodeUtf8 s = body) ∧
    (∃ fault, WireText.borrow none = .error (.invalidText fault)) ∧
    (∀ (α : Type) [Payload α] (v : α),
      (∀ fault, encode v ≠ .error (.invalidText fault)) ∧
      (ReadsBack v → ∃ w, encode v = .ok w ∧ decode (some w.buffer) = .ok v)) ∧
    (∀ s : String, ReadsBack s) ∧ (∀ b : Bool, ReadsBack b) ∧
    (∀ n : Int8, ReadsBack n) ∧ (∀ n : Int16, ReadsBack n) ∧ (∀ n : Int32, ReadsBack n) ∧
    (∀ n : Int64, ReadsBack n) ∧
    (∀ (α : Type) [Payload α] (vs : List α), ReadsBack vs ↔ ∀ v ∈ vs, ReadsBack v) ∧
    ∀ v : Json.Value, ReadsBack v ↔ v.Exact Json.Value.maxDepth := by
  refine ⟨fun s => ⟨?_, fun hs => ?_⟩, fun body rest hbody => ⟨?_, fun s => ?_⟩, ⟨_, rfl⟩,
    fun α _ v => ⟨?_, fun hv => ?_⟩, readsBack_text, readsBack_bool, readsBack_int8,
    readsBack_int16, readsBack_int32, readsBack_int64, fun α _ vs => readsBack_list,
    fun v => readsBack_value⟩
  · constructor
    · rintro ⟨fault, h⟩
      obtain ⟨before, after, hs, _⟩ := WireText.ofText_eq_error.mp h
      rw [hs]
      exact List.mem_append_right _ List.mem_cons_self
    · intro h
      obtain ⟨before, after, hs, hbefore⟩ := List.eq_append_cons_of_mem h
      exact ⟨_, WireText.ofText_eq_error.mpr ⟨before, after, hs, hbefore, rfl⟩⟩
  · obtain ⟨w, hw⟩ := WireText.exists_ofText hs
    have hoctets := (WireText.ofText_eq_ok.mp hw).2
    exact ⟨w, hw, WireText.text_eq hoctets, WireText.borrow_buffer.mpr hoctets,
      WireText.ofBuffer?_octets w []⟩
  · rw [isValidUTF8_iff]
    exact exists_congr fun s => WireText.borrow_eq_ok hbody
  · exact WireText.borrow_eq_ok hbody
  · -- the text of a value is never one that is refused
    intro fault h
    obtain ⟨w, hw, _⟩ := encode_eq_ok v
    rw [hw] at h
    cases h
  · obtain ⟨w, hw, hoctets⟩ := encode_eq_ok v
    exact ⟨w, hw, (decode_buffer hoctets).mpr hv⟩

theorem texts_lossless_zero :
    (∃ fault, WireText.ofText "a\x00b" = .error (.invalidText fault)) ∧
    (∃ w, WireText.ofText "é" = .ok w ∧ WireText.borrow (some w.buffer) = .ok "é") ∧
    WireText.borrow (some [0xC3, 0xA9, 0, 0xFF]) = .ok "é" ∧
    ∃ w, encode ["a\x00b", "é"] = .ok w ∧ decode (some w.buffer) = .ok ["a\x00b", "é"] := by
  obtain ⟨htext, hbuffer, _, hvalue, hstring, _, _, _, _, _, hlist, _⟩ := texts_lossless
  refine ⟨(htext "a\x00b").1.mpr (by decide), ?_, ?_, ?_⟩
  · obtain ⟨w, hw, _, hread, _⟩ := (htext "é").2 (by decide)
    exact ⟨w, hw, hread⟩
  · exact ((hbuffer [0xC3, 0xA9] [0xFF] (by decide)).2 "é").mpr (by decide)
  · exact (hvalue (List String) ["a\x00b", "é"]).2 ((hlist String _).mpr fun s _ => hstring s)

end HostBindings.Bridge
