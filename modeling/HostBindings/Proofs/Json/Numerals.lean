import HostBindings.Json.Writer
import HostBindings.Proofs.Decimal.Shortest

/-!
Numerals that are written. Every number but the doubles without a numeral is written as a numeral of
the grammar, which is read back as it is; a 64-bit integer is also read as the same number.
-/

namespace HostBindings.Json

/-- A run is taken as a whole if what follows does not go on with it. -/
theorem takeWhile_run {α : Type} {p : α → Bool} {run rest : List α} (hrun : ∀ a ∈ run, p a = true)
    (hrest : ∀ a ∈ rest.head?, p a = false) :
    (run ++ rest).takeWhile p = run ∧ (run ++ rest).dropWhile p = rest := by
  rw [List.takeWhile_append_of_pos hrun, List.dropWhile_append_of_pos hrun]
  cases rest with
  | nil => simp
  | cons a rest => simp [hrest a rfl]

/-! ### Digits -/

structure IsDigits (ds : List Char) : Prop where
  ne_nil : ds ≠ []
  forall_isDigit : ∀ c ∈ ds, c.isDigit = true

theorem IsDigits.take {ds : List Char} (h : IsDigits ds) {k : Nat} (hk : 0 < k) :
    IsDigits (ds.take k) :=
  ⟨by simpa using ⟨Nat.ne_of_gt hk, h.ne_nil⟩,
    fun c hc => h.forall_isDigit c (List.mem_of_mem_take hc)⟩

theorem IsDigits.drop {ds : List Char} (h : IsDigits ds) {k : Nat} (hk : k < ds.length) :
    IsDigits (ds.drop k) :=
  ⟨mt List.drop_eq_nil_iff.mp (Nat.not_le.mpr hk),
    fun c hc => h.forall_isDigit c (List.mem_of_mem_drop hc)⟩

theorem isDigit_of_mem_replicate {n : Nat} {c : Char} (h : c ∈ List.replicate n '0') :
    c.isDigit = true := by
  rw [List.eq_of_mem_replicate h]
  rfl

theorem IsDigits.append_zeros {ds : List Char} (h : IsDigits ds) (n : Nat) :
    IsDigits (ds ++ List.replicate n '0') :=
  ⟨List.append_ne_nil_of_left_ne_nil h.ne_nil _,
    List.forall_mem_append.mpr ⟨h.forall_isDigit, fun _ => isDigit_of_mem_replicate⟩⟩

theorem IsDigits.zeros_append {ds : List Char} (h : IsDigits ds) (n : Nat) :
    IsDigits (List.replicate n '0' ++ ds) :=
  ⟨List.append_ne_nil_of_right_ne_nil _ h.ne_nil,
    List.forall_mem_append.mpr ⟨fun _ => isDigit_of_mem_replicate, h.forall_isDigit⟩⟩

theorem isDigits_zero : IsDigits ['0'] :=
  ⟨List.cons_ne_nil _ _, by simp⟩

theorem isDigits_natChars (n : Nat) : IsDigits (natChars n) :=
  ⟨Nat.toDigits_ne_nil, fun _ hc => Nat.isDigit_of_mem_toDigits (by decide) (by decide) hc⟩

theorem head?_natChars {n : Nat} (hn : 0 < n) : (natChars n).head? ≠ some '0' := by
  induction n using Nat.strongRecOn with
  | ind n ih =>
    rw [natChars, Nat.toDigits_eq_if (by decide)]
    split
    · have hdigit : ∀ d < 10, 0 < d → d.digitChar ≠ '0' := by decide
      rename_i hsmall
      exact fun h => hdigit n hsmall hn (Option.some.inj h)
    · obtain ⟨d, ds, hds⟩ :=
        List.exists_cons_of_ne_nil (Nat.toDigits_ne_nil (n := n / 10) (b := 10))
      have hfront := ih (n / 10) (by omega) (by omega)
      rw [natChars, hds] at hfront
      rw [hds]
      exact hfront

theorem natChars_zero : natChars 0 = ['0'] :=
  Nat.toDigits_zero 10

/-- A single digit, or digits that do not begin with zero. -/
theorem leading_natChars (n : Nat) :
    (natChars n).length ≤ 1 ∨ (natChars n).head? ≠ some '0' := by
  rcases Nat.eq_zero_or_pos n with rfl | hn
  · exact Or.inl (by rw [natChars_zero]; exact Nat.le_refl 1)
  · exact Or.inr (head?_natChars hn)

/-! ### Numerals -/

namespace Numeral

def fractionChars : Option (List Char) → List Char
  | none => []
  | some ds => '.' :: ds

def exponentChars : Option (Bool × List Char) → List Char
  | none => []
  | some (negative, ds) => 'e' :: (if negative then '-' else '+') :: ds

def chars (n : Numeral) : List Char :=
  (if n.negative then ['-'] else []) ++
    (n.whole ++ (fractionChars n.fraction ++ exponentChars n.exponent))

structure WellFormed (n : Numeral) : Prop where
  whole : IsDigits n.whole
  leading : n.whole.length ≤ 1 ∨ n.whole.head? ≠ some '0'
  fraction : ∀ ds ∈ n.fraction, IsDigits ds
  exponent : ∀ e ∈ n.exponent, IsDigits e.2

theorem exponentOfChars?_chars {exponent : Option (Bool × List Char)}
    (h : ∀ e ∈ exponent, IsDigits e.2) :
    exponentOfChars? (exponentChars exponent) = some exponent := by
  cases exponent with
  | none => rfl
  | some e =>
    obtain ⟨negative, ds⟩ := e
    have hds := h _ rfl
    have hall : ds.all Char.isDigit = true := List.all_eq_true.mpr hds.forall_isDigit
    cases negative <;> simp [exponentOfChars?, exponentChars, hds.ne_nil, hall]

theorem head_exponentChars (exponent : Option (Bool × List Char)) :
    ∀ c ∈ (exponentChars exponent).head?, c = 'e' := by
  cases exponent with
  | none => exact fun c hc => by cases hc
  | some e => exact fun c hc => (Option.some.inj hc).symm

theorem fractionOfChars?_chars {fraction : Option (List Char)}
    {exponent : Option (Bool × List Char)} (hfraction : ∀ ds ∈ fraction, IsDigits ds)
    (hexponent : ∀ e ∈ exponent, IsDigits e.2) :
    fractionOfChars? (fractionChars fraction ++ exponentChars exponent) =
      some (fraction, exponent) := by
  cases fraction with
  | none =>
    rw [fractionChars, List.nil_append, fractionOfChars?, exponentOfChars?_chars hexponent]
    · rfl
    · -- an exponent does not start with a point
      intro rest h
      have hdot := head_exponentChars exponent '.' (by rw [h]; rfl)
      exact absurd hdot (by decide)
  | some ds =>
    have hds := hfraction ds rfl
    -- the digits end at the exponent, or with the number
    have hfollow : ∀ c ∈ (exponentChars exponent).head?, c.isDigit = false := by
      intro c hc
      rw [head_exponentChars exponent c hc]
      rfl
    obtain ⟨htake, hdrop⟩ := takeWhile_run hds.forall_isDigit hfollow
    rw [fractionChars, List.cons_append, fractionOfChars?]
    simp [htake, hdrop, hds.ne_nil, exponentOfChars?_chars hexponent]

theorem head_fractionChars (fraction : Option (List Char)) (exponent : Option (Bool × List Char)) :
    ∀ c ∈ (fractionChars fraction ++ exponentChars exponent).head?, c.isDigit = false := by
  intro c hc
  cases fraction with
  | none =>
    rw [head_exponentChars exponent c hc]
    rfl
  | some ds =>
    obtain rfl : '.' = c := Option.some.inj hc
    rfl

theorem ofChars?_chars {n : Numeral} (h : n.WellFormed) : ofChars? n.chars = some n := by
  obtain ⟨negative, whole, fraction, exponent⟩ := n
  obtain ⟨htake, hdrop⟩ := takeWhile_run h.whole.forall_isDigit
    (head_fractionChars fraction exponent)
  have hfollow := fractionOfChars?_chars h.fraction h.exponent
  have hlead : whole.length > 1 → whole.head? ≠ some '0' := fun hlong =>
    h.leading.resolve_left (Nat.not_le.mpr hlong)
  cases negative with
  | true =>
    simp only [chars, ofChars?, if_true, List.singleton_append, htake, hdrop, hfollow]
    simpa [h.whole.ne_nil] using hlead
  | false =>
    -- a digit is no sign, so all characters belong to the digits and what follows
    obtain ⟨d, ds, rfl⟩ := List.exists_cons_of_ne_nil h.whole.ne_nil
    have hsign : d ≠ '-' := by
      rintro rfl
      exact absurd (h.whole.forall_isDigit '-' List.mem_cons_self) (by decide)
    rw [List.cons_append] at htake hdrop
    simp only [chars, ofChars?, Bool.false_eq_true, if_false, List.nil_append, List.cons_append]
    split
    · rename_i hminus
      exact absurd (List.cons.inj hminus).1 hsign
    · simp only [htake, hdrop, hfollow]
      simpa using hlead

/-! ### What is written -/

def ofInt (i : Int) : Numeral :=
  ⟨decide (i < 0), natChars i.natAbs, none, none⟩

/-- The numeral of a decimal, cut into its parts where the writer puts the point. -/
def ofDecimal (negative : Bool) (d : Decimal) : Numeral :=
  let digits := natChars d.digits
  let point : Int := digits.length + d.exponent
  if 0 ≤ d.exponent && point ≤ 16 then
    ⟨negative, digits ++ List.replicate d.exponent.toNat '0', some ['0'], none⟩
  else if 0 < point && point ≤ 16 then
    ⟨negative, digits.take point.toNat, some (digits.drop point.toNat), none⟩
  else if -5 < point && point ≤ 0 then
    ⟨negative, ['0'], some (List.replicate point.natAbs '0' ++ digits), none⟩
  else
    ⟨negative, digits.take 1, if digits.drop 1 = [] then none else some (digits.drop 1),
      some (decide (point ≤ 0), natChars (point - 1).natAbs)⟩

theorem wellFormed_ofInt (i : Int) : (ofInt i).WellFormed where
  whole := isDigits_natChars _
  leading := leading_natChars _
  fraction := by rintro _ ⟨⟩
  exponent := by rintro _ ⟨⟩

theorem chars_ofInt (i : Int) : (intText i).toList = (ofInt i).chars := by
  unfold intText ofInt chars
  split <;> rename_i h <;> simp [h, fractionChars, exponentChars]

theorem chars_ofDecimal (negative : Bool) (d : Decimal) :
    (ofDecimal negative d).chars = (if negative then ['-'] else []) ++ decimalChars d := by
  unfold ofDecimal decimalChars chars
  simp only
  split
  · simp [fractionChars, exponentChars]
  · split
    · simp [fractionChars, exponentChars]
    · split
      · simp [fractionChars, exponentChars]
      · obtain ⟨c, cs, hcs⟩ := List.exists_cons_of_ne_nil (isDigits_natChars d.digits).ne_nil
        rw [hcs]
        cases cs with
        | nil => simp [fractionChars, exponentChars]
        | cons e es => simp [fractionChars, exponentChars]

/-- Digits on both sides of a point. -/
theorem wellFormed_positional {negative : Bool} {whole fraction : List Char}
    (hwhole : IsDigits whole) (hlead : whole.length ≤ 1 ∨ whole.head? ≠ some '0')
    (hfraction : IsDigits fraction) : WellFormed ⟨negative, whole, some fraction, none⟩ where
  whole := hwhole
  leading := hlead
  fraction := by
    rintro _ ⟨⟩
    exact hfraction
  exponent := by rintro _ ⟨⟩

theorem wellFormed_ofDecimal (negative : Bool) {d : Decimal} (hd : 0 < d.digits) :
    (ofDecimal negative d).WellFormed := by
  have hdigits := isDigits_natChars d.digits
  have hlength := List.length_pos_iff.mpr hdigits.ne_nil
  have hhead {k : Nat} (hk : 0 < k) : ((natChars d.digits).take k).head? ≠ some '0' := by
    rw [List.head?_take, if_neg (Nat.ne_of_gt hk)]
    exact head?_natChars hd
  unfold ofDecimal
  simp only
  split
  · refine wellFormed_positional (hdigits.append_zeros _) (Or.inr ?_) isDigits_zero
    simpa [hdigits.ne_nil] using head?_natChars hd
  · rename_i hlarge
    simp only [Bool.and_eq_true, decide_eq_true_eq] at hlarge
    split
    · rename_i hpoint
      simp only [Bool.and_eq_true, decide_eq_true_eq] at hpoint
      -- the exponent is negative here, so the point stands among the digits
      exact wellFormed_positional (hdigits.take (by omega)) (Or.inr (hhead (by omega)))
        (hdigits.drop (by omega))
    · split
      · exact wellFormed_positional isDigits_zero (Or.inl (Nat.le_refl 1))
          (hdigits.zeros_append _)
      · constructor
        · exact hdigits.take (by decide)
        · exact Or.inr (hhead (by decide))
        · intro ds hds
          split at hds
          · cases hds
          · rename_i hmore
            obtain rfl := Option.some.inj hds
            exact hdigits.drop (Nat.not_le.mp (mt List.drop_eq_nil_iff.mpr hmore))
        · rintro _ ⟨⟩
          exact isDigits_natChars _

end Numeral

namespace Number

open HostBindings.Decimal

def numeral? : Number → Option Numeral
  | .int i => some (.ofInt i)
  | .double x =>
    if x.isNaN || x.isInf then none
    else
      let negative := decide (x.toBits.toNat ≥ Nat.pow 2 63)
      if x.toBits.toNat % Nat.pow 2 63 = 0 then some ⟨negative, ['0'], some ['0'], none⟩
      else some (.ofDecimal negative (shortest x.toBits))

theorem wellFormed_numeral? (n : Number) : ∀ m ∈ n.numeral?, m.WellFormed := by
  intro m hm
  cases n with
  | int i =>
    obtain rfl := Option.some.inj hm
    exact Numeral.wellFormed_ofInt i
  | double x =>
    simp only [numeral?, Option.mem_def] at hm
    split at hm
    · cases hm
    · split at hm
      · obtain rfl := Option.some.inj hm
        exact Numeral.wellFormed_positional isDigits_zero (Or.inl (Nat.le_refl 1)) isDigits_zero
      · rename_i hbits
        obtain rfl := Option.some.inj hm
        exact Numeral.wellFormed_ofDecimal _ (shortest_pos hbits)

/-- A number is written as its numeral, or as the constant `null` if it has none. -/
theorem toList_text (n : Number) :
    n.text.toList = (n.numeral?.map Numeral.chars).getD "null".toList := by
  cases n with
  | int i => exact Numeral.chars_ofInt i
  | double x =>
    simp only [text, doubleText, numeral?]
    split
    · rfl
    · split
      · by_cases hsign : x.toBits.toNat ≥ Nat.pow 2 63 <;>
          simp [hsign, Numeral.chars, Numeral.fractionChars, Numeral.exponentChars]
      · rw [Option.map_some, Option.getD_some, Numeral.chars_ofDecimal]
        by_cases hsign : x.toBits.toNat ≥ Nat.pow 2 63 <;> simp [hsign]

end Number

namespace Numeral

/-! ### Integers that are read back -/

theorem le_ofDigitChars (ds : List Char) (n : Nat) : n ≤ Nat.ofDigitChars 10 ds n := by
  induction ds generalizing n with
  | nil => exact Nat.le_of_eq Nat.ofDigitChars_nil.symm
  | cons d ds ih =>
    rw [Nat.ofDigitChars_cons]
    exact Nat.le_trans (by omega) (ih _)

/-- Digits whose number is small enough are all gathered. -/
theorem gather_eq {limit : Nat} {ds : List Char} {n : Nat}
    (h : Nat.ofDigitChars 10 ds n ≤ limit) :
    gather limit n ds = ⟨Nat.ofDigitChars 10 ds n, []⟩ := by
  induction ds generalizing n with
  | nil => rw [gather, Nat.ofDigitChars_nil]
  | cons d ds ih =>
    rw [Nat.ofDigitChars_cons, Nat.mul_comm] at h ⊢
    have hnext := Nat.le_trans (le_ofDigitChars ds _) h
    rw [gather, if_neg (Nat.not_lt.mpr hnext), ih h]

theorem gather_natChars {limit n : Nat} (h : n ≤ limit) :
    gather limit 0 (natChars n) = ⟨n, []⟩ := by
  have hvalue : Nat.ofDigitChars 10 (natChars n) 0 = n := Nat.ofDigitChars_ten_toDigits
  rw [gather_eq (by rwa [hvalue]), hvalue]

theorem number?_ofInt {i : Int} (hleast : -0x8000000000000000 ≤ i)
    (hgreatest : i ≤ 0xFFFFFFFFFFFFFFFF) :
    (ofInt i).number? = some (.int i) := by
  have hpow : Nat.pow 2 63 = 0x8000000000000000 := rfl
  have hword : i.natAbs ≤ wordMax := by
    have hmax : wordMax = 0xFFFFFFFFFFFFFFFF := rfl
    omega
  unfold number? ofInt
  simp only [gather_natChars hword]
  simp only [Option.isSome_none, List.isEmpty_nil, Bool.not_true, Bool.or_self,
    Bool.false_eq_true, if_false]
  -- below zero the magnitude is at most 2^63, above it any word will do
  by_cases hneg : i < 0
  · have hsmall : ¬((i.natAbs == 0 || decide (i.natAbs > Nat.pow 2 63)) = true) := by
      rw [Bool.or_eq_true, beq_iff_eq, decide_eq_true_eq]
      omega
    have habs : -(i.natAbs : Int) = i := by omega
    rw [decide_eq_true hneg, if_neg (by decide), if_neg hsmall, habs]
  · have habs : (i.natAbs : Int) = i := by omega
    rw [decide_eq_false hneg, if_pos (by decide), habs]

/-! ### Words -/

theorem isWordChar_of_isDigit {c : Char} (h : c.isDigit = true) : Token.isWordChar c = true := by
  simp [Token.isWordChar, Char.isAlphanum, h]

theorem isWordChar_of_mem_chars {n : Numeral} (h : n.WellFormed) :
    ∀ c ∈ n.chars, Token.isWordChar c = true := by
  obtain ⟨negative, whole, fraction, exponent⟩ := n
  have hdigits {ds : List Char} (hds : IsDigits ds) : ∀ c ∈ ds, Token.isWordChar c = true :=
    fun c hc => isWordChar_of_isDigit (hds.forall_isDigit c hc)
  simp only [chars, List.forall_mem_append]
  refine ⟨?_, hdigits h.whole, ?_, ?_⟩
  · cases negative <;> simp [Token.isWordChar]
  · cases fraction with
    | none => simp [fractionChars]
    | some ds => exact List.forall_mem_cons.mpr ⟨by decide, hdigits (h.fraction ds rfl)⟩
  · cases exponent with
    | none => simp [exponentChars]
    | some e =>
      obtain ⟨negative, ds⟩ := e
      refine List.forall_mem_cons.mpr ⟨by decide, List.forall_mem_cons.mpr ⟨?_, ?_⟩⟩
      · cases negative <;> decide
      · exact hdigits (h.exponent _ rfl)

theorem exists_chars_cons {n : Numeral} (h : n.WellFormed) :
    ∃ c cs, n.chars = c :: cs ∧ (c = '-' ∨ c.isDigit = true) := by
  obtain ⟨negative, whole, fraction, exponent⟩ := n
  obtain ⟨d, ds, rfl⟩ := List.exists_cons_of_ne_nil h.whole.ne_nil
  cases negative with
  | true => exact ⟨'-', _, rfl, Or.inl rfl⟩
  | false => exact ⟨d, _, rfl, Or.inr (h.whole.forall_isDigit d List.mem_cons_self)⟩

theorem ofWord?_chars {n : Numeral} (h : n.WellFormed) :
    Tree.ofWord? n.chars = some (.number n) := by
  have hconstant {d : Char} {ds : List Char} (hd : ¬(d = '-' ∨ d.isDigit = true)) :
      n.chars ≠ d :: ds := by
    obtain ⟨c, cs, hcs, hc⟩ := exists_chars_cons h
    intro heq
    rw [hcs] at heq
    exact hd ((List.cons.inj heq).1 ▸ hc)
  rw [Tree.ofWord?, if_neg (hconstant (by decide)), if_neg (hconstant (by decide)),
    if_neg (hconstant (by decide)), ofChars?_chars h]
  rfl

end Numeral

namespace Number

def tree (n : Number) : Tree :=
  (n.numeral?.map Tree.number).getD .null

theorem isWord_text (n : Number) :
    n.text.toList ≠ [] ∧ ∀ c ∈ n.text.toList, Token.isWordChar c = true := by
  rw [toList_text]
  cases hn : n.numeral? with
  | none => exact ⟨by decide, List.all_eq_true.mp (by decide)⟩
  | some m =>
    have hm := n.wellFormed_numeral? m hn
    obtain ⟨c, cs, hcs, _⟩ := Numeral.exists_chars_cons hm
    refine ⟨?_, Numeral.isWordChar_of_mem_chars hm⟩
    show m.chars ≠ []
    rw [hcs]
    exact List.cons_ne_nil c cs

theorem ofWord?_text (n : Number) : Tree.ofWord? n.text.toList = some n.tree := by
  rw [toList_text, tree]
  cases hn : n.numeral? with
  | none => rfl
  | some m => exact Numeral.ofWord?_chars (n.wellFormed_numeral? m hn)

end Number

end HostBindings.Json
