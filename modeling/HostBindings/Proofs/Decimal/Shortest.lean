import HostBindings.Decimal.Shortest

/-!
The shortest decimal of a double other than zero is not zero: the search only stops at decimals that
round to the double, or at a place where the double itself has a digit.
-/

namespace HostBindings.Decimal

namespace Rounding

variable {r : Rounding}

theorem power_pos {b : Nat} (h : 0 < b) (exponent : Nat) : 0 < Nat.pow b exponent :=
  Nat.pow_pos h

theorem pos_of_covers (hlow : 0 < r.low) {n : Nat} (h : r.covers n = true) : 0 < n := by
  unfold covers at h
  split at h <;> simp only [Bool.and_eq_true, decide_eq_true_eq] at h <;> omega

theorem pos_of_onGrid? (hlow : 0 < r.low) {place c : Nat} (h : r.onGrid? place = some c) :
    0 < c := by
  have hgrid {n : Nat} (hcovers : r.covers (n * (Nat.pow 10 place * Nat.pow 2 binaryPlaces))) :
      0 < n :=
    Nat.pos_of_mul_pos_right (pos_of_covers hlow hcovers)
  -- whichever neighbour is tried first, the one found is covered
  have htried (first second : Nat) :
      (if r.covers (first * (Nat.pow 10 place * Nat.pow 2 binaryPlaces)) then some first
        else if r.covers (second * (Nat.pow 10 place * Nat.pow 2 binaryPlaces)) then some second
        else none) = some c → 0 < c := by
    split
    · rename_i hfirst
      exact fun hc => Option.some.inj hc ▸ hgrid hfirst
    · split
      · rename_i hsecond
        exact fun hc => Option.some.inj hc ▸ hgrid hsecond
      · exact fun hc => by cases hc
  exact htried _ _ h

/-- Below its leading digit a double has a digit on every grid. -/
theorem search_pos (hlow : 0 < r.low) {place : Nat}
    (hplace : Nat.pow 10 place * Nat.pow 2 binaryPlaces ≤ r.value) (tries : Nat) :
    0 < (r.search place tries).digits := by
  induction tries generalizing place with
  | zero =>
    have hten : 0 < Nat.pow 10 place := power_pos (by decide) place
    have htwo : 0 < Nat.pow 2 binaryPlaces := power_pos (by decide) binaryPlaces
    exact Nat.div_pos hplace (Nat.mul_pos hten htwo)
  | succ tries ih =>
    unfold search
    split
    · rename_i c hc
      exact pos_of_onGrid? hlow hc
    · have hpow : Nat.pow 10 (place - 1) ≤ Nat.pow 10 place :=
        Nat.pow_le_pow_right (by decide) (Nat.sub_le place 1)
      exact ih (Nat.le_trans (Nat.mul_le_mul_right _ hpow) hplace)

theorem leadingPlace_le (hvalue : Nat.pow 2 binaryPlaces ≤ r.value) :
    Nat.pow 10 r.leadingPlace * Nat.pow 2 binaryPlaces ≤ r.value := by
  have hunit : 0 < Nat.pow 2 binaryPlaces := power_pos (by decide) binaryPlaces
  rw [← Nat.le_div_iff_mul_le hunit]
  have hpos : 0 < r.value / Nat.pow 2 binaryPlaces := Nat.div_pos hvalue hunit
  unfold leadingPlace
  generalize r.value / Nat.pow 2 binaryPlaces = n at hpos
  refine Nat.le_of_not_lt fun hless => ?_
  -- with fewer digits than it has the number would be less than that power of ten
  rcases Nat.eq_zero_or_pos ((Nat.toDigits 10 n).length - 1) with hone | hmore
  · rw [hone] at hless
    exact absurd hpos (Nat.not_lt.mpr (Nat.le_of_lt_succ hless))
  · have hlength := (Nat.length_toDigits_le_iff (by decide) hmore).mpr hless
    omega

theorem ofBits_pos {bits : UInt64} (h : bits.toNat % Nat.pow 2 63 ≠ 0) :
    0 < (ofBits bits).low ∧ Nat.pow 2 binaryPlaces ≤ (ofBits bits).value := by
  unfold ofBits
  simp only
  generalize bits.toNat % Nat.pow 2 63 = raw at h
  -- the leading bit is implied but for the smallest exponent, and there some other bit is set
  have hmantissa : 0 < (if raw / Nat.pow 2 52 = 0 then raw % Nat.pow 2 52
      else Nat.pow 2 52 + raw % Nat.pow 2 52) := by
    split
    · rename_i hsmall
      have hmod := Nat.div_add_mod raw (Nat.pow 2 52)
      rw [hsmall] at hmod
      omega
    · exact Nat.add_pos_left (power_pos (by decide) 52) _
  have hquarter : Nat.pow 10 decimalPlaces ≤
      Nat.pow 2 (max (raw / Nat.pow 2 52) 1 - 1 + (binaryPlaces - 1076)) *
        Nat.pow 10 decimalPlaces :=
    Nat.le_mul_of_pos_left _ (power_pos (by decide) _)
  have hunit : Nat.pow 2 binaryPlaces ≤ 4 * Nat.pow 10 decimalPlaces := by decide +kernel
  have hten : 0 < Nat.pow 10 decimalPlaces := power_pos (by decide) decimalPlaces
  -- as variables, since nothing may evaluate powers of this size
  generalize (if raw / Nat.pow 2 52 = 0 then raw % Nat.pow 2 52
    else Nat.pow 2 52 + raw % Nat.pow 2 52) = mantissa at hmantissa ⊢
  generalize Nat.pow 2 (max (raw / Nat.pow 2 52) 1 - 1 + (binaryPlaces - 1076)) *
    Nat.pow 10 decimalPlaces = quarter at hquarter ⊢
  constructor
  · refine Nat.mul_pos ?_ (Nat.lt_of_lt_of_le hten hquarter)
    split <;> omega
  · calc Nat.pow 2 binaryPlaces
      _ ≤ 4 * Nat.pow 10 decimalPlaces := hunit
      _ ≤ 4 * quarter := Nat.mul_le_mul_left 4 hquarter
      _ ≤ 4 * mantissa * quarter := Nat.mul_le_mul_right quarter (by omega)

end Rounding

theorem strip_pos (bound : Nat) {d : Decimal} (h : 0 < d.digits) :
    0 < (d.strip bound).digits := by
  induction bound generalizing d with
  | zero => exact h
  | succ bound ih =>
    unfold strip
    split
    · rename_i hzeros
      exact ih (show 0 < d.digits / 10 by omega)
    · exact h

/-- A double other than zero has a shortest decimal other than zero. -/
theorem shortest_pos {bits : UInt64} (h : bits.toNat % Nat.pow 2 63 ≠ 0) :
    0 < (shortest bits).digits := by
  obtain ⟨hlow, hvalue⟩ := Rounding.ofBits_pos h
  exact strip_pos 17 (Rounding.search_pos hlow (Rounding.leadingPlace_le hvalue) 17)

end HostBindings.Decimal
