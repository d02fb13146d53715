import Mathlib.Algebra.Group.Nat.Defs

/-!
Numbers written in digits.

A number is determined by its digits, so numerals are told apart wherever it is clear where they
end: by a character that is no digit, or by a fixed width. Among the numerals of one width, which
have zeros in front where that is needed, every string of digits is the numeral of its value.
-/

namespace Backtrack.Text

variable {base m n : Nat} {c : Char} {ds es s t : List Char}

/-! ### Digits up to a delimiter -/

theorem digitChar_inj (hm : m < 16) (hn : n < 16) (same : m.digitChar = n.digitChar) : m = n := by
  have table : ∀ a < 16, ∀ b < 16, Nat.digitChar a = Nat.digitChar b → a = b := by decide
  exact table m hm n hn same

/-- A number is determined by its digits. -/
theorem toDigits_inj (atLeast : 1 < base) (atMost : base ≤ 16)
    (same : Nat.toDigits base m = Nat.toDigits base n) : m = n := by
  induction m using Nat.strongRecOn generalizing n with
  | ind m ih =>
      rw [Nat.toDigits_eq_if atLeast, Nat.toDigits_eq_if (n := n) atLeast] at same
      by_cases small : m < base
      · by_cases small' : n < base
        · rw [if_pos small, if_pos small', List.singleton_inj] at same
          exact digitChar_inj (by omega) (by omega) same
        · -- One digit on the left, at least two on the right.
          rw [if_pos small, if_neg small'] at same
          have one := congrArg List.length same
          have digits := Nat.length_toDigits_pos (b := base) (n := n / base)
          simp only [List.length_append, List.length_singleton] at one
          omega
      · by_cases small' : n < base
        · rw [if_neg small, if_pos small'] at same
          have one := congrArg List.length same
          have digits := Nat.length_toDigits_pos (b := base) (n := m / base)
          simp only [List.length_append, List.length_singleton] at one
          omega
        · rw [if_neg small, if_neg small'] at same
          obtain ⟨front, last⟩ := List.append_inj' same rfl
          have quotient : m / base = n / base := by
            apply ih
            · exact Nat.div_lt_self (by omega) atLeast
            · exact front
          have remainder : m % base = n % base := by
            apply digitChar_inj
            · exact Nat.lt_of_lt_of_le (Nat.mod_lt m (by omega)) atMost
            · exact Nat.lt_of_lt_of_le (Nat.mod_lt n (by omega)) atMost
            · exact List.singleton_inj.mp last
          rw [← Nat.div_add_mod m base, quotient, remainder, Nat.div_add_mod]

/-- A character that is no digit does not occur in a numeral. -/
theorem notMem_toDigits (atLeast : 1 < base) (other : ∀ d, Nat.digitChar d ≠ c) :
    c ∉ Nat.toDigits base n := by
  induction n using Nat.strongRecOn with
  | ind n ih =>
      rw [Nat.toDigits_eq_if atLeast]
      split
      · simp [Ne.symm (other n)]
      · have shorter : c ∉ Nat.toDigits base (n / base) := by
          apply ih
          exact Nat.div_lt_self (by omega) atLeast
        simp [shorter, Ne.symm (other _)]

/-- What stands before the first delimiter is determined, and so is what stands behind it. -/
theorem append_cons_inj (notMem : c ∉ ds) (notMem' : c ∉ es)
    (same : ds ++ c :: s = es ++ c :: t) : ds = es ∧ s = t := by
  induction ds generalizing es with
  | nil =>
      cases es with
      | nil => exact ⟨rfl, (List.cons.inj same).2⟩
      | cons e es => exact absurd (List.cons.inj same).1 (List.ne_of_not_mem_cons notMem')
  | cons d ds ih =>
      cases es with
      | nil => exact absurd (List.cons.inj same).1.symm (List.ne_of_not_mem_cons notMem)
      | cons e es =>
          obtain ⟨rfl, onward⟩ := List.cons.inj same
          obtain ⟨rfl, behind⟩ := ih (List.not_mem_of_not_mem_cons notMem)
            (List.not_mem_of_not_mem_cons notMem') onward
          exact ⟨rfl, behind⟩

/-- A numeral with a delimiter behind it is determined, whatever follows. -/
theorem toDigits_append_cons_inj (atLeast : 1 < base) (atMost : base ≤ 16)
    (other : ∀ d, Nat.digitChar d ≠ c)
    (same : Nat.toDigits base m ++ c :: s = Nat.toDigits base n ++ c :: t) : m = n ∧ s = t := by
  have apart := append_cons_inj (notMem_toDigits atLeast other) (notMem_toDigits atLeast other) same
  exact ⟨toDigits_inj atLeast atMost apart.1, apart.2⟩

/-! ### Digits of a fixed width -/

/-- The decimal digits of a number, with zeros in front to fill the width. -/
def padded (width n : Nat) : List Char :=
  (Nat.toDigits 10 n).leftpad width '0'

theorem length_padded {width : Nat} (positive : 0 < width) (fits : n < 10 ^ width) :
    (padded width n).length = width := by
  have most := (Nat.length_toDigits_le_iff (by decide) positive).mpr fits
  rw [padded, List.length_leftpad]
  omega

theorem isDigit_of_mem_padded {width : Nat} (mem : c ∈ padded width n) : c.isDigit = true := by
  rw [padded, List.leftpad, List.mem_append, List.mem_replicate] at mem
  rcases mem with ⟨-, rfl⟩ | mem
  · decide
  · exact Nat.isDigit_of_mem_toDigits (by decide) (by decide) mem

/-- Zeros in front do not change what is read. -/
theorem ofDigitChars_padded (width n : Nat) : Nat.ofDigitChars 10 (padded width n) 0 = n := by
  rw [padded, List.leftpad, Nat.ofDigitChars_append, Nat.ofDigitChars_replicate_zero, Nat.mul_zero,
    Nat.ofDigitChars_ten_toDigits]

theorem ofDigitChars_cons_zero (c : Char) (ds : List Char) :
    Nat.ofDigitChars 10 (c :: ds) 0 =
      10 ^ ds.length * (c.toNat - '0'.toNat) + Nat.ofDigitChars 10 ds 0 := by
  rw [Nat.ofDigitChars_cons, Nat.mul_zero, Nat.zero_add, Nat.ofDigitChars_eq_ofDigitChars_zero]

theorem toNat_of_isDigit (digit : c.isDigit = true) :
    c.toNat = '0'.toNat + (c.toNat - '0'.toNat) ∧ c.toNat - '0'.toNat < 10 := by
  obtain ⟨least, greatest⟩ := Char.isDigit_iff_toNat.mp digit
  have nine : '9'.toNat = '0'.toNat + 9 := rfl
  omega

/-- The value of a string of digits is less than its width allows. -/
theorem ofDigitChars_lt (digits : ∀ c ∈ ds, c.isDigit = true) :
    Nat.ofDigitChars 10 ds 0 < 10 ^ ds.length := by
  induction ds with
  | nil => decide
  | cons c ds ih =>
      obtain ⟨digit, digits⟩ := List.forall_mem_cons.mp digits
      have below : 10 ^ ds.length * (c.toNat - '0'.toNat) ≤ 10 ^ ds.length * 9 :=
        Nat.mul_le_mul_left _ (Nat.le_of_lt_succ (toNat_of_isDigit digit).2)
      have rest := ih digits
      rw [ofDigitChars_cons_zero, List.length_cons, Nat.pow_succ]
      omega

/-- Strings of digits of one width are told apart by their values. -/
theorem ofDigitChars_inj (digits : ∀ c ∈ ds, c.isDigit = true)
    (digits' : ∀ c ∈ es, c.isDigit = true) (width : ds.length = es.length)
    (same : Nat.ofDigitChars 10 ds 0 = Nat.ofDigitChars 10 es 0) : ds = es := by
  induction ds generalizing es with
  | nil => exact (List.length_eq_zero_iff.mp width.symm).symm
  | cons d ds ih =>
      cases es with
      | nil => cases width
      | cons e es =>
          obtain ⟨digit, digits⟩ := List.forall_mem_cons.mp digits
          obtain ⟨digit', digits'⟩ := List.forall_mem_cons.mp digits'
          have width : ds.length = es.length := Nat.succ.inj width
          have less := ofDigitChars_lt digits
          have less' := ofDigitChars_lt digits'
          rw [ofDigitChars_cons_zero, ofDigitChars_cons_zero, width] at same
          rw [width] at less
          -- The first digit is the quotient, the others have the remainder for their value.
          have first : d.toNat - '0'.toNat = e.toNat - '0'.toNat := by
            have positive : 0 < 10 ^ es.length := Nat.pow_pos (by decide)
            have quotients := congrArg (· / 10 ^ es.length) same
            simpa only [Nat.mul_add_div positive, Nat.div_eq_of_lt less, Nat.div_eq_of_lt less',
              Nat.add_zero] using quotients
          have others : Nat.ofDigitChars 10 ds 0 = Nat.ofDigitChars 10 es 0 := by
            rw [first] at same
            exact Nat.add_left_cancel same
          have head : d = e := by
            apply Char.toNat_inj.mp
            rw [(toNat_of_isDigit digit).1, first, ← (toNat_of_isDigit digit').1]
          rw [head, ih digits digits' width others]

/-- Every string of digits is the numeral of its value in the width that it has. -/
theorem padded_ofDigitChars (digits : ∀ c ∈ ds, c.isDigit = true) (nonempty : ds ≠ []) :
    padded ds.length (Nat.ofDigitChars 10 ds 0) = ds := by
  apply ofDigitChars_inj
  · exact fun c mem => isDigit_of_mem_padded mem
  · exact digits
  · exact length_padded (List.length_pos_iff.mpr nonempty) (ofDigitChars_lt digits)
  · exact ofDigitChars_padded ..

end Backtrack.Text
