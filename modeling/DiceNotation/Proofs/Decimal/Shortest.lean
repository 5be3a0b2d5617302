import DiceNotation.Proofs.Binary64.Round
import DiceNotation.Decimal.Shortest
import Mathlib.Data.Nat.Cast.Order.Field

/-!
# The shortest decimal reads back as its number

`Decimal.shortest m e` searches, for one digit count after another, the decimals around the binary
number `m * 2 ^ e` for one inside its rounding interval.  This file follows the search in `ℚ`:

* `compareDecBin_eq_iff` and `inInterval_iff`: the integer tests are the comparisons of the
  rational numbers they stand for, and the interval test is `Binary64.InRounding`;
* `atDigits_isSome`: once the grid of candidates is finer than the interval is wide, one of the
  two grid points around the number lies inside it, which happens at seventeen digits;
* `shortest_inRounding`: the decimal found lies in the rounding interval;
* `ofDecimal_shortest`: reading that decimal back gives the number itself.
-/

namespace DiceNotation

/-! ## Decimal lengths -/

theorem decimalLength_pos (n : Nat) : 0 < decimalLength n := Nat.length_repr_pos

theorem lt_pow_decimalLength (n : Nat) : n < 10 ^ decimalLength n :=
  (Nat.length_repr_le_iff (decimalLength_pos n)).1 le_rfl

theorem pow_decimalLength_le {n : Nat} (hn : 0 < n) : 10 ^ (decimalLength n - 1) ≤ n := by
  by_cases h1 : decimalLength n = 1
  · rw [h1]
    exact hn
  · -- with two digits or more, `n` does not fit in one digit fewer
    have hlen := decimalLength_pos n
    have hiff : decimalLength n ≤ decimalLength n - 1 ↔ n < 10 ^ (decimalLength n - 1) :=
      Nat.length_repr_le_iff (by omega)
    exact Nat.le_of_not_lt (fun h => absurd (hiff.2 h) (by omega))

/-- A positive whole number lies between the powers of ten its length names. -/
theorem decimalLength_bounds {n : Nat} (hn : 0 < n) :
    (10 : ℚ) ^ ((decimalLength n : Int) - 1) ≤ n ∧ (n : ℚ) < 10 ^ (decimalLength n : Int) := by
  have hlen := decimalLength_pos n
  constructor
  · rw [show (decimalLength n : Int) - 1 = ((decimalLength n - 1 : Nat) : Int) by omega,
      zpow_natCast]
    exact_mod_cast pow_decimalLength_le hn
  · rw [zpow_natCast]
    exact_mod_cast lt_pow_decimalLength n

namespace Decimal

open Binary64 (InRounding lowerGap)

/-! ## Exact comparisons -/

theorem zpow_mul_pow_toNat_neg {a : ℚ} (ha : a ≠ 0) (s : Int) :
    a ^ s * a ^ (-s).toNat = a ^ s.toNat := by
  rw [← zpow_natCast, ← zpow_natCast, ← zpow_add₀ ha]
  congr 1
  omega

/-- `compareDecBin c s w t` compares `c * 10 ^ s` with `w * 2 ^ t`. -/
theorem compareDecBin_eq_iff (c : Nat) (s : Int) (w : Nat) (t : Int) (o : Ordering) :
    compareDecBin c s w t = o ↔ o.Compares ((c : ℚ) * 10 ^ s) ((w : ℚ) * 2 ^ t) := by
  -- both sides are the rational numbers multiplied by one positive factor
  have hK : (0 : ℚ) < 10 ^ (-s).toNat * 2 ^ (-t).toNat := by positivity
  have hmono : StrictMono fun N : Nat => (N : ℚ) / (10 ^ (-s).toNat * 2 ^ (-t).toNat) :=
    fun a b h => div_lt_div_of_pos_right (by exact_mod_cast h) hK
  have hc : ((c * 10 ^ s.toNat * 2 ^ (-t).toNat : Nat) : ℚ) / (10 ^ (-s).toNat * 2 ^ (-t).toNat) =
      c * 10 ^ s := by
    rw [div_eq_iff hK.ne']
    push_cast
    rw [← zpow_mul_pow_toNat_neg (by norm_num : (10 : ℚ) ≠ 0) s]
    ring
  have hw : ((w * 2 ^ t.toNat * 10 ^ (-s).toNat : Nat) : ℚ) / (10 ^ (-s).toNat * 2 ^ (-t).toNat) =
      w * 2 ^ t := by
    rw [div_eq_iff hK.ne']
    push_cast
    rw [← zpow_mul_pow_toNat_neg (by norm_num : (2 : ℚ) ≠ 0) t]
    ring
  unfold compareDecBin
  rw [compare_iff, ← hmono.compares, hc, hw]

/-! ## The interval test -/

theorem interval_lower {m : Nat} (hm : 0 < m) (e : Int) :
    ((interval m e).1 : ℚ) * 2 ^ (e - 2) = ((m : ℚ) - lowerGap m e) * 2 ^ e := by
  have h4 : (2 : ℚ) ^ e = 2 ^ (e - 2) * 4 := by
    rw [zpow_sub₀ two_ne_zero]
    norm_num
  rw [h4]
  unfold interval lowerGap
  dsimp only
  split
  · rw [Nat.cast_sub (by omega)]
    push_cast
    ring
  · rw [Nat.cast_sub (by omega)]
    push_cast
    ring

theorem interval_upper (m : Nat) (e : Int) :
    ((interval m e).2.1 : ℚ) * 2 ^ (e - 2) = ((m : ℚ) + 1 / 2) * 2 ^ e := by
  have h4 : (2 : ℚ) ^ e = 2 ^ (e - 2) * 4 := by
    rw [zpow_sub₀ two_ne_zero]
    norm_num
  rw [h4]
  simp only [interval]
  push_cast
  ring

/-- The interval test on `c * 10 ^ s` is membership of that number in the rounding interval. -/
theorem inInterval_iff {m : Nat} (hm : 0 < m) (e : Int) (c : Nat) (s : Int) :
    inInterval m e c s = true ↔ InRounding m e ((c : ℚ) * 10 ^ s) := by
  have hlo := interval_lower hm e
  have hhi := interval_upper m e
  have hcl : (interval m e).2.2 = decide (m % 2 = 0) := rfl
  unfold inInterval InRounding
  generalize interval m e = I at hlo hhi hcl
  obtain ⟨lower, upper, closed⟩ := I
  dsimp only at hlo hhi hcl ⊢
  subst hcl
  rw [← hlo, ← hhi]
  rw [Bool.and_eq_true]
  -- each end is one comparison: above the lower end, below the upper one, or at an end
  apply and_congr
  · have hl := (compareDecBin_eq_iff c s lower (e - 2) _).1 rfl
    generalize compareDecBin c s lower (e - 2) = ol at hl ⊢
    cases ol <;> simp only [Ordering.Compares] at hl
    · simp [hl.ne', hl.le]
    · simp [hl]
    · simp [hl]
  · have hu := (compareDecBin_eq_iff c s upper (e - 2) _).1 rfl
    generalize compareDecBin c s upper (e - 2) = ou at hu ⊢
    cases ou <;> simp only [Ordering.Compares] at hu
    · simp [hu]
    · simp [hu]
    · simp [hu.ne', hu.le]

/-! ## The grid of candidates -/

/-- `floorDiv m e s` is the whole part of `m * 2 ^ e` measured in units of `10 ^ s`. -/
theorem floorDiv_spec (m : Nat) (e s : Int) :
    (floorDiv m e s : ℚ) * 10 ^ s ≤ m * 2 ^ e ∧ (m : ℚ) * 2 ^ e < (floorDiv m e s + 1) * 10 ^ s := by
  have hD : 0 < 2 ^ (-e).toNat * 10 ^ s.toNat := by positivity
  have hs : (0 : ℚ) < 10 ^ s := by positivity
  -- the ratio `floorDiv` divides is the number over `10 ^ s`
  have hval : ((m * 2 ^ e.toNat * 10 ^ (-s).toNat : Nat) : ℚ) /
      ((2 ^ (-e).toNat * 10 ^ s.toNat : Nat) : ℚ) = m * 2 ^ e / 10 ^ s := by
    have hDq : ((2 ^ (-e).toNat * 10 ^ s.toNat : Nat) : ℚ) ≠ 0 := by exact_mod_cast hD.ne'
    rw [div_eq_div_iff hDq hs.ne']
    push_cast
    rw [← zpow_mul_pow_toNat_neg (by norm_num : (2 : ℚ) ≠ 0) e,
      ← zpow_mul_pow_toNat_neg (by norm_num : (10 : ℚ) ≠ 0) s]
    ring
  have hsplit := Binary64.div_eq_quot_add_rem (m * 2 ^ e.toNat * 10 ^ (-s).toNat)
    (2 ^ (-e).toNat * 10 ^ s.toNat) hD
  have hDq : (0 : ℚ) < ((2 ^ (-e).toNat * 10 ^ s.toNat : Nat) : ℚ) := by exact_mod_cast hD
  have hr0 : (0 : ℚ) ≤ (((m * 2 ^ e.toNat * 10 ^ (-s).toNat) % (2 ^ (-e).toNat * 10 ^ s.toNat) :
      Nat) : ℚ) / ((2 ^ (-e).toNat * 10 ^ s.toNat : Nat) : ℚ) := by positivity
  have hr1 : (((m * 2 ^ e.toNat * 10 ^ (-s).toNat) % (2 ^ (-e).toNat * 10 ^ s.toNat) : Nat) : ℚ) /
      ((2 ^ (-e).toNat * 10 ^ s.toNat : Nat) : ℚ) < 1 := by
    rw [div_lt_one hDq]
    exact_mod_cast Nat.mod_lt _ hD
  rw [hval] at hsplit
  unfold floorDiv
  constructor
  · rw [← le_div_iff₀ hs, hsplit]
    linarith
  · rw [← div_lt_iff₀ hs, hsplit]
    linarith

theorem ten_zpow_neg_le_div {a b j : Nat} (hb : 0 < b) (h : b ≤ a * 10 ^ j) :
    (10 : ℚ) ^ (-(j : Int)) ≤ a / b := by
  have hbq : (0 : ℚ) < b := by exact_mod_cast hb
  rw [zpow_neg, zpow_natCast, le_div_iff₀ hbq, inv_mul_le_iff₀ (by positivity), mul_comm]
  exact_mod_cast h

/-- `floorLog10 m e` is a decimal exponent of `m * 2 ^ e` from below: the first candidates it
places are never coarser than the number. -/
theorem pow_floorLog10_le {m : Nat} (hm : 0 < m) (e : Int) :
    (10 : ℚ) ^ floorLog10 m e ≤ m * 2 ^ e := by
  unfold floorLog10
  split
  · rename_i he
    obtain ⟨j, rfl⟩ : ∃ j : Nat, e = j := ⟨e.toNat, by omega⟩
    simp only [Int.toNat_natCast, zpow_natCast]
    exact_mod_cast (decimalLength_bounds (show 0 < m * 2 ^ j by positivity)).1
  · rename_i he
    obtain ⟨k, rfl⟩ : ∃ k : Nat, e = -(k : Int) := ⟨(-e).toNat, by omega⟩
    have hx : (m : ℚ) * 2 ^ (-(k : Int)) = m / (2 ^ k : Nat) := by
      rw [zpow_neg, zpow_natCast, div_eq_mul_inv]
      push_cast
      rfl
    simp only [neg_neg, Int.toNat_natCast]
    rw [hx]
    split
    · -- at least one: the length of the whole part
      rename_i hw
      calc (10 : ℚ) ^ ((decimalLength (m / 2 ^ k) : Int) - 1) ≤ ((m / 2 ^ k : Nat) : ℚ) :=
            (decimalLength_bounds hw).1
        _ ≤ m / (2 ^ k : Nat) := Nat.cast_div_le
    · -- below one: the exponent is `-j` or `-(j + 1)` for the `j` the lengths give
      generalize hj : max 1 (decimalLength (2 ^ k) - decimalLength m) = j
      split
      · rename_i hle
        exact ten_zpow_neg_le_div (by positivity) hle
      · apply ten_zpow_neg_le_div (by positivity)
        have h1 := lt_pow_decimalLength (2 ^ k)
        have h2 := pow_decimalLength_le hm
        have h3 : decimalLength (2 ^ k) ≤ (j + 1) + (decimalLength m - 1) := by
          have := decimalLength_pos m
          omega
        calc 2 ^ k ≤ 10 ^ decimalLength (2 ^ k) := h1.le
          _ ≤ 10 ^ ((j + 1) + (decimalLength m - 1)) := Nat.pow_le_pow_right (by decide) h3
          _ = 10 ^ (decimalLength m - 1) * 10 ^ (j + 1) := by rw [Nat.pow_add, Nat.mul_comm]
          _ ≤ m * 10 ^ (j + 1) := Nat.mul_le_mul_right _ h2

/-! ## One digit count -/

/-- A decimal that `atDigits` offers passes the interval test. -/
theorem atDigits_inInterval {m : Nat} {e top : Int} {n : Nat} {d : Decimal}
    (h : atDigits m e top n = some d) : inInterval m e d.digits d.exp = true := by
  unfold atDigits at h
  dsimp only at h
  split at h
  · -- both grid points pass: the nearer one, or the even one on a tie
    rename_i hboth
    rw [Bool.and_eq_true] at hboth
    split at h
    · obtain rfl := Option.some.inj h
      exact hboth.1
    · obtain rfl := Option.some.inj h
      exact hboth.2
    · split at h
      · obtain rfl := Option.some.inj h
        exact hboth.1
      · obtain rfl := Option.some.inj h
        exact hboth.2
  · split at h
    · obtain rfl := Option.some.inj h
      assumption
    · split at h
      · obtain rfl := Option.some.inj h
        assumption
      · cases h

/-- `atDigits` offers a decimal whenever one of the two grid points around the number passes. -/
theorem atDigits_isSome {m : Nat} {e top : Int} {n : Nat}
    (h : inInterval m e (floorDiv m e (top - n + 1)) (top - n + 1) = true ∨
      inInterval m e (floorDiv m e (top - n + 1) + 1) (top - n + 1) = true) :
    (atDigits m e top n).isSome := by
  unfold atDigits
  dsimp only
  split
  · split <;> rfl
  · split
    · rfl
    · split
      · rfl
      · rename_i hbelow habove
        rcases h with h | h
        · exact absurd h hbelow
        · exact absurd h habove

/-- How wide the rounding interval is, in units of `2 ^ e`, against the significand: wider than
`m / 10 ^ 16` for every canonical significand. -/
theorem significand_lt_width {m : Nat} (e : Int) (hm2 : m < 2 * Binary64.hidden) :
    (m : ℚ) < (lowerGap m e + 1 / 2) * 10 ^ 16 := by
  unfold lowerGap
  split
  · rename_i h
    rw [h.1]
    norm_num [Binary64.hidden]
  · have : (m : ℚ) < 2 * Binary64.hidden := by exact_mod_cast hm2
    norm_num [Binary64.hidden] at this ⊢
    linarith

/-- When the grid is finer than the interval is wide, the grid point just below the number or
the one just above lies in the interval. -/
theorem inInterval_floorDiv {m : Nat} (hm : 0 < m) (e s : Int)
    (hgrid : (10 : ℚ) ^ s < (lowerGap m e + 1 / 2) * 2 ^ e) :
    inInterval m e (floorDiv m e s) s = true ∨ inInterval m e (floorDiv m e s + 1) s = true := by
  obtain ⟨hc1, hc2⟩ := floorDiv_spec m e s
  have he : (0 : ℚ) < 2 ^ e := by positivity
  have hgap := Binary64.lowerGap_pos m e
  -- the number itself lies strictly inside its interval
  have hxlo : ((m : ℚ) - lowerGap m e) * 2 ^ e < m * 2 ^ e := by gcongr; linarith
  have hxhi : (m : ℚ) * 2 ^ e < ((m : ℚ) + 1 / 2) * 2 ^ e := by gcongr; linarith
  rw [inInterval_iff hm, inInterval_iff hm]
  by_cases hlow : ((m : ℚ) - lowerGap m e) * 2 ^ e < floorDiv m e s * 10 ^ s
  · left
    exact ⟨.inl hlow, .inl (lt_of_le_of_lt hc1 hxhi)⟩
  · -- the point below is at or under the lower end, so the one above is less than a width past it
    right
    push_cast
    refine ⟨.inl (lt_trans hxlo hc2), .inl ?_⟩
    calc ((floorDiv m e s : ℚ) + 1) * 10 ^ s = floorDiv m e s * 10 ^ s + 10 ^ s := by ring
      _ < ((m : ℚ) - lowerGap m e) * 2 ^ e + (lowerGap m e + 1 / 2) * 2 ^ e := by
        linarith [not_lt.1 hlow]
      _ = ((m : ℚ) + 1 / 2) * 2 ^ e := by ring

/-- With seventeen significant digits the grid is fine enough: some decimal is always offered. -/
theorem atDigits_seventeen_isSome {neg : Bool} {m : Nat} {e : Int}
    (hcan : Binary64.Canonical (.finite neg m e)) (hm : 0 < m) :
    (atDigits m e (floorLog10 m e) 17).isSome := by
  apply atDigits_isSome
  apply inInterval_floorDiv hm
  have he : (0 : ℚ) < 2 ^ e := by positivity
  have hlog := pow_floorLog10_le hm e
  have hwidth := significand_lt_width e hcan.1
  -- the grid is `10 ^ (top - 16)`, at most the number over `10 ^ 16`
  calc (10 : ℚ) ^ (floorLog10 m e - ((17 : Nat) : Int) + 1)
      = 10 ^ floorLog10 m e / 10 ^ 16 := by
        rw [show floorLog10 m e - ((17 : Nat) : Int) + 1 = floorLog10 m e - (16 : Nat) by omega,
          zpow_sub₀ (by norm_num), zpow_natCast]
    _ ≤ m * 2 ^ e / 10 ^ 16 := by gcongr
    _ < (lowerGap m e + 1 / 2) * 2 ^ e := by
        rw [div_lt_iff₀ (by positivity)]
        calc (m : ℚ) * 2 ^ e < (lowerGap m e + 1 / 2) * 10 ^ 16 * 2 ^ e := by gcongr
          _ = (lowerGap m e + 1 / 2) * 2 ^ e * 10 ^ 16 := by ring

/-! ## The shortest decimal -/

/-- Removing trailing zeros keeps the value of a decimal. -/
theorem normalize_value (d : Decimal) :
    ((normalize d).digits : ℚ) * 10 ^ (normalize d).exp = d.digits * 10 ^ d.exp := by
  fun_induction normalize d with
  | case1 d h ih =>
    rw [ih]
    have hd : d.digits = 10 * (d.digits / 10) := by omega
    dsimp only
    conv_rhs => rw [hd]
    rw [zpow_add_one₀ (by norm_num)]
    push_cast
    ring
  | case2 d h => rfl

/-- The search over digit counts finds a decimal before running out. -/
theorem findSome_atDigits_isSome {neg : Bool} {m : Nat} {e : Int}
    (hcan : Binary64.Canonical (.finite neg m e)) (hm : 0 < m) :
    ((List.range 17).findSome? fun i => atDigits m e (floorLog10 m e) (i + 1)).isSome := by
  cases h : (List.range 17).findSome? fun i => atDigits m e (floorLog10 m e) (i + 1) with
  | some d => rfl
  | none =>
    have h17 := List.findSome?_eq_none_iff.1 h 16 (by simp)
    have := atDigits_seventeen_isSome hcan hm
    rw [h17] at this
    cases this

/-- The shortest decimal of a canonical positive significand lies in its rounding interval. -/
theorem shortest_inRounding {neg : Bool} {m : Nat} {e : Int}
    (hcan : Binary64.Canonical (.finite neg m e)) (hm : 0 < m) :
    InRounding m e ((shortest m e).digits * 10 ^ (shortest m e).exp) := by
  obtain ⟨d, hd⟩ := Option.isSome_iff_exists.1 (findSome_atDigits_isSome hcan hm)
  obtain ⟨i, -, hi⟩ := List.exists_of_findSome?_eq_some hd
  unfold shortest
  dsimp only
  rw [hd, Option.getD_some, normalize_value]
  exact (inInterval_iff hm e _ _).1 (atDigits_inInterval hi)

end Decimal

namespace Binary64

/-! ## Reading a decimal back -/

/-- The largest magnitudes stay below `10 ^ 310`. -/
theorem two_pow_1024_le : (2 : ℕ) ^ 1024 ≤ 10 ^ 310 := by decide +kernel

/-- The least positive magnitudes stay above `10 ^ -331`. -/
theorem two_pow_1075_lt : (2 : ℕ) ^ 1075 < 10 ^ 331 := by decide +kernel

namespace InRounding

variable {m : Nat} {e : Int} {v : ℚ}

/-- The interval of a canonical number lies below `2 ^ 1024`. -/
theorem lt_two_pow {neg : Bool} (hcan : Canonical (finite neg m e)) (h : InRounding m e v) :
    v < 2 ^ 1024 := by
  have hm := add_half_lt_two_pow hcan
  obtain ⟨-, -, hmax, -⟩ := hcan
  calc v ≤ ((m : ℚ) + 1 / 2) * 2 ^ e := h.le_upper
    _ < 2 ^ 53 * 2 ^ maxExp :=
        mul_lt_mul hm (zpow_le_zpow_right₀ (by norm_num : (1 : ℚ) ≤ 2) hmax) (by positivity)
          (by positivity)
    _ = 2 ^ 1024 := by rw [maxExp, zpow_ofNat, ← pow_add]

/-- The interval of a canonical positive number lies above `2 ^ -1075`. -/
theorem two_zpow_le {neg : Bool} (hcan : Canonical (finite neg m e)) (hm : 0 < m)
    (h : InRounding m e v) : (2 : ℚ) ^ (-1075 : Int) ≤ v := by
  obtain ⟨-, hmin, -, -⟩ := hcan
  have hgap := lowerGap_le m e
  have hm1 : (1 : ℚ) ≤ m := by exact_mod_cast hm
  calc (2 : ℚ) ^ (-1075 : Int) = 1 / 2 * 2 ^ minExp := by
        rw [minExp, show (-1075 : Int) = -1 + -1074 by norm_num, zpow_add₀ two_ne_zero]
        norm_num
    _ ≤ ((m : ℚ) - lowerGap m e) * 2 ^ e :=
        mul_le_mul (by linarith) (zpow_le_zpow_right₀ (by norm_num : (1 : ℚ) ≤ 2) hmin)
          (by positivity) (by linarith)
    _ ≤ v := h.lower_le

/-- A decimal in the interval of a positive significand has positive digits. -/
theorem digits_pos {digits : Nat} {exp : Int} (h : InRounding m e ((digits : ℚ) * 10 ^ exp))
    (hm : 0 < m) : 0 < digits := by
  have hpos := h.pos hm
  rcases Nat.eq_zero_or_pos digits with rfl | hd
  · simp at hpos
  · exact hd

end InRounding

/-- A decimal in the rounding interval of a canonical finite number reads back as that number:
its magnitude stays inside the range `ofDecimal` computes, and rounding finds the number. -/
theorem ofDecimal_eq_finite {neg : Bool} {m digits : Nat} {e exp : Int}
    (hcan : Canonical (finite neg m e)) (hm : 0 < m)
    (hv : InRounding m e ((digits : ℚ) * 10 ^ exp)) : ofDecimal neg digits exp = finite neg m e := by
  have hd := hv.digits_pos hm
  have hbig := hv.lt_two_pow hcan
  have hsmall := hv.two_zpow_le hcan hm
  obtain ⟨hlen1, hlen2⟩ := decimalLength_bounds hd
  have h10 : (0 : ℚ) < 10 ^ exp := by positivity
  -- the decimal exponent of the value stays within the range the reader computes
  have htop : ¬ 310 < exp + decimalLength digits := by
    intro htop
    have : (10 : ℚ) ^ (310 : Int) < 2 ^ 1024 :=
      calc (10 : ℚ) ^ (310 : Int) ≤ 10 ^ ((decimalLength digits : Int) - 1 + exp) :=
            zpow_le_zpow_right₀ (by norm_num : (1 : ℚ) ≤ 10) (by omega)
        _ = 10 ^ ((decimalLength digits : Int) - 1) * 10 ^ exp := zpow_add₀ (by norm_num) _ _
        _ ≤ digits * 10 ^ exp := by gcongr
        _ < 2 ^ 1024 := hbig
    rw [zpow_ofNat] at this
    exact absurd this (not_lt.2 (by exact_mod_cast two_pow_1024_le))
  have hbottom : ¬ exp + decimalLength digits < -330 := by
    intro hbottom
    have : (2 : ℚ) ^ (-1075 : Int) < 10 ^ (-331 : Int) :=
      calc (2 : ℚ) ^ (-1075 : Int) ≤ digits * 10 ^ exp := hsmall
        _ < 10 ^ (decimalLength digits : Int) * 10 ^ exp := by gcongr
        _ = 10 ^ ((decimalLength digits : Int) + exp) := (zpow_add₀ (by norm_num) _ _).symm
        _ ≤ 10 ^ (-331 : Int) := zpow_le_zpow_right₀ (by norm_num : (1 : ℚ) ≤ 10) (by omega)
    rw [zpow_neg, zpow_neg, inv_lt_inv₀ (by positivity) (by positivity), zpow_ofNat,
      zpow_ofNat] at this
    exact absurd this (not_lt.2 (by exact_mod_cast two_pow_1075_lt.le))
  unfold ofDecimal
  rw [if_neg hd.ne']
  dsimp only
  rw [if_neg htop, if_neg hbottom]
  split
  · rename_i hexp
    obtain ⟨j, rfl⟩ : ∃ j : Nat, exp = j := ⟨exp.toNat, by omega⟩
    apply round_eq_finite hcan hm one_pos
    simpa using hv
  · rename_i hexp
    obtain ⟨j, rfl⟩ : ∃ j : Nat, exp = -(j : Int) := ⟨(-exp).toNat, by omega⟩
    apply round_eq_finite hcan hm (by positivity)
    simpa [zpow_neg, div_eq_mul_inv] using hv

/-- The shortest decimal of a canonical finite number reads back as the number. -/
theorem ofDecimal_shortest {neg : Bool} {m : Nat} {e : Int} (hcan : Canonical (finite neg m e))
    (hm : 0 < m) :
    ofDecimal neg (Decimal.shortest m e).digits (Decimal.shortest m e).exp = finite neg m e :=
  ofDecimal_eq_finite hcan hm (Decimal.shortest_inRounding hcan hm)

end Binary64

end DiceNotation
