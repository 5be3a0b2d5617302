import DiceNotation.Binary64.Basic
import Mathlib.Algebra.Order.Field.Power
import Mathlib.Tactic.Linarith
import Mathlib.Tactic.FieldSimp
import Mathlib.Tactic.Ring
import Mathlib.Tactic.Positivity
import Mathlib.Algebra.Order.Field.Basic

/-!
# Rounding to binary64 hits every number whose interval holds the value

`Binary64.round` computes the binary64 number nearest to a ratio times a power of two by integer
steps: the binary exponent from the bit lengths (`floorLog2`), the quotient and remainder at that
exponent (`scaledDivMod`), and the rounding of the quotient (`roundHalfEven`).  This file reads
each step as a statement about rational numbers and puts them together:

* `floorLog2_spec`: `2 ^ floorLog2 n d ≤ n / d < 2 ^ (floorLog2 n d + 1)`;
* `scaledDivMod_spec`: the quotient and remainder of `n / d * 2 ^ s`;
* `round_eq_finite`: a value that lies in the rounding interval of a canonical finite number
  (`InRounding`) rounds to that number.

The last is what reading a decimal back relies on: the shortest decimal of a float lies in the
float's interval, so it reads back as the float.
-/

namespace DiceNotation

namespace Binary64

/-! ## The binary exponent -/

theorem two_zpow_le_div_iff {n d : Nat} (hd : 0 < d) (l : Int) :
    (2 : ℚ) ^ l ≤ n / d ↔ (if 0 ≤ l then d * 2 ^ l.toNat ≤ n else d ≤ n * 2 ^ (-l).toNat) := by
  have hdq : (0 : ℚ) < d := by exact_mod_cast hd
  rw [le_div_iff₀ hdq]
  split
  · rename_i hl
    rw [show l = (l.toNat : Int) by omega, zpow_natCast, mul_comm]
    exact_mod_cast Iff.rfl
  · rename_i hl
    obtain ⟨j, rfl⟩ : ∃ j : Nat, l = -(j : Int) := ⟨(-l).toNat, by omega⟩
    have hp : (0 : ℚ) < 2 ^ j := by positivity
    simp only [neg_neg, Int.toNat_natCast, zpow_neg, zpow_natCast]
    rw [← div_eq_inv_mul, div_le_iff₀ hp]
    exact_mod_cast Iff.rfl

/-- `floorLog2 n d` is the binary exponent of `n / d`. -/
theorem floorLog2_spec {n d : Nat} (hn : 0 < n) (hd : 0 < d) :
    (2 : ℚ) ^ floorLog2 n d ≤ n / d ∧ (n : ℚ) / d < 2 ^ (floorLog2 n d + 1) := by
  have hdq : (0 : ℚ) < d := by exact_mod_cast hd
  -- the bit lengths put `n / d` between `2 ^ (l - 1)` and `2 ^ (l + 1)`
  have hn1 : (2 : ℚ) ^ n.log2 ≤ n := by exact_mod_cast Nat.log2_self_le (by omega)
  have hn2 : (n : ℚ) < 2 ^ (n.log2 + 1) := by exact_mod_cast Nat.lt_log2_self
  have hd1 : (2 : ℚ) ^ d.log2 ≤ d := by exact_mod_cast Nat.log2_self_le (by omega)
  have hd2 : (d : ℚ) < 2 ^ (d.log2 + 1) := by exact_mod_cast Nat.lt_log2_self
  have hlow : (2 : ℚ) ^ ((n.log2 : Int) - d.log2 - 1) < n / d := by
    rw [lt_div_iff₀ hdq]
    calc (2 : ℚ) ^ ((n.log2 : Int) - d.log2 - 1) * d
        < 2 ^ ((n.log2 : Int) - d.log2 - 1) * 2 ^ (d.log2 + 1) := by gcongr
      _ = 2 ^ n.log2 := by
        rw [← zpow_natCast, ← zpow_natCast, ← zpow_add₀ (by norm_num)]
        congr 1
        push_cast
        omega
      _ ≤ n := hn1
  have hhigh : (n : ℚ) / d < 2 ^ ((n.log2 : Int) - d.log2 + 1) := by
    rw [div_lt_iff₀ hdq]
    calc (n : ℚ) < 2 ^ (n.log2 + 1) := hn2
      _ = 2 ^ ((n.log2 : Int) - d.log2 + 1) * 2 ^ d.log2 := by
        rw [← zpow_natCast, ← zpow_natCast, ← zpow_add₀ (by norm_num)]
        congr 1
        push_cast
        omega
      _ ≤ 2 ^ ((n.log2 : Int) - d.log2 + 1) * d := by gcongr
  have hcmp := @two_zpow_le_div_iff n d hd ((n.log2 : Int) - d.log2)
  unfold floorLog2
  dsimp only
  generalize (n.log2 : Int) - d.log2 = l at hlow hhigh hcmp ⊢
  -- whether `n / d` reaches `2 ^ l` decides between `l` and `l - 1`
  have hreach : (2 : ℚ) ^ l ≤ n / d → (2 : ℚ) ^ l ≤ n / d ∧ (n : ℚ) / d < 2 ^ (l + 1) :=
    fun h => ⟨h, hhigh⟩
  have hbelow : ¬ (2 : ℚ) ^ l ≤ n / d →
      (2 : ℚ) ^ (l - 1) ≤ n / d ∧ (n : ℚ) / d < 2 ^ (l - 1 + 1) :=
    fun h => ⟨hlow.le, by rw [sub_add_cancel]; exact lt_of_not_ge h⟩
  split_ifs at hcmp ⊢ with h0 h1 h1
  · exact hreach (hcmp.2 h1)
  · exact hbelow (fun h => h1 (hcmp.1 h))
  · exact hreach (hcmp.2 h1)
  · exact hbelow (fun h => h1 (hcmp.1 h))

/-! ## Quotient and remainder -/

/-- A ratio of naturals is its whole quotient plus the remainder over the divisor. -/
theorem div_eq_quot_add_rem (N D : Nat) (hD : 0 < D) :
    (N : ℚ) / D = (N / D : Nat) + ((N % D : Nat) : ℚ) / D := by
  have hDq : (D : ℚ) ≠ 0 := by exact_mod_cast hD.ne'
  have h : ((N / D : Nat) : ℚ) * D + (N % D : Nat) = N := by
    exact_mod_cast Nat.div_add_mod' N D
  field_simp
  linarith

/-- `scaledDivMod n d s` splits `n / d * 2 ^ s` into a whole quotient and a remainder below a
positive divisor. -/
theorem scaledDivMod_spec {n d : Nat} (hd : 0 < d) (s : Int) :
    0 < (scaledDivMod n d s).2.2 ∧ (scaledDivMod n d s).2.1 < (scaledDivMod n d s).2.2 ∧
      (n : ℚ) / d * 2 ^ s =
        (scaledDivMod n d s).1 + ((scaledDivMod n d s).2.1 : ℚ) / (scaledDivMod n d s).2.2 := by
  unfold scaledDivMod
  split
  · rename_i hs
    obtain ⟨j, rfl⟩ : ∃ j : Nat, s = (j : Int) := ⟨s.toNat, by omega⟩
    refine ⟨hd, Nat.mod_lt _ hd, ?_⟩
    rw [← div_eq_quot_add_rem _ _ hd]
    simp only [Int.toNat_natCast, zpow_natCast]
    push_cast
    ring
  · rename_i hs
    obtain ⟨j, rfl⟩ : ∃ j : Nat, s = -(j : Int) := ⟨(-s).toNat, by omega⟩
    have hden : 0 < d * 2 ^ j := Nat.mul_pos hd (Nat.two_pow_pos j)
    refine ⟨by simpa using hden, Nat.mod_lt _ (by simpa using hden), ?_⟩
    simp only [neg_neg, Int.toNat_natCast]
    rw [← div_eq_quot_add_rem _ _ hden]
    rw [zpow_neg, zpow_natCast]
    push_cast
    field_simp

/-! ## Rounding the quotient -/

theorem half_lt_div_iff {r den : Nat} (hden : 0 < den) : (1 / 2 : ℚ) < r / den ↔ den < 2 * r := by
  have hd : (0 : ℚ) < den := by exact_mod_cast hden
  rw [lt_div_iff₀ hd]
  constructor
  · intro h; exact_mod_cast (by linarith : (den : ℚ) < 2 * r)
  · intro h; have : (den : ℚ) < 2 * r := by exact_mod_cast h
    linarith

theorem div_eq_half_iff {r den : Nat} (hden : 0 < den) : (r : ℚ) / den = 1 / 2 ↔ 2 * r = den := by
  have hd : (den : ℚ) ≠ 0 := by exact_mod_cast hden.ne'
  rw [div_eq_iff hd]
  constructor
  · intro h; exact_mod_cast (by linarith : (2 * r : ℚ) = den)
  · intro h; have : (2 * r : ℚ) = den := by exact_mod_cast h
    linarith

/-- A quotient whose fraction puts it within half a unit of `m` rounds to `m`; at exactly half a
unit only when `m` is even. -/
theorem roundHalfEven_eq {q r den m : Nat} (hden : 0 < den) (hr : r < den)
    (hlo : (m : ℚ) - 1 / 2 < q + r / den ∨ m % 2 = 0 ∧ (m : ℚ) - 1 / 2 = q + r / den)
    (hhi : (q : ℚ) + r / den < m + 1 / 2 ∨ m % 2 = 0 ∧ (q : ℚ) + r / den = m + 1 / 2) :
    roundHalfEven q r den = m := by
  have hd : (0 : ℚ) < den := by exact_mod_cast hden
  have hf0 : (0 : ℚ) ≤ r / den := by positivity
  have hf1 : (r : ℚ) / den < 1 := by rw [div_lt_one hd]; exact_mod_cast hr
  have hlo' : (m : ℚ) - 1 / 2 ≤ q + r / den := hlo.elim le_of_lt (fun h => h.2.le)
  have hhi' : (q : ℚ) + r / den ≤ m + 1 / 2 := hhi.elim le_of_lt (fun h => h.2.le)
  -- the quotient is `m` or the number just below it
  have hq1 : m < q + 2 := by exact_mod_cast (by linarith : (m : ℚ) < q + 2)
  have hq2 : q < m + 1 := by exact_mod_cast (by linarith : (q : ℚ) < m + 1)
  unfold roundHalfEven
  rcases (show q = m ∨ q + 1 = m by omega) with rfl | hqm
  · -- at or above `m`: the fraction is at most a half, and a half only for an even `m`
    rw [if_neg]
    rintro (hup | ⟨htie, hodd⟩)
    · have := (half_lt_div_iff hden).2 hup
      linarith
    · have hf := (div_eq_half_iff hden).2 htie
      rcases hhi with hlt | ⟨heven, -⟩
      · linarith
      · omega
  · -- below `m`: the fraction is at least a half, and a half only for an even `m`
    rw [if_pos, hqm]
    rcases lt_or_eq_of_le (show (1 / 2 : ℚ) ≤ r / den by
      have : (m : ℚ) = q + 1 := by exact_mod_cast hqm.symm
      linarith) with hup | htie
    · exact .inl ((half_lt_div_iff hden).1 hup)
    · refine .inr ⟨(div_eq_half_iff hden).1 htie.symm, ?_⟩
      rcases hlo with hlt | ⟨heven, -⟩
      · have : (m : ℚ) = q + 1 := by exact_mod_cast hqm.symm
        linarith
      · omega

/-! ## The rounding interval -/

/-- A canonical significand has at most 53 bits. -/
theorem significand_lt_two_pow {neg : Bool} {m : Nat} {e : Int}
    (hcan : Canonical (finite neg m e)) : m < 2 ^ 53 := by
  have hm2 := hcan.1
  simp [hidden] at hm2
  omega

/-- Half a unit above a canonical significand is still below `2 ^ 53` units. -/
theorem add_half_lt_two_pow {neg : Bool} {m : Nat} {e : Int}
    (hcan : Canonical (finite neg m e)) : (m : ℚ) + 1 / 2 < 2 ^ 53 := by
  have : ((m + 1 : ℕ) : ℚ) ≤ 2 ^ 53 := by exact_mod_cast significand_lt_two_pow hcan
  push_cast at this
  linarith

/-- How far below `m` the rounding interval of `m * 2 ^ e` reaches, in units of `2 ^ e`: half a
unit, but a quarter at the least significand of a binade other than the lowest, where the
number below is nearer. -/
def lowerGap (m : Nat) (e : Int) : ℚ := if m = hidden ∧ minExp < e then 1 / 4 else 1 / 2

theorem lowerGap_pos (m : Nat) (e : Int) : 0 < lowerGap m e := by
  unfold lowerGap; split <;> norm_num

theorem lowerGap_le (m : Nat) (e : Int) : lowerGap m e ≤ 1 / 2 := by
  unfold lowerGap; split <;> norm_num

/-- `v` lies in the rounding interval of the finite number `m * 2 ^ e`: from `lowerGap` below it
to half a unit above it, the ends included exactly when `m` is even. -/
def InRounding (m : Nat) (e : Int) (v : ℚ) : Prop :=
  (((m : ℚ) - lowerGap m e) * 2 ^ e < v ∨ m % 2 = 0 ∧ ((m : ℚ) - lowerGap m e) * 2 ^ e = v) ∧
    (v < ((m : ℚ) + 1 / 2) * 2 ^ e ∨ m % 2 = 0 ∧ v = ((m : ℚ) + 1 / 2) * 2 ^ e)

namespace InRounding

variable {m : Nat} {e : Int} {v : ℚ}

theorem lower_le (h : InRounding m e v) : ((m : ℚ) - lowerGap m e) * 2 ^ e ≤ v :=
  h.1.elim le_of_lt (fun h => h.2.le)

theorem le_upper (h : InRounding m e v) : v ≤ ((m : ℚ) + 1 / 2) * 2 ^ e :=
  h.2.elim le_of_lt (fun h => h.2.le)

/-- The interval of a positive significand lies above zero. -/
theorem pos (h : InRounding m e v) (hm : 0 < m) : 0 < v := by
  have hgap := lowerGap_le m e
  have hm' : (1 : ℚ) ≤ m := by exact_mod_cast hm
  have : (0 : ℚ) < ((m : ℚ) - lowerGap m e) * 2 ^ e := by
    apply mul_pos
    · linarith
    · positivity
  linarith [h.lower_le]

/-- Measured in units of `2 ^ e`, the interval lies within half a unit of `m`. -/
theorem div_bounds (h : InRounding m e v) :
    ((m : ℚ) - 1 / 2 < v / 2 ^ e ∨ m % 2 = 0 ∧ (m : ℚ) - 1 / 2 = v / 2 ^ e) ∧
      (v / 2 ^ e < m + 1 / 2 ∨ m % 2 = 0 ∧ v / 2 ^ e = m + 1 / 2) := by
  have he : (0 : ℚ) < 2 ^ e := by positivity
  constructor
  · rcases lt_or_eq_of_le (lowerGap_le m e) with hg | hg
    · -- a quarter-unit gap keeps the interval strictly above the half unit
      left
      rw [lt_div_iff₀ he]
      calc ((m : ℚ) - 1 / 2) * 2 ^ e < ((m : ℚ) - lowerGap m e) * 2 ^ e := by gcongr
        _ ≤ v := h.lower_le
    · rcases h.1 with hlt | ⟨hev, heq⟩
      · left
        rw [lt_div_iff₀ he]
        rwa [hg] at hlt
      · right
        refine ⟨hev, ?_⟩
        rw [eq_div_iff he.ne']
        rwa [hg] at heq
  · rcases h.2 with hlt | ⟨hev, heq⟩
    · left
      rwa [div_lt_iff₀ he]
    · right
      exact ⟨hev, by rw [div_eq_iff he.ne']; exact heq⟩

end InRounding

/-! ## The exponent rounding picks -/

theorem two_zpow_add (a b : Int) : (2 : ℚ) ^ (a + b) = 2 ^ b * 2 ^ a := by
  rw [zpow_add₀ two_ne_zero, mul_comm]

/-- A value lies between two consecutive powers of two for one exponent only. -/
theorem exp_unique {v : ℚ} {a b : Int} (ha : 2 ^ a ≤ v ∧ v < 2 ^ (a + 1))
    (hb : 2 ^ b ≤ v ∧ v < 2 ^ (b + 1)) : a = b := by
  have h1 : a < b + 1 := (zpow_lt_zpow_iff_right₀ (by norm_num : (1 : ℚ) < 2)).1
    (lt_of_le_of_lt ha.1 hb.2)
  have h2 : b < a + 1 := (zpow_lt_zpow_iff_right₀ (by norm_num : (1 : ℚ) < 2)).1
    (lt_of_le_of_lt hb.1 ha.2)
  omega

/-- The exponent rounding picks for a value in the interval of a canonical `m * 2 ^ e` is `e`
itself, or one less for a value just below the least significand of a binade. -/
theorem roundExp_cases {neg : Bool} {m : Nat} {e L : Int} {v : ℚ}
    (hcan : Canonical (finite neg m e)) (hv : InRounding m e v)
    (hL : 2 ^ L ≤ v ∧ v < 2 ^ (L + 1)) :
    max (L - 52) minExp = e ∨
      max (L - 52) minExp = e - 1 ∧ m = hidden ∧ minExp < e ∧ v < (hidden : ℚ) * 2 ^ e := by
  have hm := add_half_lt_two_pow hcan
  obtain ⟨hm2, hmin, -, hnorm⟩ := hcan
  have hh : (hidden : ℚ) = 2 ^ 52 := by norm_num [hidden]
  have he : (0 : ℚ) < 2 ^ e := by positivity
  have hgap := lowerGap_le m e
  have hgap' := lowerGap_pos m e
  -- above: the value stays below the next binade
  have hup : v < 2 ^ (e + 53) := by
    rw [two_zpow_add, zpow_ofNat]
    calc v ≤ ((m : ℚ) + 1 / 2) * 2 ^ e := hv.le_upper
      _ < 2 ^ 53 * 2 ^ e := by gcongr
  have hLe : L < e + 53 :=
    (zpow_lt_zpow_iff_right₀ (by norm_num : (1 : ℚ) < 2)).1 (lt_of_le_of_lt hL.1 hup)
  rcases lt_trichotomy m hidden with hlt | rfl | hgt
  · -- a subnormal number: the value is below the least normal number
    have hemin : e = minExp := hnorm.resolve_left (by omega)
    have hv52 : v < 2 ^ (e + 52) := by
      have : (m : ℚ) + 1 ≤ hidden := by exact_mod_cast hlt
      rw [two_zpow_add, zpow_ofNat]
      calc v ≤ ((m : ℚ) + 1 / 2) * 2 ^ e := hv.le_upper
        _ < 2 ^ 52 * 2 ^ e := by gcongr; linarith
    have : L < e + 52 :=
      (zpow_lt_zpow_iff_right₀ (by norm_num : (1 : ℚ) < 2)).1 (lt_of_le_of_lt hL.1 hv52)
    left
    omega
  · by_cases hbelow : v < (hidden : ℚ) * 2 ^ e
    · -- just below a power of two: one binade down
      have hbin : 2 ^ (e + 51) ≤ v ∧ v < 2 ^ (e + 51 + 1) := by
        refine ⟨?_, by rw [show e + 51 + 1 = e + 52 by omega, two_zpow_add, zpow_ofNat]; rwa [hh] at hbelow⟩
        rw [two_zpow_add, zpow_ofNat]
        calc (2 : ℚ) ^ 51 * 2 ^ e ≤ ((hidden : ℚ) - lowerGap hidden e) * 2 ^ e := by
              gcongr; rw [hh]; linarith
          _ ≤ v := hv.lower_le
      have hLj := exp_unique hL hbin
      by_cases hmin' : minExp < e
      · right
        exact ⟨by omega, rfl, hmin', hbelow⟩
      · left
        omega
    · have hbin : 2 ^ (e + 52) ≤ v ∧ v < 2 ^ (e + 52 + 1) := by
        refine ⟨?_, by rw [show e + 52 + 1 = e + 53 by omega]; exact hup⟩
        rw [two_zpow_add, zpow_ofNat, ← hh]
        exact le_of_not_gt hbelow
      have hLj := exp_unique hL hbin
      left
      omega
  · -- above the least significand: the value is in the binade of `m`
    have hbin : 2 ^ (e + 52) ≤ v ∧ v < 2 ^ (e + 52 + 1) := by
      refine ⟨?_, by rw [show e + 52 + 1 = e + 53 by omega]; exact hup⟩
      have : (hidden : ℚ) + 1 ≤ m := by exact_mod_cast hgt
      rw [two_zpow_add, zpow_ofNat]
      calc (2 : ℚ) ^ 52 * 2 ^ e ≤ ((m : ℚ) - lowerGap m e) * 2 ^ e := by
            gcongr; rw [← hh]; linarith
        _ ≤ v := hv.lower_le
    have hLj := exp_unique hL hbin
    left
    omega

/-! ## Rounding reaches the number -/

/-- The binade of `n / d * 2 ^ k`: between `2 ^ (floorLog2 n d + k)` and the next power. -/
theorem binade {n d : Nat} (hn : 0 < n) (hd : 0 < d) (k : Int) :
    (2 : ℚ) ^ (floorLog2 n d + k) ≤ (n : ℚ) / d * 2 ^ k ∧
      (n : ℚ) / d * 2 ^ k < 2 ^ (floorLog2 n d + k + 1) := by
  obtain ⟨hlo, hhi⟩ := floorLog2_spec hn hd
  rw [zpow_add₀ two_ne_zero, show floorLog2 n d + k + 1 = floorLog2 n d + 1 + k by omega,
    zpow_add₀ two_ne_zero]
  exact ⟨by gcongr, by gcongr⟩

/-- A value in the rounding interval of a canonical finite number rounds to that number. -/
theorem round_eq_finite {neg : Bool} {n d m : Nat} {k e : Int}
    (hcan : Canonical (finite neg m e)) (hm : 0 < m) (hd : 0 < d)
    (hv : InRounding m e ((n : ℚ) / d * 2 ^ k)) : round neg n d k = finite neg m e := by
  have hpos := hv.pos hm
  have hn : 0 < n := by
    rcases Nat.eq_zero_or_pos n with rfl | hn
    · simp at hpos
    · exact hn
  have hcases := roundExp_cases hcan hv (binade hn hd k)
  obtain ⟨hm2, -, hmax, -⟩ := hcan
  unfold round
  rw [if_neg hn.ne']
  dsimp only
  generalize max (floorLog2 n d + k - 52) minExp = E at hcases ⊢
  obtain ⟨hden, hr, hsplit⟩ := @scaledDivMod_spec n d hd (k - E)
  -- the quotient and remainder measure the value in units of `2 ^ E`
  have hx : ((scaledDivMod n d (k - E)).1 : ℚ) +
      ((scaledDivMod n d (k - E)).2.1 : ℚ) / (scaledDivMod n d (k - E)).2.2 =
        (n : ℚ) / d * 2 ^ k / 2 ^ E := by
    rw [← hsplit, zpow_sub₀ two_ne_zero, mul_div_assoc]
  generalize scaledDivMod n d (k - E) = s at hden hr hx
  obtain ⟨q, r, den⟩ := s
  dsimp only at hden hr hx ⊢
  rcases hcases with rfl | ⟨rfl, rfl, hmin, hbelow⟩
  · -- the exponent is `e`: the quotient rounds to `m`
    obtain ⟨hlo, hhi⟩ := hv.div_bounds
    rw [← hx] at hlo hhi
    have hne : m ≠ 2 * hidden := by omega
    rw [roundHalfEven_eq hden hr hlo hhi]
    simp [hne, not_lt.2 hmax]
  · -- one binade down: the quotient rounds up to `2 * hidden`, which carries back to `e`
    have he : (0 : ℚ) < 2 ^ e := by positivity
    have hx2 : (n : ℚ) / d * 2 ^ k / 2 ^ (e - 1) = 2 * ((n : ℚ) / d * 2 ^ k / 2 ^ e) := by
      rw [zpow_sub₀ two_ne_zero, zpow_one]
      field_simp
    have hup : (n : ℚ) / d * 2 ^ k / 2 ^ e < hidden := by rwa [div_lt_iff₀ he]
    have hlow : (hidden : ℚ) - 1 / 4 ≤ (n : ℚ) / d * 2 ^ k / 2 ^ e := by
      have hgap : lowerGap hidden e = 1 / 4 := if_pos ⟨rfl, hmin⟩
      rw [le_div_iff₀ he, ← hgap]
      exact hv.lower_le
    have hq : roundHalfEven q r den = 2 * hidden := by
      apply roundHalfEven_eq hden hr
      · rw [hx, hx2]
        push_cast
        rcases lt_or_eq_of_le hlow with h | h
        · left; linarith
        · right; exact ⟨by omega, by linarith⟩
      · left
        rw [hx, hx2]
        push_cast
        linarith
    rw [hq]
    simp [show e - 1 + 1 = e by omega, not_lt.2 hmax]

end Binary64

end DiceNotation
