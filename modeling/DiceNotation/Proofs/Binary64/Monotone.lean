import DiceNotation.Proofs.Binary64.Canonical

/-!
# Rounding to binary64 is monotone

`Binary64.round` takes the value `n / d * 2 ^ k` to a multiple of the unit `2 ^ unitExp n d k`
that its binade gives, the nearest with ties to even (`rounded`), and that magnitude is infinite
exactly when it reaches `2 ^ 1024` (`round_cases`).  At one unit, rounding to nearest is
monotone (`roundHalfEven_mono`); a larger value never has a smaller unit, and a value whose unit
is larger lies a whole binade higher.  So the rounded magnitude is monotone in the value
(`rounded_mono`), and with it `round` itself (`round_mono`): a value below one that rounds to a
finite number rounds to a finite number no larger.

The range of the format follows: a value of at most the largest finite number rounds to a finite
number (`round_finite`), one of at least `2 ^ 1024` to an infinity (`round_eq_inf`).  And a value
at most `1 - 2⁻⁵³` times a normal number above the least binade rounds strictly below every value
that rounds to that number (`round_below`), the fact that keeps a die in range.
-/

namespace DiceNotation

namespace Binary64

/-- The value of a finite number; an infinity and NaN are given zero. -/
def toRat : Binary64 → ℚ
  | finite neg m e => (if neg then -(m : ℚ) else m) * 2 ^ e
  | _ => 0

@[simp] theorem toRat_finite (neg : Bool) (m : Nat) (e : Int) :
    (finite neg m e).toRat = (if neg then -(m : ℚ) else m) * 2 ^ e := rfl

theorem exists_finite {x : Binary64} (h : x.isFinite = true) : ∃ s m e, x = finite s m e := by
  cases x with
  | finite s m e => exact ⟨s, m, e, rfl⟩
  | _ => cases h

/-- The largest finite value, `(2 ^ 53 - 1) * 2 ^ 971`, just below `2 ^ 1024`. -/
def maxFinite : ℚ := (2 ^ 53 - 1) * 2 ^ maxExp

/-- The exponent of the unit to which `round` rounds `n / d * 2 ^ k`: that of the value's binade
less 52, and never below the least exponent. -/
def unitExp (n d : Nat) (k : Int) : Int := max (floorLog2 n d + k - 52) minExp

/-- The magnitude `round` gives `n / d * 2 ^ k` before it looks at the range: the value rounded
to a multiple of `2 ^ unitExp n d k`, to nearest with ties to even. -/
def rounded (n d : Nat) (k : Int) : ℚ :=
  match scaledDivMod n d (k - unitExp n d k) with
  | (q, r, den) => (roundHalfEven q r den : ℚ) * 2 ^ unitExp n d k

/-! ## Rounding at one unit -/

/-- Rounding to nearest, ties to even, keeps the order of the quotients it rounds. -/
theorem roundHalfEven_mono {q r den q' r' den' : Nat} (hr : r < den) (hr' : r' < den')
    (h : (q : ℚ) + r / den ≤ q' + r' / den') : roundHalfEven q r den ≤ roundHalfEven q' r' den' := by
  have hden : 0 < den := by omega
  have hden' : 0 < den' := by omega
  have hb := roundHalfEven_bounds q r den
  have hb' := roundHalfEven_bounds q' r' den'
  have hq : q ≤ q' :=
    (quotient_bounds hr' rfl).2 (le_trans (le_add_of_nonneg_right (by positivity)) h)
  rcases Nat.lt_or_eq_of_le hq with hlt | rfl
  · omega
  · -- one whole part: a fraction that rounds up makes every larger fraction round up
    have hf : (r : ℚ) / den ≤ r' / den' := by linarith
    unfold roundHalfEven
    split_ifs with hup hup' <;> try omega
    exfalso
    apply hup'
    rcases hup with hlt | ⟨htie, hodd⟩
    · exact .inl ((half_lt_div_iff hden').1 (lt_of_lt_of_le ((half_lt_div_iff hden).2 hlt) hf))
    · rcases lt_or_eq_of_le (le_trans ((div_eq_half_iff hden).2 htie).symm.le hf) with hlt | heq
      · exact .inl ((half_lt_div_iff hden').1 hlt)
      · exact .inr ⟨(div_eq_half_iff hden').1 heq.symm, hodd⟩

/-! ## The rounded magnitude -/

section Rounded

variable {n d : Nat} {k : Int}

/-- `rounded` from the quotient and remainder of the value in units of `2 ^ unitExp n d k`. -/
theorem rounded_spec (hd : 0 < d) :
    ∃ q r den : Nat, 0 < den ∧ r < den ∧ (q : ℚ) + r / den = n / d * 2 ^ (k - unitExp n d k) ∧
      scaledDivMod n d (k - unitExp n d k) = (q, r, den) ∧
      rounded n d k = (roundHalfEven q r den : ℚ) * 2 ^ unitExp n d k := by
  obtain ⟨hden, hr, hsplit⟩ := @scaledDivMod_spec n d hd (k - unitExp n d k)
  exact ⟨_, _, _, hden, hr, hsplit.symm, rfl, rfl⟩

/-- A larger value has a binade no lower. -/
theorem binade_mono {n' d' : Nat} {k' : Int} (hn : 0 < n) (hd : 0 < d) (hn' : 0 < n')
    (hd' : 0 < d') (hv : (n : ℚ) / d * 2 ^ k ≤ n' / d' * 2 ^ k') :
    floorLog2 n d + k ≤ floorLog2 n' d' + k' := by
  have h := lt_of_le_of_lt ((binade hn hd k).1.trans hv) (binade hn' hd' k').2
  have := (zpow_lt_zpow_iff_right₀ (by norm_num : (1 : ℚ) < 2)).1 h
  omega

/-- Rounding never leaves the value's binade from above. -/
theorem rounded_le_binade (hn : 0 < n) (hd : 0 < d) :
    rounded n d k ≤ 2 ^ (floorLog2 n d + k + 1) := by
  obtain ⟨q, r, den, hden, hr, hx, -, hval⟩ := rounded_spec (n := n) (k := k) hd
  have hE : (0 : ℚ) < 2 ^ unitExp n d k := by positivity
  have hlt : (q : ℚ) + r / den < 2 ^ (floorLog2 n d + k + 1 - unitExp n d k) := by
    rw [hx, zpow_sub₀ two_ne_zero, zpow_sub₀ two_ne_zero, ← mul_div_assoc]
    exact div_lt_div_of_pos_right (binade hn hd k).2 hE
  rw [hval]
  by_cases hj : unitExp n d k ≤ floorLog2 n d + k + 1
  · -- the top of the binade is a whole number of units, and the quotient rounds to at most it
    obtain ⟨j, hjeq⟩ : ∃ j : Nat, floorLog2 n d + k + 1 - unitExp n d k = j :=
      ⟨_, (Int.toNat_of_nonneg (by omega)).symm⟩
    rw [hjeq, zpow_natCast] at hlt
    have hq : q < 2 ^ j := (quotient_bounds hr rfl).1 (by exact_mod_cast hlt)
    have hM : roundHalfEven q r den ≤ 2 ^ j := le_trans (roundHalfEven_bounds q r den).2 hq
    calc (roundHalfEven q r den : ℚ) * 2 ^ unitExp n d k
        ≤ (2 : ℚ) ^ (j : Int) * 2 ^ unitExp n d k := by
          rw [zpow_natCast]
          gcongr
          exact_mod_cast hM
      _ = 2 ^ (floorLog2 n d + k + 1) := by
          rw [← zpow_add₀ two_ne_zero, ← hjeq]
          congr 1
          omega
  · -- far below the least unit: the value is under half a unit and rounds to zero
    have hhalf : (2 : ℚ) ^ (floorLog2 n d + k + 1 - unitExp n d k) ≤ 1 / 2 := by
      calc (2 : ℚ) ^ (floorLog2 n d + k + 1 - unitExp n d k) ≤ 2 ^ (-1 : Int) :=
            zpow_le_zpow_right₀ one_le_two (by omega)
        _ = 1 / 2 := by norm_num
    have hnonneg : (0 : ℚ) ≤ q + r / den := by positivity
    have hzero : roundHalfEven q r den = 0 :=
      roundHalfEven_eq hden hr (.inl (by push_cast; linarith)) (.inl (by push_cast; linarith))
    rw [hzero, Nat.cast_zero, zero_mul]
    positivity

/-- Above the subnormal range, rounding never leaves the value's binade from below. -/
theorem binade_le_rounded (hn : 0 < n) (hd : 0 < d) (hnorm : minExp ≤ floorLog2 n d + k - 52) :
    2 ^ (floorLog2 n d + k) ≤ rounded n d k := by
  have hE : unitExp n d k = floorLog2 n d + k - 52 := max_eq_left hnorm
  obtain ⟨q, r, den, hden, hr, hx, -, hval⟩ := rounded_spec (n := n) (k := k) hd
  have hlow := (scaled_bounds hn hd k (unitExp n d k) (le_max_left _ _)).2 hE
  have hq : hidden ≤ q := (quotient_bounds hr hx).2 hlow
  have hM : hidden ≤ roundHalfEven q r den := le_trans hq (roundHalfEven_bounds q r den).1
  rw [hval, hE]
  calc (2 : ℚ) ^ (floorLog2 n d + k) = (2 : ℚ) ^ (52 : Int) * 2 ^ (floorLog2 n d + k - 52) := by
        rw [← zpow_add₀ two_ne_zero]
        congr 1
        omega
    _ ≤ (roundHalfEven q r den : ℚ) * 2 ^ (floorLog2 n d + k - 52) := by
        gcongr
        rw [zpow_ofNat]
        exact_mod_cast hM

/-- **Rounding is monotone.**  A larger value rounds to a magnitude no smaller. -/
theorem rounded_mono {n' d' : Nat} {k' : Int} (hn : 0 < n) (hd : 0 < d) (hn' : 0 < n')
    (hd' : 0 < d') (hv : (n : ℚ) / d * 2 ^ k ≤ n' / d' * 2 ^ k') :
    rounded n d k ≤ rounded n' d' k' := by
  have hL := binade_mono hn hd hn' hd' hv
  have hEE : unitExp n d k ≤ unitExp n' d' k' := by unfold unitExp; omega
  rcases lt_or_eq_of_le hEE with hlt | heq
  · -- a larger unit: the larger value lies a whole binade higher, and so does its rounding
    have hnorm : minExp ≤ floorLog2 n' d' + k' - 52 := by unfold unitExp at hlt; omega
    have hL' : floorLog2 n d + k + 1 ≤ floorLog2 n' d' + k' := by unfold unitExp at hlt; omega
    calc rounded n d k ≤ 2 ^ (floorLog2 n d + k + 1) := rounded_le_binade hn hd
      _ ≤ 2 ^ (floorLog2 n' d' + k') := zpow_le_zpow_right₀ one_le_two hL'
      _ ≤ rounded n' d' k' := binade_le_rounded hn' hd' hnorm
  · -- one unit: the quotients in that unit are in order, and so are their roundings
    obtain ⟨q, r, den, -, hr, hx, -, hval⟩ := rounded_spec (n := n) (k := k) hd
    obtain ⟨q', r', den', -, hr', hx', -, hval'⟩ := rounded_spec (n := n') (k := k') hd'
    have hM : roundHalfEven q r den ≤ roundHalfEven q' r' den' := by
      apply roundHalfEven_mono hr hr'
      rw [hx, hx', heq, zpow_sub₀ two_ne_zero, zpow_sub₀ two_ne_zero, ← mul_div_assoc,
        ← mul_div_assoc]
      exact div_le_div_of_nonneg_right hv (by positivity)
    rw [hval, hval', heq]
    gcongr

/-- **What `round` gives.**  The rounded magnitude with the given sign: an infinity when it
reaches `2 ^ 1024`, and else a finite number of that value. -/
theorem round_cases (neg : Bool) (hn : 0 < n) (hd : 0 < d) :
    (round neg n d k = inf neg ∧ 2 ^ 1024 ≤ rounded n d k) ∨
      ∃ m e, round neg n d k = finite neg m e ∧ (m : ℚ) * 2 ^ e = rounded n d k ∧
        rounded n d k < 2 ^ 1024 := by
  obtain ⟨q, r, den, -, hr, hx, hsdm, hval⟩ := rounded_spec (n := n) (k := k) hd
  have hup := (scaled_bounds hn hd k (unitExp n d k) (le_max_left _ _)).1
  have hq : q < 2 * hidden := (quotient_bounds hr hx).1 (by exact_mod_cast hup)
  have hM := roundHalfEven_bounds q r den
  have hpow : ∀ j : Int, (2 : ℚ) ^ ((1024 : Nat) : Int) ≤ 2 ^ j ↔ ((1024 : Nat) : Int) ≤ j :=
    fun j => zpow_le_zpow_iff_right₀ one_lt_two
  unfold round
  rw [if_neg hn.ne']
  dsimp only
  rw [show max (floorLog2 n d + k - 52) minExp = unitExp n d k from rfl, hsdm,
    ← zpow_natCast (2 : ℚ) 1024]
  dsimp only
  by_cases hcarry : roundHalfEven q r den = 2 * hidden
  · -- a carry into the next binade: the magnitude is `2 ^ (unitExp + 53)`
    have htop : rounded n d k = 2 ^ (unitExp n d k + 1 + 52) := by
      rw [hval, hcarry, zpow_add₀ two_ne_zero, zpow_add_one₀ two_ne_zero]
      norm_num [hidden]
      ring
    simp only [hcarry, if_true]
    split_ifs with hbig
    · exact .inl ⟨rfl, by rw [htop, hpow]; unfold maxExp at hbig; omega⟩
    · refine .inr ⟨hidden, unitExp n d k + 1, rfl, ?_, ?_⟩
      · rw [htop, zpow_add₀ two_ne_zero (unitExp n d k + 1), mul_comm]
        norm_num [hidden]
      · rw [htop]
        exact zpow_lt_zpow_right₀ one_lt_two (by unfold maxExp at hbig; omega)
  · simp only [hcarry, if_false]
    split_ifs with hbig
    · -- past the largest exponent the value is normal, and at least `2 ^ 1024`
      have hnorm : minExp ≤ floorLog2 n d + k - 52 := by
        unfold unitExp at hbig; unfold maxExp minExp at *; omega
      have hE : unitExp n d k = floorLog2 n d + k - 52 := max_eq_left hnorm
      refine .inl ⟨rfl, ?_⟩
      calc (2 : ℚ) ^ ((1024 : Nat) : Int) ≤ 2 ^ (floorLog2 n d + k) := by
            rw [hpow]; rw [hE] at hbig; unfold maxExp at hbig; omega
        _ ≤ rounded n d k := binade_le_rounded hn hd hnorm
    · refine .inr ⟨roundHalfEven q r den, unitExp n d k, rfl, hval.symm, ?_⟩
      have hlt : roundHalfEven q r den < 2 ^ 53 := by unfold hidden at hq hcarry; omega
      rw [hval]
      calc (roundHalfEven q r den : ℚ) * 2 ^ unitExp n d k < 2 ^ (53 : Int) * 2 ^ unitExp n d k := by
            gcongr
            rw [zpow_ofNat]
            exact_mod_cast hlt
        _ ≤ 2 ^ ((1024 : Nat) : Int) := by
            rw [← zpow_add₀ two_ne_zero]
            exact zpow_le_zpow_right₀ one_le_two (by unfold maxExp at hbig; omega)

end Rounded

/-! ## Consequences for `round` -/

section Round

variable {n d : Nat} {k : Int}

/-- **`round` is monotone.**  A value at most one that rounds to a finite number rounds to a
finite number of the same sign and no larger magnitude. -/
theorem round_mono {n' d' : Nat} {k' : Int} {neg : Bool} {m' : Nat} {e' : Int} (hd : 0 < d)
    (hd' : 0 < d') (hv : (n : ℚ) / d * 2 ^ k ≤ n' / d' * 2 ^ k')
    (h' : round neg n' d' k' = finite neg m' e') :
    ∃ m e, round neg n d k = finite neg m e ∧ (m : ℚ) * 2 ^ e ≤ m' * 2 ^ e' := by
  rcases Nat.eq_zero_or_pos n with rfl | hn
  · -- zero rounds to a zero
    exact ⟨0, minExp, by simp [round, zero], by simp only [Nat.cast_zero, zero_mul]; positivity⟩
  have hpos : (0 : ℚ) < n / d * 2 ^ k := by positivity
  have hn' : 0 < n' := by
    rcases Nat.eq_zero_or_pos n' with rfl | h
    · simp only [Nat.cast_zero, zero_div, zero_mul] at hv
      linarith
    · exact h
  have hval' : (m' : ℚ) * 2 ^ e' = rounded n' d' k' ∧ rounded n' d' k' < 2 ^ 1024 := by
    rcases round_cases neg hn' hd' (k := k') with ⟨hinf, -⟩ | ⟨m, e, hfin, heq, hlt⟩
    · rw [h'] at hinf
      cases hinf
    · rw [h'] at hfin
      cases hfin
      exact ⟨heq, hlt⟩
  have hle := rounded_mono hn hd hn' hd' hv
  rcases round_cases neg hn hd (k := k) with ⟨-, hbig⟩ | ⟨m, e, hfin, heq, -⟩
  · exact absurd (lt_of_le_of_lt (hbig.trans hle) hval'.2) (lt_irrefl _)
  · exact ⟨m, e, hfin, by rw [heq, hval'.1]; exact hle⟩

/-- Of two values that both round to finite numbers, the larger rounds to the larger. -/
theorem round_le_round {n' d' : Nat} {k' : Int} {neg : Bool} {m m' : Nat} {e e' : Int}
    (hd : 0 < d) (hd' : 0 < d') (hv : (n : ℚ) / d * 2 ^ k ≤ n' / d' * 2 ^ k')
    (h : round neg n d k = finite neg m e) (h' : round neg n' d' k' = finite neg m' e') :
    (m : ℚ) * 2 ^ e ≤ m' * 2 ^ e' := by
  obtain ⟨m₁, e₁, h₁, hle⟩ := round_mono hd hd' hv h'
  rw [h] at h₁
  cases h₁
  exact hle

/-- A finite number's own value is in its rounding interval. -/
theorem inRounding_self (m : Nat) (e : Int) : InRounding m e ((m : ℚ) / (1 : Nat) * 2 ^ e) := by
  have hgap := lowerGap_pos m e
  have he : (0 : ℚ) < 2 ^ e := by positivity
  rw [Nat.cast_one, div_one]
  exact ⟨.inl (mul_lt_mul_of_pos_right (by linarith) he),
    .inl (mul_lt_mul_of_pos_right (by linarith) he)⟩

/-- A canonical finite number rounds to itself. -/
theorem round_self {neg : Bool} {m : Nat} {e : Int} (hcan : Canonical (finite neg m e))
    (hm : 0 < m) : round neg m 1 e = finite neg m e :=
  round_eq_finite hcan hm Nat.one_pos (inRounding_self m e)

/-- The largest finite number is canonical. -/
theorem canonical_maxFinite (neg : Bool) : Canonical (finite neg (2 * hidden - 1) maxExp) :=
  ⟨by unfold hidden; omega, by unfold minExp maxExp; omega, le_refl _,
    .inl (by unfold hidden; omega)⟩

/-- **No overflow within the range.**  A value of at most the largest finite number rounds to a
finite number of at most that magnitude. -/
theorem round_finite (neg : Bool) (hd : 0 < d) (hv : (n : ℚ) / d * 2 ^ k ≤ maxFinite) :
    ∃ m e, round neg n d k = finite neg m e ∧ (m : ℚ) * 2 ^ e ≤ maxFinite := by
  have hmax : ((2 * hidden - 1 : Nat) : ℚ) * 2 ^ maxExp = maxFinite := by
    norm_num [maxFinite, hidden]
  have hv' : (n : ℚ) / d * 2 ^ k ≤ ((2 * hidden - 1 : Nat) : ℚ) / (1 : Nat) * 2 ^ maxExp := by
    rw [Nat.cast_one, div_one, hmax]
    exact hv
  obtain ⟨m, e, h, hle⟩ := round_mono hd Nat.one_pos hv'
    (round_self (canonical_maxFinite neg) (by unfold hidden; omega))
  exact ⟨m, e, h, hmax ▸ hle⟩

/-- **Overflow past the range.**  A value of at least `2 ^ 1024` rounds to an infinity. -/
theorem round_eq_inf (neg : Bool) (hd : 0 < d) (hv : 2 ^ 1024 ≤ (n : ℚ) / d * 2 ^ k) :
    round neg n d k = inf neg := by
  have hn : 0 < n := by
    rcases Nat.eq_zero_or_pos n with rfl | h
    · simp only [Nat.cast_zero, zero_div, zero_mul] at hv
      exact absurd hv (not_le.2 (by positivity))
    · exact h
  rw [← zpow_natCast (2 : ℚ) 1024] at hv
  have hL : 1024 ≤ floorLog2 n d + k := by
    have := (zpow_lt_zpow_iff_right₀ one_lt_two).1 (lt_of_le_of_lt hv (binade hn hd k).2)
    omega
  rcases round_cases neg hn hd (k := k) with ⟨hinf, -⟩ | ⟨m, e, -, -, hlt⟩
  · exact hinf
  · have hlow := binade_le_rounded hn hd (k := k) (by unfold minExp; omega)
    have : (2 : ℚ) ^ ((1024 : Nat) : Int) ≤ 2 ^ (floorLog2 n d + k) :=
      zpow_le_zpow_right₀ one_le_two hL
    rw [← zpow_natCast (2 : ℚ) 1024] at hlt
    linarith

/-- One unit below a normal number above the least binade, the number the format holds next
below it: its value is in that number's rounding interval, and it is smaller. -/
theorem exists_pred {neg : Bool} {m : Nat} {e : Int} (hcan : Canonical (finite neg m e))
    (hm : hidden ≤ m) (he : minExp < e) :
    ∃ m₀ e₀, Canonical (finite neg m₀ e₀) ∧ 0 < m₀ ∧ (m₀ : ℚ) * 2 ^ e₀ < m * 2 ^ e ∧
      InRounding m₀ e₀ (((m * (2 * hidden - 1) : Nat) : ℚ) / (1 : Nat) * 2 ^ (e - 53)) := by
  obtain ⟨hm2, -, hmax, -⟩ := hcan
  have hh : (hidden : ℚ) = 2 ^ (52 : Int) := by norm_num [hidden]
  have he' : (0 : ℚ) < 2 ^ e := by positivity
  -- the value is `m - m / 2 ^ 53` units of `2 ^ e`
  have hval : (((m * (2 * hidden - 1) : Nat) : ℚ) / (1 : Nat) * 2 ^ (e - 53)) =
      ((m : ℚ) - m / 2 ^ 53) * 2 ^ e := by
    rw [Nat.cast_one, div_one, zpow_sub₀ two_ne_zero, Nat.cast_mul,
      Nat.cast_sub (by unfold hidden; omega)]
    norm_num [hidden]
    ring
  rcases Nat.lt_or_eq_of_le hm with hgt | rfl
  · -- above the least significand: the number below has significand `m - 1`
    have hm1 : ((m - 1 : Nat) : ℚ) = m - 1 := by rw [Nat.cast_sub (by unfold hidden at hgt; omega)]; simp
    have hlo : (m : ℚ) / 2 ^ 53 < 1 := by
      rw [div_lt_one (by positivity)]
      exact_mod_cast (show m < 2 ^ 53 by unfold hidden at hm2; omega)
    have hhi : (1 / 2 : ℚ) < m / 2 ^ 53 := by
      rw [lt_div_iff₀ (by positivity)]
      have : (2 ^ 52 : ℚ) < m := by exact_mod_cast (show 2 ^ 52 < m by unfold hidden at hgt; omega)
      linarith
    have hgap := lowerGap_pos (m - 1) e
    refine ⟨m - 1, e, ⟨by omega, by omega, hmax, .inl (by omega)⟩, by unfold hidden at hgt; omega,
      ?_, ?_⟩
    · rw [hm1]
      exact mul_lt_mul_of_pos_right (by linarith) he'
    · rw [hval]
      refine ⟨.inl ?_, .inl ?_⟩
      · rw [hm1]
        exact mul_lt_mul_of_pos_right (by linarith) he'
      · rw [hm1]
        exact mul_lt_mul_of_pos_right (by linarith) he'
  · -- a power of two: the number below is the largest significand one binade down, and the
    -- value is exactly it
    have hexact : (((hidden * (2 * hidden - 1) : Nat) : ℚ) / (1 : Nat) * 2 ^ (e - 53)) =
        ((2 * hidden - 1 : Nat) : ℚ) / (1 : Nat) * 2 ^ (e - 1) := by
      rw [Nat.cast_mul, mul_comm ((hidden : Nat) : ℚ), mul_div_right_comm, mul_assoc, hh,
        ← zpow_add₀ two_ne_zero]
      congr 2
      omega
    refine ⟨2 * hidden - 1, e - 1, ⟨by omega, by omega, by omega, .inl (by omega)⟩,
      by unfold hidden; omega, ?_, ?_⟩
    · rw [Nat.cast_sub (by unfold hidden; omega), zpow_sub_one₀ two_ne_zero, hh]
      push_cast
      nlinarith
    · rw [hexact]
      exact inRounding_self _ _

/-- **Rounding one unit below a normal number.**  A value at most `1 - 2⁻⁵³` times a normal
number above the least binade rounds to a finite number below every value that rounds to that
normal number. -/
theorem round_below {neg : Bool} {m : Nat} {e : Int} (hcan : Canonical (finite neg m e))
    (hm : hidden ≤ m) (he : minExp < e) (hd : 0 < d)
    (hv : (n : ℚ) / d * 2 ^ k ≤ (m : ℚ) * (2 ^ 53 - 1) * 2 ^ (e - 53)) :
    ∃ m₁ e₁, round neg n d k = finite neg m₁ e₁ ∧
      ∀ {n' d' : Nat} {k' : Int}, 0 < d' → round neg n' d' k' = finite neg m e →
        (m₁ : ℚ) * 2 ^ e₁ < n' / d' * 2 ^ k' := by
  obtain ⟨m₀, e₀, hcan₀, hm₀, hlt₀, hin₀⟩ := exists_pred hcan hm he
  have hP := round_eq_finite hcan₀ hm₀ Nat.one_pos hin₀
  have hv' : (n : ℚ) / d * 2 ^ k ≤ ((m * (2 * hidden - 1) : Nat) : ℚ) / (1 : Nat) * 2 ^ (e - 53) := by
    have h53 : (((2 * hidden : Nat) : ℚ) - ((1 : Nat) : ℚ)) = 2 ^ 53 - 1 := by
      norm_num [hidden]
    rw [Nat.cast_one, div_one, Nat.cast_mul, Nat.cast_sub (by unfold hidden; omega), h53]
    exact hv
  obtain ⟨m₁, e₁, h₁, hle₁⟩ := round_mono hd Nat.one_pos hv' hP
  refine ⟨m₁, e₁, h₁, fun {n' d' k'} hd' h' => ?_⟩
  -- a value at most the number below rounds to at most it, so not to the normal number
  by_contra hge
  have hle : (n' : ℚ) / d' * 2 ^ k' ≤ (m₀ : ℚ) / (1 : Nat) * 2 ^ e₀ := by
    rw [Nat.cast_one, div_one]
    exact le_trans (not_lt.1 hge) hle₁
  obtain ⟨m₂, e₂, h₂, hle₂⟩ := round_mono hd' Nat.one_pos hle (round_self hcan₀ hm₀)
  rw [h'] at h₂
  cases h₂
  linarith

end Round

end Binary64

end DiceNotation
