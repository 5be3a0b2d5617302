import DiceNotation.Proofs.Binary64.Round
import DiceNotation.Operator

/-!
# Every number rounding makes is canonical

`Binary64.round` picks the exponent from the bit lengths of `n / d`: the one that puts the
quotient in `[2^52, 2^53)`, or the least exponent when that one is too small.  So the quotient it
rounds lies below `2^53`, and at or above `2^52` unless the exponent is the least; rounding adds
at most one, and a carry to `2^53` moves one exponent up.  The result is canonical
(`canonical_round`).

The four operations give a zero, an infinity, NaN or a rounded number, so they are canonical
whatever their operands (`canonical_add`, `canonical_mul`, `canonical_div`), and so is every
float the operators make of numbers (`Operator.canonical_apply`).
-/

namespace DiceNotation

namespace Binary64

/-! ## The quotient that is rounded -/

/-- Scaled to an exponent at or above the one of its binade less 52, `n / d` lies below `2^53`;
scaled to exactly that exponent, at or above `2^52`. -/
theorem scaled_bounds {n d : Nat} (hn : 0 < n) (hd : 0 < d) (k E : Int)
    (hE : floorLog2 n d + k - 52 ≤ E) :
    (n : ℚ) / d * 2 ^ (k - E) < 2 * hidden ∧
      (E = floorLog2 n d + k - 52 → (hidden : ℚ) ≤ n / d * 2 ^ (k - E)) := by
  obtain ⟨hlo, hhi⟩ := floorLog2_spec hn hd
  have hh : (hidden : ℚ) = 2 ^ (52 : Int) := by norm_num [hidden]
  refine ⟨?_, ?_⟩
  · calc (n : ℚ) / d * 2 ^ (k - E) < 2 ^ (floorLog2 n d + 1) * 2 ^ (k - E) := by gcongr
      _ = 2 ^ (floorLog2 n d + 1 + (k - E)) := (zpow_add₀ two_ne_zero _ _).symm
      _ ≤ 2 ^ (53 : Int) := zpow_le_zpow_right₀ one_le_two (by omega)
      _ = 2 * hidden := by rw [hh]; norm_num
  · rintro rfl
    calc (hidden : ℚ) = 2 ^ (floorLog2 n d + (k - (floorLog2 n d + k - 52))) := by
          rw [hh]; congr 1; omega
      _ = 2 ^ floorLog2 n d * 2 ^ (k - (floorLog2 n d + k - 52)) := zpow_add₀ two_ne_zero _ _
      _ ≤ (n : ℚ) / d * 2 ^ (k - (floorLog2 n d + k - 52)) := by gcongr

/-- The whole part `q` of `q + r / den` lies below every whole bound above the value, and at or
above every whole bound below it. -/
theorem quotient_bounds {q r den B : Nat} {v : ℚ} (hr : r < den) (hv : (q : ℚ) + r / den = v) :
    (v < B → q < B) ∧ ((B : ℚ) ≤ v → B ≤ q) := by
  have hden : (0 : ℚ) < den := by exact_mod_cast Nat.zero_lt_of_lt hr
  have hfrac : (r : ℚ) / den < 1 := by
    rw [div_lt_one hden]
    exact_mod_cast hr
  have hfrac0 : (0 : ℚ) ≤ r / den := by positivity
  refine ⟨fun h => ?_, fun h => ?_⟩
  · exact_mod_cast (show (q : ℚ) < B by linarith)
  · have : (B : ℚ) < q + 1 := by linarith
    exact Nat.lt_succ_iff.1 (by exact_mod_cast this)

/-- Rounding a quotient to nearest gives the quotient or one more. -/
theorem roundHalfEven_bounds (q r den : Nat) :
    q ≤ roundHalfEven q r den ∧ roundHalfEven q r den ≤ q + 1 := by
  unfold roundHalfEven
  split <;> omega

/-! ## Rounding -/

theorem canonical_zero (neg : Bool) : (zero neg).Canonical :=
  ⟨by unfold hidden; omega, Int.le_refl _, by decide, .inr rfl⟩

/-- **Rounding gives canonical numbers.** -/
theorem canonical_round (neg : Bool) (n : Nat) {d : Nat} (hd : 0 < d) (k : Int) :
    (round neg n d k).Canonical := by
  unfold round
  by_cases hn : n = 0
  · rw [if_pos hn]
    exact canonical_zero neg
  rw [if_neg hn]
  dsimp only
  -- the exponent is the one of the binade less 52, or the least one
  have hEL : floorLog2 n d + k - 52 ≤ max (floorLog2 n d + k - 52) minExp := Int.le_max_left _ _
  have hEmin : minExp ≤ max (floorLog2 n d + k - 52) minExp := Int.le_max_right _ _
  have hEeq : max (floorLog2 n d + k - 52) minExp = floorLog2 n d + k - 52 ∨
      max (floorLog2 n d + k - 52) minExp = minExp := by omega
  obtain ⟨hlt, hge⟩ := scaled_bounds (Nat.pos_of_ne_zero hn) hd k _ hEL
  generalize max (floorLog2 n d + k - 52) minExp = E at hEL hEmin hEeq hlt hge ⊢
  obtain ⟨-, hr, hsplit⟩ := @scaledDivMod_spec n d hd (k - E)
  generalize scaledDivMod n d (k - E) = s at hr hsplit
  obtain ⟨q, r, den⟩ := s
  dsimp only at hr hsplit ⊢
  -- the quotient lies in `[2^52, 2^53)`, or below `2^52` at the least exponent
  have hq : q < 2 * hidden := (quotient_bounds hr hsplit.symm).1 (by exact_mod_cast hlt)
  have hqn : E ≠ minExp → hidden ≤ q := fun hne =>
    (quotient_bounds hr hsplit.symm).2 (hge (hEeq.resolve_right hne))
  obtain ⟨hq₁, hq₂⟩ := roundHalfEven_bounds q r den
  by_cases hcarry : roundHalfEven q r den = 2 * hidden
  · -- a carry to `2^53`: the significand drops to `2^52` one exponent up
    simp only [if_pos hcarry]
    split
    · trivial
    · exact ⟨by unfold hidden; omega, by omega, by omega, .inl (Nat.le_refl _)⟩
  · simp only [if_neg hcarry]
    split
    · trivial
    · refine ⟨by omega, hEmin, by omega, ?_⟩
      by_cases hE : E = minExp
      · exact .inr hE
      · exact .inl (Nat.le_trans (hqn hE) hq₁)

theorem canonical_ofRatio (a : Int) {b : Int} (hb : b ≠ 0) : (ofRatio a b).Canonical :=
  canonical_round _ _ (Int.natAbs_pos.2 hb) _

theorem canonical_ofDecimal (neg : Bool) (digits : Nat) (exp10 : Int) :
    (ofDecimal neg digits exp10).Canonical := by
  unfold ofDecimal
  split
  · exact canonical_zero neg
  dsimp only
  split
  · trivial
  split
  · exact canonical_zero neg
  split
  · exact canonical_round _ _ Nat.one_pos _
  · exact canonical_round _ _ (Nat.pow_pos (by decide)) _

/-! ## The operations -/

/-- The sum is canonical, whatever the operands. -/
theorem canonical_add (x y : Binary64) : (x + y).Canonical := by
  show (add x y).Canonical
  unfold add
  split
  case h_3 => split <;> trivial
  case h_6 =>
    -- two finite numbers: a zero, or their exact sum rounded
    split
    · exact canonical_zero _
    dsimp only
    split
    · exact canonical_zero _
    · exact canonical_round _ _ Nat.one_pos _
  all_goals trivial

theorem canonical_sub (x y : Binary64) : (x - y).Canonical :=
  canonical_add x (neg y)

/-- The product is canonical, whatever the operands. -/
theorem canonical_mul (x y : Binary64) : (x * y).Canonical := by
  show (mul x y).Canonical
  unfold mul
  split
  case h_4 | h_5 => split <;> trivial
  case h_6 => exact canonical_round _ _ Nat.one_pos _
  all_goals trivial

/-- The quotient is canonical, whatever the operands. -/
theorem canonical_div (x y : Binary64) : (x / y).Canonical := by
  show (div x y).Canonical
  unfold div
  split
  case h_5 => exact canonical_zero _
  case h_6 m₂ _ =>
    -- a nonzero divisor: the exact quotient rounded
    split
    · split <;> trivial
    · exact canonical_round _ _ (Nat.pos_of_ne_zero ‹_›) _
  all_goals trivial

end Binary64

namespace Number

/-- An integer, or a float in canonical form: the numbers that reading text and arithmetic make.
A truth value is none of them. -/
def IsCanonical : Number → Prop
  | int _ => True
  | float x => x.Canonical
  | bool _ => False

end Number

namespace Operator

/-- True division gives NaN, an infinity, or a rounded quotient. -/
theorem canonical_divide (x y : Number) : (divide x y).IsCanonical := by
  unfold divide
  split
  · split <;> trivial
  rename_i hy
  split
  · -- two integers: the float nearest to their ratio, over a divisor that is no zero
    rename_i b
    refine Binary64.canonical_ofRatio _ fun hb => hy ?_
    simp [Number.isZero, hb]
  · exact Binary64.canonical_div _ _

/-- **Every number an operator makes is canonical**, whatever its operands. -/
theorem canonical_apply (o : Operator) (x y : Number) : (o.apply x y).IsCanonical := by
  unfold apply
  split
  case h_4 => exact Binary64.canonical_add _ _
  case h_5 => exact Binary64.canonical_sub _ _
  case h_6 => exact Binary64.canonical_mul _ _
  case h_7 => exact canonical_divide _ _
  all_goals trivial

end Operator

end DiceNotation
