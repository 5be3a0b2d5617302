import DiceNotation.Proofs.Decimal.Shortest
import DiceNotation.Proofs.Lexemes

/-!
# Number literals read back

An expression writes an integer as its decimal digits, a whole float as the integer it equals, and
any other finite float as the digits of its shortest decimal with the point placed among them
(`Number.plainLayout`, never with an exponent).  This file shows that the reader takes each such
text back:

* `Binary64.InRounding.not_nat`: no whole number lies in the rounding interval of a float that
  is not whole, so the shortest decimal of such a float has digits after its point;
* `Number.float_text_toList`: the text of a float that is not whole is a sign, digits, a point
  and digits, and those digits, read as a decimal, round to the float;
* `Scan.lexAt_float` and `Scan.lexAt_wholeFloat`: the reader takes the text of a finite float
  back as that float, or as the integer it equals.
-/

namespace DiceNotation

namespace Binary64

/-- No whole number lies in the rounding interval of a float that is not whole: the interval
reaches at most half a unit of `2 ^ e` from the float, and a whole number is further away. -/
theorem InRounding.not_nat {neg : Bool} {m : Nat} {e : Int} {N : Nat}
    (hnon : (finite neg m e).isInteger = false) (h : InRounding m e (N : ℚ)) : False := by
  simp only [isInteger, Bool.or_eq_false_iff, decide_eq_false_iff_not, not_le] at hnon
  obtain ⟨he, hmod⟩ := hnon
  obtain ⟨k, rfl⟩ : ∃ k : Nat, e = -(k : Int) := ⟨(-e).toNat, by omega⟩
  simp only [neg_neg, Int.toNat_natCast] at hmod
  have hk : (0 : ℚ) < 2 ^ k := by positivity
  have hgap := lowerGap_le m (-(k : Int))
  have hlo := h.lower_le
  have hhi := h.le_upper
  rw [zpow_neg, zpow_natCast, ← div_eq_mul_inv, div_le_iff₀ hk] at hlo
  rw [zpow_neg, zpow_natCast, ← div_eq_mul_inv, le_div_iff₀ hk] at hhi
  -- within half a unit of `m`, the multiple `N * 2 ^ k` is `m` itself
  have h1 : m < N * 2 ^ k + 1 := by
    have : (m : ℚ) < N * 2 ^ k + 1 := by linarith
    exact_mod_cast this
  have h2 : N * 2 ^ k < m + 1 := by
    have : (N : ℚ) * 2 ^ k < m + 1 := by linarith
    exact_mod_cast this
  have hm : m = N * 2 ^ k := by omega
  rw [hm, Nat.mul_mod_left] at hmod
  exact hmod rfl

end Binary64

namespace Scan

@[simp] theorem digitsValue_zeros (k : Nat) : digitsValue (List.replicate k '0') = 0 := by
  induction k with
  | zero => rfl
  | succ k ih => rw [List.replicate_succ', digitsValue_append, ih]; rfl

/-- Zeros in front do not change the value of digits. -/
theorem digitsValue_zeros_append (k : Nat) (ds : List Char) :
    digitsValue (List.replicate k '0' ++ ds) = digitsValue ds := by
  rw [digitsValue_append, digitsValue_zeros, Nat.mul_zero, Nat.zero_add]

end Scan

open Scan

namespace Layout

/-- The digits of a decimal whose exponent is negative, with the point placed by `placePoint`:
digits, the point, digits, and together the digits of the decimal with as many after the point
as the exponent says. -/
theorem placePoint_point (L : Layout) {digits : Nat} {exp : Int} (hexp : exp < 0) :
    ∃ ws fs, (L.placePoint (Nat.repr digits) (exp + decimalLength digits)).toList =
        ws ++ '.' :: fs ∧ (∀ c ∈ ws, c.isDigit = true) ∧ ws ≠ [] ∧
      (∀ c ∈ fs, c.isDigit = true) ∧ fs ≠ [] ∧ digitsValue (ws ++ fs) = digits ∧
      (fs.length : Int) = -exp := by
  have hlen : (Nat.toDigits 10 digits).length = decimalLength digits := by
    rw [decimalLength, ← Nat.toList_repr, String.length_toList]
  have hD := digits_isDigit digits
  unfold placePoint
  dsimp only
  rw [String.length_toList.symm.trans (congrArg List.length Nat.toList_repr)] at *
  split
  · -- the point before every digit: `0.`, zeros, the digits
    rename_i hp
    refine ⟨['0'], List.replicate (-(exp + decimalLength digits)).toNat '0' ++
      Nat.toDigits 10 digits, ?_, by simp, by simp, ?_, by simp, ?_, ?_⟩
    · simp [zeros, Nat.toList_repr]
    · intro c hc
      rcases List.mem_append.1 hc with hc | hc
      · rw [(List.mem_replicate.1 hc).2]; rfl
      · exact hD c hc
    · rw [← List.replicate_one, ← List.append_assoc, ← List.replicate_add,
        digitsValue_zeros_append, digitsValue_toDigits]
    · simp only [List.length_append, List.length_replicate, hlen]
      omega
  · split
    · -- the point among the digits
      rename_i hp hlt
      refine ⟨(Nat.toDigits 10 digits).take (exp + decimalLength digits).toNat,
        (Nat.toDigits 10 digits).drop (exp + decimalLength digits).toNat, ?_,
        fun c hc => hD c (List.mem_of_mem_take hc), ?_,
        fun c hc => hD c (List.mem_of_mem_drop hc), ?_, ?_, ?_⟩
      · simp [Nat.toList_repr]
      · simp only [ne_eq, List.take_eq_nil_iff, Nat.toDigits_ne_nil, or_false]
        omega
      · simp only [ne_eq, List.drop_eq_nil_iff, hlen]
        omega
      · rw [List.take_append_drop, digitsValue_toDigits]
      · simp only [List.length_drop, hlen]
        omega
    · -- the point after every digit needs a whole decimal
      rename_i hp hlt
      omega

end Layout

namespace Number

open Binary64

/-- The text of a finite float that is not whole: a sign, digits, a point and digits, which read
as a decimal round back to the float. -/
theorem float_text_toList {neg : Bool} {m : Nat} {e : Int} (hcan : Canonical (finite neg m e))
    (hnon : (finite neg m e).isInteger = false) :
    ∃ ws fs, (Number.text (.float (finite neg m e))).toList = signChars neg ++ ws ++ '.' :: fs ∧
      (∀ c ∈ ws, c.isDigit = true) ∧ ws ≠ [] ∧ (∀ c ∈ fs, c.isDigit = true) ∧ fs ≠ [] ∧
      ofDecimal neg (digitsValue (ws ++ fs)) (-(fs.length : Int)) = finite neg m e := by
  have hm : 0 < m := by
    rcases Nat.eq_zero_or_pos m with rfl | hm
    · simp [isInteger] at hnon
    · exact hm
  have hin := Decimal.shortest_inRounding hcan hm
  have hd := hin.digits_pos hm
  -- a decimal with a whole value cannot lie in the interval
  have hexp : (Decimal.shortest m e).exp < 0 := by
    by_contra hexp
    obtain ⟨j, hj⟩ : ∃ j : Nat, (Decimal.shortest m e).exp = j := ⟨_, (Int.toNat_of_nonneg
      (not_lt.1 hexp)).symm⟩
    rw [hj, zpow_natCast] at hin
    exact InRounding.not_nat hnon (N := (Decimal.shortest m e).digits * 10 ^ j)
      (by push_cast; exact hin)
  obtain ⟨ws, fs, htext, hws, hwne, hfs, hfne, hval, hlen⟩ :=
    @Layout.placePoint_point plainLayout (Decimal.shortest m e).digits _ hexp
  refine ⟨ws, fs, ?_, hws, hwne, hfs, hfne, ?_⟩
  · simp only [Number.text, hnon, Bool.false_eq_true, if_false, Layout.writeBinary64,
      show m ≠ 0 by omega, Layout.write, Decimal.digitText, Decimal.pointPos]
    rw [if_pos (show plainLayout.positional _ = true from rfl), String.toList_append, htext]
    cases neg <;> simp [signChars]
  · rw [hval, hlen, neg_neg]
    exact ofDecimal_shortest hcan hm

/-- The integer below a canonical float is less than `2 ^ 1024` in magnitude. -/
theorem floor_natAbs_lt {x : Binary64} (hcan : x.Canonical) : (x.floor?.getD 0).natAbs < 2 ^ 1024 := by
  cases x with
  | finite s m e =>
    have hm := Binary64.significand_lt_two_pow hcan
    obtain ⟨-, -, hmax, -⟩ := hcan
    simp only [floor?]
    split
    · -- a whole significand shifted left stays below `2 ^ 53 * 2 ^ 971`
      rename_i he
      rw [Option.getD_some]
      have hk : e.toNat ≤ 971 := by simp [maxExp] at hmax; omega
      have hlt : m * 2 ^ e.toNat < 2 ^ 1024 :=
        calc m * 2 ^ e.toNat < 2 ^ 53 * 2 ^ 971 :=
              Nat.mul_lt_mul_of_lt_of_le hm (Nat.pow_le_pow_right (by decide) hk) (by positivity)
          _ = 2 ^ 1024 := by rw [← Nat.pow_add]
      unfold signedSignificand
      split
      · rw [Int.natAbs_neg]
        exact_mod_cast hlt
      · exact_mod_cast hlt
    · -- a fraction: the whole part is at most the significand, one more when rounded down
      have hq : m / 2 ^ (-e).toNat ≤ m := Nat.div_le_self _ _
      have hbig : 2 ^ 53 < 2 ^ 1024 := Nat.pow_lt_pow_right (by decide) (by decide)
      rw [Option.getD_some]
      generalize m / 2 ^ (-e).toNat = q at hq ⊢
      split
      · split <;> omega
      · simp only [Int.natAbs_natCast]
        omega
  | inf s => simp [floor?]
  | nan => simp [floor?]

/-- The integer below a canonical float is written within the digit limit. -/
theorem withinDigitLimit_floor {x : Binary64} (hcan : x.Canonical) :
    withinDigitLimit (x.floor?.getD 0) = true :=
  decide_eq_true (lt_of_lt_of_le (floor_natAbs_lt hcan)
    (le_trans two_pow_1024_le (Nat.pow_le_pow_right (by decide) (by decide))))

end Number

namespace Scan

open Binary64

/-- The text of a canonical float that is not whole reads back as that float. -/
theorem lexAt_float {neg : Bool} {m : Nat} {e : Int} (hcan : Canonical (finite neg m e))
    (hnon : (finite neg m e).isInteger = false) {rest : List Char} (hrest : Delimits rest)
    (pos : Nat) :
    lexAt ((Number.text (.float (finite neg m e))).toList ++ rest) pos =
      .ok (.number (.float (finite neg m e)),
        (Number.text (.float (finite neg m e))).toList.length - 1) := by
  obtain ⟨ws, fs, htext, hws, hwne, hfs, hfne, hval⟩ := Number.float_text_toList hcan hnon
  have h := @lexAt_decimal neg ws fs rest hws hwne hfs hfne hrest pos
  rw [hval] at h
  rw [htext]
  simpa only [List.append_assoc, List.cons_append] using h

/-- The text of a whole canonical float reads back as the integer it equals. -/
theorem lexAt_wholeFloat {x : Binary64} (hcan : x.Canonical) (hint : x.isInteger = true)
    {rest : List Char} (hrest : Delimits rest) (pos : Nat) :
    lexAt ((Number.text (.float x)).toList ++ rest) pos =
      .ok (.number (.int (x.floor?.getD 0)), (Number.text (.float x)).toList.length - 1) := by
  simp only [Number.text, hint, if_true]
  exact lexAt_int (Number.withinDigitLimit_floor hcan) hrest pos

end Scan

end DiceNotation
