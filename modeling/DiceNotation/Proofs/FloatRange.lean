import DiceNotation.Proofs.Binary64.Monotone
import DiceNotation.Proofs.TotalArithmetic
import DiceNotation.Proofs.MergeExact

/-!
# Results beyond the float range become infinities

Float arithmetic rounds the exact result of each operation to the nearest float, and so does a
quotient of two integers.  The range of rounding (`Binary64.round_finite`,
`Binary64.round_eq_inf`) then says what `Operator.apply` gives by the exact result `q` alone: a
finite number when `|q|` is at most the largest finite float, and the infinity of the sign of `q`
when `|q|` reaches `2 ^ 1024` (`Binary64.Ranged`).  Sums, differences and products of integers
are exact integers instead.

This holds for two integers, and for numbers that float arithmetic takes as they are: finite
floats, and integers whose nearest float is themselves (`Operator.apply_floatRange`).  An integer
that its nearest float changes, mixed with a float, breaks it both ways, since the operation is
then done on that float: `2 ^ 1024` becomes `∞`, so adding the float `-(2 ^ 1024 - 2 ^ 971)`
gives `∞` for the exact `2 ^ 971`; and an integer rounded down can pull a product past `2 ^ 1024`
back to the largest finite float (`Operator.apply_floatRange_mixed`).
-/

namespace DiceNotation

namespace Binary64

/-- As far as range goes, `r` is `v` rounded: finite when `|v|` is at most the largest finite
number, and the infinity of the sign of `v` when `|v|` reaches `2 ^ 1024`. -/
def Ranged (v : ℚ) (r : Binary64) : Prop :=
  (|v| ≤ maxFinite → r.isFinite = true) ∧ (2 ^ 1024 ≤ |v| → r = inf (decide (v < 0)))

theorem not_two_pow_le_zero : ¬ (2 : ℚ) ^ 1024 ≤ |0| := by
  rw [abs_zero]
  exact not_le.2 (by positivity)

theorem ranged_zero (s : Bool) : Ranged 0 (zero s) :=
  ⟨fun _ => rfl, fun h => absurd h not_two_pow_le_zero⟩

/-- A magnitude rounded with the sign of `v` is `v` rounded. -/
theorem ranged_round {v : ℚ} {neg : Bool} {n d : Nat} {k : Int} (hd : 0 < d)
    (habs : |v| = (n : ℚ) / d * 2 ^ k) (hsign : v ≠ 0 → neg = decide (v < 0)) :
    Ranged v (round neg n d k) := by
  refine ⟨fun h => ?_, fun h => ?_⟩
  · obtain ⟨m, e, hr, -⟩ := round_finite neg hd (habs ▸ h)
    rw [hr]
    rfl
  · have hv : v ≠ 0 := by
      rintro rfl
      exact not_two_pow_le_zero h
    rw [← hsign hv]
    exact round_eq_inf neg hd (habs ▸ h)

@[simp] theorem toRat_neg (s : Bool) (m : Nat) (e : Int) :
    (finite (!s) m e).toRat = -(finite s m e).toRat := by
  cases s <;> simp

/-- A finite value in units of `2 ^ base`, for an exponent at or above `base`. -/
theorem toRat_scaled (s : Bool) (m : Nat) {e base : Int} (h : base ≤ e) :
    (finite s m e).toRat = (signedSignificand s (m * 2 ^ (e - base).toNat) : ℚ) * 2 ^ base := by
  have hpow : (2 : ℚ) ^ e = 2 ^ (e - base).toNat * 2 ^ base := by
    rw [← zpow_natCast, ← zpow_add₀ two_ne_zero]
    congr 1
    omega
  cases s <;> simp [signedSignificand, hpow] <;> ring

/-- The magnitude and sign of a nonzero integer times a power of two. -/
theorem abs_int_mul_two_zpow (c : Int) (k : Int) :
    |(c : ℚ) * 2 ^ k| = (c.natAbs : ℚ) / (1 : Nat) * 2 ^ k := by
  rw [abs_mul, abs_of_pos (by positivity : (0 : ℚ) < 2 ^ k), Nat.cast_one, div_one,
    Nat.cast_natAbs, Int.cast_abs]

theorem ranged_add (s₁ s₂ : Bool) (m₁ m₂ : Nat) (e₁ e₂ : Int) :
    Ranged ((finite s₁ m₁ e₁).toRat + (finite s₂ m₂ e₂).toRat) (finite s₁ m₁ e₁ + finite s₂ m₂ e₂) := by
  -- both values in units of the smaller exponent
  have hval : (finite s₁ m₁ e₁).toRat + (finite s₂ m₂ e₂).toRat =
      ((signedSignificand s₁ (m₁ * 2 ^ (e₁ - min e₁ e₂).toNat) +
        signedSignificand s₂ (m₂ * 2 ^ (e₂ - min e₁ e₂).toNat) : Int) : ℚ) * 2 ^ min e₁ e₂ := by
    rw [toRat_scaled s₁ m₁ (min_le_left e₁ e₂), toRat_scaled s₂ m₂ (min_le_right e₁ e₂)]
    push_cast
    ring
  show Ranged _ (add _ _)
  simp only [add]
  generalize signedSignificand s₁ (m₁ * 2 ^ (e₁ - min e₁ e₂).toNat) +
    signedSignificand s₂ (m₂ * 2 ^ (e₂ - min e₁ e₂).toNat) = c at hval ⊢
  split_ifs with hz hc
  · -- two zeros
    obtain ⟨rfl, rfl⟩ := hz
    simpa using ranged_zero (s₁ && s₂)
  · -- the exact sum is zero
    rw [hval, hc, Int.cast_zero, zero_mul]
    exact ranged_zero false
  · rw [hval]
    refine ranged_round Nat.one_pos (abs_int_mul_two_zpow c _) fun _ => ?_
    have : (0 : ℚ) < 2 ^ min e₁ e₂ := by positivity
    simp only [decide_eq_decide]
    constructor
    · intro h
      exact mul_neg_of_neg_of_pos (by exact_mod_cast h) this
    · intro h
      exact_mod_cast (neg_of_mul_neg_left h this.le)

theorem ranged_sub (s₁ s₂ : Bool) (m₁ m₂ : Nat) (e₁ e₂ : Int) :
    Ranged ((finite s₁ m₁ e₁).toRat - (finite s₂ m₂ e₂).toRat) (finite s₁ m₁ e₁ - finite s₂ m₂ e₂) := by
  rw [sub_eq_add_neg, ← toRat_neg]
  exact ranged_add s₁ (!s₂) m₁ m₂ e₁ e₂

theorem ranged_mul (s₁ s₂ : Bool) (m₁ m₂ : Nat) (e₁ e₂ : Int) :
    Ranged ((finite s₁ m₁ e₁).toRat * (finite s₂ m₂ e₂).toRat) (finite s₁ m₁ e₁ * finite s₂ m₂ e₂) := by
  show Ranged _ (round (s₁ != s₂) (m₁ * m₂) 1 (e₁ + e₂))
  refine ranged_round Nat.one_pos ?_ fun hv => ?_
  · cases s₁ <;> cases s₂ <;>
      simp [abs_mul, zpow_add₀ (two_ne_zero : (2 : ℚ) ≠ 0)] <;> ring
  · -- a product other than zero has two significands other than zero, and the sign of the
    -- product is the exclusive or of theirs
    have hm₁ : 0 < m₁ := Nat.pos_of_ne_zero fun h => hv (by simp [h])
    have hm₂ : 0 < m₂ := Nat.pos_of_ne_zero fun h => hv (by simp [h])
    cases s₁ <;> cases s₂ <;> simp <;> positivity

theorem ranged_div (s₁ s₂ : Bool) (m₁ : Nat) {m₂ : Nat} (e₁ e₂ : Int) (hm₂ : m₂ ≠ 0) :
    Ranged ((finite s₁ m₁ e₁).toRat / (finite s₂ m₂ e₂).toRat) (finite s₁ m₁ e₁ / finite s₂ m₂ e₂) := by
  show Ranged _ (div _ _)
  simp only [div, hm₂, if_false]
  have hm₂' : (0 : ℚ) < m₂ := by exact_mod_cast Nat.pos_of_ne_zero hm₂
  refine ranged_round (Nat.pos_of_ne_zero hm₂) ?_ fun hv => ?_
  · cases s₁ <;> cases s₂ <;>
      simp [abs_div, zpow_sub₀ (two_ne_zero : (2 : ℚ) ≠ 0)] <;> field_simp
  · have hm₁ : 0 < m₁ := Nat.pos_of_ne_zero fun h => hv (by simp [h])
    cases s₁ <;> cases s₂ <;> simp [neg_div, div_neg] <;> positivity

/-- The float nearest to a quotient of integers is the quotient rounded. -/
theorem ranged_ofRatio (a : Int) {b : Int} (hb : b ≠ 0) : Ranged ((a : ℚ) / b) (ofRatio a b) := by
  refine ranged_round (Int.natAbs_pos.2 hb) ?_ fun hv => ?_
  · rw [abs_div, zpow_zero, mul_one, Nat.cast_natAbs, Nat.cast_natAbs, Int.cast_abs, Int.cast_abs]
  · have ha : a ≠ 0 := fun h => hv (by simp [h])
    have hb' : (b : ℚ) ≠ 0 := by exact_mod_cast hb
    rcases lt_or_gt_of_ne ha with ha | ha <;> rcases lt_or_gt_of_ne hb with hb | hb
    · have : (0 : ℚ) < a / b := div_pos_of_neg_of_neg (by exact_mod_cast ha) (by exact_mod_cast hb)
      simp [ha, hb, not_lt.2 this.le]
    · have : (a : ℚ) / b < 0 := div_neg_of_neg_of_pos (by exact_mod_cast ha) (by exact_mod_cast hb)
      simp [ha, not_lt.2 hb.le, this]
    · have : (a : ℚ) / b < 0 := div_neg_of_pos_of_neg (by exact_mod_cast ha) (by exact_mod_cast hb)
      simp [not_lt.2 ha.le, hb, this]
    · have : (0 : ℚ) < a / b := div_pos (by exact_mod_cast ha) (by exact_mod_cast hb)
      simp [not_lt.2 ha.le, not_lt.2 hb.le, not_lt.2 this.le]

end Binary64

namespace Number

/-- The exact value of a number: an integer as itself, a truth value as `0` or `1`, a float by
its value (an infinity and NaN as zero). -/
def toRat : Number → ℚ
  | int n => n
  | float x => x.toRat
  | bool b => if b then 1 else 0

/-- Whether a number is not an infinity or NaN. -/
def isFinite : Number → Bool
  | float x => x.isFinite
  | _ => true

/-- Float arithmetic takes the number as it is: its nearest float is finite and has its value. -/
def ConvertsExactly (x : Number) : Prop :=
  x.toBinary64.isFinite = true ∧ x.toBinary64.toRat = x.toRat

@[simp] theorem toRat_arith (x : Number) : x.arith.toRat = x.toRat := by
  cases x with
  | bool b => cases b <;> simp [arith, toRat]
  | _ => rfl

/-- An integral number is, with a truth value counted as its integer, the integer of its value. -/
theorem arith_eq_int {x : Number} (h : x.isIntegral = true) :
    ∃ a : Int, x.arith = .int a ∧ x.toRat = a := by
  rcases arith_cases x with ⟨a, ha⟩ | ⟨p, hp⟩
  · exact ⟨a, ha, by rw [← toRat_arith, ha]; rfl⟩
  · have := isIntegral_arith x
    rw [hp, h] at this
    cases this

end Number

namespace Operator

open Binary64

/-- `+`, `-` and `*` of two integers give the integer of the exact result. -/
theorem apply_ints_exact {o : Operator} (ho : o ≠ div) (a b : Int) :
    ∃ k : Int, o.apply (.int a) (.int b) = .int k ∧ (k : ℚ) = o.exact a b := by
  cases o with
  | add => exact ⟨a + b, rfl, by push_cast; rfl⟩
  | sub => exact ⟨a - b, rfl, by push_cast; rfl⟩
  | mul => exact ⟨a * b, rfl, by push_cast; rfl⟩
  | div => exact absurd rfl ho

/-- A quotient of two integers, the divisor not zero, is the nearest float to it. -/
theorem apply_div_ints (a : Int) {b : Int} (hb : b ≠ 0) :
    div.apply (.int a) (.int b) = .float (ofRatio a b) := by
  simp [apply, divide, Number.arith, Number.isZero, hb]

/-- On two finite floats, an operation gives its exact result rounded. -/
theorem apply_floats (o : Operator) {p q : Binary64} (hp : p.isFinite = true)
    (hq : q.isFinite = true) (hz : o = div → q.toRat ≠ 0) :
    ∃ r, o.apply (.float p) (.float q) = .float r ∧ Ranged (o.exact p.toRat q.toRat) r := by
  obtain ⟨s₁, m₁, e₁, rfl⟩ := exists_finite hp
  obtain ⟨s₂, m₂, e₂, rfl⟩ := exists_finite hq
  cases o with
  | add => exact ⟨_, rfl, ranged_add s₁ s₂ m₁ m₂ e₁ e₂⟩
  | sub => exact ⟨_, rfl, ranged_sub s₁ s₂ m₁ m₂ e₁ e₂⟩
  | mul => exact ⟨_, rfl, ranged_mul s₁ s₂ m₁ m₂ e₁ e₂⟩
  | div =>
    -- a divisor of value other than zero is no zero
    have hm₂ : m₂ ≠ 0 := fun h => hz rfl (by simp [h])
    refine ⟨_, ?_, ranged_div s₁ s₂ m₁ e₁ e₂ hm₂⟩
    simp [apply, divide, Number.arith, Number.isZero, Binary64.isZero, Number.toBinary64, hm₂]

/-- **Float range of arithmetic.**  Take two integers, or two numbers that float arithmetic takes
as they are (finite floats, and integers whose nearest float is themselves), with a divisor of
value other than zero, and let `q` be the exact result of the operation.  When `|q|` is at most
the largest finite float the result is finite.  A sum, difference or product of two integers is
the integer `q`.  Any other result with `|q|` at least `2 ^ 1024` is the infinity of the sign of
`q`. -/
theorem apply_floatRange (o : Operator) {x y : Number}
    (hkind : x.isIntegral = true ∧ y.isIntegral = true ∨ x.ConvertsExactly ∧ y.ConvertsExactly)
    (hz : o = div → y.toRat ≠ 0) :
    (|o.exact x.toRat y.toRat| ≤ maxFinite → (o.apply x y).isFinite = true) ∧
      (o ≠ div → x.isIntegral = true → y.isIntegral = true →
        ∃ k : Int, o.apply x y = .int k ∧ (k : ℚ) = o.exact x.toRat y.toRat) ∧
      (o = div ∨ x.isIntegral = false ∨ y.isIntegral = false →
        2 ^ 1024 ≤ |o.exact x.toRat y.toRat| →
          o.apply x y = .float (.inf (decide (o.exact x.toRat y.toRat < 0)))) := by
  by_cases hint : x.isIntegral = true ∧ y.isIntegral = true
  · -- two integers, a truth value counting as its integer
    obtain ⟨a, ha, hxa⟩ := Number.arith_eq_int hint.1
    obtain ⟨b, hb, hyb⟩ := Number.arith_eq_int hint.2
    rw [← apply_arith, ha, hb, hxa, hyb]
    by_cases hdiv : o = div
    · -- a quotient is rounded once
      subst hdiv
      have hb0 : b ≠ 0 := fun h => hz rfl (by rw [hyb, h, Int.cast_zero])
      have hr := ranged_ofRatio a hb0
      rw [apply_div_ints a hb0]
      exact ⟨hr.1, fun h => absurd rfl h, fun _ h => by rw [hr.2 h]; rfl⟩
    · obtain ⟨k, hk, hkv⟩ := apply_ints_exact hdiv a b
      rw [hk]
      exact ⟨fun _ => rfl, fun _ _ _ => ⟨k, rfl, hkv⟩,
        fun h => absurd h (by simp [hdiv, hint.1, hint.2])⟩
  · -- a float on one side: the operation is done on the two floats, which have the values
    obtain ⟨⟨hxf, hxv⟩, ⟨hyf, hyv⟩⟩ := hkind.resolve_left hint
    have hfl : x.isIntegral = false ∨ y.isIntegral = false := by
      cases hx : x.isIntegral <;> cases hy : y.isIntegral <;> simp_all
    obtain ⟨r, hr, hrange⟩ := apply_floats o hxf hyf (by rw [hyv]; exact hz)
    rw [← apply_toBinary64 o hfl, hr, ← hxv, ← hyv]
    refine ⟨hrange.1, fun _ hx hy => by simp [hx, hy] at hfl, fun _ h => by rw [hrange.2 h]⟩

/-- One third: two integers, the divisor not zero. -/
theorem apply_floatRange_third :
    ((Number.int 1).isIntegral = true ∧ (Number.int 3).isIntegral = true ∨
        (Number.int 1).ConvertsExactly ∧ (Number.int 3).ConvertsExactly) ∧
      (div = div → (Number.int 3).toRat ≠ 0) ∧
      (|div.exact (Number.int 1).toRat (Number.int 3).toRat| ≤ maxFinite →
          (div.apply (.int 1) (.int 3)).isFinite = true) ∧
      (div ≠ div → (Number.int 1).isIntegral = true → (Number.int 3).isIntegral = true →
        ∃ k : Int, div.apply (.int 1) (.int 3) = .int k ∧
          (k : ℚ) = div.exact (Number.int 1).toRat (Number.int 3).toRat) ∧
      (div = div ∨ (Number.int 1).isIntegral = false ∨ (Number.int 3).isIntegral = false →
        2 ^ 1024 ≤ |div.exact (Number.int 1).toRat (Number.int 3).toRat| →
          div.apply (.int 1) (.int 3) =
            .float (.inf (decide (div.exact (Number.int 1).toRat (Number.int 3).toRat < 0)))) := by
  have hkind : (Number.int 1).isIntegral = true ∧ (Number.int 3).isIntegral = true ∨
      (Number.int 1).ConvertsExactly ∧ (Number.int 3).ConvertsExactly := .inl ⟨rfl, rfl⟩
  have hz : div = div → (Number.int 3).toRat ≠ 0 := fun _ => by simp [Number.toRat]
  exact ⟨hkind, hz, apply_floatRange div hkind hz⟩

/-- An integer mixed with a float breaks both directions.  `2 ^ 1024` plus the float
`-(2 ^ 1024 - 2 ^ 971)` is exactly `2 ^ 971`, well within the range, but the integer becomes
`∞` and so does the sum.  `11014520932934025` times the float `7365698327561809 * 2 ^ 918` is
past `2 ^ 1024`, but the integer rounds down to an even float and the product to the largest
finite float. -/
theorem apply_floatRange_mixed :
    |add.exact (Number.int (2 ^ 1024)).toRat
        (Number.float (.finite true (2 * Binary64.hidden - 1) maxExp)).toRat| ≤ maxFinite ∧
      add.apply (.int (2 ^ 1024)) (.float (.finite true (2 * Binary64.hidden - 1) maxExp)) =
        .float (.inf false) ∧
      2 ^ 1024 ≤ |mul.exact (Number.int 11014520932934025).toRat
        (Number.float (.finite false 7365698327561809 918)).toRat| ∧
      mul.apply (.int 11014520932934025) (.float (.finite false 7365698327561809 918)) =
        .float (.finite false (2 * Binary64.hidden - 1) maxExp) := by
  exact ⟨by decide +kernel, by decide +kernel, by decide +kernel, by decide +kernel⟩

end Operator

end DiceNotation
