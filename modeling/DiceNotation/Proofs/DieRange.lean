import DiceNotation.Proofs.Binary64.Monotone
import DiceNotation.Dice
import Mathlib.Data.Rat.Floor
import Mathlib.Algebra.Order.BigOperators.Group.List

/-!
# A die lands in range

A die with `sides` sides turns a float draw `u` from `[0, 1)` into the face
`1 + ⌊u * float(sides)⌋`, where `float(sides)` is the float nearest to `sides` and the product
is rounded once more.  Past `2 ^ 53` the nearest float can lie above `sides`, so it is not plain
that the face stays at most `sides`.  It does (`face_mem_range`): a draw is at most `1 - 2⁻⁵³`,
so the exact product is at most one unit below `float(sides)` and rounds below every value that
rounds to `float(sides)`, `sides` itself among them (`Binary64.round_below`).

A roll throws `max dice 0` such dice.  Every face it records is then in `[1, sides]`, its value
is in `[1, sides]` with a keep rule, and in `[n, n * sides]` for `n = max dice 0` without one
(`Roll.run_inRange`).  A negative count throws no dice and sums to zero, which is not at least
the count (`Roll.run_negativeCount`).
-/

namespace DiceNotation

namespace Binary64

/-- A draw as a source of randomness makes it: a canonical finite float in `[0, 1)`. -/
def InUnit (x : Binary64) : Prop :=
  x.Canonical ∧ x.isFinite = true ∧ 0 ≤ x.toRat ∧ x.toRat < 1

/-- `floor?` of a finite number is the floor of its value. -/
theorem floor?_finite (s : Bool) (m : Nat) (e : Int) :
    (finite s m e).floor? = some ⌊(finite s m e).toRat⌋ := by
  rw [floor?, toRat_finite]
  by_cases he : 0 ≤ e
  · -- a whole number: its floor is itself
    rw [if_pos he]
    obtain ⟨j, rfl⟩ : ∃ j : Nat, e = j := ⟨e.toNat, by omega⟩
    have hz : (if s then -(m : ℚ) else m) * 2 ^ (j : Int) =
        ((signedSignificand s (m * 2 ^ j) : Int) : ℚ) := by
      cases s <;> simp [signedSignificand]
    rw [Int.toNat_natCast, hz, Int.floor_intCast]
  · rw [if_neg he]
    obtain ⟨j, rfl⟩ : ∃ j : Nat, e = -(j : Int) := ⟨(-e).toNat, by omega⟩
    -- the value is the whole quotient by `2 ^ j` and the fraction the remainder leaves
    have hsplit := div_eq_quot_add_rem m (2 ^ j) (Nat.two_pow_pos j)
    have hfrac0 : (0 : ℚ) ≤ ((m % 2 ^ j : Nat) : ℚ) / ((2 ^ j : Nat) : ℚ) := by positivity
    have hfrac1 : ((m % 2 ^ j : Nat) : ℚ) / ((2 ^ j : Nat) : ℚ) < 1 := by
      rw [div_lt_one (by positivity)]
      exact_mod_cast Nat.mod_lt m (Nat.two_pow_pos j)
    have hv : (m : ℚ) * 2 ^ (-(j : Int)) = (m : ℚ) / ((2 ^ j : Nat) : ℚ) := by
      rw [zpow_neg, zpow_natCast]
      push_cast
      ring
    simp only [neg_neg, Int.toNat_natCast, Option.some.injEq]
    symm
    rw [Int.floor_eq_iff]
    cases s with
    | false =>
      simp only [Bool.false_eq_true, if_false, Int.cast_natCast]
      rw [hv, hsplit]
      constructor <;> linarith
    | true =>
      simp only [if_true, neg_mul]
      rw [hv, hsplit]
      by_cases hr : m % 2 ^ j = 0
      · -- no fraction: the floor is the negated quotient
        simp only [hr, if_true, Nat.cast_zero, zero_div, add_zero, sub_zero, Int.cast_neg,
          Int.cast_natCast]
        constructor <;> linarith
      · -- a fraction above zero takes the floor one further down
        have hpos : (0 : ℚ) < ((m % 2 ^ j : Nat) : ℚ) / ((2 ^ j : Nat) : ℚ) := by
          have : (0 : ℚ) < ((m % 2 ^ j : Nat) : ℚ) := by exact_mod_cast Nat.pos_of_ne_zero hr
          positivity
        simp only [hr, if_false, Int.cast_sub, Int.cast_neg, Int.cast_natCast, Int.cast_one]
        constructor <;> linarith

/-- A canonical number below one is at most `1 - 2⁻⁵³`, the largest float below one. -/
theorem le_of_lt_one {neg : Bool} {m : Nat} {e : Int} (hcan : Canonical (finite neg m e))
    (h : (m : ℚ) * 2 ^ e < 1) : (m : ℚ) * 2 ^ e ≤ (2 ^ 53 - 1) * 2 ^ (-53 : Int) := by
  have hm : m < 2 ^ 53 := significand_lt_two_pow hcan
  have h53 : (2 : ℚ) ^ (53 : Nat) * 2 ^ (-53 : Int) = 1 := by
    rw [← zpow_natCast, ← zpow_add₀ two_ne_zero]
    norm_num
  by_cases he : -53 ≤ e
  · -- a whole number of units `2⁻⁵³`, fewer than `2 ^ 53` of them
    obtain ⟨j, hj⟩ : ∃ j : Nat, e + 53 = j := ⟨(e + 53).toNat, by omega⟩
    have hval : (m : ℚ) * 2 ^ e = ((m * 2 ^ j : Nat) : ℚ) * 2 ^ (-53 : Int) := by
      rw [show e = (j : Int) + (-53 : Int) by omega, zpow_add₀ two_ne_zero, zpow_natCast]
      push_cast
      ring
    rw [hval] at h ⊢
    have hN : m * 2 ^ j < 2 ^ 53 := by
      have : ((m * 2 ^ j : Nat) : ℚ) < 2 ^ 53 := by
        by_contra hge
        have : (1 : ℚ) ≤ ((m * 2 ^ j : Nat) : ℚ) * 2 ^ (-53 : Int) := by
          rw [← h53]
          gcongr
          exact not_lt.1 hge
        linarith
      exact_mod_cast this
    gcongr
    have : ((m * 2 ^ j : Nat) : ℚ) + 1 ≤ 2 ^ 53 := by exact_mod_cast hN
    linarith
  · -- fewer than `2 ^ 53` units of at most `2⁻⁵⁴`: below one half
    have hm' : (m : ℚ) ≤ 2 ^ 53 := by exact_mod_cast hm.le
    calc (m : ℚ) * 2 ^ e ≤ 2 ^ 53 * 2 ^ (-54 : Int) := by
          gcongr
          · exact one_le_two
          · omega
      _ ≤ (2 ^ 53 - 1) * 2 ^ (-53 : Int) := by norm_num

/-- The float nearest to a count of at least one, when finite, is a normal number at least one:
its significand is at least `2 ^ 52` and its exponent above the least. -/
theorem round_count {c : Nat} (hc : 1 ≤ c) {m : Nat} {e : Int}
    (h : round false c 1 0 = finite false m e) :
    Canonical (finite false m e) ∧ hidden ≤ m ∧ minExp < e := by
  have hcan : Canonical (finite false m e) := h ▸ canonical_round false c Nat.one_pos 0
  -- one is the canonical `2 ^ 52 * 2⁻⁵²`, and the count rounds to at least it
  have hone : round false hidden 1 (-52) = finite false hidden (-52) :=
    round_self ⟨by unfold hidden; omega, by unfold minExp; omega, by unfold maxExp; omega,
      .inl le_rfl⟩ (by unfold hidden; omega)
  have hunit : (hidden : ℚ) * 2 ^ (-52 : Int) = 1 := by
    rw [show (hidden : ℚ) = 2 ^ (52 : Nat) by norm_num [hidden], ← zpow_natCast,
      ← zpow_add₀ two_ne_zero]
    norm_num
  have hle : (hidden : ℚ) / (1 : Nat) * 2 ^ (-52 : Int) ≤ (c : ℚ) / (1 : Nat) * 2 ^ (0 : Int) := by
    rw [Nat.cast_one, div_one, div_one, zpow_zero, mul_one, hunit]
    exact_mod_cast hc
  have h1 := round_le_round Nat.one_pos Nat.one_pos hle hone h
  rw [hunit] at h1
  -- at least one with fewer than `2 ^ 53` units: the unit is above `2⁻⁵³`
  have he : -53 < e := by
    by_contra hle'
    have hm : (m : ℚ) < 2 ^ (53 : Nat) := by exact_mod_cast significand_lt_two_pow hcan
    have : (m : ℚ) * 2 ^ e < 1 := by
      calc (m : ℚ) * 2 ^ e < 2 ^ (53 : Nat) * 2 ^ (-53 : Int) :=
            mul_lt_mul hm (zpow_le_zpow_right₀ one_le_two (by omega)) (by positivity)
              (by positivity)
        _ = 1 := by
            rw [← zpow_natCast, ← zpow_add₀ two_ne_zero]
            norm_num
    linarith
  refine ⟨hcan, hcan.2.2.2.resolve_right ?_, by unfold minExp; omega⟩
  unfold minExp
  omega

end Binary64

open Binary64

/-- A draw in `[0, 1)` times the float `S` nearest to a count of sides, rounded once, has its
floor in `[0, sides)`. -/
theorem floor_draw_mul {sides : Int} (hs : 1 ≤ sides) {mS : Nat} {eS : Int}
    (hS : round false sides.natAbs 1 0 = finite false mS eS) {s : Bool} {mu : Nat} {eu : Int}
    (hx : (finite s mu eu).InUnit) :
    ∃ k, (round s (mu * mS) 1 (eu + eS)).floor? = some k ∧ 0 ≤ k ∧ k < sides := by
  obtain ⟨hcan, -, hx0, hx1⟩ := hx
  rcases Nat.eq_zero_or_pos mu with rfl | hmu
  · -- a zero draw gives the floor zero
    refine ⟨0, ?_, le_rfl, by omega⟩
    simp [Binary64.round, Binary64.zero, floor?, signedSignificand]
  · -- a positive draw is positive, and the product rounds below `sides`
    have hs : s = false := by
      cases s
      · rfl
      · have : (0 : ℚ) < (mu : ℚ) * 2 ^ eu := by positivity
        simp only [toRat_finite, if_true, neg_mul] at hx0
        linarith
    subst hs
    simp only [toRat_finite, Bool.false_eq_true, if_false] at hx1
    obtain ⟨hcanS, hmS, heS⟩ := round_count (by omega : 1 ≤ sides.natAbs) hS
    have hu := le_of_lt_one hcan hx1
    have hw : ((mu * mS : Nat) : ℚ) / (1 : Nat) * 2 ^ (eu + eS) ≤
        (mS : ℚ) * (2 ^ 53 - 1) * 2 ^ (eS - 53) := by
      calc ((mu * mS : Nat) : ℚ) / (1 : Nat) * 2 ^ (eu + eS)
          = ((mu : ℚ) * 2 ^ eu) * ((mS : ℚ) * 2 ^ eS) := by
            rw [zpow_add₀ two_ne_zero]
            push_cast
            ring
        _ ≤ ((2 ^ 53 - 1) * 2 ^ (-53 : Int)) * ((mS : ℚ) * 2 ^ eS) := by gcongr
        _ = (mS : ℚ) * (2 ^ 53 - 1) * 2 ^ (eS - 53) := by
            rw [sub_eq_add_neg eS, zpow_add₀ two_ne_zero]
            ring
    obtain ⟨m₁, e₁, h₁, hbelow⟩ := round_below hcanS hmS heS Nat.one_pos hw
    have hlt : (m₁ : ℚ) * 2 ^ e₁ < sides := by
      have := hbelow Nat.one_pos hS
      rwa [Nat.cast_one, div_one, zpow_zero, mul_one, Nat.cast_natAbs, Int.cast_abs,
        abs_of_pos (by exact_mod_cast hs)] at this
    refine ⟨⌊(m₁ : ℚ) * 2 ^ e₁⌋, ?_, Int.floor_nonneg.2 (by positivity),
      Int.floor_lt.2 (by exact_mod_cast hlt)⟩
    rw [h₁, floor?_finite]
    simp

/-- **A die lands in range.**  For a count of sides at least one whose nearest float is finite,
every draw in `[0, 1)` gives a face, and the face is between one and the count of sides. -/
theorem face_mem_range {sides : Int} (hs : 1 ≤ sides) (hfin : (ofInt sides).isFinite = true)
    {x : Binary64} (hx : x.InUnit) : ∃ k, face sides (.float x) = .ok k ∧ 1 ≤ k ∧ k ≤ sides := by
  have hof : ofInt sides = round false sides.natAbs 1 0 := by
    simp [ofInt, show ¬ sides < 0 by omega]
  -- the float nearest to `sides` is finite, of the sign of `sides`
  obtain ⟨mS, eS, hS⟩ : ∃ mS eS, round false sides.natAbs 1 0 = finite false mS eS := by
    rcases round_cases false (by omega : 0 < sides.natAbs) Nat.one_pos (k := 0) with
      ⟨hinf, -⟩ | ⟨m, e, h, -, -⟩
    · rw [hof, hinf] at hfin
      cases hfin
    · exact ⟨m, e, h⟩
  have hS? : ofInt? sides = some (finite false mS eS) := by rw [ofInt?, hof, hS]
  obtain ⟨s, mu, eu, rfl⟩ := exists_finite hx.2.1
  -- the product is the exact product rounded once
  have hp : finite s mu eu * finite false mS eS = round s (mu * mS) 1 (eu + eS) := by
    show mul _ _ = _
    simp [mul]
  obtain ⟨k, hk, hk0, hks⟩ := floor_draw_mul hs hS hx
  refine ⟨1 + k, ?_, by omega, by omega⟩
  simp only [face, hS?, hp, hk]

namespace Keep

/-- Folding a list with an operation that picks one of its two arguments gives a member. -/
theorem foldl_mem {op : Int → Int → Int} (hop : ∀ a b, op a b = a ∨ op a b = b) :
    ∀ (f : Int) (fs : List Int), fs.foldl op f ∈ f :: fs
  | f, [] => List.mem_singleton_self f
  | f, g :: gs => by
    have h := foldl_mem hop (op f g) gs
    rw [List.foldl_cons]
    rcases hop f g with hf | hg
    · rw [hf] at h ⊢
      simp only [List.mem_cons] at h ⊢
      tauto
    · rw [hg] at h ⊢
      exact List.mem_cons_of_mem _ h

/-- A keep rule keeps one of the faces. -/
theorem pick_mem {k : Keep} {faces : List Int} {v : Int} (h : k.pick faces = .ok v) :
    v ∈ faces := by
  cases faces with
  | nil => cases h
  | cons f fs =>
    cases k with
    | highest =>
      cases h
      exact foldl_mem max_choice f fs
    | lowest =>
      cases h
      exact foldl_mem min_choice f fs

end Keep

namespace Roll

variable {σ : Type} (src : DrawSource σ)

/-- Throwing dice adds one face per die, each made by `face` from a draw of the source, so each
has every property such faces have. -/
theorem throwDice_faces {sides : Int} (P : Int → Prop)
    (hP : ∀ s u s' f, src.draw s = .ok (u, s') → face sides u = .ok f → P f) :
    ∀ (n : Nat) (acc : List Int) (s : σ) {rev : List Int} {s' : σ},
      throwDice src sides acc n s = .ok (rev, s') →
        rev.length = acc.length + n ∧ ∀ f ∈ rev, f ∈ acc ∨ P f
  | 0, acc, s, rev, s', h => by
    cases h
    exact ⟨rfl, fun f hf => .inl hf⟩
  | n + 1, acc, s, rev, s', h => by
    rw [throwDice] at h
    split at h
    · cases h
    · rename_i u s₁ hdraw
      split at h
      · cases h
      · rename_i f hface
        obtain ⟨hlen, hmem⟩ := throwDice_faces P hP n (f :: acc) s₁ h
        refine ⟨by rw [hlen, List.length_cons]; omega, fun g hg => ?_⟩
        rcases hmem g hg with hg' | hg'
        · rcases List.mem_cons.1 hg' with rfl | hacc
          · exact .inr (hP s u s₁ g hdraw hface)
          · exact .inl hacc
        · exact .inr hg'

/-- What a roll records when every face its dice can show is in `[1, sides]`: its sides, one
face per die thrown, all in range, and a value in range for its keep rule. -/
theorem run_bounds (r : Roll)
    (hface : ∀ s u s' f, src.draw s = .ok (u, s') → face r.sides u = .ok f → 1 ≤ f ∧ f ≤ r.sides)
    {s : σ} {rec : RollRecord} {s' : σ} (h : r.run src s = .ok (rec, s')) :
    rec.die = r.sides ∧ rec.faces.length = r.dice.toNat ∧
      (∀ f ∈ rec.faces, 1 ≤ f ∧ f ≤ r.sides) ∧
      (r.keep.isSome → 1 ≤ rec.value ∧ rec.value ≤ r.sides) ∧
      (r.keep = none → max r.dice 0 ≤ rec.value ∧ rec.value ≤ max r.dice 0 * r.sides) := by
  unfold run at h
  split at h
  · cases h
  rename_i rev s₁ hthrow
  dsimp only at h
  split at h
  · cases h
  rename_i v hv
  cases h
  obtain ⟨hlen, hmem⟩ := throwDice_faces src (fun f => 1 ≤ f ∧ f ≤ r.sides) hface _ [] s hthrow
  have hfaces : ∀ f ∈ rev.reverse, 1 ≤ f ∧ f ≤ r.sides := fun f hf =>
    (hmem f (List.mem_reverse.1 hf)).resolve_left List.not_mem_nil
  have hcount : ((rev.reverse.length : Nat) : Int) = max r.dice 0 := by
    rw [List.length_reverse, hlen, List.length_nil, Nat.zero_add]
    omega
  refine ⟨rfl, by simpa using hlen, hfaces, fun hk => ?_, fun hk => ?_⟩
  · -- a keep rule keeps one of the faces
    obtain ⟨k, hk⟩ := Option.isSome_iff_exists.1 hk
    simp only [valueOf, hk] at hv
    exact hfaces v (Keep.pick_mem hv)
  · -- without one, the sum of the faces
    simp only [valueOf, hk] at hv
    cases hv
    refine ⟨?_, ?_⟩
    · have := List.card_nsmul_le_sum rev.reverse 1 (fun f hf => (hfaces f hf).1)
      rw [nsmul_eq_mul, mul_one, hcount] at this
      exact this
    · have := List.sum_le_card_nsmul rev.reverse r.sides (fun f hf => (hfaces f hf).2)
      rw [nsmul_eq_mul, hcount] at this
      exact this

/-- **Rolls land in range.**  For a count of sides at least one whose nearest float is finite,
every draw in `[0, 1)` gives a face between one and the count of sides.  So a roll of those dice
whose draws are all in `[0, 1)` records only such faces, and its value is between one and the
count of sides with a keep rule, and between `n` and `n * sides` without one, where
`n = max dice 0` is the number of dice it throws. -/
theorem run_inRange {sides : Int} (hs : 1 ≤ sides) (hfin : (ofInt sides).isFinite = true) :
    (∀ x : Binary64, x.InUnit → ∃ k, face sides (.float x) = .ok k ∧ 1 ≤ k ∧ k ≤ sides) ∧
      ∀ {σ : Type} (src : DrawSource σ),
        (∀ s u s', src.draw s = .ok (u, s') → ∃ x, u = .float x ∧ x.InUnit) →
        ∀ (dice : Int) (keep : Option Keep) (s : σ) (rec : RollRecord) (s' : σ),
          Roll.run src ⟨dice, sides, keep⟩ s = .ok (rec, s') →
            (∀ f ∈ rec.faces, 1 ≤ f ∧ f ≤ sides) ∧
            (keep.isSome → 1 ≤ rec.value ∧ rec.value ≤ sides) ∧
            (keep = none → max dice 0 ≤ rec.value ∧ rec.value ≤ max dice 0 * sides) := by
  have hface := fun x hx => face_mem_range hs hfin (x := x) hx
  refine ⟨hface, fun src hdraws dice keep s rec s' h => ?_⟩
  have hfaces : ∀ s u s' f, src.draw s = .ok (u, s') → face sides u = .ok f →
      1 ≤ f ∧ f ≤ sides := by
    intro s u s' f hd hf
    obtain ⟨x, rfl, hx⟩ := hdraws s u s' hd
    obtain ⟨k, hk, hk1, hks⟩ := hface x hx
    rw [hk] at hf
    cases hf
    exact ⟨hk1, hks⟩
  obtain ⟨-, -, hrange, hkeep, hsum⟩ := run_bounds src ⟨dice, sides, keep⟩ hfaces h
  exact ⟨hrange, hkeep, hsum⟩

/-- Six sides: a float, so every draw in `[0, 1)` lands a face from one to six. -/
theorem run_inRange_sixSides :
    1 ≤ (6 : Int) ∧ (ofInt 6).isFinite = true ∧
      (∀ x : Binary64, x.InUnit → ∃ k, face 6 (.float x) = .ok k ∧ 1 ≤ k ∧ k ≤ 6) ∧
      ∀ {σ : Type} (src : DrawSource σ),
        (∀ s u s', src.draw s = .ok (u, s') → ∃ x, u = .float x ∧ x.InUnit) →
        ∀ (dice : Int) (keep : Option Keep) (s : σ) (rec : RollRecord) (s' : σ),
          Roll.run src ⟨dice, 6, keep⟩ s = .ok (rec, s') →
            (∀ f ∈ rec.faces, 1 ≤ f ∧ f ≤ 6) ∧
            (keep.isSome → 1 ≤ rec.value ∧ rec.value ≤ 6) ∧
            (keep = none → max dice 0 ≤ rec.value ∧ rec.value ≤ max dice 0 * 6) := by
  have hfin : (ofInt 6).isFinite = true := by decide +kernel
  exact ⟨by decide, hfin, run_inRange (by decide) hfin⟩

/-- A roll of minus one die throws none: it records no face and the value zero, which is not
between the count and the count times the sides. -/
theorem run_negativeCount :
    Roll.run (DrawSource.ofList []) ⟨-1, 1, none⟩ 0 = .ok (⟨1, [], 0⟩, 0) ∧
      ¬ ((-1 : Int) ≤ 0 ∧ (0 : Int) ≤ -1 * 1) :=
  ⟨rfl, by decide⟩

end Roll

end DiceNotation
