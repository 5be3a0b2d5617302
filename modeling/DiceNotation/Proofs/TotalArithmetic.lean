import DiceNotation.Proofs.Binary64.Canonical
import DiceNotation.Proofs.SimplifyOutcome

/-!
# Arithmetic never fails

`Operator.apply` gives the result of an operation on two numbers in one piece.  The program gets
it in steps, each of which may fail as the language's own arithmetic does:

* `Operator.bare`: the plain operation.  Integers add, subtract and multiply exactly; anything
  with a float converts both operands to floats first, and an integer beyond the float range
  overflows (`Number.toFloat?`); a quotient of integers overflows when it is beyond the float
  range; dividing by a zero is a fault.
* `Operator.attempt`: a division by a zero is answered before dividing: NaN for a dividend that
  is a zero or NaN, and otherwise an infinity signed by both operands.
* `Operator.caught`: an overflow of the attempt is caught.  A quotient of integers becomes the
  infinity of its sign; anything else is attempted again on both operands as floats, an integer
  beyond the range becoming the infinity of its sign (`Number.asFloat`).

`Operator.caught_eq_ok`: the steps never fail, and give exactly `Operator.apply`.  The zero
divisor never reaches a division, an overflow is caught, and the second attempt, on floats, has
nothing left to overflow.

Since arithmetic on numbers never fails, evaluating a tree without rolls against bindings of
numbers never fails either (`Expr.evalAt_withoutDice_ok`).  In frames it needs no room for dice,
only the three levels of applying an operator below its deepest node
(`Expr.evalAt_follows_withoutDice`); a tree too high for the call depth limit is still a recursion
fault (`Expr.evalAt_sumChain_withoutDice`).
-/

namespace DiceNotation

/-- Why one operation of the language's own arithmetic fails. -/
inductive ArithFault where
  /-- An integer, or a quotient of integers, too large for a float. -/
  | overflow
  /-- A division by a zero. -/
  | zeroDivision
  deriving DecidableEq, Repr

namespace Binary64

/-! ## Rounding whole numbers -/

/-- Rounding keeps the sign it is given, whatever the magnitude. -/
@[simp] theorem signBit_round (neg : Bool) (n d : Nat) (k : Int) :
    (round neg n d k).signBit = neg := by
  unfold round
  split
  · rfl
  · dsimp only
    split_ifs <;> rfl

@[simp] theorem isNaN_round (neg : Bool) (n d : Nat) (k : Int) :
    (round neg n d k).isNaN = false := by
  unfold round
  split
  · rfl
  · dsimp only
    split_ifs <;> rfl

/-- Only a magnitude other than zero rounds to an infinity. -/
theorem ne_zero_of_round_eq_inf {neg s : Bool} {n d : Nat} {k : Int} (h : round neg n d k = inf s) :
    n ≠ 0 := by
  rintro rfl
  simp [round, zero] at h

/-- A whole number other than zero does not round to a zero: it is at least one, far above the
least exponent, so the quotient that is rounded is at least `2^52`. -/
theorem isZero_round_of_ne {neg : Bool} {n : Nat} (hn : n ≠ 0) :
    (round neg n 1 0).isZero = false := by
  have hlog : (1 : Nat).log2 = 0 := by rw [Nat.log2_def]; rfl
  have hfl : floorLog2 n 1 = n.log2 := by
    simp [floorLog2, hlog, Nat.log2_self_le hn]
  unfold round
  rw [if_neg hn]
  dsimp only
  -- the exponent is the one of the binade less 52, well above the least exponent
  have hE : max (floorLog2 n 1 + 0 - 52) minExp = floorLog2 n 1 + 0 - 52 :=
    max_eq_left (by rw [hfl]; unfold minExp; omega)
  obtain ⟨-, hge⟩ := scaled_bounds (Nat.pos_of_ne_zero hn) Nat.one_pos 0 _ (Int.le_refl _)
  rw [hE]
  obtain ⟨-, hr, hsplit⟩ := @scaledDivMod_spec n 1 Nat.one_pos (0 - (floorLog2 n 1 + 0 - 52))
  generalize scaledDivMod n 1 (0 - (floorLog2 n 1 + 0 - 52)) = p at hr hsplit
  obtain ⟨q, r, den⟩ := p
  dsimp only at hr hsplit ⊢
  have hq : hidden ≤ q := (quotient_bounds hr hsplit.symm).2 (hge rfl)
  have hq' := (roundHalfEven_bounds q r den).1
  have hh : 0 < hidden := by unfold hidden; omega
  split_ifs <;> simp [isZero] <;> omega

@[simp] theorem signBit_ofInt (i : Int) : (ofInt i).signBit = decide (i < 0) :=
  signBit_round _ _ _ _

@[simp] theorem isNaN_ofInt (i : Int) : (ofInt i).isNaN = false := isNaN_round _ _ _ _

@[simp] theorem isZero_ofInt (i : Int) : (ofInt i).isZero = decide (i = 0) := by
  by_cases hi : i = 0
  · subst hi
    rfl
  · rw [decide_eq_false hi]
    exact isZero_round_of_ne (Int.natAbs_ne_zero.2 hi)

end Binary64

namespace Number

/-! ## Converting numbers to floats -/

/-- Converting a number to a float, as float arithmetic does with its operands: an integer beyond
the float range overflows. -/
def toFloat? : Number → Except ArithFault Binary64
  | float x => .ok x
  | int n =>
    match Binary64.ofInt? n with
    | some x => .ok x
    | none => .error .overflow
  | bool b => .ok (Binary64.ofInt (if b then 1 else 0))

/-- Converting a number to a float, an integer beyond the float range becoming the infinity of its
sign. -/
def asFloat (n : Number) : Binary64 :=
  match n.toFloat? with
  | .ok x => x
  | .error _ => if n.gt (.int 0) then .inf false else .inf true

/-- Converting gives the float nearest to the number, or overflows on an integer other than zero
whose nearest float is the infinity of its sign. -/
theorem toFloat?_cases (n : Number) :
    n.toFloat? = .ok n.toBinary64 ∨
      ∃ k, n = int k ∧ k ≠ 0 ∧ n.toFloat? = .error .overflow ∧
        n.toBinary64 = .inf (decide (k < 0)) := by
  cases n with
  | float x => exact .inl rfl
  | bool b => exact .inl rfl
  | int k =>
    simp only [toFloat?, Binary64.ofInt?, toBinary64]
    cases h : Binary64.ofInt k with
    | inf s =>
      -- an infinity keeps the sign of the integer, which is no zero
      have hs : s = decide (k < 0) := by
        simpa [h, Binary64.signBit] using Binary64.signBit_ofInt k
      have hk : k ≠ 0 := Int.natAbs_ne_zero.1 (Binary64.ne_zero_of_round_eq_inf h)
      exact .inr ⟨k, rfl, hk, rfl, by rw [hs]⟩
    | finite neg m e => exact .inl rfl
    | nan => exact absurd (Binary64.isNaN_ofInt k) (by simp [h, Binary64.isNaN])

/-- Converting, with infinities for the integers beyond the range, is taking the nearest float. -/
@[simp] theorem asFloat_eq (n : Number) : n.asFloat = n.toBinary64 := by
  rcases toFloat?_cases n with h | ⟨k, rfl, hk, h, hinf⟩
  · simp [asFloat, h]
  · rw [hinf]
    by_cases hpos : 0 < k
    · simp [asFloat, h, gt_int, hpos, show ¬ k < 0 by omega]
    · simp [asFloat, h, gt_int, hpos, show k < 0 by omega]

@[simp] theorem toBinary64_float (x : Binary64) : (float x).toBinary64 = x := rfl

@[simp] theorem isZero_toBinary64 (n : Number) : n.toBinary64.isZero = n.isZero := by
  cases n with
  | int k => simp [toBinary64, isZero]
  | float x => rfl
  | bool b => cases b <;> rfl

@[simp] theorem signBit_toBinary64 (n : Number) : n.toBinary64.signBit = n.signBit := by
  cases n with
  | int k => simp [toBinary64, signBit]
  | float x => rfl
  | bool b => cases b <;> rfl

/-! ## A truth value counts as its integer -/

@[simp] theorem toBinary64_arith (n : Number) : n.arith.toBinary64 = n.toBinary64 := by
  cases n <;> rfl

@[simp] theorem isZero_arith (n : Number) : n.arith.isZero = n.isZero := by
  cases n with
  | bool b => cases b <;> rfl
  | _ => rfl

@[simp] theorem isNaN_arith (n : Number) : n.arith.isNaN = n.isNaN := by
  cases n <;> rfl

@[simp] theorem signBit_arith (n : Number) : n.arith.signBit = n.signBit := by
  cases n with
  | bool b => cases b <;> rfl
  | _ => rfl

@[simp] theorem arith_arith (n : Number) : n.arith.arith = n.arith := by
  cases n <;> rfl

@[simp] theorem isIntegral_arith (n : Number) : n.arith.isIntegral = n.isIntegral := by
  cases n <;> rfl

@[simp] theorem gt_arith (n m : Number) : n.arith.gt m = n.gt m := by
  cases n with
  | bool b => cases b <;> rfl
  | _ => rfl

/-- After counting truth values as integers, a number is an integer or a float. -/
theorem arith_cases (n : Number) : (∃ k, n.arith = int k) ∨ ∃ x, n.arith = float x := by
  cases n with
  | int k => exact .inl ⟨k, rfl⟩
  | float x => exact .inr ⟨x, rfl⟩
  | bool b => exact .inl ⟨_, rfl⟩

end Number

namespace Operator

/-! ## The program's arithmetic, step by step -/

/-- Float arithmetic on two numbers, both converted to floats first; dividing by a zero is a
fault. -/
def onFloats (o : Operator) (x y : Number) : Except ArithFault Number := do
  let p ← x.toFloat?
  let q ← y.toFloat?
  match o with
  | add => pure (.float (p + q))
  | sub => pure (.float (p - q))
  | mul => pure (.float (p * q))
  | div => if q.isZero then throw .zeroDivision else pure (.float (p / q))

/-- `x o y` in the language's own arithmetic, as described in the module header. -/
def bare (o : Operator) (x y : Number) : Except ArithFault Number :=
  match o, x.arith, y.arith with
  | add, .int a, .int b => .ok (.int (a + b))
  | sub, .int a, .int b => .ok (.int (a - b))
  | mul, .int a, .int b => .ok (.int (a * b))
  | div, .int a, .int b =>
    if b = 0 then .error .zeroDivision
    else
      match Binary64.ofRatio a b with
      | .inf _ => .error .overflow
      | q => .ok (.float q)
  | o, a, b => o.onFloats a b

/-- The first attempt at `x o y`: a division by a zero is answered before dividing. -/
def attempt (o : Operator) (x y : Number) : Except ArithFault Number :=
  if o = div ∧ y.isZero = true then
    .ok (.float (if x.isZero || x.isNaN then .nan
      else .inf (x.asFloat.signBit != y.asFloat.signBit)))
  else o.bare x y

/-- `x o y` as the program computes it: the first attempt, and when that overflows, the infinity
of the sign of a quotient of integers, or else a second attempt on both operands as floats. -/
def caught (o : Operator) (x y : Number) : Except ArithFault Number :=
  match o.attempt x y with
  | .error .overflow =>
    if o = div ∧ x.isIntegral = true ∧ y.isIntegral = true then
      .ok (.float (if x.gt (.int 0) == y.gt (.int 0) then .inf false else .inf true))
    else o.attempt (.float x.asFloat) (.float y.asFloat)
  | r => r

/-! ## The steps give `Operator.apply` -/

theorem apply_div (x y : Number) : div.apply x y = divide x.arith y.arith := rfl

/-- A truth value counts as its integer in the result too. -/
theorem apply_arith (o : Operator) (x y : Number) : o.apply x.arith y.arith = o.apply x y := by
  simp only [apply, Number.arith_arith]

/-- With a float on either side, the operator is applied to the nearest floats. -/
theorem apply_toBinary64 (o : Operator) {x y : Number}
    (hint : x.isIntegral = false ∨ y.isIntegral = false) :
    o.apply (.float x.toBinary64) (.float y.toBinary64) = o.apply x y := by
  cases x <;> cases y <;> simp [Number.isIntegral] at hint <;> cases o <;>
    simp [apply, divide, Number.arith, Number.toBinary64, Number.isZero, Number.isNaN,
      Number.signBit]

/-- A division by a zero is answered by the first attempt, as true division answers it. -/
theorem attempt_zeroDivisor (x y : Number) (hy : y.isZero = true) :
    div.attempt x y = .ok (div.apply x y) := by
  rw [attempt, if_pos ⟨rfl, hy⟩, apply_div]
  simp only [divide, Number.isZero_arith, hy, if_true, Number.isNaN_arith, Number.signBit_arith,
    Number.asFloat_eq, Number.signBit_toBinary64]
  split <;> rfl

/-- The first attempt on two floats does not fail. -/
theorem attempt_floats (o : Operator) (p q : Binary64) :
    o.attempt (.float p) (.float q) = .ok (o.apply (.float p) (.float q)) := by
  by_cases hz : o = div ∧ (Number.float q).isZero = true
  · obtain ⟨rfl, hq⟩ := hz
    exact attempt_zeroDivisor _ _ hq
  · rw [attempt, if_neg hz]
    cases o with
    | div =>
      have hq : q.isZero = false := by simpa [Number.isZero] using hz
      simp [bare, onFloats, apply_div, divide, Number.arith, Number.isZero, Number.toFloat?, hq,
        Number.toBinary64, bind, Except.bind, pure, Except.pure]
    | _ => rfl

theorem caught_zeroDivisor (x y : Number) (hy : y.isZero = true) :
    div.caught x y = .ok (div.apply x y) := by
  rw [caught, attempt_zeroDivisor x y hy]

/-- A truth value counts as its integer in every step. -/
theorem caught_arith (o : Operator) (x y : Number) : o.caught x.arith y.arith = o.caught x y := by
  simp only [caught, attempt, bare, Number.arith_arith, Number.isZero_arith, Number.isNaN_arith,
    Number.isIntegral_arith, Number.gt_arith, Number.asFloat_eq, Number.toBinary64_arith]

/-- Integers: exact sums, differences and products, and a quotient that overflows only past the
float range, where the infinity of its sign is what rounding gives too. -/
theorem caught_ints (o : Operator) (a b : Int) (hz : ¬(o = div ∧ (Number.int b).isZero = true)) :
    o.caught (.int a) (.int b) = .ok (o.apply (.int a) (.int b)) := by
  cases o with
  | div =>
    have hb : b ≠ 0 := by simpa [Number.isZero] using hz
    have hnz : (Number.int b).isZero = false := by simpa [Number.isZero] using hb
    cases hq : Binary64.ofRatio a b with
    | inf s =>
      -- the overflow is caught: the quotient's sign is the one rounding gives its infinity
      have ha : a ≠ 0 := Int.natAbs_ne_zero.1 (Binary64.ne_zero_of_round_eq_inf hq)
      have hs : s = (decide (a < 0) != decide (b < 0)) := by
        have h := Binary64.signBit_round (decide (a < 0) != decide (b < 0)) a.natAbs b.natAbs 0
        rwa [← Binary64.ofRatio, hq] at h
      simp only [caught, attempt, hnz, bare, Number.arith, hb, if_false, hq,
        apply_div, divide, Number.isIntegral, Number.gt_int, and_self, if_true, hs]
      rcases Int.lt_or_gt_of_ne ha with ha | ha <;> rcases Int.lt_or_gt_of_ne hb with hb | hb <;>
        simp [ha, hb, not_lt.2 ha.le, not_lt.2 hb.le]
    | _ =>
      simp [caught, attempt, hnz, bare, Number.arith, hb, hq, apply_div, divide]
  | _ => rfl

/-- With a float on either side, the plain operation is float arithmetic. -/
theorem bare_of_float (o : Operator) {x y : Number}
    (hint : x.isIntegral = false ∨ y.isIntegral = false) :
    o.bare x y = o.onFloats x.arith y.arith := by
  cases x <;> cases y <;> simp [Number.isIntegral] at hint <;> cases o <;> rfl

/-- Float arithmetic either overflows converting an integer, or gives the operation on the nearest
floats. -/
theorem onFloats_cases (o : Operator) (x y : Number) (hz : ¬(o = div ∧ y.isZero = true)) :
    o.onFloats x y = .ok (o.apply (.float x.toBinary64) (.float y.toBinary64)) ∨
      o.onFloats x y = .error .overflow := by
  rcases Number.toFloat?_cases x with hx | ⟨_, _, _, hx, _⟩
  · rcases Number.toFloat?_cases y with hy | ⟨_, _, _, hy, _⟩
    · left
      cases o with
      | div =>
        have hq : y.toBinary64.isZero = false := by simpa using hz
        simp [onFloats, hx, hy, hq, apply_div, divide, Number.arith, Number.isZero, bind,
          Except.bind, pure, Except.pure]
      | _ => simp [onFloats, hx, hy, bind, Except.bind, pure, Except.pure]; rfl
    · right
      simp [onFloats, hx, hy, bind, Except.bind]
  · right
    simp [onFloats, hx, bind, Except.bind]

/-- With a float on either side, every failure is an overflow converting an integer, and the
second attempt, on floats, succeeds. -/
theorem caught_floats (o : Operator) {x y : Number}
    (hint : x.isIntegral = false ∨ y.isIntegral = false) (hz : ¬(o = div ∧ y.isZero = true)) :
    o.caught x y = .ok (o.apply x y) := by
  have hza : ¬(o = div ∧ y.arith.isZero = true) := by simpa using hz
  have hnotint : ¬(o = div ∧ x.isIntegral = true ∧ y.isIntegral = true) := by
    rintro ⟨-, hx, hy⟩
    rcases hint with h | h <;> simp_all
  rcases onFloats_cases o x.arith y.arith hza with h | h
  · rw [caught, attempt, if_neg hz, bare_of_float o hint, h]
    simp only [Number.toBinary64_arith]
    rw [apply_toBinary64 o hint]
  · rw [caught, attempt, if_neg hz, bare_of_float o hint, h]
    simp only [if_neg hnotint, attempt_floats, Number.asFloat_eq, apply_toBinary64 o hint]

/-- **Arithmetic never fails.**  Every step that could fail is avoided or caught: a zero divisor
is answered before dividing, and an overflow, of an integer converted to a float or of a quotient
of integers, is caught.  What the steps give is the operation on numbers. -/
theorem caught_eq_ok (o : Operator) (x y : Number) : o.caught x y = .ok (o.apply x y) := by
  by_cases hz : o = div ∧ y.isZero = true
  · obtain ⟨rfl, hy⟩ := hz
    exact caught_zeroDivisor x y hy
  rcases Number.arith_cases x with ⟨a, ha⟩ | ⟨p, hp⟩
  · rcases Number.arith_cases y with ⟨b, hb⟩ | ⟨q, hq⟩
    · rw [← Number.isZero_arith, hb] at hz
      rw [← caught_arith, ← apply_arith, ha, hb]
      exact caught_ints o a b hz
    · refine caught_floats o (.inr ?_) hz
      rw [← Number.isIntegral_arith, hq]
      rfl
  · refine caught_floats o (.inl ?_) hz
    rw [← Number.isIntegral_arith, hp]
    rfl

end Operator

namespace Expr

variable {σ : Type} (src : DrawSource σ)

/-- Without rolls, evaluating in frames needs no room for dice: it follows `eval` unless the tree
reaches within three levels of the limit, the frames of applying an operator. -/
theorem evalAt_follows_withoutDice (env : Option Bindings) (d : Nat) {e : Expr}
    (hr : e.rolls = []) (s : σ) :
    Follows (depthLimit < d + e.height + 3) (e.evalAt env src d s) (e.eval env src s) := by
  induction e generalizing d s with
  | lit n =>
    exact Follows.bind_ok (Follows.enterAt_lift (fun h => by simp [height] at h; omega) [] s)
      Follows.refl
  | ref x =>
    exact Follows.bind_ok (Follows.enterAt_lift (fun h => by simp [height] at h; omega) [] s)
      Follows.refl
  | roll r => simp [rolls] at hr
  | missing => exact Follows.refl
  | op o l r ihl ihr =>
    obtain ⟨hl, hr⟩ := List.append_eq_nil_iff.1 hr
    exact evalAt_op_follows env o l r d
      (fun s => (ihl (d + 1) hl s).mono (fun h => by simp; omega))
      (fun s => (ihr (d + 1) hr s).mono (fun h => by simp; omega)) (fun h => by simp at h; omega) s

/-- **Evaluation without dice never fails.**  The arithmetic, step by step as the program does it,
never fails and gives the operation on numbers.  So a tree without rolls and with no missing
node, against bindings of numbers (or none), evaluates to the number its arithmetic computes,
with no records and the draw source untouched; from level `d` it does so unless the tree reaches
within three levels of the call depth limit, where it may be a recursion fault instead. -/
theorem evalAt_withoutDice_ok :
    (∀ (o : Operator) (x y : Number), o.caught x y = .ok (o.apply x y)) ∧
      ∀ (ctx : Option NumberBindings) {σ : Type} (src : DrawSource σ) {e : Expr},
        e.complete = true → e.rolls = [] → ∀ (d : Nat) (st : σ),
          eval (ctx.map NumberBindings.toBindings) src e st =
              .ok ⟨.num (e.compute ctx []), [], st⟩ ∧
          Follows (depthLimit < d + e.height + 3)
            (evalAt (ctx.map NumberBindings.toBindings) src d e st)
            (.ok ⟨.num (e.compute ctx []), [], st⟩) := by
  refine ⟨Operator.caught_eq_ok, fun ctx σ src e he hr d st => ?_⟩
  have heval : eval (ctx.map NumberBindings.toBindings) src e st =
      .ok ⟨.num (e.compute ctx []), [], st⟩ := by
    rw [eval_eq_rollsFirst he, rollsFirst, hr]
    rfl
  exact ⟨heval, heval ▸ evalAt_follows_withoutDice src _ d hr st⟩

/-- `x / 0` with `x` bound to `-3`, from the calculator's level: negative infinity, not a fault. -/
theorem evalAt_withoutDice_ok_negativeInfinity :
    (op .div (ref "x") (lit (.int 0))).complete = true ∧
      (op .div (ref "x") (lit (.int 0))).rolls = [] ∧
      evalAt ((some [("x", .int (-3))]).map NumberBindings.toBindings) (.ofList []) 6
          (op .div (ref "x") (lit (.int 0))) 0 = .ok ⟨.num (.float (.inf true)), [], 0⟩ :=
  ⟨rfl, rfl, Follows.eq_of_not
    (evalAt_withoutDice_ok.2 (some [("x", .int (-3))]) (.ofList []) rfl rfl 6 0).2
    (by unfold depthLimit; decide)⟩

/-- `1 + 1 + ... + 1` with 1100 terms has no rolls and its arithmetic gives 1100, but evaluating
it from the calculator's level is a recursion fault. -/
theorem evalAt_sumChain_withoutDice :
    (sumChain 1099).complete = true ∧ (sumChain 1099).rolls = [] ∧
      (sumChain 1099).compute none [] = .int 1100 ∧
      ∃ en, (sumChain 1099).evalAt none (.ofList []) 6 0 = .error ⟨.tooDeep en, [], 0⟩ :=
  ⟨complete_sumChain 1099, rolls_sumChain 1099, compute_sumChain 1099 [],
    sumChain_tooDeep none (by unfold depthLimit; omega) 0⟩

end Expr

end DiceNotation
