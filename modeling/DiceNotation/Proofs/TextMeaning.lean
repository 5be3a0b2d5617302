import DiceNotation.Proofs.ReadBack
import DiceNotation.Proofs.RollsFirst

/-!
# What the printed text of a tree evaluates to

Reading the printed text of a tree gives back the tree with each whole float turned into the
integer it equals (`Expr.asRead`).  So evaluating the text read back is evaluating that tree:

* when no literal of the tree is a whole float (`Expr.keepsKinds`), the tree read back is the tree
  itself, and evaluating it gives exactly what evaluating the tree gives, whatever the bindings;
* with whole floats, against bindings of numbers, it still throws the same dice with the same
  draws and makes the same records, or stops with the same fault after the same records and
  draws (`Expr.evalAt_asRead`): a literal takes no draw and arithmetic on numbers never fails.
  Only the value may change.

`Expr.evalAt_readBack` puts this together with printing and reading back.  The value does change
with a whole float: `1 / -0.0` is `-∞`, but its text `1 / 0` reads as a quotient of integers,
whose zero divisor has no sign, and that is `+∞` (`Expr.evalAt_readBack_negZero`).
-/

namespace DiceNotation

/-- Two computations that agree on what `f` keeps of their results agree on what `g` keeps of
their continuations, when the continuations do on results that agree. -/
theorem Except.map_bind_congr {ε α β γ δ : Type} {m m' : Except ε α} {k k' : α → Except ε β}
    {f : α → γ} {g : β → δ} (hm : m'.map f = m.map f)
    (hk : ∀ a' a, m' = .ok a' → m = .ok a → f a' = f a → (k' a').map g = (k a).map g) :
    (m' >>= k').map g = (m >>= k).map g := by
  cases hm' : m' with
  | error e' =>
    cases hm'' : m with
    | error e =>
      rw [hm', hm''] at hm
      cases hm
      rfl
    | ok a => rw [hm', hm''] at hm; cases hm
  | ok a' =>
    cases hm'' : m with
    | error e => rw [hm', hm''] at hm; cases hm
    | ok a =>
      rw [hm', hm''] at hm
      exact hk a' a hm' hm'' (Except.ok.inj hm)

/-- Two computations that agree on what `f` keeps of their results still do when their errors
are told otherwise. -/
theorem Except.map_mapError_congr {ε ε' α γ : Type} {m m' : Except ε α} {f : α → γ}
    (g : ε → ε') (h : m'.map f = m.map f) : (m'.mapError g).map f = (m.mapError g).map f := by
  cases m' <;> cases m <;> simp_all [Except.map, Except.mapError]

namespace Expr

open Scan (withinDigitLimit_of_lt_ten)

/-- Whether no literal of a tree is a whole float, the one kind of number whose text reads back
as a number of another kind. -/
def keepsKinds : Expr → Bool
  | lit (.float x) => !x.isInteger
  | op _ l r => l.keepsKinds && r.keepsKinds
  | _ => true

/-- A tree with no whole float reads back as itself. -/
theorem asRead_of_keepsKinds {e : Expr} (h : e.keepsKinds = true) : e.asRead = e := by
  induction e with
  | lit n =>
    cases n with
    | float x =>
      simp only [keepsKinds, Bool.not_eq_eq_eq_not, Bool.not_true] at h
      simp [asRead, Number.asRead, h]
    | _ => rfl
  | op o l r ihl ihr =>
    simp only [keepsKinds, Bool.and_eq_true] at h
    simp [asRead, ihl h.1, ihr h.2]
  | _ => rfl

variable {σ : Type} (ctx : Option NumberBindings) (src : DrawSource σ)

/-- Against bindings of numbers, every value evaluation gives is a number. -/
theorem evalAt_value_num {e : Expr} {d : Nat} {s : σ} {out : Outcome σ}
    (h : e.evalAt (ctx.map NumberBindings.toBindings) src d s = .ok out) :
    ∃ n, out.value = .num n := by
  induction e generalizing d s out with
  | lit n =>
    obtain ⟨_, -, h⟩ := bind_eq_ok.1 h
    cases h
    exact ⟨n, rfl⟩
  | ref x =>
    obtain ⟨_, -, h⟩ := bind_eq_ok.1 h
    cases h
    exact ⟨_, NumberBindings.lookup_map_toBindings ctx x⟩
  | roll r =>
    obtain ⟨_, -, h⟩ := bind_eq_ok.1 h
    obtain ⟨_, -, h⟩ := bind_eq_ok.1 h
    split at h
    · obtain ⟨_, -, h⟩ := bind_eq_ok.1 h
      cases h
    · cases h
    · cases h
      exact ⟨_, rfl⟩
  | op o l r ihl ihr =>
    obtain ⟨_, -, h⟩ := bind_eq_ok.1 h
    obtain ⟨a, ha, h⟩ := bind_eq_ok.1 h
    obtain ⟨b, hb, h⟩ := bind_eq_ok.1 h
    obtain ⟨_, -, h⟩ := bind_eq_ok.1 h
    obtain ⟨v, hv, h⟩ := bind_eq_ok.1 h
    cases h
    obtain ⟨x, hx⟩ := ihl ha
    obtain ⟨y, hy⟩ := ihr (mapError_eq_ok.1 hb)
    rw [hx, hy] at hv
    cases hv
    exact ⟨_, rfl⟩
  | missing => cases h

/-- **Whole floats read back as integers change no roll.**  Against bindings of numbers, the
tree read back from the text of a tree throws the same dice with the same draws as the tree, in
frames from any level: the same records and the same state of the draw source, or a stop at the
same fault after the same records and draws.  Only the value can differ. -/
theorem evalAt_asRead (e : Expr) (d : Nat) (s : σ) :
    (e.asRead.evalAt (ctx.map NumberBindings.toBindings) src d s).map
        (fun o => (o.rolls, o.source)) =
      (e.evalAt (ctx.map NumberBindings.toBindings) src d s).map (fun o => (o.rolls, o.source)) := by
  induction e generalizing d s with
  | lit n =>
    simp only [asRead, evalAt]
    rcases enterAt_ok_or_tooDeep d with h | ⟨en, h⟩ <;> rw [h] <;> rfl
  | op o l r ihl ihr =>
    -- the operands agree in turn; the right one starts where the left one left the source
    simp only [asRead, evalAt]
    refine Except.map_bind_congr (f := id) rfl fun _ _ _ _ _ => ?_
    refine Except.map_bind_congr (ihl (d + 1) s) fun a' a ha' ha hfa => ?_
    simp only [Prod.mk.injEq] at hfa
    rw [hfa.1, hfa.2]
    refine Except.map_bind_congr (Except.map_mapError_congr _ (ihr (d + 1) a.source))
      fun b' b hb' hb hfb => ?_
    simp only [Prod.mk.injEq] at hfb
    rw [hfb.1, hfb.2]
    refine Except.map_bind_congr (f := id) rfl fun _ _ _ _ _ => ?_
    -- both operands are numbers on both sides, so the operator applies on both
    obtain ⟨x', hx'⟩ := evalAt_value_num ctx src ha'
    obtain ⟨x, hx⟩ := evalAt_value_num ctx src ha
    obtain ⟨y', hy'⟩ := evalAt_value_num ctx src (mapError_eq_ok.1 hb')
    obtain ⟨y, hy⟩ := evalAt_value_num ctx src (mapError_eq_ok.1 hb)
    simp only [hx', hx, hy', hy, Value.apply]
    rfl
  | _ => rfl

/-- **The printed text of a tree evaluates as the tree read back.**  A printable tree prints as
its text unless it is too high for the printer, and the text reads back as the tree with its
whole floats made integers unless its parentheses nest too deeply for the reader; the only other
outcome of either is a recursion fault.  When no literal of the tree is a whole float, evaluating
the tree read back gives exactly what evaluating the tree gives, whatever the bindings, draws and
level.  Against bindings of numbers it always throws the same dice with the same draws, or stops
at the same fault after the same records and draws. -/
theorem evalAt_readBack {e : Expr} (he : e.Printable) (d p : Nat) :
    (e.renderAt d = .ok e.text ∨
        depthLimit < d + e.height + 5 ∧ ∃ en, e.renderAt d = .error (.tooDeep en)) ∧
      (parseAt p e.text = .ok e.asRead ∨
        depthLimit < p + 3 * Parser.nesting e.tokens + 14 ∧
          ∃ en, parseAt p e.text = .error (.tooDeep en)) ∧
      (e.keepsKinds = true → ∀ {σ : Type} (env : Option Bindings) (src : DrawSource σ) (q : Nat)
        (s : σ), e.asRead.evalAt env src q s = e.evalAt env src q s) ∧
      ∀ (ctx : Option NumberBindings) {σ : Type} (src : DrawSource σ) (q : Nat) (s : σ),
        (e.asRead.evalAt (ctx.map NumberBindings.toBindings) src q s).map
            (fun o => (o.rolls, o.source)) =
          (e.evalAt (ctx.map NumberBindings.toBindings) src q s).map
            (fun o => (o.rolls, o.source)) :=
  ⟨he.renderAt d, he.parseAt_text p,
    fun hk _ env src q s => by rw [asRead_of_keepsKinds hk],
    fun ctx _ src q s => evalAt_asRead ctx src e q s⟩

/-- Two dice, keep the highest, plus three: printed and read back within the limits. -/
theorem evalAt_readBack_rollPlusThree :
    (op .add (roll ⟨2, 6, some .highest⟩) (lit (.int 3))).Printable ∧
      ((op .add (roll ⟨2, 6, some .highest⟩) (lit (.int 3))).renderAt 5 =
          .ok (op .add (roll ⟨2, 6, some .highest⟩) (lit (.int 3))).text ∨
        depthLimit < 5 + (op .add (roll ⟨2, 6, some .highest⟩) (lit (.int 3))).height + 5 ∧
          ∃ en, (op .add (roll ⟨2, 6, some .highest⟩) (lit (.int 3))).renderAt 5 =
            .error (.tooDeep en)) ∧
      (parseAt 5 (op .add (roll ⟨2, 6, some .highest⟩) (lit (.int 3))).text =
          .ok (op .add (roll ⟨2, 6, some .highest⟩) (lit (.int 3))).asRead ∨
        depthLimit < 5 + 3 * Parser.nesting (op .add (roll ⟨2, 6, some .highest⟩)
            (lit (.int 3))).tokens + 14 ∧
          ∃ en, parseAt 5 (op .add (roll ⟨2, 6, some .highest⟩) (lit (.int 3))).text =
            .error (.tooDeep en)) ∧
      ((op .add (roll ⟨2, 6, some .highest⟩) (lit (.int 3))).keepsKinds = true →
        ∀ {σ : Type} (env : Option Bindings) (src : DrawSource σ) (q : Nat) (s : σ),
          (op .add (roll ⟨2, 6, some .highest⟩) (lit (.int 3))).asRead.evalAt env src q s =
            (op .add (roll ⟨2, 6, some .highest⟩) (lit (.int 3))).evalAt env src q s) ∧
      ∀ (ctx : Option NumberBindings) {σ : Type} (src : DrawSource σ) (q : Nat) (s : σ),
        ((op .add (roll ⟨2, 6, some .highest⟩) (lit (.int 3))).asRead.evalAt
            (ctx.map NumberBindings.toBindings) src q s).map (fun o => (o.rolls, o.source)) =
          ((op .add (roll ⟨2, 6, some .highest⟩) (lit (.int 3))).evalAt
            (ctx.map NumberBindings.toBindings) src q s).map (fun o => (o.rolls, o.source)) := by
  have hp : (op .add (roll ⟨2, 6, some .highest⟩) (lit (.int 3))).Printable :=
    ⟨⟨by decide, by decide, withinDigitLimit_of_lt_ten (by decide),
      withinDigitLimit_of_lt_ten (by decide)⟩, withinDigitLimit_of_lt_ten (by decide)⟩
  exact ⟨hp, evalAt_readBack hp 5 5⟩

/-- `1 / -0.0` is `-∞`.  Its text is `1 / 0`, which reads back as a quotient of two integers,
and that is `+∞`. -/
theorem evalAt_readBack_negZero :
    (op .div (lit (.int 1)) (lit (.float (.zero true)))).Printable ∧
      (op .div (lit (.int 1)) (lit (.float (.zero true)))).renderAt 5 = .ok "1 / 0" ∧
      parseAt 5 "1 / 0" = .ok (op .div (lit (.int 1)) (lit (.int 0))) ∧
      (op .div (lit (.int 1)) (lit (.float (.zero true)))).evalAt none (.ofList []) 6 0 =
        .ok ⟨.num (.float (.inf true)), [], 0⟩ ∧
      (op .div (lit (.int 1)) (lit (.int 0))).evalAt none (.ofList []) 6 0 =
        .ok ⟨.num (.float (.inf false)), [], 0⟩ := by
  have hp : (op .div (lit (.int 1)) (lit (.float (.zero true)))).Printable :=
    ⟨withinDigitLimit_of_lt_ten (by decide), Binary64.canonical_zero true⟩
  have hq : (op .div (lit (.int 1)) (lit (.int 0))).Printable :=
    ⟨withinDigitLimit_of_lt_ten (by decide), withinDigitLimit_of_lt_ten (by decide)⟩
  have hparse := hq.parseAt_eq (p := 5) (by decide)
  rw [show (op .div (lit (.int 1)) (lit (.int 0))).text = "1 / 0" by decide,
    show (op .div (lit (.int 1)) (lit (.int 0))).asRead = op .div (lit (.int 1)) (lit (.int 0))
      by decide] at hparse
  exact ⟨hp, by decide +kernel, hparse, rfl, rfl⟩

end Expr

end DiceNotation
