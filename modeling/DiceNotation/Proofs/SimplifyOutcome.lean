import DiceNotation.Proofs.NormalForm
import DiceNotation.Proofs.RollsFirst

/-!
# Simplifying keeps the outcome of evaluation

`Expr.rewrite` does three things to a tree: it replaces a name bound to an integer or a float by
that literal, it folds an operation on two literals into the literal of its result, and it merges
two literal steps of one precedence after a subtree `x` into one step, or cancels them
(`Merged.of`).  The first two are exactly what evaluation would do at that node, whatever the
numbers are.  The third is arithmetic on the literals alone, and keeps the outcome only when
regrouping does: it holds on integers for `+`, `-` and `*`, where arithmetic is exact, and fails
with zeros, infinities and rounding.

* `Expr.eval_node`: simplifying an operation keeps its outcome when simplifying its operands did
  and the merge, if one is made, keeps the outcome of the steps it merges;
* `Expr.simplifyAt_evalAt_intArith`: on integer arithmetic without division, against bindings of
  integers that extend those simplified with, evaluating the simplified tree gives exactly the
  outcome of the tree, also in frames unless the tree is too high for the call depth limit;
* `Expr.simplifyAt_evalAt_onesAfter`: `a + 1 + ... + 1` with 700 ones evaluates within the limit,
  but simplifying it does not;
* `Expr.simplifyAt_evalAt_mergesNone`: a tree whose simplifying merges no literal steps keeps its
  outcome exactly, NaN and infinities included;
* `Expr.simplifyAt_zeroSteps`: `a * 0 / 0` evaluates to NaN, but merging its steps leaves `a`,
  which evaluates to `0`.
-/

namespace DiceNotation

namespace Number

theorem compare?_int (a b : Int) : compare? (int a) (int b) = some (compare a b) := by
  simp [compare?, exact, Exact.compare?, Binary64.compareScaled]

@[simp] theorem eq_int (a b : Int) : eq (int a) (int b) = decide (a = b) := by
  rw [eq, compare?_int]
  cases hc : compare a b <;> simp [← Int.compare_eq_eq, hc]

@[simp] theorem gt_int (a b : Int) : gt (int a) (int b) = decide (b < a) := by
  rw [gt, compare?_int]
  cases hc : compare a b <;> simp [← Int.compare_eq_gt, hc]

end Number

namespace Operator

/-- `+`, `-` and `*` keep integers integers. -/
theorem apply_int {o : Operator} (ho : o ≠ .div) (a b : Int) :
    ∃ k, o.apply (.int a) (.int b) = .int k := by
  cases o with
  | add => exact ⟨a + b, rfl⟩
  | sub => exact ⟨a - b, rfl⟩
  | mul => exact ⟨a * b, rfl⟩
  | div => exact absurd rfl ho

end Operator

namespace Merged

/-- The number the merged steps make of the number `v` on their left. -/
def valueOn (v : Number) : Merged → Number
  | cancel => v
  | step o c => o.apply v c

/-- Steps of two different operators: equal literals cancel, and otherwise the operator written
before the larger literal is kept, with the difference or quotient of larger over smaller. -/
theorem of_of_ne {lo ro : Operator} (h : lo ≠ ro) (a b : Number) :
    of lo a ro b = if a.eq b then cancel else if a.gt b then
      step lo ((if lo.isAdditive then Operator.sub else Operator.div).apply a b)
      else step ro ((if ro.isAdditive then Operator.sub else Operator.div).apply b a) := by
  unfold of
  rw [if_neg h]
  by_cases hg : a.gt b = true <;> simp [hg]

/-- Two different operators of one precedence, neither of them `/`, are `+` and `-`. -/
theorem add_sub_of_ne {lo o : Operator} (hlo : lo ≠ .div) (ho : o ≠ .div)
    (hp : lo.precedence = o.precedence) (hne : lo ≠ o) :
    lo = .add ∧ o = .sub ∨ lo = .sub ∧ o = .add := by
  cases lo <;> cases o <;> simp_all [Operator.precedence]

/-- On integers, merging two steps of `+` and `-`, or two steps of `*`, regroups exact
arithmetic: the merged steps make of every `v` what the two steps make of it. -/
theorem valueOn_of_int {lo o : Operator} (hlo : lo ≠ .div) (ho : o ≠ .div)
    (hp : lo.precedence = o.precedence) (v a b : Int) :
    (of lo (.int a) o (.int b)).valueOn (.int v) = o.apply (lo.apply (.int v) (.int a)) (.int b) := by
  by_cases hsame : lo = o
  · -- the same operator twice: the literals combine under it
    subst hsame
    cases lo with
    | add => simp [of, valueOn, Operator.apply, Operator.isAdditive, Number.arith]; omega
    | sub => simp [of, valueOn, Operator.apply, Operator.isAdditive, Number.arith]; omega
    | mul => simp [of, valueOn, Operator.apply, Operator.isAdditive, Number.arith, Int.mul_assoc]
    | div => exact absurd rfl hlo
  · rw [of_of_ne hsame, Number.eq_int, Number.gt_int]
    rcases add_sub_of_ne hlo ho hp hsame with ⟨rfl, rfl⟩ | ⟨rfl, rfl⟩
    all_goals
      by_cases hab : a = b
      · simp [hab, valueOn, Operator.apply, Number.arith]
      · by_cases hlt : b < a <;>
          simp [hab, hlt, valueOn, Operator.apply, Operator.isAdditive, Number.arith] <;> omega

end Merged

namespace Expr

variable {σ : Type} (env : Option Bindings) (src : DrawSource σ)

/-! ## Evaluation, node by node -/

/-- An operation evaluates alike when its operands do. -/
theorem eval_op_congr (o : Operator) {l r l' r' : Expr} (hl : ∀ s, eval env src l' s = eval env src l s)
    (hr : ∀ s, eval env src r' s = eval env src r s) (s : σ) :
    eval env src (op o l' r') s = eval env src (op o l r) s := by
  simp only [eval_op, hl, hr]

/-- A literal step after a tree that evaluates to a number. -/
theorem eval_op_lit_of_eq {x : Expr} {s s' : σ} {v : Number} {recs : List RollRecord}
    (hx : eval env src x s = .ok ⟨.num v, recs, s'⟩) (o : Operator) (n : Number) :
    eval env src (op o x (lit n)) s = .ok ⟨.num (o.apply v n), recs, s'⟩ := by
  simp [eval, hx, Value.apply]

theorem eval_op_of_error {x : Expr} {s : σ} {f : Stop σ} (hx : eval env src x s = .error f)
    (o : Operator) (y : Expr) : eval env src (op o x y) s = .error f := by
  simp [eval, hx]

theorem eval_applyTo_of_eq {x : Expr} {s s' : σ} {v : Number} {recs : List RollRecord}
    (hx : eval env src x s = .ok ⟨.num v, recs, s'⟩) (m : Merged) :
    eval env src (m.applyTo x) s = .ok ⟨.num (m.valueOn v), recs, s'⟩ := by
  cases m with
  | cancel => exact hx
  | step o c => exact eval_op_lit_of_eq env src hx o c

theorem eval_applyTo_of_error {x : Expr} {s : σ} {f : Stop σ} (hx : eval env src x s = .error f)
    (m : Merged) : eval env src (m.applyTo x) s = .error f := by
  cases m with
  | cancel => exact hx
  | step o c => exact eval_op_of_error env src hx o (lit c)

/-- A name that simplifying replaces by a literal evaluates to that literal's number. -/
theorem lookup_of_substitute? {x : String} {n : Number} (h : substitute? env x = some n) :
    lookup env x = .num n := by
  unfold substitute? at h
  cases env with
  | none => simp at h
  | some bs =>
    simp only [Option.bind_some] at h
    simp only [lookup]
    split at h <;> simp_all

/-- Simplifying an operation keeps its outcome when simplifying its operands kept theirs, and the
merge, if one is made, keeps the outcome of the two steps it merges. -/
theorem eval_node {o : Operator} {l r : Expr} {p q : Expr × Bool}
    (hl : ∀ s, eval env src p.1 s = eval env src l s) (hr : ∀ s, eval env src q.1 s = eval env src r s)
    (hmerge : ∀ lo x a b, p.1 = op lo x (lit a) → q.1 = lit b → lo.precedence = o.precedence →
      ∀ s, eval env src ((Merged.of lo a o b).applyTo x) s =
        eval env src (op o (op lo x (lit a)) (lit b)) s)
    (s : σ) : eval env src (node o p q).1 s = eval env src (op o l r) s := by
  rcases p with ⟨l', cl⟩
  rcases q with ⟨r', cr⟩
  dsimp only at hl hr hmerge
  rw [← eval_op_congr env src o hl hr]
  unfold node
  split
  · rename_i hf
    unfold folds at hf
    split at hf
    · -- two literals fold to the literal evaluation would give
      rename_i a b h₁ h₂
      dsimp only at h₁ h₂
      subst h₁ h₂
      cases o <;> rfl
    · rename_i lo x a b h₁ h₂
      dsimp only at h₁ h₂
      subst h₁ h₂
      exact hmerge lo x a b rfl rfl (by simpa using hf) s
    · cases hf
  · rfl

/-! ## Integer arithmetic without division -/

/-- Integer arithmetic without division: every literal is an integer and every operator is `+`,
`-` or `*`; names and rolls may stand anywhere. -/
def IntArith : Expr → Prop
  | lit (.int _) => True
  | ref _ => True
  | roll _ => True
  | op o l r => o ≠ .div ∧ IntArith l ∧ IntArith r
  | _ => False

theorem IntArith.lit_int {n : Number} (h : IntArith (lit n)) : ∃ k, n = .int k := by
  cases n with
  | int k => exact ⟨k, rfl⟩
  | _ => exact absurd h id

theorem IntArith.complete {e : Expr} (h : IntArith e) : e.complete = true := by
  induction e with
  | lit n => rfl
  | op o l r ihl ihr => simp [Expr.complete, ihl h.2.1, ihr h.2.2]
  | missing => exact absurd h id
  | _ => rfl

/-- Merged integer steps of `+`, `-` and `*` after integer arithmetic are integer arithmetic. -/
theorem intArith_applyTo {lo o : Operator} (hlo : lo ≠ .div) (ho : o ≠ .div)
    (hp : lo.precedence = o.precedence) {x : Expr} (hx : IntArith x) (a b : Int) :
    IntArith ((Merged.of lo (.int a) o (.int b)).applyTo x) := by
  by_cases hsame : lo = o
  · subst hsame
    cases lo <;> simp_all [Merged.of, Merged.applyTo, IntArith, Operator.apply,
      Operator.isAdditive, Number.arith]
  · rw [Merged.of_of_ne hsame, Number.eq_int, Number.gt_int]
    rcases Merged.add_sub_of_ne hlo ho hp hsame with ⟨rfl, rfl⟩ | ⟨rfl, rfl⟩
    all_goals
      by_cases hab : a = b
      · simpa [hab, Merged.applyTo] using hx
      · by_cases hlt : b < a <;>
          simp [hab, hlt, Merged.applyTo, IntArith, Operator.apply, Operator.isAdditive,
            Number.arith, hx]

end Expr

/-- Bindings of names to integers. -/
abbrev IntBindings := List (String × Int)

namespace IntBindings

/-- The bindings as bindings of values. -/
def toBindings (bs : IntBindings) : Bindings := bs.map fun p => (p.1, .num (.int p.2))

/-- The integer a name is bound to, if it is bound. -/
def find? (c : Option IntBindings) (x : String) : Option Int := c.bind fun bs => bs.lookup x

/-- The bindings `c'` give every name that `c` binds the integer `c` binds it to. -/
def Extends (c' c : Option IntBindings) : Prop := ∀ x k, find? c x = some k → find? c' x = some k

theorem lookup_toBindings (bs : IntBindings) (x : String) :
    (toBindings bs).lookup x = (bs.lookup x).map fun k => .num (.int k) := by
  induction bs with
  | nil => rfl
  | cons p bs ih =>
    obtain ⟨y, k⟩ := p
    simp only [toBindings] at ih ⊢
    cases hxy : x == y <;> simp [List.lookup, hxy, ih]

theorem substitute?_toBindings (c : Option IntBindings) (x : String) :
    Expr.substitute? (c.map toBindings) x = (find? c x).map .int := by
  cases c with
  | none => rfl
  | some bs =>
    simp only [Expr.substitute?, Option.map_some, Option.bind_some, find?, lookup_toBindings]
    cases bs.lookup x <;> rfl

theorem lookup_map_toBindings (c : Option IntBindings) (x : String) :
    Expr.lookup (c.map toBindings) x = .num (.int ((find? c x).getD 0)) := by
  cases c with
  | none => rfl
  | some bs =>
    simp only [Option.map_some, Expr.lookup, find?, Option.bind_some, lookup_toBindings]
    cases bs.lookup x <;> rfl

end IntBindings

namespace Expr

variable {σ : Type} (src : DrawSource σ)

/-- Against bindings of integers, integer arithmetic gives an integer, or a fault of a roll. -/
theorem eval_intArith (c : Option IntBindings) {e : Expr} (he : IntArith e) {s : σ}
    {out : Outcome σ} (h : eval (c.map IntBindings.toBindings) src e s = .ok out) :
    ∃ k, out.value = .num (.int k) := by
  induction e generalizing s out with
  | lit n =>
    obtain ⟨k, rfl⟩ := he.lit_int
    cases h
    exact ⟨k, rfl⟩
  | ref x =>
    cases h
    exact ⟨_, IntBindings.lookup_map_toBindings c x⟩
  | roll r =>
    rw [eval_roll] at h
    split at h
    · cases h
    · cases h
      exact ⟨_, rfl⟩
  | op o l r ihl ihr =>
    obtain ⟨ho, hl, hr⟩ := he
    rw [eval_op] at h
    obtain ⟨a, ha, h⟩ := bind_eq_ok.1 h
    obtain ⟨b, hb, h⟩ := bind_eq_ok.1 h
    obtain ⟨ka, hka⟩ := ihl hl ha
    obtain ⟨kb, hkb⟩ := ihr hr (mapError_eq_ok.1 hb)
    obtain ⟨k, hk⟩ := Operator.apply_int ho ka kb
    rw [hka, hkb] at h
    simp only [Value.apply, Stop.lift_ok, bind, Except.bind, pure, Except.pure, hk] at h
    cases h
    exact ⟨k, rfl⟩
  | missing => exact absurd he id

/-- Simplifying an integer operation without division whose operands simplified to integer
arithmetic gives integer arithmetic. -/
theorem intArith_node {o : Operator} (ho : o ≠ .div) {p q : Expr × Bool} (hp : IntArith p.1)
    (hq : IntArith q.1) : IntArith (node o p q).1 := by
  rcases p with ⟨l', cl⟩
  rcases q with ⟨r', cr⟩
  dsimp only at hp hq
  unfold node
  split
  · rename_i hf
    unfold folds at hf
    split at hf
    · rename_i a b h₁ h₂
      dsimp only at h₁ h₂
      subst h₁ h₂
      obtain ⟨ka, rfl⟩ := hp.lit_int
      obtain ⟨kb, rfl⟩ := hq.lit_int
      obtain ⟨k, hk⟩ := Operator.apply_int ho ka kb
      simp only [fold, hk]
      trivial
    · -- the merged step is again an integer step, on the tree two levels down
      rename_i lo x a b h₁ h₂
      dsimp only at h₁ h₂
      subst h₁ h₂
      obtain ⟨hlo, hx, ha⟩ := hp
      obtain ⟨ka, rfl⟩ := IntArith.lit_int ha
      obtain ⟨kb, rfl⟩ := hq.lit_int
      exact intArith_applyTo hlo ho (by simpa using hf) hx ka kb
    · cases hf
  · exact ⟨ho, hp, hq⟩

/-- Simplifying against bindings of integers keeps integer arithmetic without division. -/
theorem intArith_rewrite (c : Option IntBindings) {e : Expr} (he : IntArith e) :
    IntArith (rewrite (c.map IntBindings.toBindings) e).1 := by
  induction e with
  | lit n => exact he
  | ref x =>
    simp only [rewrite, IntBindings.substitute?_toBindings]
    cases IntBindings.find? c x <;> trivial
  | roll r => trivial
  | op o l r ihl ihr =>
    obtain ⟨ho, hl, hr⟩ := he
    rw [rewrite_op]
    exact intArith_node ho (ihl hl) (ihr hr)
  | missing => exact absurd he id

/-- Two integer steps of one precedence, merged after a tree of integer arithmetic, evaluate as
the two steps do, against bindings of integers. -/
theorem eval_applyTo_int {lo o : Operator} (hlo : lo ≠ .div) (ho : o ≠ .div)
    (hp : lo.precedence = o.precedence) (c : Option IntBindings) {x : Expr} (hx : IntArith x)
    (a b : Int) (s : σ) :
    eval (c.map IntBindings.toBindings) src ((Merged.of lo (.int a) o (.int b)).applyTo x) s =
      eval (c.map IntBindings.toBindings) src (op o (op lo x (lit (.int a))) (lit (.int b))) s := by
  cases hxs : eval (c.map IntBindings.toBindings) src x s with
  | error f =>
    rw [eval_applyTo_of_error _ src hxs, eval_op_of_error _ src (eval_op_of_error _ src hxs _ _)]
  | ok out =>
    -- the tree evaluates to an integer, on which the merged step acts as the two steps do
    obtain ⟨v, recs, s'⟩ := out
    obtain ⟨k, hk⟩ := eval_intArith src c hx hxs
    simp only at hk
    subst hk
    rw [eval_applyTo_of_eq _ src hxs,
      eval_op_lit_of_eq _ src (eval_op_lit_of_eq _ src hxs lo (.int a)) o (.int b),
      Merged.valueOn_of_int hlo ho hp k a b]

/-- On integer arithmetic without division, simplifying against bindings of integers `c` keeps
the outcome of evaluating against any bindings of integers `c'` that extend `c`: the same value,
records and state of the draw source, or a stop at the same fault after the same records and
draws. -/
theorem eval_rewrite_intArith {c c' : Option IntBindings} (hc : IntBindings.Extends c' c)
    {e : Expr} (he : IntArith e) (s : σ) :
    eval (c'.map IntBindings.toBindings) src (rewrite (c.map IntBindings.toBindings) e).1 s =
      eval (c'.map IntBindings.toBindings) src e s := by
  induction e generalizing s with
  | ref x =>
    simp only [rewrite, IntBindings.substitute?_toBindings]
    cases hx : IntBindings.find? c x with
    | none => rfl
    | some k =>
      -- the name is bound to the same integer where it is evaluated
      simp only [Option.map_some, eval, IntBindings.lookup_map_toBindings, hc x k hx,
        Option.getD_some]
  | op o l r ihl ihr =>
    obtain ⟨ho, hl, hr⟩ := he
    rw [rewrite_op]
    refine eval_node _ src (ihl hl) (ihr hr) ?_ s
    intro lo x a b hp hq hprec s
    -- the steps merged are integer steps after a tree of integer arithmetic
    have hl' := intArith_rewrite c hl
    have hr' := intArith_rewrite c hr
    rw [hp] at hl'
    rw [hq] at hr'
    obtain ⟨hlo, hx, ha⟩ := hl'
    obtain ⟨ka, rfl⟩ := IntArith.lit_int ha
    obtain ⟨kb, rfl⟩ := hr'.lit_int
    exact eval_applyTo_int src hlo ho hprec c' hx ka kb s
  | _ => rfl

/-! ## Simplifying, then evaluating, in frames -/

/-- Simplifying in frames from level `s` and evaluating the result in frames from level `d` gives
the outcome of evaluating the simplified tree, unless the tree is too high for the simplifier or
for the evaluator, where a recursion fault may come instead.  A fault of the simplifier stops the
whole before any roll is made or draw taken. -/
theorem simplifyAt_evalAt_follows (env env' : Option Bindings) {e : Expr} (he : e.complete = true)
    (s d : Nat) (st : σ) :
    Follows (depthLimit < s + 2 * e.height + 5 ∨ depthLimit < d + e.height + src.steps.height + 6)
      (Stop.lift [] st (simplifyAt env s e) >>= fun p => evalAt env' src d p.1 st)
      (eval env' src (rewrite env e).1 st) := by
  refine Follows.bind_ok (((simplifyAt_follows env s he).mono .inl).lift [] st) ?_
  -- the simplified tree is no higher than the tree
  have := height_rewrite_le env e
  exact (evalAt_follows env' d (rewrite env e).1 st).mono (fun h => .inr (by omega))

/-- **Simplifying keeps the value of integer arithmetic.**  On a tree of integer arithmetic
without division, simplified against bindings of integers `c` and evaluated against bindings of
integers `c'` that extend `c`: evaluating the simplified tree gives exactly the outcome of
evaluating the tree, which is an integer when it succeeds.  In frames, simplifying and then
evaluating gives that outcome, and so does evaluating the tree, unless the tree is too high for
the call depth limit, where a recursion fault may come instead. -/
theorem simplifyAt_evalAt_intArith {c c' : Option IntBindings} (hc : IntBindings.Extends c' c)
    {e : Expr} (he : IntArith e) (s d : Nat) (st : σ) :
    eval (c'.map IntBindings.toBindings) src (rewrite (c.map IntBindings.toBindings) e).1 st =
        eval (c'.map IntBindings.toBindings) src e st ∧
      (∀ out, eval (c'.map IntBindings.toBindings) src e st = .ok out →
        ∃ k, out.value = .num (.int k)) ∧
      Follows (depthLimit < s + 2 * e.height + 5 ∨ depthLimit < d + e.height + src.steps.height + 6)
        (Stop.lift [] st (simplifyAt (c.map IntBindings.toBindings) s e) >>= fun p =>
          evalAt (c'.map IntBindings.toBindings) src d p.1 st)
        (eval (c'.map IntBindings.toBindings) src e st) ∧
      Follows (depthLimit < d + e.height + src.steps.height + 6)
        (evalAt (c'.map IntBindings.toBindings) src d e st)
        (eval (c'.map IntBindings.toBindings) src e st) := by
  have hkeep := eval_rewrite_intArith src hc he st
  refine ⟨hkeep, fun out h => eval_intArith src c' he h, ?_, evalAt_follows _ d e st⟩
  rw [← hkeep]
  exact simplifyAt_evalAt_follows src _ _ he.complete s d st

/-- `(a + b) - 1` simplified with `b` bound to `4` and evaluated with `a` bound to `7` as well. -/
theorem simplifyAt_evalAt_intArith_partial :
    IntBindings.Extends (some [("a", 7), ("b", 4)]) (some [("b", 4)]) ∧
      IntArith (op .sub (op .add (ref "a") (ref "b")) (lit (.int 1))) ∧
      (eval ((some [("a", 7), ("b", 4)]).map IntBindings.toBindings) (.ofList [])
          (rewrite ((some [("b", 4)]).map IntBindings.toBindings)
            (op .sub (op .add (ref "a") (ref "b")) (lit (.int 1)))).1 0 =
          eval ((some [("a", 7), ("b", 4)]).map IntBindings.toBindings) (.ofList [])
            (op .sub (op .add (ref "a") (ref "b")) (lit (.int 1))) 0 ∧
        (∀ out, eval ((some [("a", 7), ("b", 4)]).map IntBindings.toBindings) (.ofList [])
            (op .sub (op .add (ref "a") (ref "b")) (lit (.int 1))) 0 = .ok out →
          ∃ k, out.value = .num (.int k)) ∧
        Follows (depthLimit < 6 + 2 * (op .sub (op .add (ref "a") (ref "b")) (lit (.int 1))).height + 5 ∨
            depthLimit < 6 + (op .sub (op .add (ref "a") (ref "b")) (lit (.int 1))).height +
              (DrawSource.ofList []).steps.height + 6)
          (Stop.lift [] 0 (simplifyAt ((some [("b", 4)]).map IntBindings.toBindings) 6
              (op .sub (op .add (ref "a") (ref "b")) (lit (.int 1)))) >>= fun p =>
            evalAt ((some [("a", 7), ("b", 4)]).map IntBindings.toBindings) (.ofList []) 6 p.1 0)
          (eval ((some [("a", 7), ("b", 4)]).map IntBindings.toBindings) (.ofList [])
            (op .sub (op .add (ref "a") (ref "b")) (lit (.int 1))) 0) ∧
        Follows (depthLimit < 6 + (op .sub (op .add (ref "a") (ref "b")) (lit (.int 1))).height +
            (DrawSource.ofList []).steps.height + 6)
          (evalAt ((some [("a", 7), ("b", 4)]).map IntBindings.toBindings) (.ofList []) 6
            (op .sub (op .add (ref "a") (ref "b")) (lit (.int 1))) 0)
          (eval ((some [("a", 7), ("b", 4)]).map IntBindings.toBindings) (.ofList [])
            (op .sub (op .add (ref "a") (ref "b")) (lit (.int 1))) 0)) := by
  have hc : IntBindings.Extends (some [("a", 7), ("b", 4)]) (some [("b", 4)]) := by
    intro x k h
    simp only [IntBindings.find?, Option.bind_some, List.lookup] at h ⊢
    cases hb : x == "b" with
    | false => simp [hb] at h
    | true =>
      obtain rfl : x = "b" := beq_iff_eq.1 hb
      simpa using h
  have he : IntArith (op .sub (op .add (ref "a") (ref "b")) (lit (.int 1))) :=
    ⟨by decide, ⟨by decide, trivial, trivial⟩, trivial⟩
  exact ⟨hc, he, simplifyAt_evalAt_intArith (.ofList []) hc he 6 6 0⟩

/-! ## A sum too high to simplify -/

theorem height_onesAfter (n : Nat) : (onesAfter n).height = n := by
  induction n with
  | zero => rfl
  | succ n ih => simp [onesAfter, ih, height]

/-- With no bindings, `a + 1 + ... + 1` evaluates to the number of ones. -/
theorem eval_onesAfter (n : Nat) (s : σ) :
    eval none src (onesAfter n) s = .ok ⟨.num (.int n), [], s⟩ := by
  induction n with
  | zero => rfl
  | succ n ih =>
    rw [onesAfter, eval_op_lit_of_eq none src ih]
    simp [Operator.apply, Number.arith]

/-- `a + 1 + ... + 1` with 700 ones, with no bindings: evaluating it from the calculator's level
gives 700, but simplifying it from the same level is a recursion fault, so nothing is left to
evaluate. -/
theorem simplifyAt_evalAt_onesAfter :
    IntArith (onesAfter 700) ∧
      evalAt none (.ofList []) 6 (onesAfter 700) 0 = .ok ⟨.num (.int 700), [], 0⟩ ∧
      ∃ en, (Stop.lift [] 0 (simplifyAt none 6 (onesAfter 700)) >>= fun p =>
        evalAt none (.ofList []) 6 p.1 0) = .error ⟨.tooDeep en, [], 0⟩ := by
  have hint : ∀ n, IntArith (onesAfter n) := by
    intro n
    induction n with
    | zero => trivial
    | succ n ih => exact ⟨by decide, ih, trivial⟩
  refine ⟨hint 700, ?_, ?_⟩
  · rw [(evalAt_follows none 6 (onesAfter 700) 0).eq_of_not (by simp [height_onesAfter, depthLimit]),
      eval_onesAfter]
    rfl
  · obtain ⟨en, hen⟩ := simplifyAt_onesAfter_tooDeep none (s := 6) (n := 700)
      (by unfold depthLimit; omega)
    exact ⟨en, by rw [hen]; rfl⟩

/-! ## Trees whose simplifying merges nothing -/

/-- The shape of the simplified operands `l` and `r` of `o` that simplifying merges: a literal
step after a literal step of the same precedence. -/
def merges (o : Operator) : Expr → Expr → Bool
  | op lo _ (lit _), lit _ => lo.precedence == o.precedence
  | _, _ => false

variable (env : Option Bindings)

/-- Whether simplifying the tree merges no two literal steps: it only replaces names and folds
operations on two literals. -/
def mergesNone : Expr → Bool
  | op o l r => mergesNone l && mergesNone r && !merges o (rewrite env l).1 (rewrite env r).1
  | _ => true

/-- Replacing names and folding literals is what evaluation does at those nodes: a tree whose
simplifying merges nothing keeps its outcome exactly, against any bindings. -/
theorem eval_rewrite_of_mergesNone {e : Expr} (hm : mergesNone env e = true) (s : σ) :
    eval env src (rewrite env e).1 s = eval env src e s := by
  induction e generalizing s with
  | ref x =>
    simp only [rewrite]
    cases hx : substitute? env x with
    | none => rfl
    | some n => simp only [eval, lookup_of_substitute? env hx]
  | op o l r ihl ihr =>
    simp only [mergesNone, Bool.and_eq_true, Bool.not_eq_true'] at hm
    obtain ⟨⟨hl, hr⟩, hlr⟩ := hm
    rw [rewrite_op]
    refine eval_node env src (ihl hl) (ihr hr) ?_ s
    intro lo x a b hp hq hprec
    rw [hp, hq] at hlr
    simp [merges, hprec] at hlr
  | _ => rfl

/-- **Without merges, simplifying keeps the outcome exactly.**  For a tree with no missing node
whose simplifying merges no literal steps, and any bindings: evaluating the simplified tree gives
exactly the outcome of evaluating the tree, NaN and infinities included.  In frames, simplifying
and then evaluating gives that outcome, and so does evaluating the tree, unless the tree is too
high for the call depth limit, where a recursion fault may come instead. -/
theorem simplifyAt_evalAt_mergesNone {e : Expr} (he : e.complete = true) (hm : mergesNone env e = true)
    (s d : Nat) (st : σ) :
    eval env src (rewrite env e).1 st = eval env src e st ∧
      Follows (depthLimit < s + 2 * e.height + 5 ∨ depthLimit < d + e.height + src.steps.height + 6)
        (Stop.lift [] st (simplifyAt env s e) >>= fun p => evalAt env src d p.1 st)
        (eval env src e st) ∧
      Follows (depthLimit < d + e.height + src.steps.height + 6) (evalAt env src d e st)
        (eval env src e st) := by
  have hkeep := eval_rewrite_of_mergesNone src env hm st
  refine ⟨hkeep, ?_, evalAt_follows env d e st⟩
  rw [← hkeep]
  exact simplifyAt_evalAt_follows src env env he s d st

/-- `1 / 0 + a` with `a` bound to `3` folds to an infinity, as evaluating it gives. -/
theorem simplifyAt_evalAt_mergesNone_infinity :
    (op .add (op .div (lit (.int 1)) (lit (.int 0))) (ref "a")).complete = true ∧
      mergesNone (some [("a", .num (.int 3))])
        (op .add (op .div (lit (.int 1)) (lit (.int 0))) (ref "a")) = true ∧
      (eval (some [("a", .num (.int 3))]) (.ofList [])
          (rewrite (some [("a", .num (.int 3))])
            (op .add (op .div (lit (.int 1)) (lit (.int 0))) (ref "a"))).1 0 =
          eval (some [("a", .num (.int 3))]) (.ofList [])
            (op .add (op .div (lit (.int 1)) (lit (.int 0))) (ref "a")) 0 ∧
        Follows (depthLimit < 6 + 2 * (op .add (op .div (lit (.int 1)) (lit (.int 0))) (ref "a")).height
              + 5 ∨
            depthLimit < 6 + (op .add (op .div (lit (.int 1)) (lit (.int 0))) (ref "a")).height +
              (DrawSource.ofList []).steps.height + 6)
          (Stop.lift [] 0 (simplifyAt (some [("a", .num (.int 3))]) 6
              (op .add (op .div (lit (.int 1)) (lit (.int 0))) (ref "a"))) >>= fun p =>
            evalAt (some [("a", .num (.int 3))]) (.ofList []) 6 p.1 0)
          (eval (some [("a", .num (.int 3))]) (.ofList [])
            (op .add (op .div (lit (.int 1)) (lit (.int 0))) (ref "a")) 0) ∧
        Follows (depthLimit < 6 + (op .add (op .div (lit (.int 1)) (lit (.int 0))) (ref "a")).height +
            (DrawSource.ofList []).steps.height + 6)
          (evalAt (some [("a", .num (.int 3))]) (.ofList []) 6
            (op .add (op .div (lit (.int 1)) (lit (.int 0))) (ref "a")) 0)
          (eval (some [("a", .num (.int 3))]) (.ofList [])
            (op .add (op .div (lit (.int 1)) (lit (.int 0))) (ref "a")) 0)) := by
  have hm : mergesNone (some [("a", .num (.int 3))])
      (op .add (op .div (lit (.int 1)) (lit (.int 0))) (ref "a")) = true := by decide
  exact ⟨rfl, hm, simplifyAt_evalAt_mergesNone (.ofList []) _ rfl hm 6 6 0⟩

/-! ## Merging can change a NaN or an infinity -/

/-- Two trees whose merged steps change the outcome, with no bindings.  `a * 0 / 0` evaluates to
NaN, since `a` is `0`, but its steps cancel and leave `a`, which evaluates to `0`.  `1d6 / 0 / -1`
with the die showing `1` evaluates to `-∞`, but its divisors multiply into the integer `0`, whose
sign is lost, and `1d6 / 0` evaluates to `+∞`. -/
theorem simplifyAt_zeroSteps :
    simplifyAt none 6 (op .div (op .mul (ref "a") (lit (.int 0))) (lit (.int 0))) =
        .ok (ref "a", true) ∧
      evalAt none (.ofList []) 6 (op .div (op .mul (ref "a") (lit (.int 0))) (lit (.int 0))) 0 =
        .ok ⟨.num (.float .nan), [], 0⟩ ∧
      evalAt none (.ofList []) 6 (ref "a") 0 = .ok ⟨.num (.int 0), [], 0⟩ ∧
      simplifyAt none 6 (op .div (op .div (roll ⟨1, 6, none⟩) (lit (.int 0))) (lit (.int (-1)))) =
        .ok (op .div (roll ⟨1, 6, none⟩) (lit (.int 0)), true) ∧
      evalAt none (.ofList [.int 0]) 6
          (op .div (op .div (roll ⟨1, 6, none⟩) (lit (.int 0))) (lit (.int (-1)))) 0 =
        .ok ⟨.num (.float (.inf true)), [⟨6, [1], 1⟩], 1⟩ ∧
      evalAt none (.ofList [.int 0]) 6 (op .div (roll ⟨1, 6, none⟩) (lit (.int 0))) 0 =
        .ok ⟨.num (.float (.inf false)), [⟨6, [1], 1⟩], 1⟩ :=
  ⟨rfl, rfl, rfl, rfl, rfl, rfl⟩

end Expr

end DiceNotation
