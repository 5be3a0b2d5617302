import DiceNotation.Proofs.SimplifyOutcome

/-!
# What simplifying leaves in place

Simplifying throws nothing away but literals.  A name becomes a literal only when the bindings
give it an integer or a float; folding turns two literals into one; merging turns two literal
steps into one step, or into none, on the tree to their left, which it keeps whole.  So the rolls
and the free names of a tree are read off the simplified tree in the same order:

* `Expr.view_node`: a view of a tree's leaves that sees nothing of literals sees of a simplified
  operation what it sees of its simplified operands;
* `Expr.rolls_rewrite`, `Expr.refs_rewrite`: the rolls are all kept, and the names less those
  the bindings turn into literals;
* `Expr.eval_rewrite_trace`: hence, against bindings of numbers, evaluating the simplified tree
  throws the same dice from the same draws, and records the same rolls, as evaluating the tree;
* `Expr.simplifyAt_keepsLeaves`: all of it, with simplifying in frames;
* `Expr.simplifyAt_rollAfterOnes`: `1 + ... + 1 + 1d6` with 601 ones is too high to simplify; and
  against a name bound to a text, a merge can change which dice evaluation throws.

A tree without rolls whose every name is bound to a number has nothing but literals once its names
are replaced.  Then every operation meets two literals and folds them with its own operator,
bottom up, as evaluation applies it to the values of its operands; no merge is ever tried:

* `Expr.rewrite_closed`: such a tree simplifies to the literal of the number evaluation gives;
* `Expr.simplifyAt_closed`: the same, with simplifying and evaluating in frames;
* `Expr.simplifyAt_closedChain`: `1 + 1 + ... + 1` with 601 terms evaluates, but is too high to
  simplify.

Simplifying takes no draw source, so it throws no die.
-/

namespace DiceNotation

namespace Expr

variable (ctx : Option Bindings)

/-! ## Rolls and names -/

/-- A view that reads a tree's leaves left to right and sees nothing of a literal sees of a
simplified operation what it sees of the simplified operands: folding drops literals only, and a
merge keeps the tree on the left of the two steps whole. -/
theorem view_node {α : Type} (view : Expr → List α)
    (hop : ∀ o l r, view (op o l r) = view l ++ view r) (hlit : ∀ n, view (lit n) = [])
    (o : Operator) (p q : Expr × Bool) : view (node o p q).1 = view p.1 ++ view q.1 := by
  obtain ⟨l, cl⟩ := p
  obtain ⟨r, cr⟩ := q
  unfold node
  dsimp only
  split
  · rename_i hf
    unfold folds at hf
    split at hf
    · simp [fold, hlit]
    · rename_i lo x a b
      cases hm : Merged.of lo a o b <;> simp [fold, hm, Merged.applyTo, hop, hlit]
    · cases hf
  · exact hop o l r

/-- Simplifying keeps every roll of a tree, in order. -/
theorem rolls_rewrite (e : Expr) : (rewrite ctx e).1.rolls = e.rolls := by
  induction e with
  | ref x => cases hs : substitute? ctx x <;> simp [rewrite, hs, rolls]
  | op o l r ihl ihr =>
    rw [rewrite_op, view_node rolls (fun _ _ _ => rfl) (fun _ => rfl), ihl, ihr]
    rfl
  | _ => rfl

/-- Simplifying keeps every name of a tree, in order, but those the bindings turn into literals. -/
theorem refs_rewrite (e : Expr) :
    (rewrite ctx e).1.refs = e.refs.filter fun x => decide (¬ BindsLiteral ctx x) := by
  induction e with
  | ref x =>
    cases hs : substitute? ctx x with
    | none => simp [rewrite, hs, refs, (substitute?_eq_none_iff ctx x).1 hs]
    | some n => simp [rewrite, hs, refs, bindsLiteral_of_substitute? ctx hs]
  | op o l r ihl ihr =>
    rw [rewrite_op, view_node refs (fun _ _ _ => rfl) (fun _ => rfl), ihl, ihr, refs,
      List.filter_append]
  | _ => rfl

/-! ## The same dice from the same draws -/

variable {σ : Type} (src : DrawSource σ)

/-- The two phases record, and leave the draw source as, throwing the tree's rolls does. -/
theorem rollsFirst_trace (c : Option NumberBindings) (e : Expr) (s : σ) :
    (rollsFirst c src e s).map (fun o => (o.rolls, o.source)) = Roll.runAll src e.rolls s := by
  unfold rollsFirst
  cases Roll.runAll src e.rolls s <;> rfl

/-- Against bindings of numbers, evaluating the simplified tree makes the same records and takes
the same draws as evaluating the tree, or stops with the fault of the same roll after the same
records and draws: both throw the same rolls first and do arithmetic that cannot fail after. -/
theorem eval_rewrite_trace (c : Option NumberBindings) {e : Expr} (he : e.complete = true)
    (s : σ) :
    (eval (c.map NumberBindings.toBindings) src (rewrite ctx e).1 s).map
        (fun o => (o.rolls, o.source)) =
      (eval (c.map NumberBindings.toBindings) src e s).map (fun o => (o.rolls, o.source)) := by
  rw [eval_eq_rollsFirst (complete_rewrite ctx he), eval_eq_rollsFirst he, rollsFirst_trace,
    rollsFirst_trace, rolls_rewrite]

/-- What a caller of the calculator's entry point is left with, its sink and the draw source,
depends only on the records and the draw state of the evaluation. -/
theorem deliver_snd_congr {m m' : Except (Stop σ) (Outcome σ)}
    (h : m'.map (fun o => (o.rolls, o.source)) = m.map (fun o => (o.rolls, o.source)))
    (sink : Option (List RollRecord)) : (deliver sink m').2 = (deliver sink m).2 := by
  cases m' <;> cases m <;> simp_all [Except.map, deliver]

/-- **Simplifying keeps every roll and free name in place.**  For a tree with no missing node and
any bindings: simplifying in frames from level `s` gives what `rewrite` gives, unless the tree is
too high for the limit, where a recursion fault may come instead.  The simplified tree has the
rolls of the tree, in order, and its names less those the bindings turn into literals.  Evaluated
against bindings of numbers, it makes the same records and takes the same draws as the tree, or
stops with the same fault after the same records and draws; in frames it has the room the tree
has, and with that room the calculator's entry point leaves a caller's sink and the draw source
as it does for the tree. -/
theorem simplifyAt_keepsLeaves {e : Expr} (he : e.complete = true) (s : Nat) :
    Follows (depthLimit < s + 2 * e.height + 5) (simplifyAt ctx s e) (.ok (rewrite ctx e)) ∧
      (rewrite ctx e).1.rolls = e.rolls ∧
      (rewrite ctx e).1.refs = e.refs.filter (fun x => decide (¬ BindsLiteral ctx x)) ∧
      ∀ (c : Option NumberBindings) {σ : Type} (src : DrawSource σ) (st : σ),
        (eval (c.map NumberBindings.toBindings) src (rewrite ctx e).1 st).map
            (fun o => (o.rolls, o.source)) =
          (eval (c.map NumberBindings.toBindings) src e st).map (fun o => (o.rolls, o.source)) ∧
        ∀ d, Follows (depthLimit < d + e.height + src.steps.height + 6)
          (evalAt (c.map NumberBindings.toBindings) src d (rewrite ctx e).1 st)
          (eval (c.map NumberBindings.toBindings) src (rewrite ctx e).1 st) ∧
        (¬ depthLimit < d + e.height + src.steps.height + 6 → ∀ sink,
          ((rewrite ctx e).1.calculate (c.map NumberBindings.toBindings) src sink d st).2 =
            (e.calculate (c.map NumberBindings.toBindings) src sink d st).2) := by
  refine ⟨simplifyAt_follows ctx s he, rolls_rewrite ctx e, refs_rewrite ctx e,
    fun c _ src st => ⟨eval_rewrite_trace ctx src c he st, fun d => ?_⟩⟩
  -- the simplified tree is no higher than the tree
  have := height_rewrite_le ctx e
  have hfollow : Follows (depthLimit < d + e.height + src.steps.height + 6)
      (evalAt (c.map NumberBindings.toBindings) src d (rewrite ctx e).1 st)
      (eval (c.map NumberBindings.toBindings) src (rewrite ctx e).1 st) :=
    (evalAt_follows _ d _ st).mono fun h => by omega
  refine ⟨hfollow, fun hd sink => ?_⟩
  -- with room, both entry points give what plain evaluation gives
  rw [calculate_eq_deliver hfollow hd, calculate_eq_deliver (evalAt_follows _ d e st) hd]
  exact deliver_snd_congr (eval_rewrite_trace ctx src c he st) sink

/-- `(a + 2) * 1d6 + b` with `a` bound to `3`: `a + 2` folds to `5`, the roll and `b` stay. -/
theorem simplifyAt_keepsLeaves_boundName :
    (op .add (op .mul (op .add (ref "a") (lit (.int 2))) (roll ⟨1, 6, none⟩)) (ref "b")).complete =
        true ∧
      Follows (depthLimit < 6 + 2 *
          (op .add (op .mul (op .add (ref "a") (lit (.int 2))) (roll ⟨1, 6, none⟩))
            (ref "b")).height
          + 5)
        (simplifyAt (some [("a", .num (.int 3))]) 6
          (op .add (op .mul (op .add (ref "a") (lit (.int 2))) (roll ⟨1, 6, none⟩)) (ref "b")))
        (.ok (rewrite (some [("a", .num (.int 3))])
          (op .add (op .mul (op .add (ref "a") (lit (.int 2))) (roll ⟨1, 6, none⟩)) (ref "b")))) ∧
      (rewrite (some [("a", .num (.int 3))])
          (op .add (op .mul (op .add (ref "a") (lit (.int 2))) (roll ⟨1, 6, none⟩))
            (ref "b"))).1.rolls =
        (op .add (op .mul (op .add (ref "a") (lit (.int 2))) (roll ⟨1, 6, none⟩)) (ref "b")).rolls ∧
      (rewrite (some [("a", .num (.int 3))])
          (op .add (op .mul (op .add (ref "a") (lit (.int 2))) (roll ⟨1, 6, none⟩))
            (ref "b"))).1.refs =
        (op .add (op .mul (op .add (ref "a") (lit (.int 2))) (roll ⟨1, 6, none⟩))
          (ref "b")).refs.filter
          (fun x => decide (¬ BindsLiteral (some [("a", .num (.int 3))]) x)) ∧
      ∀ (c : Option NumberBindings) {σ : Type} (src : DrawSource σ) (st : σ),
        (eval (c.map NumberBindings.toBindings) src (rewrite (some [("a", .num (.int 3))])
            (op .add (op .mul (op .add (ref "a") (lit (.int 2))) (roll ⟨1, 6, none⟩)) (ref "b"))).1
            st).map (fun o => (o.rolls, o.source)) =
          (eval (c.map NumberBindings.toBindings) src
            (op .add (op .mul (op .add (ref "a") (lit (.int 2))) (roll ⟨1, 6, none⟩)) (ref "b"))
            st).map (fun o => (o.rolls, o.source)) ∧
        ∀ d, Follows (depthLimit < d +
            (op .add (op .mul (op .add (ref "a") (lit (.int 2))) (roll ⟨1, 6, none⟩))
              (ref "b")).height
            + src.steps.height + 6)
          (evalAt (c.map NumberBindings.toBindings) src d (rewrite (some [("a", .num (.int 3))])
            (op .add (op .mul (op .add (ref "a") (lit (.int 2))) (roll ⟨1, 6, none⟩)) (ref "b"))).1
            st)
          (eval (c.map NumberBindings.toBindings) src (rewrite (some [("a", .num (.int 3))])
            (op .add (op .mul (op .add (ref "a") (lit (.int 2))) (roll ⟨1, 6, none⟩)) (ref "b"))).1
            st) ∧
          (¬ depthLimit < d +
              (op .add (op .mul (op .add (ref "a") (lit (.int 2))) (roll ⟨1, 6, none⟩))
                (ref "b")).height
              + src.steps.height + 6 → ∀ sink,
            ((rewrite (some [("a", .num (.int 3))])
                (op .add (op .mul (op .add (ref "a") (lit (.int 2))) (roll ⟨1, 6, none⟩))
                  (ref "b"))).1.calculate (c.map NumberBindings.toBindings) src sink d st).2 =
              ((op .add (op .mul (op .add (ref "a") (lit (.int 2))) (roll ⟨1, 6, none⟩))
                (ref "b")).calculate (c.map NumberBindings.toBindings) src sink d st).2) :=
  ⟨rfl, simplifyAt_keepsLeaves _ rfl 6⟩

/-! ## Closed trees fold to the value of evaluation -/

/-- A tree with no rolls whose every name the bindings turn into a literal simplifies to one
literal, the number evaluating it gives: each operation meets two literals and folds them with
its operator, as evaluation applies it to the values of its operands. -/
theorem rewrite_closed {e : Expr} (he : e.complete = true) (hr : e.rolls = [])
    (hb : ∀ x ∈ e.refs, BindsLiteral ctx x) :
    ∃ v, (rewrite ctx e).1 = lit v ∧
      ∀ {σ : Type} (src : DrawSource σ) (s : σ), eval ctx src e s = .ok ⟨.num v, [], s⟩ := by
  induction e with
  | lit n => exact ⟨n, rfl, fun _ _ => rfl⟩
  | ref x =>
    obtain ⟨n, hn⟩ : ∃ n, substitute? ctx x = some n :=
      Option.ne_none_iff_exists'.1 fun hs =>
        (substitute?_eq_none_iff ctx x).1 hs (hb x (List.mem_singleton_self x))
    exact ⟨n, by simp [rewrite, hn], fun _ _ => by simp [eval, lookup_of_substitute? ctx hn]⟩
  | roll r => simp [rolls] at hr
  | missing => simp [complete] at he
  | op o l r ihl ihr =>
    simp only [complete, Bool.and_eq_true] at he
    simp only [rolls, List.append_eq_nil_iff] at hr
    obtain ⟨a, hla, hle⟩ := ihl he.1 hr.1 fun x hx => hb x (List.mem_append_left _ hx)
    obtain ⟨b, hrb, hre⟩ := ihr he.2 hr.2 fun x hx => hb x (List.mem_append_right _ hx)
    refine ⟨o.apply a b, ?_, fun src s => ?_⟩
    · -- both operands simplify to literals, so the operation folds: no merge is tried
      rw [rewrite_op]
      simp [node, hla, hrb, folds, fold]
    · rw [eval_op, hle, ok_bind]
      dsimp only
      rw [hre]
      rfl

/-- **On closed trees, simplifying computes what evaluating computes.**  For a tree with no
missing node and no rolls, and bindings that turn each of its names into a literal: the tree
simplifies to a single literal, whose number is exactly the value evaluation gives, of the same
kind, NaN and infinities included.  In frames, simplifying from level `s` and evaluating from
level `d` give these unless the tree is too high for the limit, where a recursion fault may come
instead. -/
theorem simplifyAt_closed {e : Expr} (he : e.complete = true) (hr : e.rolls = [])
    (hb : ∀ x ∈ e.refs, BindsLiteral ctx x) (s d : Nat) :
    ∃ v changed, rewrite ctx e = (lit v, changed) ∧
      Follows (depthLimit < s + 2 * e.height + 5) (simplifyAt ctx s e) (.ok (lit v, changed)) ∧
      ∀ {σ : Type} (src : DrawSource σ) (st : σ),
        eval ctx src e st = .ok ⟨.num v, [], st⟩ ∧
          Follows (depthLimit < d + e.height + src.steps.height + 6) (evalAt ctx src d e st)
            (.ok ⟨.num v, [], st⟩) := by
  obtain ⟨v, hv, heval⟩ := rewrite_closed ctx he hr hb
  have hrw : rewrite ctx e = (lit v, (rewrite ctx e).2) := Prod.ext hv rfl
  refine ⟨v, (rewrite ctx e).2, hrw, ?_, fun src st => ⟨heval src st, ?_⟩⟩
  · rw [← hrw]
    exact simplifyAt_follows ctx s he
  · rw [← heval src st]
    exact evalAt_follows ctx d e st

/-- `x / 0 * 2` with `x` bound to `3`: the name becomes `3` and the tree folds to one literal, the
value evaluation gives, although before the name is replaced it has the shape of two literal
steps. -/
theorem simplifyAt_closed_divZero :
    (op .mul (op .div (ref "x") (lit (.int 0))) (lit (.int 2))).complete = true ∧
      (op .mul (op .div (ref "x") (lit (.int 0))) (lit (.int 2))).rolls = [] ∧
      (∀ x ∈ (op .mul (op .div (ref "x") (lit (.int 0))) (lit (.int 2))).refs,
        BindsLiteral (some [("x", .num (.int 3))]) x) ∧
      ∃ v changed, rewrite (some [("x", .num (.int 3))])
          (op .mul (op .div (ref "x") (lit (.int 0))) (lit (.int 2))) = (lit v, changed) ∧
        Follows (depthLimit <
            6 + 2 * (op .mul (op .div (ref "x") (lit (.int 0))) (lit (.int 2))).height + 5)
          (simplifyAt (some [("x", .num (.int 3))]) 6
            (op .mul (op .div (ref "x") (lit (.int 0))) (lit (.int 2)))) (.ok (lit v, changed)) ∧
        ∀ {σ : Type} (src : DrawSource σ) (st : σ),
          eval (some [("x", .num (.int 3))]) src
              (op .mul (op .div (ref "x") (lit (.int 0))) (lit (.int 2))) st =
            .ok ⟨.num v, [], st⟩ ∧
          Follows (depthLimit <
              6 + (op .mul (op .div (ref "x") (lit (.int 0))) (lit (.int 2))).height +
                src.steps.height + 6)
            (evalAt (some [("x", .num (.int 3))]) src 6
              (op .mul (op .div (ref "x") (lit (.int 0))) (lit (.int 2))) st)
            (.ok ⟨.num v, [], st⟩) := by
  have hb : ∀ x ∈ (op .mul (op .div (ref "x") (lit (.int 0))) (lit (.int 2))).refs,
      BindsLiteral (some [("x", .num (.int 3))]) x := by decide
  exact ⟨rfl, rfl, hb, simplifyAt_closed _ rfl rfl hb 6 6⟩

/-! ## Trees too high to simplify -/

theorem height_sumChain (n : Nat) : (sumChain n).height = n := by
  induction n with
  | zero => rfl
  | succ n ih => simp [sumChain, ih, height]

/-- Evaluated, `1 + 1 + ... + 1` adds up its terms. -/
theorem eval_sumChain (n : Nat) (s : σ) :
    eval none src (sumChain n) s = .ok ⟨.num (.int ((n : Int) + 1)), [], s⟩ := by
  show eval ((none : Option NumberBindings).map NumberBindings.toBindings) src (sumChain n) s = _
  rw [eval_eq_rollsFirst (complete_sumChain n), rollsFirst_sumChain]

theorem refs_sumChain (n : Nat) : (sumChain n).refs = [] := by
  induction n with
  | zero => rfl
  | succ n ih => simp [sumChain, ih, refs]

/-- Simplified, `1 + 1 + ... + 1` is the literal of its sum. -/
theorem rewrite_sumChain (n : Nat) :
    (rewrite none (sumChain n)).1 = lit (.int ((n : Int) + 1)) := by
  obtain ⟨v, hv, heval⟩ := rewrite_closed none (complete_sumChain n) (rolls_sumChain n)
    (by simp [refs_sumChain n])
  -- the literal is the value evaluation gives, which is the sum
  have h := (heval (.ofList []) 0).symm.trans (eval_sumChain (.ofList []) n 0)
  simp only [Except.ok.injEq, Outcome.mk.injEq, Value.num.injEq] at h
  rw [hv, h.1]

/-- `1 + ... + 1 + 1d6` with 601 ones, without bindings: the ones add up to `601` and the roll
stays, but simplifying it from the command line's level is a recursion fault.  And with `s` bound
to the text `ab`, the steps `* 2 / 2` of `s * 2 / 2 * 1d6` cancel: evaluating the tree fails at the
division before it throws its die, while evaluating what it simplifies to, `s * 1d6`, throws it. -/
theorem simplifyAt_rollAfterOnes :
    (rewrite none (op .add (sumChain 600) (roll ⟨1, 6, none⟩))).1 =
        op .add (lit (.int 601)) (roll ⟨1, 6, none⟩) ∧
      (∃ en, simplifyAt none 6 (op .add (sumChain 600) (roll ⟨1, 6, none⟩)) =
        .error (.tooDeep en)) ∧
      (rewrite (some [("s", .text "ab")])
          (op .mul (op .div (op .mul (ref "s") (lit (.int 2))) (lit (.int 2)))
            (roll ⟨1, 6, none⟩))).1 = op .mul (ref "s") (roll ⟨1, 6, none⟩) ∧
      eval (some [("s", .text "ab")]) (.ofList [.int 0])
          (op .mul (op .div (op .mul (ref "s") (lit (.int 2))) (lit (.int 2)))
            (roll ⟨1, 6, none⟩)) 0 =
        .error ⟨.operandKinds .div "str" "int", [], 0⟩ ∧
      eval (some [("s", .text "ab")]) (.ofList [.int 0]) (op .mul (ref "s") (roll ⟨1, 6, none⟩)) 0 =
        .ok ⟨.text "ab", [⟨6, [1], 1⟩], 1⟩ := by
  refine ⟨?_, ?_, rfl, rfl, rfl⟩
  · rw [rewrite_op]
    simp [node, rewrite_sumChain, folds, rewrite]
  · exact simplifyAt_tooDeep none (by simp [complete, complete_sumChain])
      (by simp [leftDepth, leftDepth_sumChain, depthLimit])

/-- `1 + 1 + ... + 1` with 601 terms, without bindings: evaluating it from the calculator's level
gives 601, and it simplifies to the literal `601`, but simplifying it from the command line's
level is a recursion fault. -/
theorem simplifyAt_closedChain :
    (rewrite none (sumChain 600)).1 = lit (.int 601) ∧
      evalAt none (.ofList []) 6 (sumChain 600) 0 = .ok ⟨.num (.int 601), [], 0⟩ ∧
      ∃ en, simplifyAt none 6 (sumChain 600) = .error (.tooDeep en) := by
  refine ⟨rewrite_sumChain 600, ?_,
    simplifyAt_tooDeep none (complete_sumChain 600) (by rw [leftDepth_sumChain]; decide)⟩
  rw [(evalAt_follows none 6 (sumChain 600) 0).eq_of_not
    (by simp [height_sumChain, depthLimit]), eval_sumChain]
  rfl

end Expr

end DiceNotation
