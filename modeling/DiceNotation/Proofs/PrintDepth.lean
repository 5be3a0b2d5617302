import DiceNotation.Proofs.CallDepth

/-!
# Printing within the call depth limit

`Expr.renderAt` prints a tree in frames nested as deeply as the tree; `Expr.render?` prints it with
no limit.  The main statement, `Expr.renderAt_follows`, says that the two agree on every tree and
at every level, except that the first may fail with a recursion fault, and only when the tree
reaches within five levels of the limit:

  `Follows (depthLimit < d + e.height + 5) (e.renderAt d) e.render?`

Its corollaries say that a tree with room prints (`renderAt_eq_render?`), and that putting a tree
into a message (`Parser.printStep`) passes then.
-/

namespace DiceNotation

namespace Expr

/-! ## The plain printer, node by node -/

theorem render?_lit (n : Number) : (lit n).render? = n.text? := by
  cases n with
  | int i =>
    simp only [render?, printFault?, Number.text?]
    cases Number.withinDigitLimit i <;> rfl
  | float x => rfl
  | bool b => rfl

theorem render?_ref (x : String) : (ref x).render? = .ok x := rfl

theorem render?_roll (r : Roll) : (roll r).render? =
    if Number.withinDigitLimit r.dice && Number.withinDigitLimit r.sides then .ok r.text
    else .error .digitLimit := by
  simp only [render?, printFault?]
  cases Number.withinDigitLimit r.dice && Number.withinDigitLimit r.sides <;> rfl

theorem render?_missing : missing.render? = .error .unprintable := rfl

/-- An operation prints its left operand, then its right one, then joins them. -/
theorem render?_op (o : Operator) (l r : Expr) : (op o l r).render? = (do
    let ls ← l.render?
    let rs ← r.render?
    pure (wrap (parenLeft o l) ls ++ " " ++ o.symbol.toString ++ " " ++ wrap (parenRight o r) rs)) := by
  simp only [render?, printFault?, text]
  cases l.printFault? <;> cases r.printFault? <;> rfl

/-! ## How high each step of the printer goes -/

@[simp] theorem otherKindCheck_height : Excursion.otherKindCheck.height = 4 := by decide

@[simp] theorem missingExcursion_height : missingExcursion.height = 4 := by decide

theorem numberExcursion_height_le (n : Number) : (numberExcursion n).height ≤ 3 := by
  cases n with
  | float x =>
    simp only [numberExcursion]
    split <;> decide
  | int i => simp [numberExcursion]
  | bool b => simp [numberExcursion]

theorem rollExcursion_height (r : Roll) : (rollExcursion r).height = 4 := by
  simp only [rollExcursion]
  split <;> decide

theorem parensExcursion_height_le (e : Expr) : (parensExcursion e).height ≤ 5 := by
  cases e <;> simp [parensExcursion, Excursion.enterFrame, Excursion.lift, Excursion.otherKindCheck]

/-! ## The printer with frames follows the plain one -/

/-- Printing in frames from level `d` gives the plain text or fault of the tree, unless the tree
reaches within five levels of the limit, where it may fail with a recursion fault instead. -/
theorem renderAt_follows (d : Nat) (e : Expr) :
    Follows (depthLimit < d + e.height + 5) (e.renderAt d) e.render? := by
  induction e generalizing d with
  | lit n =>
    have := numberExcursion_height_le n
    rw [render?_lit]
    exact Follows.enter (fun h => by simp at h; omega)
      (Follows.run (fun h => by simp at h; omega) Follows.refl)
  | ref x =>
    exact Follows.enter (fun h => by simp at h; omega)
      (Follows.run (fun h => by simp at h ⊢; omega) Follows.refl)
  | roll r =>
    have := rollExcursion_height r
    rw [render?_roll]
    refine Follows.enter (fun h => by simp at h; omega)
      (Follows.run (fun h => by simp at h; omega) ?_)
    split <;> exact Follows.refl
  | missing =>
    exact Follows.enter (fun h => by simp at h; omega)
      (Follows.run (fun h => by simp at h ⊢; omega) Follows.refl)
  | op o l r ihl ihr =>
    -- every step the node takes in its own frame stays within five levels of it, and each
    -- operand is printed one level down, where it has the room the node had
    have hl := parensExcursion_height_le l
    have hr := parensExcursion_height_le r
    simp only [height_op] at *
    rw [render?_op]
    refine Follows.enter (fun h => by omega) (Follows.run (fun h => by simp; omega) ?_)
    refine Follows.bind ((ihl (d + 1)).mono (fun h => by omega)) (fun f hf => by rw [hf]; rfl)
      (fun ls hls => ?_)
    simp only [hls]
    refine Follows.run (fun h => by omega) ?_
    refine Follows.bind ((ihr (d + 1)).mono (fun h => by omega)) (fun f hf => by rw [hf]; rfl)
      (fun rs hrs => ?_)
    simp only [hrs]
    exact Follows.run (fun h => by omega) (Follows.run (fun h => by simp; omega) Follows.refl)

/-- A tree that stays five levels below the limit prints as it does with no limit. -/
theorem renderAt_eq_render? {d : Nat} {e : Expr} (h : d + e.height + 5 ≤ depthLimit) :
    e.renderAt d = e.render? :=
  (renderAt_follows d e).eq_of_not (by omega)

end Expr

end DiceNotation
