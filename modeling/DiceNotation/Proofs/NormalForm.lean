import DiceNotation.Expr.Simplify
import DiceNotation.Proofs.CallDepth

/-!
# Simplifying reaches a normal form

`Expr.rewrite` simplifies a tree bottom up and says whether anything changed.  A tree is normal
for some bindings (`Expr.Normal`) when nothing is left to do in it:

* no name in it is bound to an integer or a float (`Expr.BindsLiteral`);
* no operation has two literal operands;
* no operation with a literal right operand has on its left an operation of the same precedence
  whose right operand is a literal.

The last two are the shapes `Expr.folds` accepts.  The main statements:

* `Expr.normal_rewrite`: what `rewrite` gives is normal;
* `Expr.rewrite_eq_false_iff`: `rewrite` reports no change exactly on normal trees, and then it
  gives the tree back (`Expr.rewrite_of_normal`), so a second run changes nothing
  (`Expr.rewrite_rewrite`);
* `Expr.simplifyAt_follows`: simplifying in frames from level `s` agrees with `rewrite` on a tree
  with no missing node, unless the tree reaches within `2 * height + 5` levels of the limit;
* `Expr.simplifyAt_normalForm`: all of it together;
* `Expr.simplifyAt_onesAfter`: `a + 1 + ... + 1` with 600 ones is too high for the limit.
-/

namespace DiceNotation

/-- Merged steps keep the operator of one of the two. -/
theorem Merged.of_step {lo ro o : Operator} {a b c : Number}
    (h : Merged.of lo a ro b = .step o c) : o = lo ∨ o = ro := by
  unfold Merged.of at h
  split at h
  · cases h
    exact .inl rfl
  · split at h
    · cases h
    · -- the step keeps the operator written before the larger literal
      by_cases hg : a.gt b = true
      · simp only [hg, if_true] at h
        cases h
        exact .inl rfl
      · simp only [hg] at h
        cases h
        exact .inr rfl

namespace Expr

variable (ctx : Option Bindings)

/-! ## Normal trees -/

/-- Bindings turn a name into a literal: the name is bound to an integer or a float, not to a
truth value or a text. -/
def BindsLiteral (x : String) : Prop :=
  (∃ n, ctx.bind (fun bs => bs.lookup x) = some (.num (.int n))) ∨
    ∃ f, ctx.bind (fun bs => bs.lookup x) = some (.num (.float f))

/-- The two shapes of `l o r` that simplifying folds: two literals, and a literal after an
operation of the same precedence that ends in a literal. -/
def folds (o : Operator) : Expr → Expr → Bool
  | lit _, lit _ => true
  | op lo _ (lit _), lit _ => lo.precedence == o.precedence
  | _, _ => false

/-- A pair of operands of neither shape does not fold. -/
theorem folds_eq_false {o : Operator} {l r : Expr}
    (h₁ : ∀ a b, l = lit a → r = lit b → False)
    (h₂ : ∀ lo x a b, l = op lo x (lit a) → r = lit b → False) : folds o l r = false := by
  unfold folds
  split
  · exact (h₁ _ _ rfl rfl).elim
  · exact (h₂ _ _ _ _ rfl rfl).elim
  · rfl

/-- Nothing is left to simplify in the tree. -/
def Normal : Expr → Prop
  | ref x => ¬ BindsLiteral ctx x
  | op o l r => Normal l ∧ Normal r ∧ folds o l r = false
  | _ => True

theorem substitute?_eq_none_iff (x : String) :
    substitute? ctx x = none ↔ ¬ BindsLiteral ctx x := by
  unfold substitute? BindsLiteral
  split <;> simp_all

theorem bindsLiteral_of_substitute? {x : String} {n : Number} (h : substitute? ctx x = some n) :
    BindsLiteral ctx x :=
  Classical.byContradiction fun hb => by simp [(substitute?_eq_none_iff ctx x).2 hb] at h

instance (x : String) : Decidable (BindsLiteral ctx x) :=
  decidable_of_iff (¬ substitute? ctx x = none)
    (by rw [substitute?_eq_none_iff, Classical.not_not])

instance instDecidableNormal : (e : Expr) → Decidable (Normal ctx e)
  | lit _ => isTrue trivial
  | ref x => inferInstanceAs (Decidable (¬ BindsLiteral ctx x))
  | roll _ => isTrue trivial
  | missing => isTrue trivial
  | op o l r =>
    have := instDecidableNormal l
    have := instDecidableNormal r
    inferInstanceAs (Decidable (Normal ctx l ∧ Normal ctx r ∧ folds o l r = false))

example : Normal none (op .add (op .mul (ref "a") (lit (.int 2))) (lit (.int 1))) := by decide

example : ¬ Normal (some [("a", .num (.int 3))]) (op .add (ref "a") (lit (.int 1))) := by decide

/-! ## One step of simplifying an operation -/

/-- Folding a shape that `folds` accepts: the literal of the result, or the two literal steps
merged. -/
def fold (o : Operator) : Expr → Expr → Expr
  | lit a, lit b => lit (o.apply a b)
  | op lo x (lit a), lit b => (Merged.of lo a o b).applyTo x
  | l, r => op o l r

/-- Simplifying an operation, from what simplifying its operands gave: fold the shapes that
fold, and otherwise rebuild the operation, changed when an operand changed. -/
def node (o : Operator) (p q : Expr × Bool) : Expr × Bool :=
  if folds o p.1 q.1 then (fold o p.1 q.1, true) else (op o p.1 q.1, p.2 || q.2)

/-- Simplifying an operation is one `node` step on what simplifying its operands gave. -/
theorem rewrite_op (o : Operator) (l r : Expr) :
    rewrite ctx (op o l r) = node o (rewrite ctx l) (rewrite ctx r) := by
  rw [rewrite]
  rcases rewrite ctx l with ⟨l', cl⟩
  rcases rewrite ctx r with ⟨r', cr⟩
  dsimp only
  split
  · rfl
  · split <;> simp_all [node, folds, fold]
  · rename_i h₁ h₂
    simp [node, folds_eq_false h₁ h₂]

/-! ## Folding keeps a tree normal -/

/-- Whether a literal step folds into the tree on its left depends only on the precedence of its
operator, not on the operator or the literal. -/
theorem folds_lit {o o' : Operator} (h : o.precedence = o'.precedence) (l : Expr) (a b : Number) :
    folds o l (lit a) = folds o' l (lit b) := by
  cases l with
  | op lo x y => cases y <;> simp [folds, h]
  | _ => rfl

theorem normal_fold {o : Operator} {l r : Expr} (hl : Normal ctx l) (hr : Normal ctx r)
    (hf : folds o l r = true) : Normal ctx (fold o l r) := by
  unfold folds at hf
  split at hf
  · exact trivial
  · rename_i lo x a b
    obtain ⟨hx, _, hxa⟩ := hl
    -- the merged step sits on `x`, which was already normal under a step of that precedence
    have hp : lo.precedence = o.precedence := by simpa using hf
    cases hm : Merged.of lo a o b with
    | cancel => simpa [fold, hm, Merged.applyTo] using hx
    | step o' c =>
      have ho' : lo.precedence = o'.precedence := by
        rcases Merged.of_step hm with rfl | rfl
        · rfl
        · exact hp
      simp only [fold, hm, Merged.applyTo]
      exact ⟨hx, trivial, (folds_lit ho'.symm x c a).trans hxa⟩
  · cases hf

theorem normal_node {o : Operator} {p q : Expr × Bool} (hp : Normal ctx p.1)
    (hq : Normal ctx q.1) : Normal ctx (node o p q).1 := by
  unfold node
  split
  · exact normal_fold ctx hp hq ‹_›
  · exact ⟨hp, hq, Bool.eq_false_iff.2 ‹_›⟩

/-! ## What simplifying gives -/

/-- A tree that simplifying reports unchanged comes back as it was. -/
theorem rewrite_unchanged {e : Expr} (h : (rewrite ctx e).2 = false) : (rewrite ctx e).1 = e := by
  induction e with
  | ref x => cases hs : substitute? ctx x <;> simp_all [rewrite]
  | op o l r ihl ihr =>
    rw [rewrite_op] at h ⊢
    unfold node at h ⊢
    split at h
    · cases h
    · rename_i hf
      simp only [Bool.or_eq_false_iff] at h
      rw [if_neg hf, ihl h.1, ihr h.2]
  | _ => rfl

/-- What simplifying gives is normal. -/
theorem normal_rewrite (e : Expr) : Normal ctx (rewrite ctx e).1 := by
  induction e with
  | ref x =>
    cases hs : substitute? ctx x with
    | none => simpa [rewrite, hs, Normal] using (substitute?_eq_none_iff ctx x).1 hs
    | some n => simp [rewrite, hs, Normal]
  | op o l r ihl ihr =>
    rw [rewrite_op]
    exact normal_node ctx ihl ihr
  | _ => trivial

/-- Simplifying reports no change exactly on normal trees. -/
theorem rewrite_eq_false_iff (e : Expr) : (rewrite ctx e).2 = false ↔ Normal ctx e := by
  induction e with
  | ref x =>
    cases hs : substitute? ctx x with
    | none => simpa [rewrite, hs, Normal] using (substitute?_eq_none_iff ctx x).1 hs
    | some n => simpa [rewrite, hs, Normal] using bindsLiteral_of_substitute? ctx hs
  | op o l r ihl ihr =>
    rw [rewrite_op]
    unfold node
    split
    · -- a fold is a change, and the tree was not normal: its operands would have come back as
      -- they were, and folded
      rename_i hf
      simp only [Bool.true_eq_false, false_iff]
      rintro ⟨hl, hr, hlr⟩
      rw [rewrite_unchanged ctx (ihl.2 hl), rewrite_unchanged ctx (ihr.2 hr), hlr] at hf
      cases hf
    · rename_i hf
      simp only [Bool.or_eq_false_iff, ihl, ihr]
      constructor
      · rintro ⟨hl, hr⟩
        rw [rewrite_unchanged ctx (ihl.2 hl), rewrite_unchanged ctx (ihr.2 hr)] at hf
        exact ⟨hl, hr, by simpa using hf⟩
      · rintro ⟨hl, hr, _⟩
        exact ⟨hl, hr⟩
  | _ => simp [rewrite, Normal]

/-- A normal tree comes back as it was, reported unchanged. -/
theorem rewrite_of_normal {e : Expr} (h : Normal ctx e) : rewrite ctx e = (e, false) := by
  have hc := (rewrite_eq_false_iff ctx e).2 h
  exact Prod.ext (rewrite_unchanged ctx hc) hc

/-- Simplifying twice changes nothing the second time. -/
theorem rewrite_rewrite (e : Expr) :
    rewrite ctx (rewrite ctx e).1 = ((rewrite ctx e).1, false) :=
  rewrite_of_normal ctx (normal_rewrite ctx e)

/-! ## Simplifying keeps a tree complete and never makes it higher -/

theorem height_node_le (o : Operator) (p q : Expr × Bool) :
    (node o p q).1.height ≤ max p.1.height q.1.height + 1 := by
  unfold node
  split
  · unfold fold
    split
    · simp [height]
    · -- a merged step sits on the tree two levels down, or the steps cancel and leave it
      rename_i lo x a b _ _
      cases Merged.of lo a o b with
      | cancel =>
        simp [Merged.applyTo, height, *]
        omega
      | step o' c => simp [Merged.applyTo, height, *]
    · simp
  · simp

theorem complete_node {o : Operator} {p q : Expr × Bool} (hp : p.1.complete = true)
    (hq : q.1.complete = true) : (node o p q).1.complete = true := by
  unfold node
  split
  · unfold fold
    split
    · rfl
    · rename_i lo x a b _ _
      have hx : x.complete = true := by simp_all [complete]
      cases Merged.of lo a o b <;> simp [Merged.applyTo, complete, hx]
    · simp [complete, hp, hq]
  · simp [complete, hp, hq]

theorem height_rewrite_le (e : Expr) : (rewrite ctx e).1.height ≤ e.height := by
  induction e with
  | ref x => cases hs : substitute? ctx x <;> simp [rewrite, hs, height]
  | op o l r ihl ihr =>
    rw [rewrite_op]
    have := height_node_le o (rewrite ctx l) (rewrite ctx r)
    simp only [height_op]
    omega
  | _ => simp [rewrite]

theorem complete_rewrite {e : Expr} (he : e.complete = true) :
    (rewrite ctx e).1.complete = true := by
  induction e with
  | ref x => cases hs : substitute? ctx x <;> simp [rewrite, hs, complete]
  | op o l r ihl ihr =>
    simp only [complete, Bool.and_eq_true] at he
    rw [rewrite_op]
    exact complete_node (ihl he.1) (ihr he.2)
  | _ => simpa [rewrite] using he

/-! ## Simplifying in frames -/

theorem mergeExcursion_height_le (lo : Operator) (a : Number) (ro : Operator) (b : Number) :
    (mergeExcursion lo a ro b).height ≤ 3 := by
  unfold mergeExcursion
  split
  · decide
  · split
    · decide
    · decide

/-- Rebuilding an operation that does not fold: a new node when an operand changed, the old one
otherwise. -/
theorem rebuild_follows {deep : Prop} {s : Nat} {o : Operator} {l r l' r' : Expr} {cl cr : Bool}
    (hroom : ¬ deep → s + 4 ≤ depthLimit) (hl : cl = false → l' = l)
    (hr : cr = false → r' = r)
    (hf : folds o l' r' = false) :
    Follows deep
      (if cl || cr then Excursion.run (s + 1) buildExcursion >>= fun _ => pure (op o l' r', true)
        else pure (op o l r, false))
      (.ok (node o (l', cl) (r', cr))) := by
  have hnode : node o (l', cl) (r', cr) = (op o l' r', cl || cr) := by simp [node, hf]
  have hb : buildExcursion.height = 3 := by decide
  rw [hnode]
  cases hc : cl || cr with
  | true =>
    rw [if_pos rfl]
    exact Follows.run (fun h => by have := hroom h; omega) Follows.refl
  | false =>
    simp only [Bool.or_eq_false_iff] at hc
    rw [if_neg (by decide), hl hc.1, hr hc.2]
    exact Follows.refl

/-- Simplifying a tree with no missing node in frames from level `s` gives what `rewrite` gives,
unless the tree reaches within `2 * height + 5` levels of the limit, where it may fail with a
recursion fault instead: each operation takes two levels, its rule one below its own frame and
its operands one further, and the rule's own steps go four levels below it. -/
theorem simplifyAt_follows (s : Nat) {e : Expr} (he : e.complete = true) :
    Follows (depthLimit < s + 2 * e.height + 5) (simplifyAt ctx s e) (.ok (rewrite ctx e)) := by
  induction e generalizing s with
  | lit n => exact Follows.enter (fun h => by simp [height] at h; omega) Follows.refl
  | roll r => exact Follows.enter (fun h => by simp [height] at h; omega) Follows.refl
  | missing => simp [complete] at he
  | ref x =>
    refine Follows.enter (fun h => by simp [height] at h; omega) ?_
    cases ctx with
    | none => exact Follows.refl
    | some bs =>
      have hc : Excursion.construct.height = 3 := by decide
      refine Follows.run (fun h => by simp [height] at h ⊢; omega) ?_
      cases hs : substitute? (some bs) x with
      | none =>
        simp only [rewrite, hs]
        exact Follows.refl
      | some n =>
        simp only [rewrite, hs]
        exact Follows.run (fun h => by simp [height] at h; omega) Follows.refl
  | op o l r ihl ihr =>
    have hlc : l.complete = true := by simp_all [complete]
    have hrc : r.complete = true := by simp_all [complete]
    have hl := @rewrite_unchanged ctx l
    have hr := @rewrite_unchanged ctx r
    -- the operands are simplified two levels down, where they have the room the node had
    rw [rewrite_op]
    simp only [simplifyAt]
    refine Follows.enter (fun h => by simp at h; omega)
      (Follows.enter (fun h => by simp at h; omega) ?_)
    refine Follows.bind_ok ((ihl (s + 2) hlc).mono (fun h => by simp at h ⊢; omega)) ?_
    refine Follows.bind_ok ((ihr (s + 2) hrc).mono (fun h => by simp at h ⊢; omega)) ?_
    rcases hlr : rewrite ctx l with ⟨l', cl⟩
    rcases hrr : rewrite ctx r with ⟨r', cr⟩
    rw [hlr] at hl
    rw [hrr] at hr
    dsimp only at hl hr ⊢
    -- the rule's own steps go at most four levels below its frame
    have hroom : ¬ depthLimit < s + 2 * (op o l r).height + 5 → s + 5 ≤ depthLimit :=
      fun h => by simp at h; omega
    have hrun {x : Excursion} (hx : x.height ≤ 4) :
        ¬ depthLimit < s + 2 * (op o l r).height + 5 → s + 1 + x.height ≤ depthLimit :=
      fun h => by have := hroom h; omega
    have hkeep : ¬ depthLimit < s + 2 * (op o l r).height + 5 → s + 4 ≤ depthLimit :=
      fun h => by have := hroom h; omega
    split
    · rename_i a b
      have : node o (lit a, cl) (lit b, cr) = (lit (o.apply a b), true) := by
        simp [node, folds, fold]
      rw [this]
      exact Follows.run (hrun (by decide)) Follows.refl
    · rename_i lo x y b
      refine Follows.run (hrun (by decide)) ?_
      split
      · rename_i hp
        split
        · rename_i a
          have hm :
              Excursion.height ((1, Entry.frame) :: (mergeExcursion lo a o b).lift 1) ≤ 4 := by
            have := Excursion.height_lift_le 1 (mergeExcursion lo a o b)
            have := mergeExcursion_height_le lo a o b
            simp only [Excursion.height_cons]
            omega
          have : node o (op lo x (lit a), cl) (lit b, cr) =
              ((Merged.of lo a o b).applyTo x, true) := by
            simp [node, folds, fold, hp]
          rw [this]
          exact Follows.run (hrun hm) Follows.refl
        · rename_i hy
          refine Follows.run (hrun (by decide)) ?_
          exact rebuild_follows hkeep hl hr
            (folds_eq_false (fun _ _ h _ => by cases h)
              (fun _ _ a _ h _ => by cases h; exact hy a rfl))
      · rename_i hp
        exact rebuild_follows hkeep hl hr (by cases y <;> simp [folds, hp])
    · rename_i h₁ h₂
      refine Follows.run (hrun (by decide)) ?_
      exact rebuild_follows hkeep hl hr
        (folds_eq_false h₁ (fun lo x a b h h' => h₂ lo x (lit a) b h h'))

/-! ## Simplifying reaches a normal form -/

/-- Simplifying a tree with no missing node in frames from level `s`, under any bindings: unless
the tree is too high for the limit, where a recursion fault may come instead, it gives what
`rewrite` gives, which is normal; it reports no change exactly when the tree was normal, and
then gives the tree back; and simplifying its result again reports no change. -/
theorem simplifyAt_normalForm (ctx : Option Bindings) {e : Expr} (he : e.complete = true)
    (s : Nat) :
    Follows (depthLimit < s + 2 * e.height + 5) (simplifyAt ctx s e) (.ok (rewrite ctx e)) ∧
      Normal ctx (rewrite ctx e).1 ∧
      ((rewrite ctx e).2 = false ↔ Normal ctx e) ∧
      (Normal ctx e → (rewrite ctx e).1 = e) ∧
      Follows (depthLimit < s + 2 * e.height + 5) (simplifyAt ctx s (rewrite ctx e).1)
        (.ok ((rewrite ctx e).1, false)) := by
  refine ⟨simplifyAt_follows ctx s he, normal_rewrite ctx e, rewrite_eq_false_iff ctx e,
    fun h => by rw [rewrite_of_normal ctx h], ?_⟩
  -- the result is complete and no higher than the tree, so it has the room the tree had
  rw [← rewrite_rewrite ctx e]
  exact (simplifyAt_follows ctx s (complete_rewrite ctx he)).mono
    (fun h => by have := height_rewrite_le ctx e; omega)

/-- `(a + 1) + 2` with no bindings, at the level the command line simplifies from. -/
theorem simplifyAt_normalForm_merge :
    (op .add (op .add (ref "a") (lit (.int 1))) (lit (.int 2))).complete = true ∧
      Follows
        (depthLimit <
          6 + 2 * (op .add (op .add (ref "a") (lit (.int 1))) (lit (.int 2))).height + 5)
        (simplifyAt none 6 (op .add (op .add (ref "a") (lit (.int 1))) (lit (.int 2))))
        (.ok (rewrite none (op .add (op .add (ref "a") (lit (.int 1))) (lit (.int 2))))) ∧
      Normal none (rewrite none (op .add (op .add (ref "a") (lit (.int 1))) (lit (.int 2)))).1 ∧
      ((rewrite none (op .add (op .add (ref "a") (lit (.int 1))) (lit (.int 2)))).2 = false ↔
        Normal none (op .add (op .add (ref "a") (lit (.int 1))) (lit (.int 2)))) ∧
      (Normal none (op .add (op .add (ref "a") (lit (.int 1))) (lit (.int 2))) →
        (rewrite none (op .add (op .add (ref "a") (lit (.int 1))) (lit (.int 2)))).1 =
          op .add (op .add (ref "a") (lit (.int 1))) (lit (.int 2))) ∧
      Follows
        (depthLimit <
          6 + 2 * (op .add (op .add (ref "a") (lit (.int 1))) (lit (.int 2))).height + 5)
        (simplifyAt none 6
          (rewrite none (op .add (op .add (ref "a") (lit (.int 1))) (lit (.int 2)))).1)
        (.ok ((rewrite none (op .add (op .add (ref "a") (lit (.int 1))) (lit (.int 2)))).1,
          false)) :=
  ⟨rfl, simplifyAt_normalForm none rfl 6⟩

/-! ## A chain too long for the limit -/

/-- Simplifying reaches the leftmost leaf of a tree `2 * leftDepth` levels below the tree's frame,
before any other step can fail: past the limit there, simplifying is a recursion fault. -/
theorem simplifyAt_tooDeep (ctx : Option Bindings) {e : Expr} (he : e.complete = true) {s : Nat}
    (h : depthLimit < s + 2 * e.leftDepth) : ∃ en, simplifyAt ctx s e = .error (.tooDeep en) := by
  induction e generalizing s with
  | op o l r ihl _ =>
    have hl : l.complete = true := by simp_all [complete]
    by_cases hs : depthLimit < s
    · simp only [simplifyAt, enterAt_eq_error hs]
      exact ⟨.frame, rfl⟩
    by_cases hs' : depthLimit < s + 1
    · simp only [simplifyAt, enterAt_eq_ok (Nat.le_of_not_lt hs), enterAt_eq_error hs']
      exact ⟨.frame, rfl⟩
    -- the left operand is simplified two levels down, with one operation less above its leaf
    obtain ⟨en, hen⟩ := ihl hl (s := s + 2) (by simp only [leftDepth] at h; omega)
    refine ⟨en, ?_⟩
    simp only [simplifyAt, enterAt_eq_ok (Nat.le_of_not_lt hs),
      enterAt_eq_ok (Nat.le_of_not_lt hs'), hen]
    rfl
  | missing => simp [complete] at he
  | lit _ | ref _ | roll _ =>
    simp only [leftDepth, Nat.mul_zero, Nat.add_zero] at h
    simp only [simplifyAt, enterAt_eq_error h]
    exact ⟨.frame, rfl⟩

/-- `a + 1 + ... + 1` with `n` ones, grouped to the left as the reader groups it. -/
def onesAfter : Nat → Expr
  | 0 => ref "a"
  | n + 1 => op .add (onesAfter n) (lit (.int 1))

/-- With no bindings, the ones add up onto `a`. -/
theorem rewrite_onesAfter (n : Nat) :
    (rewrite none (onesAfter (n + 1))).1 =
      op .add (ref "a") (lit (.int ((n + 1 : Nat) : Int))) := by
  induction n with
  | zero => rfl
  | succ n ih =>
    -- the ones so far sum to `n + 1`; the next merges into it
    rw [onesAfter, rewrite_op]
    simp only [node, ih]
    simp [folds, fold, Merged.of, Merged.applyTo, Operator.isAdditive, Operator.apply,
      Number.arith, rewrite]

theorem complete_onesAfter (n : Nat) : (onesAfter n).complete = true := by
  induction n with
  | zero => rfl
  | succ n ih => simp [onesAfter, complete, ih]

theorem leftDepth_onesAfter (n : Nat) : (onesAfter n).leftDepth = n := by
  induction n with
  | zero => rfl
  | succ n ih => simp [onesAfter, leftDepth, ih]

/-- The leftmost name of the chain is `2 * n` levels below the chain's frame. -/
theorem simplifyAt_onesAfter_tooDeep (ctx : Option Bindings) {s n : Nat}
    (hn : depthLimit < s + 2 * n) :
    ∃ en, simplifyAt ctx s (onesAfter n) = .error (.tooDeep en) :=
  simplifyAt_tooDeep ctx (complete_onesAfter n) (by rwa [leftDepth_onesAfter])

/-- `a + 1 + ... + 1` with 600 ones simplifies to `a + 600`, but simplifying it from the command
line's level is a recursion fault. -/
theorem simplifyAt_onesAfter :
    (rewrite none (onesAfter 600)).1 = op .add (ref "a") (lit (.int 600)) ∧
      ∃ en, simplifyAt none 6 (onesAfter 600) = .error (.tooDeep en) :=
  ⟨rewrite_onesAfter 599, simplifyAt_onesAfter_tooDeep none (by unfold depthLimit; omega)⟩

end Expr

end DiceNotation
