import DiceNotation.Expr.Simplify
import Mathlib.Algebra.Order.Field.Rat
import Mathlib.Tactic.FieldSimp
import Mathlib.Tactic.Ring

/-!
# Merging two literal steps is exact algebra

Simplifying rewrites `(x lo a) ro b`, two literal steps of one precedence, into one step on `x`,
or into `x` alone (`Merged.of`).  What it does to the literals uses only the arithmetic of the
literals and two comparisons, so the same rule makes sense in any arithmetic (`Merged.ofIn`):
over numbers, with their exact comparisons, it is `Merged.of` (`Merged.of_eq_ofIn`).

Over the rationals with exact arithmetic the rule is a correct rewrite: for every value `x` of the
tree on the left and all literals `a` and `b` (divisors not zero), the merged steps give `x` what
the two steps give it (`Merged.ofIn_exact`).  The cases are the two operators alike, whose
literals combine by sum or product, and the two operators different, where the operator written
before the larger literal is kept with the difference or quotient of larger over smaller; larger
is meant by value, so with negative literals it need not be the literal of larger magnitude.
-/

namespace DiceNotation

namespace Operator

/-- The operator on rational numbers, computed exactly. -/
def exact : Operator → ℚ → ℚ → ℚ
  | add, x, y => x + y
  | sub, x, y => x - y
  | mul, x, y => x * y
  | div, x, y => x / y

/-- Two different operators of one precedence are `+` and `-`, or `*` and `/`, in some order. -/
theorem pair_of_ne {lo ro : Operator} (hp : lo.precedence = ro.precedence) (hne : lo ≠ ro) :
    (lo = add ∧ ro = sub) ∨ (lo = sub ∧ ro = add) ∨ (lo = mul ∧ ro = div) ∨
      (lo = div ∧ ro = mul) := by
  cases lo <;> cases ro <;> simp_all [precedence]

end Operator

namespace Merged

section

variable {α : Type} (eq gt : α → α → Bool) (arith : Operator → α → α → α)

/-- The two literal steps `lo a` and `ro b`, of one precedence, merged as `Merged.of` merges them,
in an arithmetic whose operators `arith` applies and whose literals `eq` and `gt` compare.
`none` is the two steps cancelling, `some (o, c)` the one step `o c`. -/
def ofIn (lo : Operator) (a : α) (ro : Operator) (b : α) : Option (Operator × α) :=
  if lo = ro then some (lo, arith (if lo.isAdditive then .add else .mul) a b)
  else if eq a b then none
  else
    let (o, big, small) := if gt a b then (lo, a, b) else (ro, b, a)
    some (o, arith (if o.isAdditive then .sub else .div) big small)

/-- What merged steps make of the value `x` on their left. -/
def valueIn (x : α) : Option (Operator × α) → α
  | none => x
  | some (o, c) => arith o x c

end

/-- Merging numbers is merging in the arithmetic of numbers, with their exact comparisons. -/
theorem of_eq_ofIn (lo : Operator) (a : Number) (ro : Operator) (b : Number) :
    of lo a ro b =
      match ofIn Number.eq Number.gt Operator.apply lo a ro b with
      | none => cancel
      | some (o, c) => step o c := by
  unfold of ofIn
  split
  · rfl
  · split
    · rfl
    · by_cases hg : a.gt b = true <;> simp [hg]

/-- Merging rationals, compared by their order. -/
abbrev ofExact (lo : Operator) (a : ℚ) (ro : Operator) (b : ℚ) : Option (Operator × ℚ) :=
  ofIn (· == ·) (fun a b => decide (b < a)) Operator.exact lo a ro b

/-- Steps of different operators on different rationals keep the operator written before the
larger literal. -/
theorem ofExact_of_ne {lo ro : Operator} (hne : lo ≠ ro) {a b : ℚ} (hab : a ≠ b) :
    ofExact lo a ro b =
      if b < a then some (lo, (if lo.isAdditive then Operator.sub else Operator.div).exact a b)
      else some (ro, (if ro.isAdditive then Operator.sub else Operator.div).exact b a) := by
  unfold ofExact ofIn
  rw [if_neg hne, if_neg (by simpa using hab)]
  by_cases hlt : b < a <;> simp [hlt]

/-- The same operator twice: the literals combine under it, by sum for `+` and `-` and by product
for `*` and `/`. -/
theorem valueIn_ofExact_same (o : Operator) (x a b : ℚ) :
    valueIn Operator.exact x (ofExact o a o b) = o.exact (o.exact x a) b := by
  cases o <;> simp [ofExact, ofIn, valueIn, Operator.exact, Operator.isAdditive] <;> ring

/-- Different operators on equal literals cancel: `(x + a) - a`, `(x - a) + a`, and, for a
literal other than zero, `(x * a) / a` and `(x / a) * a` are `x`. -/
theorem valueIn_ofExact_cancel {lo ro : Operator} (hp : lo.precedence = ro.precedence)
    (hne : lo ≠ ro) (x a : ℚ) (hz : lo = .div ∨ ro = .div → a ≠ 0) :
    valueIn Operator.exact x (ofExact lo a ro a) = ro.exact (lo.exact x a) a := by
  have hcancel : ofExact lo a ro a = none := by simp [ofExact, ofIn, hne]
  rw [hcancel]
  rcases Operator.pair_of_ne hp hne with ⟨rfl, rfl⟩ | ⟨rfl, rfl⟩ | ⟨rfl, rfl⟩ | ⟨rfl, rfl⟩
  · simp [valueIn, Operator.exact]
  · simp [valueIn, Operator.exact]
  · simp [valueIn, Operator.exact, hz (.inr rfl)]
  · simp [valueIn, Operator.exact, hz (.inl rfl)]

/-- Different operators on different literals: the kept step, with the difference or quotient of
larger over smaller, is the two steps regrouped. -/
theorem valueIn_ofExact_ne {lo ro : Operator} (hp : lo.precedence = ro.precedence)
    (hne : lo ≠ ro) (x : ℚ) {a b : ℚ} (hab : a ≠ b) :
    valueIn Operator.exact x (ofExact lo a ro b) = ro.exact (lo.exact x a) b := by
  rw [ofExact_of_ne hne hab]
  -- each of the four pairs, with either literal the larger, is an identity of fields
  rcases Operator.pair_of_ne hp hne with ⟨rfl, rfl⟩ | ⟨rfl, rfl⟩ | ⟨rfl, rfl⟩ | ⟨rfl, rfl⟩ <;>
    by_cases hlt : b < a <;>
    simp only [hlt, if_true, if_false, valueIn, Operator.exact, Operator.isAdditive,
      Bool.false_eq_true, div_div_eq_mul_div] <;> ring

/-- **Merging is a correct algebraic rewrite.**  Merging numbers is the merging rule in the
arithmetic of numbers.  In exact rational arithmetic, for two operators of one precedence, every
value `x` of the tree on the left and all literals `a` and `b`, neither zero when a `/` is among
the operators: the merged steps make of `x` exactly what `(x lo a) ro b` is.  When the operators
differ and the literals differ, the operator kept is the one written before the larger literal. -/
theorem ofIn_exact :
    (∀ lo a ro b, of lo a ro b =
      match ofIn Number.eq Number.gt Operator.apply lo a ro b with
      | none => cancel
      | some (o, c) => step o c) ∧
    (∀ (lo ro : Operator) (x a b : ℚ), lo.precedence = ro.precedence →
      (lo = .div ∨ ro = .div → a ≠ 0 ∧ b ≠ 0) →
      valueIn Operator.exact x
        (ofIn (· == ·) (fun a b => decide (b < a)) Operator.exact lo a ro b) =
        ro.exact (lo.exact x a) b) ∧
    ∀ (lo ro : Operator) (a b : ℚ), lo ≠ ro → a ≠ b →
      ∃ c, ofIn (· == ·) (fun a b => decide (b < a)) Operator.exact lo a ro b =
        some (if b < a then lo else ro, c) := by
  refine ⟨of_eq_ofIn, fun lo ro x a b hp hz => ?_, fun lo ro a b hne hab => ?_⟩
  · by_cases hsame : lo = ro
    · subst hsame
      exact valueIn_ofExact_same lo x a b
    by_cases hab : a = b
    · subst hab
      exact valueIn_ofExact_cancel hp hsame x a fun h => (hz h).1
    · exact valueIn_ofExact_ne hp hsame x hab
  · have h := ofExact_of_ne hne hab
    by_cases hlt : b < a
    · exact ⟨_, by simpa [hlt] using h⟩
    · exact ⟨_, by simpa [hlt] using h⟩

/-- `(1 - (-5)) + 3`: the literal `3` is the larger, though `-5` has the larger magnitude, so `+`
is kept with `3 - (-5) = 8`, and `1 + 8` is `(1 - (-5)) + 3`. -/
theorem ofIn_exact_negative :
    Operator.sub.precedence = Operator.add.precedence ∧
      (Operator.sub = .div ∨ Operator.add = .div → (-5 : ℚ) ≠ 0 ∧ (3 : ℚ) ≠ 0) ∧
      valueIn Operator.exact 1
          (ofIn (· == ·) (fun a b => decide (b < a)) Operator.exact .sub (-5) .add 3) =
        Operator.add.exact (Operator.sub.exact 1 (-5)) 3 := by
  have hz : Operator.sub = .div ∨ Operator.add = .div → (-5 : ℚ) ≠ 0 ∧ (3 : ℚ) ≠ 0 := by
    intro h
    simp at h
  exact ⟨rfl, hz, ofIn_exact.2.1 .sub .add 1 (-5) 3 rfl hz⟩

end Merged

end DiceNotation
