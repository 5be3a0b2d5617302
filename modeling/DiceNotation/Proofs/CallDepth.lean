import DiceNotation.Expr.ParseDepth

/-!
# Call depth: when a step stays within the limit

A step of the interpreter enters levels above its frame, described by an `Excursion`.  Whether it
fails depends only on the highest of those levels: this file names that height
(`Excursion.height`) and proves that an excursion whose height still lies within the limit never
fails (`Excursion.run_eq_ok`, `Parser.reach_eq_ok`), while every other outcome of a step is a
recursion fault (`Excursion.run_ok_or_tooDeep`).

The evaluator, printer, simplifier and reader all interleave such steps with their own work; the
lemmas here are what lets their proofs treat a step with room to spare as doing nothing.
-/

namespace DiceNotation

namespace Excursion

/-- The highest level above its frame that an excursion enters; zero for no entry. -/
def height (x : Excursion) : Nat := x.foldr (fun e m => max e.1 m) 0

@[simp] theorem height_nil : height [] = 0 := rfl

@[simp] theorem height_cons (e : Nat × Entry) (x : Excursion) :
    height (e :: x) = max e.1 x.height := rfl

@[simp] theorem height_append (x y : Excursion) :
    height (x ++ y) = max x.height y.height := by
  induction x with
  | nil => simp
  | cons e x ih => simp [ih, Nat.max_assoc]

theorem height_lift_le (k : Nat) (x : Excursion) : (x.lift k).height ≤ x.height + k := by
  induction x with
  | nil => simp [lift]
  | cons e x ih =>
    simp only [lift, List.map_cons, height_cons] at ih ⊢
    omega

theorem le_height {e : Nat × Entry} {x : Excursion} (h : e ∈ x) : e.1 ≤ x.height := by
  induction x with
  | nil => cases h
  | cons a x ih =>
    rcases List.mem_cons.1 h with rfl | h
    · exact Nat.le_max_left _ _
    · simp only [height_cons]
      exact Nat.le_trans (ih h) (Nat.le_max_right _ _)

/-- No entry of an excursion that fits under the limit lies past it. -/
theorem firstPast_eq_none {d : Nat} {x : Excursion} (h : d + x.height ≤ depthLimit) :
    x.firstPast d = none := by
  simp only [firstPast, Option.map_eq_none_iff, List.find?_eq_none, decide_eq_true_eq,
    Nat.not_lt]
  intro e he
  have := le_height he
  omega

theorem run_eq_ok {d : Nat} {x : Excursion} (h : d + x.height ≤ depthLimit) :
    run d x = .ok () := by
  simp [run, firstPast_eq_none h]

/-- A step either passes or is a recursion fault: it never fails in any other way. -/
theorem run_ok_or_tooDeep (d : Nat) (x : Excursion) :
    run d x = .ok () ∨ ∃ en, run d x = .error (.tooDeep en) := by
  unfold run
  cases x.firstPast d with
  | none => exact .inl rfl
  | some en => exact .inr ⟨en, rfl⟩

end Excursion

theorem enterAt_eq_ok {d : Nat} (h : d ≤ depthLimit) : enterAt d = .ok () := by
  simp [enterAt, Nat.not_lt.2 h]

/-- A frame past the limit fails before anything in it runs. -/
theorem enterAt_eq_error {d : Nat} (h : depthLimit < d) : enterAt d = .error (.tooDeep .frame) :=
  if_pos h

theorem enterAt_ok_or_tooDeep (d : Nat) :
    enterAt d = .ok () ∨ ∃ en, enterAt d = .error (.tooDeep en) := by
  unfold enterAt
  split
  · exact .inr ⟨_, rfl⟩
  · exact .inl rfl

/-- A computation that starts from a result goes on with it. -/
theorem ok_bind {ε α β : Type} (a : α) (k : α → Except ε β) :
    (Except.ok a >>= k) = k a := rfl

/-- A computation of two parts succeeds exactly when both do. -/
theorem bind_eq_ok {ε α β : Type} {m : Except ε α} {k : α → Except ε β} {v : β} :
    m >>= k = .ok v ↔ ∃ a, m = .ok a ∧ k a = .ok v := by
  cases m with
  | error f => exact ⟨fun h => (by cases h), fun ⟨a, ha, _⟩ => (by cases ha)⟩
  | ok a => exact ⟨fun h => ⟨a, rfl, h⟩, fun ⟨b, hb, h⟩ => (by cases hb; exact h)⟩

/-- Telling the errors of a computation otherwise leaves its result alone. -/
theorem mapError_eq_ok {ε ε' α : Type} {g : ε → ε'} {m : Except ε α} {v : α} :
    m.mapError g = .ok v ↔ m = .ok v := by
  cases m with
  | error e => exact ⟨fun h => (nomatch h), fun h => (nomatch h)⟩
  | ok a =>
    constructor
    · intro h
      cases h
      rfl
    · intro h
      cases h
      rfl

/-- A check made only on a condition, and followed by `m`, passes on to `m` when the whole
succeeds. -/
theorem eq_ok_of_ite_bind {ε α : Type} {c : Prop} [Decidable c] {s : Except ε Unit}
    {m : Except ε α} {v : α} (h : (if c then s >>= fun _ => m else m) = .ok v) : m = .ok v := by
  split at h
  · obtain ⟨_, -, h⟩ := bind_eq_ok.1 h
    exact h
  · exact h

/-! ## Computations that follow a plain one -/

/-- Errors among which a recursion fault can be told apart: a fault, or a stop of evaluation at
one. -/
class DepthFault (ε : Type) where
  /-- Whether the error is a recursion fault. -/
  IsTooDeep : ε → Prop

instance : DepthFault Fault := ⟨fun f => ∃ en, f = .tooDeep en⟩

open DepthFault (IsTooDeep)

/-- A computation that counts levels follows the plain one it mirrors: it has the same outcome,
or it fails with a recursion fault, and the latter only when `deep` holds. -/
def Follows {ε α : Type} [DepthFault ε] (deep : Prop) (m m' : Except ε α) : Prop :=
  m = m' ∨ deep ∧ ∃ x, m = .error x ∧ IsTooDeep x

namespace Follows

variable {ε α β : Type} [DepthFault ε] {deep : Prop}

theorem eq_of_not {m m' : Except ε α} (h : Follows deep m m') (hd : ¬ deep) : m = m' := by
  rcases h with h | ⟨h, -⟩
  · exact h
  · exact absurd h hd

theorem mono {deep' : Prop} {m m' : Except ε α} (h : Follows deep m m')
    (hd : deep → deep') : Follows deep' m m' := by
  rcases h with h | ⟨h, x, hx⟩
  · exact .inl h
  · exact .inr ⟨hd h, x, hx⟩

theorem refl {m : Except ε α} : Follows deep m m := .inl rfl

/-- For a computation that fails with faults: the same outcome, or a recursion fault when `deep`
holds. -/
theorem eq_or_tooDeep {m m' : Except Fault α} (h : Follows deep m m') :
    m = m' ∨ deep ∧ ∃ en, m = .error (.tooDeep en) := by
  rcases h with h | ⟨hd, x, rfl, en, rfl⟩
  · exact .inl h
  · exact .inr ⟨hd, en, rfl⟩

/-- Running a part that follows its plain counterpart and continuing: when the plain part fails,
the plain whole fails with the same error; when it succeeds, the continuations must follow. -/
theorem bind {m : Except ε β} {m' : Except ε β} {k : β → Except ε α}
    {r' : Except ε α} (h : Follows deep m m')
    (herr : ∀ f, m' = .error f → r' = .error f)
    (hok : ∀ v, m' = .ok v → Follows deep (k v) r') : Follows deep (m >>= k) r' := by
  rcases h with rfl | ⟨hd, x, h, hx⟩
  · cases hm : m with
    | error f => rw [herr f hm]; exact .inl rfl
    | ok v => exact hok v hm
  · rw [h]; exact .inr ⟨hd, x, rfl, hx⟩

/-- Running a part whose plain counterpart succeeds, and continuing from that result. -/
theorem bind_ok {m : Except ε β} {v : β} {k : β → Except ε α} {r' : Except ε α}
    (h : Follows deep m (.ok v)) (hk : Follows deep (k v) r') : Follows deep (m >>= k) r' :=
  h.bind (fun _ hf => by cases hf) (fun _ hv => by cases hv; exact hk)

/-- Both computations' errors told otherwise, by a map that keeps recursion faults. -/
theorem mapError {ε' : Type} [DepthFault ε'] {g : ε → ε'} (hg : ∀ x, IsTooDeep x → IsTooDeep (g x))
    {m m' : Except ε α} (h : Follows deep m m') : Follows deep (m.mapError g) (m'.mapError g) := by
  rcases h with rfl | ⟨hd, x, rfl, hx⟩
  · exact .inl rfl
  · exact .inr ⟨hd, g x, rfl, hg x hx⟩

/-- Entering a frame that has room when the computation is not too deep passes; otherwise it may
be a recursion fault. -/
theorem enterAt {d : Nat} (hroom : ¬ deep → d ≤ depthLimit) :
    Follows deep (DiceNotation.enterAt d) (.ok ()) := by
  by_cases hd : deep
  · rcases enterAt_ok_or_tooDeep d with hr | ⟨en, hr⟩
    · exact .inl hr
    · exact .inr ⟨hd, _, hr, en, rfl⟩
  · exact .inl (enterAt_eq_ok (hroom hd))

/-- A step that has room when the computation is not too deep passes; otherwise it may be a
recursion fault. -/
theorem excursion {d : Nat} {x : Excursion} (hroom : ¬ deep → d + x.height ≤ depthLimit) :
    Follows deep (Excursion.run d x) (.ok ()) := by
  by_cases hd : deep
  · rcases Excursion.run_ok_or_tooDeep d x with hr | ⟨en, hr⟩
    · exact .inl hr
    · exact .inr ⟨hd, _, hr, en, rfl⟩
  · exact .inl (Excursion.run_eq_ok (hroom hd))

theorem run {d : Nat} {x : Excursion} {m m' : Except Fault α}
    (hroom : ¬ deep → d + x.height ≤ depthLimit) (h : Follows deep m m') :
    Follows deep (Excursion.run d x >>= fun _ => m) m' :=
  bind_ok (excursion hroom) h

theorem enter {d : Nat} {m m' : Except Fault α} (hroom : ¬ deep → d ≤ depthLimit)
    (h : Follows deep m m') : Follows deep (DiceNotation.enterAt d >>= fun _ => m) m' :=
  bind_ok (enterAt hroom) h

end Follows

/-! ## The height of a tree -/

namespace Expr

/-- How many levels of operations a tree has: a leaf has none.  Printing, evaluating and
simplifying a tree nest their frames as deeply as this. -/
def height : Expr → Nat
  | op _ l r => max l.height r.height + 1
  | _ => 0

@[simp] theorem height_op (o : Operator) (l r : Expr) :
    (op o l r).height = max l.height r.height + 1 := rfl

/-- How many operations lead from the root down the left operands to the leftmost leaf, the first
node that evaluating or simplifying the tree reaches. -/
def leftDepth : Expr → Nat
  | op _ l _ => l.leftDepth + 1
  | _ => 0

end Expr

namespace Parser

theorem reach_eq_ok {d : Nat} {x : Excursion} (h : d + x.height ≤ depthLimit) :
    reach d x = .ok () := by
  simp [reach, Excursion.firstPast_eq_none h]

theorem reach_ok_or_tooDeep (d : Nat) (x : Excursion) :
    reach d x = .ok () ∨ ∃ en, reach d x = .error (.tooDeep en) := by
  unfold reach
  cases x.firstPast d with
  | none => exact .inl rfl
  | some en => exact .inr ⟨en, rfl⟩

theorem enter_eq_ok {d : Nat} (h : d ≤ depthLimit) : enter d = .ok () :=
  reach_eq_ok (by simpa using h)

/-- A step that passed stayed within the limit at each of its entries. -/
theorem le_of_reach_eq_ok {d : Nat} {x : Excursion} (h : reach d x = .ok ()) {e : Nat × Entry}
    (he : e ∈ x) : d + e.1 ≤ depthLimit := by
  have hnone : x.firstPast d = none := by
    unfold reach at h
    cases hf : x.firstPast d with
    | none => rfl
    | some en => rw [hf] at h; cases h
  simp only [Excursion.firstPast, Option.map_eq_none_iff, List.find?_eq_none, decide_eq_true_eq,
    Nat.not_lt] at hnone
  exact hnone e he

end Parser

end DiceNotation
