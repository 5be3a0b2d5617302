import DiceNotation.Proofs.Grammar
import DiceNotation.Proofs.PrintDepth
import DiceNotation.Proofs.Lexemes

/-!
# Reading within the call depth limit

`Expr.parseAt` reads dice notation as the interpreter does, counting the levels its rules nest;
`Expr.parse` reads the same grammar with no limit (see `DiceNotation.Proofs.Grammar`).  The two agree
except for recursion faults, and those arise only in deep texts.  How deep a text goes is measured
by `Parser.nesting`, the most parentheses open at once in its tokens: each open parenthesis costs
the reader three levels (`factor`, `expr` and `term` of the nested expression).

* `Parser.exprAt_agrees` and its four siblings: each rule, run from level `x`, gives the result
  of the plain rule, or a recursion fault, and the latter only when
  `depthLimit < x + 3 * nesting + c` for a constant `c` of the rule.
* `Expr.parseAt_agrees`: the same for a whole text, where rejecting a token left after a complete
  expression also prints that expression into the message, and printing needs room for its
  height.
* `Expr.parseAt_room`: conversely, a text is read only if its nesting leaves room: reading from
  level `p` succeeds only when `p + 3 * nesting + 6 ≤ depthLimit`.
-/

namespace DiceNotation

namespace Parser

open Excursion

/-! ## How deep a token list goes -/

/-- Open parentheses minus closed ones. -/
def balance : List Token → Int
  | [] => 0
  | .openParen :: ts => balance ts + 1
  | .closeParen :: ts => balance ts - 1
  | _ :: ts => balance ts

/-- The most parentheses open at once, reading from the front, as a reader nests its rules. -/
def nesting : List Token → Nat
  | [] => 0
  | .openParen :: ts => nesting ts + 1
  | .closeParen :: ts => nesting ts - 1
  | _ :: ts => nesting ts

theorem balance_append (us vs : List Token) : balance (us ++ vs) = balance us + balance vs := by
  induction us with
  | nil => simp [balance]
  | cons t us ih => cases t <;> simp [balance, ih] <;> omega

theorem balance_le_nesting_append (us vs : List Token) :
    balance us + nesting vs ≤ nesting (us ++ vs) := by
  induction us with
  | nil => simp [balance]
  | cons t us ih => cases t <;> simp [balance, nesting] <;> omega

theorem Derives.balance_eq {k : Rule} {us : List Token} {e : Expr} (h : Derives k us e) :
    balance us = 0 := by
  induction h with
  | leaf ht => rename_i t _; cases t <;> simp_all [balance, Token.leaf?]
  | paren _ ih => simp [balance, balance_append, ih]
  | factor _ ih => exact ih
  | mulStep _ _ _ iha ihb => simp [balance, balance_append, iha, ihb]
  | term _ ih => exact ih
  | addStep _ _ _ iha ihb => simp [balance, balance_append, iha, ihb]

theorem Derives.nesting_le {k : Rule} {us : Tokens} {e : Expr} (h : Derives k (us.map Prod.snd) e)
    (r : Tokens) : nesting (r.map Prod.snd) ≤ nesting ((us ++ r).map Prod.snd) := by
  have := balance_le_nesting_append (us.map Prod.snd) (r.map Prod.snd)
  rw [h.balance_eq, ← List.map_append] at this
  omega

variable {whole : List Char} {stop : Option ParseError}

theorem factor_nesting {ts : Tokens} {e : Expr} {r : { r : Tokens // r.length < ts.length }}
    (h : factor whole stop ts = .ok (e, r)) :
    nesting (r.1.map Prod.snd) ≤ nesting (ts.map Prod.snd) := by
  obtain ⟨us, hts, hd⟩ := factor_sound h
  have := hd.nesting_le r.1
  rwa [← hts] at this

theorem term_nesting {ts : Tokens} {e : Expr} {r : { r : Tokens // r.length < ts.length }}
    (h : term whole stop ts = .ok (e, r)) :
    nesting (r.1.map Prod.snd) ≤ nesting (ts.map Prod.snd) := by
  obtain ⟨us, hts, hd, -⟩ := term_sound h
  have := hd.nesting_le r.1
  rwa [← hts] at this

/-! ## A reader with levels agrees with the plain one -/

/-- A computation of the reader with levels agrees with the plain reader: it has the plain
outcome, a syntax fault wrapped as such, or it fails with a recursion fault, and the latter only
when `deep` holds. -/
def Agrees {α : Type} (deep : Prop) (m : Except ReadError α) (m' : Except ParseError α) : Prop :=
  m = m'.mapError .malformed ∨ deep ∧ ∃ en, m = .error (.tooDeep en)

namespace Agrees

variable {α β : Type} {deep : Prop}

theorem eq_of_not {m : Except ReadError α} {m' : Except ParseError α}
    (h : Agrees deep m m') (hd : ¬ deep) : m = m'.mapError .malformed := by
  rcases h with h | ⟨h, -⟩
  · exact h
  · exact absurd h hd

theorem mono {deep' : Prop} {m : Except ReadError α} {m' : Except ParseError α}
    (h : Agrees deep m m') (hd : deep → deep') : Agrees deep' m m' := by
  rcases h with h | ⟨h, en, he⟩
  · exact .inl h
  · exact .inr ⟨hd h, en, he⟩

theorem error {err : ParseError} :
    Agrees deep (.error (.malformed err) : Except ReadError α) (.error err) :=
  .inl rfl

theorem ok {a : α} : Agrees deep (.ok a : Except ReadError α) (.ok a) :=
  .inl rfl

/-- A step that can only pass or be a recursion fault, and that passes when the computation is
not too deep, may run before any computation that agrees. -/
theorem step {s : Except ReadError Unit} {m : Except ReadError α} {m' : Except ParseError α}
    (hs : s = .ok () ∨ ∃ en, s = .error (.tooDeep en)) (hroom : ¬ deep → s = .ok ())
    (h : Agrees deep m m') : Agrees deep (s >>= fun _ => m) m' := by
  by_cases hd : deep
  · rcases hs with hs | ⟨en, hs⟩
    · rw [hs]; exact h
    · rw [hs]; exact .inr ⟨hd, en, rfl⟩
  · rw [hroom hd]; exact h

theorem reach {d : Nat} {x : Excursion} {m : Except ReadError α} {m' : Except ParseError α}
    (hroom : ¬ deep → d + x.height ≤ depthLimit) (h : Agrees deep m m') :
    Agrees deep (Parser.reach d x >>= fun _ => m) m' :=
  step (reach_ok_or_tooDeep d x) (fun hd => reach_eq_ok (hroom hd)) h

/-- Running a part that agrees with its plain counterpart and continuing: when the plain part
fails, the plain whole fails with the same fault; when it succeeds, the continuations must
agree. -/
theorem bind {m : Except ReadError β} {m' : Except ParseError β}
    {k : β → Except ReadError α} {r' : Except ParseError α} (h : Agrees deep m m')
    (herr : ∀ err, m' = .error err → r' = .error err)
    (hok : ∀ v, m' = .ok v → Agrees deep (k v) r') : Agrees deep (m >>= k) r' := by
  rcases h with h | ⟨hd, en, h⟩
  · rw [h]
    cases hm : m' with
    | error err => rw [herr err hm]; exact .inl rfl
    | ok v => exact hok v hm
  · rw [h]; exact .inr ⟨hd, en, rfl⟩

end Agrees

/-! ## How high each step of the reader goes -/

theorem scanSteps_height_le (t : Token) : (scanSteps t).height ≤ 8 := by
  cases t <;> simp only [scanSteps, makeSteps] <;> (try split) <;> decide

theorem stopSteps_height_le (s : Option ParseError) : (stopSteps s).height ≤ 4 := by
  unfold stopSteps
  split
  · decide
  · split <;> decide

theorem take_height (t : Token) : (takeFrames ++ (scanSteps t).lift 3).height ≤ 11 := by
  have := height_lift_le 3 (scanSteps t)
  have := scanSteps_height_le t
  simp only [height_append, show takeFrames.height = 3 by decide]
  omega

theorem takeStop_height (s : Option ParseError) :
    (takeFrames ++ (stopSteps s).lift 3).height ≤ 7 := by
  have := height_lift_le 3 (stopSteps s)
  have := stopSteps_height_le s
  simp only [height_append, show takeFrames.height = 3 by decide]
  omega

theorem peek_height (t : Token) : (peekFrames ++ (scanSteps t).lift 2).height ≤ 10 := by
  have := height_lift_le 2 (scanSteps t)
  have := scanSteps_height_le t
  simp only [height_append, show peekFrames.height = 2 by decide]
  omega

theorem peekStop_height (s : Option ParseError) :
    (peekFrames ++ (stopSteps s).lift 2).height ≤ 6 := by
  have := height_lift_le 2 (stopSteps s)
  have := stopSteps_height_le s
  simp only [height_append, show peekFrames.height = 2 by decide]
  omega

@[simp] theorem buildSteps_height : buildSteps.height = 4 := by decide

/-! ## Each rule agrees with its plain counterpart -/

-- The five statements follow the rules' own mutual recursion.  The constant of each rule is the
-- highest level its steps reach above its frame when no parenthesis is open: a factor takes a
-- token eleven levels up, and `term` and `expr` each sit one level further from the factor.
mutual

theorem factorAt_agrees (f : Nat) (ts : Tokens) :
    Agrees (depthLimit < f + 3 * nesting (ts.map Prod.snd) + 11)
      (factorAt whole stop f ts) (factor whole stop ts) := by
  match ts with
  | [] =>
    rw [factorAt.eq_def, factor.eq_def]
    refine Agrees.reach (fun _ => by simp; omega) (Agrees.reach (fun _ => ?_) ?_)
    · have := takeStop_height stop; omega
    · cases stop with
      | some err => exact Agrees.error
      | none => exact Agrees.reach (fun _ => by simp [construct]; omega) Agrees.error
  | (pos, t) :: rest =>
    rw [factorAt.eq_def, factor.eq_def]
    refine Agrees.reach (fun _ => by simp; omega) (Agrees.reach (fun _ => ?_) ?_)
    · have := take_height t; omega
    · cases t with
      | number n => exact Agrees.ok
      | name x => exact Agrees.ok
      | dice r => exact Agrees.ok
      | oper o => exact Agrees.reach (fun _ => by simp [construct]; omega) Agrees.error
      | closeParen => exact Agrees.reach (fun _ => by simp [construct]; omega) Agrees.error
      | openParen =>
        refine Agrees.bind ((exprAt_agrees (f + 1) rest).mono
          (fun hd => by simp [nesting] at hd ⊢; omega)) ?_ ?_
        · intro err h
          simp only [h]
        · rintro ⟨e, r, hr⟩ h
          simp only [h]
          rcases r with _ | ⟨⟨p', t'⟩, r'⟩
          all_goals dsimp only
          · cases stop with
            | some err => exact Agrees.error
            | none =>
              exact Agrees.reach (fun _ => by simp [takeSeen, construct]; omega) Agrees.error
          · refine Agrees.reach (fun _ => by simp [takeSeen]; omega) ?_
            by_cases ht : t' = .closeParen
            · rw [if_pos ht, if_pos ht]
              exact Agrees.ok
            · rw [if_neg ht, if_neg ht]
              exact Agrees.reach (fun _ => by simp [construct]; omega) Agrees.error
termination_by (ts.length, 0)

theorem termRestAt_agrees (t : Nat) (acc : Expr) (ts : Tokens) :
    Agrees (depthLimit < t + 3 * nesting (ts.map Prod.snd) + 12)
      (termRestAt whole stop t acc ts) (termRest whole stop acc ts) := by
  match ts with
  | [] =>
    cases stop with
    | some err =>
      rw [termRestAt.eq_1, termRest.eq_1]
      exact Agrees.reach (fun _ => by have := peekStop_height (some err); omega) Agrees.error
    | none =>
      rw [termRestAt.eq_2, termRest.eq_2]
      exact Agrees.reach (fun _ => by have := peekStop_height none; omega) Agrees.ok
  | (pos, tok) :: rest =>
    by_cases hto : ∃ o, tok = .oper o
    · obtain ⟨o, rfl⟩ := hto
      rw [termRestAt.eq_3, termRest.eq_3]
      refine Agrees.reach (fun _ => by have := peek_height (.oper o); omega) ?_
      simp only [isSymbol, if_true]
      refine Agrees.reach (fun _ => by simp; omega) ?_
      cases ho : o.isAdditive
      · simp only [Bool.false_eq_true, if_false]
        refine Agrees.reach (fun _ => by simp; omega) ?_
        refine Agrees.bind ((factorAt_agrees (t + 1) rest).mono
          (fun hd => by simp [nesting] at hd ⊢; omega)) ?_ ?_
        · intro err h
          simp only [h]
        · rintro ⟨b, r, hr⟩ h
          have hn := factor_nesting h
          simp only [h]
          refine Agrees.reach (fun _ => by simp; omega) ?_
          refine Agrees.bind ((termRestAt_agrees t (.op o acc b) r).mono
            (fun hd => by simp [nesting] at hn hd ⊢; omega)) ?_ ?_
          · intro err h'
            simp only [h']
          · rintro ⟨e', r', hr'⟩ h'
            simp only [h']
            exact Agrees.ok
      · simp only [if_true]
        exact Agrees.ok
    · have hne : ∀ o, tok = .oper o → False := fun o h => hto ⟨o, h⟩
      rw [termRestAt.eq_4 _ _ _ _ _ _ _ hne, termRest.eq_4 _ _ _ _ _ _ hne]
      refine Agrees.reach (fun _ => by have := peek_height tok; omega) ?_
      split
      · exact Agrees.reach (fun _ => by simp; omega) Agrees.ok
      · exact Agrees.ok
termination_by (ts.length, 0)
decreasing_by all_goals (subst_vars; simp_wf; grind)

theorem termAt_agrees (t : Nat) (ts : Tokens) :
    Agrees (depthLimit < t + 3 * nesting (ts.map Prod.snd) + 12)
      (termAt whole stop t ts) (term whole stop ts) := by
  rw [termAt.eq_1, term.eq_1]
  refine Agrees.reach (fun _ => by simp; omega) ?_
  refine Agrees.bind ((factorAt_agrees (t + 1) ts).mono (fun hd => by omega)) ?_ ?_
  · intro err h
    simp only [h]
  · rintro ⟨a, r, hr⟩ h
    have hn := factor_nesting h
    simp only [h]
    refine Agrees.bind ((termRestAt_agrees t a r).mono (fun hd => by simp at hn; omega)) ?_ ?_
    · intro err h'
      simp only [h']
    · rintro ⟨e', r', hr'⟩ h'
      simp only [h']
      exact Agrees.ok
termination_by (ts.length, 1)

theorem exprRestAt_agrees (e : Nat) (acc : Expr) (ts : Tokens) :
    Agrees (depthLimit < e + 3 * nesting (ts.map Prod.snd) + 13)
      (exprRestAt whole stop e acc ts) (exprRest whole stop acc ts) := by
  match ts with
  | [] =>
    cases stop with
    | some err =>
      rw [exprRestAt.eq_1, exprRest.eq_1]
      exact Agrees.reach (fun _ => by simp; omega) Agrees.error
    | none =>
      rw [exprRestAt.eq_2, exprRest.eq_2]
      exact Agrees.reach (fun _ => by simp; omega) Agrees.ok
  | (pos, tok) :: rest =>
    by_cases hto : ∃ o, tok = .oper o
    · obtain ⟨o, rfl⟩ := hto
      rw [exprRestAt.eq_3, exprRest.eq_3]
      refine Agrees.reach (fun _ => by simp; omega) ?_
      simp only [isSymbol, if_true]
      refine Agrees.reach (fun _ => by simp; omega) ?_
      cases ho : o.isAdditive
      · simp only [Bool.not_false, if_true]
        exact Agrees.ok
      · simp only [Bool.not_true, Bool.false_eq_true, if_false]
        refine Agrees.reach (fun _ => by simp; omega) ?_
        refine Agrees.bind ((termAt_agrees (e + 1) rest).mono
          (fun hd => by simp [nesting] at hd ⊢; omega)) ?_ ?_
        · intro err h
          simp only [h]
        · rintro ⟨b, r, hr⟩ h
          have hn := term_nesting h
          simp only [h]
          refine Agrees.reach (fun _ => by simp; omega) ?_
          refine Agrees.bind ((exprRestAt_agrees e (.op o acc b) r).mono
            (fun hd => by simp [nesting] at hn hd ⊢; omega)) ?_ ?_
          · intro err h'
            simp only [h']
          · rintro ⟨e', r', hr'⟩ h'
            simp only [h']
            exact Agrees.ok
    · have hne : ∀ o, tok = .oper o → False := fun o h => hto ⟨o, h⟩
      rw [exprRestAt.eq_4 _ _ _ _ _ _ _ hne, exprRest.eq_4 _ _ _ _ _ _ hne]
      refine Agrees.reach (fun _ => by simp; omega) ?_
      split
      · exact Agrees.reach (fun _ => by simp; omega) Agrees.ok
      · exact Agrees.ok
termination_by (ts.length, 0)
decreasing_by all_goals (subst_vars; simp_wf; grind)

theorem exprAt_agrees (e : Nat) (ts : Tokens) :
    Agrees (depthLimit < e + 3 * nesting (ts.map Prod.snd) + 13)
      (exprAt whole stop e ts) (expr whole stop ts) := by
  rw [exprAt.eq_1, expr.eq_1]
  refine Agrees.reach (fun _ => by simp; omega) ?_
  refine Agrees.bind ((termAt_agrees (e + 1) ts).mono (fun hd => by omega)) ?_ ?_
  · intro err h
    simp only [h]
  · rintro ⟨a, r, hr⟩ h
    have hn := term_nesting h
    simp only [h]
    refine Agrees.bind ((exprRestAt_agrees e a r).mono (fun hd => by simp at hn; omega)) ?_ ?_
    · intro err h'
      simp only [h']
    · rintro ⟨e', r', hr'⟩ h'
      simp only [h']
      exact Agrees.ok
termination_by (ts.length, 2)

end
/-! ## Reading needs room -/

/-- `Fits x ts r`: reading from `ts` up to `r`, with the reader at level `x` plus three levels
for each open parenthesis, stayed within the limit: either the deepest point of `ts` is within
it, or the reader left the nesting no lower than it found it, so that the deepest point lies
further on. -/
def Fits (x : Nat) (ts r : List Token) : Prop :=
  x + 3 * nesting ts ≤ depthLimit ∨ nesting ts ≤ nesting r

namespace Fits

theorem refl {x : Nat} {ts : List Token} : Fits x ts ts := .inr (Nat.le_refl _)

theorem trans {x : Nat} {ts r r' : List Token} (h : Fits x ts r) (h' : Fits x r r') :
    Fits x ts r' := by
  unfold Fits at *
  omega

theorem mono {x y : Nat} {ts r : List Token} (h : Fits x ts r) (hxy : y ≤ x) : Fits y ts r := by
  unfold Fits at *
  omega

/-- Taking a token that is no parenthesis leaves the nesting as it is. -/
theorem cons {x : Nat} {t : Token} {ts : List Token} (ht : t ≠ .openParen) :
    Fits x (t :: ts) ts := by
  refine .inr ?_
  cases t <;> simp_all [nesting]

/-- A parenthesised expression read three levels further up, closed by its parenthesis. -/
theorem paren {x : Nat} {ts r : List Token} (hroom : x + 3 ≤ depthLimit)
    (h : Fits (x + 3) ts (.closeParen :: r)) : Fits x (.openParen :: ts) r := by
  unfold Fits at *
  simp only [nesting] at *
  omega

end Fits

-- The levels a rule surely reached when it succeeds: a factor takes its first token three levels
-- up, and each rule above it sits one level further down.
mutual

theorem factorAt_fits {f : Nat} {ts : Tokens} {e : Expr} {r : { r : Tokens // r.length < ts.length }}
    (h : factorAt whole stop f ts = .ok (e, r)) :
    f + 3 ≤ depthLimit ∧ Fits (f + 3) (ts.map Prod.snd) (r.1.map Prod.snd) := by
  unfold factorAt at h
  split at h
  · -- no token: every way on fails
    obtain ⟨_, -, h⟩ := bind_eq_ok.1 h
    obtain ⟨_, -, h⟩ := bind_eq_ok.1 h
    split at h
    · cases h
    · obtain ⟨_, -, h⟩ := bind_eq_ok.1 h
      cases h
  · rename_i pos t rest
    obtain ⟨_, -, h⟩ := bind_eq_ok.1 h
    obtain ⟨_, htake, h⟩ := bind_eq_ok.1 h
    have hroom : f + 3 ≤ depthLimit :=
      le_of_reach_eq_ok htake (show ((3 : Nat), Entry.frame) ∈ _ by simp [takeFrames])
    refine ⟨hroom, ?_⟩
    split at h
    · cases h; exact Fits.cons (by simp)
    · cases h; exact Fits.cons (by simp)
    · cases h; exact Fits.cons (by simp)
    · obtain ⟨_, -, h⟩ := bind_eq_ok.1 h
      cases h
    · obtain ⟨_, -, h⟩ := bind_eq_ok.1 h
      cases h
    · obtain ⟨⟨e1, r1, hr1⟩, he1, h⟩ := bind_eq_ok.1 h
      have ih := exprAt_fits he1
      dsimp only at h
      split at h
      · rename_i t' r' _
        obtain ⟨_, -, h⟩ := bind_eq_ok.1 h
        split at h
        · rename_i ht'
          cases h
          subst ht'
          exact Fits.paren (by omega) (ih.2.mono (by omega))
        · obtain ⟨_, -, h⟩ := bind_eq_ok.1 h
          cases h
      · split at h
        · cases h
        · obtain ⟨_, -, h⟩ := bind_eq_ok.1 h
          cases h
termination_by (ts.length, 0)

theorem termRestAt_fits {t : Nat} {acc : Expr} {ts : Tokens} {e : Expr}
    {r : { r : Tokens // r.length ≤ ts.length }}
    (h : termRestAt whole stop t acc ts = .ok (e, r)) :
    Fits (t + 4) (ts.map Prod.snd) (r.1.map Prod.snd) := by
  unfold termRestAt at h
  split at h
  · obtain ⟨_, -, h⟩ := bind_eq_ok.1 h
    split at h
    · cases h
    · cases h; exact Fits.refl
  · rename_i pos tok rest
    obtain ⟨_, -, h⟩ := bind_eq_ok.1 h
    dsimp only at h
    replace h := eq_ok_of_ite_bind h
    split at h
    · rename_i o
      split at h
      · cases h; exact Fits.refl
      · obtain ⟨_, -, h⟩ := bind_eq_ok.1 h
        obtain ⟨⟨b, r1, hr1⟩, hb, h⟩ := bind_eq_ok.1 h
        have ih1 := (factorAt_fits hb).2
        dsimp only at h
        obtain ⟨_, -, h⟩ := bind_eq_ok.1 h
        obtain ⟨⟨e', r2, hr2⟩, he', h⟩ := bind_eq_ok.1 h
        have ih2 := termRestAt_fits he'
        cases h
        exact (Fits.cons (by simp)).trans (ih1.trans ih2)
    · cases h; exact Fits.refl
termination_by (ts.length, 0)
decreasing_by all_goals (subst_vars; simp_wf; grind)

theorem termAt_fits {t : Nat} {ts : Tokens} {e : Expr} {r : { r : Tokens // r.length < ts.length }}
    (h : termAt whole stop t ts = .ok (e, r)) :
    t + 4 ≤ depthLimit ∧ Fits (t + 4) (ts.map Prod.snd) (r.1.map Prod.snd) := by
  unfold termAt at h
  obtain ⟨_, -, h⟩ := bind_eq_ok.1 h
  obtain ⟨⟨a, r1, hr1⟩, ha, h⟩ := bind_eq_ok.1 h
  have ih1 := factorAt_fits ha
  dsimp only at h
  obtain ⟨⟨e', r2, hr2⟩, he', h⟩ := bind_eq_ok.1 h
  have ih2 := termRestAt_fits he'
  cases h
  exact ⟨by omega, ih1.2.trans ih2⟩
termination_by (ts.length, 1)

theorem exprRestAt_fits {x : Nat} {acc : Expr} {ts : Tokens} {e : Expr}
    {r : { r : Tokens // r.length ≤ ts.length }}
    (h : exprRestAt whole stop x acc ts = .ok (e, r)) :
    Fits (x + 5) (ts.map Prod.snd) (r.1.map Prod.snd) := by
  unfold exprRestAt at h
  split at h
  · obtain ⟨_, -, h⟩ := bind_eq_ok.1 h
    split at h
    · cases h
    · cases h; exact Fits.refl
  · rename_i pos tok rest
    obtain ⟨_, -, h⟩ := bind_eq_ok.1 h
    dsimp only at h
    replace h := eq_ok_of_ite_bind h
    split at h
    · rename_i o
      split at h
      · cases h; exact Fits.refl
      · obtain ⟨_, -, h⟩ := bind_eq_ok.1 h
        obtain ⟨⟨b, r1, hr1⟩, hb, h⟩ := bind_eq_ok.1 h
        have ih1 := (termAt_fits hb).2
        dsimp only at h
        obtain ⟨_, -, h⟩ := bind_eq_ok.1 h
        obtain ⟨⟨e', r2, hr2⟩, he', h⟩ := bind_eq_ok.1 h
        have ih2 := exprRestAt_fits he'
        cases h
        exact (Fits.cons (by simp)).trans (ih1.trans ih2)
    · cases h; exact Fits.refl
termination_by (ts.length, 0)
decreasing_by all_goals (subst_vars; simp_wf; grind)

theorem exprAt_fits {x : Nat} {ts : Tokens} {e : Expr} {r : { r : Tokens // r.length < ts.length }}
    (h : exprAt whole stop x ts = .ok (e, r)) :
    x + 5 ≤ depthLimit ∧ Fits (x + 5) (ts.map Prod.snd) (r.1.map Prod.snd) := by
  unfold exprAt at h
  obtain ⟨_, -, h⟩ := bind_eq_ok.1 h
  obtain ⟨⟨a, r1, hr1⟩, ha, h⟩ := bind_eq_ok.1 h
  have ih1 := termAt_fits ha
  dsimp only at h
  obtain ⟨⟨e', r2, hr2⟩, he', h⟩ := bind_eq_ok.1 h
  have ih2 := exprRestAt_fits he'
  cases h
  exact ⟨by omega, ih1.2.trans ih2⟩
termination_by (ts.length, 2)

end

/-! ## Printing a tree into a message -/

theorem printFault?_ne_tooDeep (e : Expr) (en : Entry) : e.printFault? ≠ some (.tooDeep en) := by
  induction e with
  | lit n =>
    cases n with
    | int i =>
      simp only [Expr.printFault?]
      split <;> simp
    | float x => simp [Expr.printFault?]
    | bool b => simp [Expr.printFault?]
  | ref x => simp [Expr.printFault?]
  | roll r =>
    simp only [Expr.printFault?]
    split <;> simp
  | op o l r ihl ihr =>
    simp only [Expr.printFault?]
    cases hl : l.printFault? with
    | none => simpa using ihr
    | some f => simpa [hl] using ihl
  | missing => simp [Expr.printFault?]

theorem printStep_ok_or_tooDeep (m : Except Fault String) :
    printStep m = .ok () ∨ ∃ en, printStep m = .error (.tooDeep en) := by
  unfold printStep
  split
  · exact .inr ⟨_, rfl⟩
  · exact .inl rfl

/-- Putting a tree into a message passes when the tree stays nine levels below the limit: the
printer then has its room, and its other faults are not raised there. -/
theorem printStep_formattedAt {p : Nat} {e : Expr} (h : p + e.height + 9 ≤ depthLimit) :
    printStep (e.formattedAt p) = .ok () := by
  have hrun : Excursion.run p [(1, .call), (2, .textOf), (3, .frame)] = .ok () :=
    run_eq_ok (by simp; omega)
  have hr := Expr.renderAt_eq_render? (show p + 4 + e.height + 5 ≤ depthLimit by omega)
  simp only [Expr.formattedAt, hrun, hr, Expr.render?]
  cases hf : e.printFault? with
  | none => rfl
  | some f =>
    cases f
    case tooDeep en => exact absurd hf (printFault?_ne_tooDeep e en)
    all_goals rfl

theorem Agrees.print {α : Type} {deep : Prop} {p : Nat} {e : Expr} {m : Except ReadError α}
    {m' : Except ParseError α} (hroom : ¬ deep → p + e.height + 9 ≤ depthLimit)
    (h : Agrees deep m m') : Agrees deep (printStep (e.formattedAt p) >>= fun _ => m) m' :=
  Agrees.step (printStep_ok_or_tooDeep _) (fun hd => printStep_formattedAt (hroom hd)) h

/-- A tree read from tokens is no taller than their number. -/
theorem Derives.height_le {k : Rule} {ts : List Token} {e : Expr} (h : Derives k ts e) :
    e.height ≤ ts.length := by
  induction h with
  | leaf ht =>
    rename_i t e
    cases t <;> simp [Token.leaf?] at ht <;> subst ht <;> simp [Expr.height]
  | paren _ ih => simp; omega
  | factor _ ih => exact ih
  | mulStep _ _ _ iha ihb => simp; omega
  | term _ ih => exact ih
  | addStep _ _ _ iha ihb => simp; omega

theorem leaf?_height {t : Token} {x : Expr} (h : t.leaf? = some x) : x.height = 0 := by
  cases t <;> simp [Token.leaf?] at h <;> subst h <;> rfl

end Parser

namespace Expr

open DiceNotation.Parser

/-! ## A whole text -/

/-- **Reading with levels agrees with the plain reader.**  Reading a text from level `p` gives the
plain reader's tree or syntax fault, or a recursion fault; the latter only when the text nests
too deeply for the rules, or when a token is left after a complete expression and the text is
too long for that expression to be printed into the message. -/
theorem parseAt_agrees (p : Nat) (t : String) :
    Agrees (depthLimit < p + 3 * nesting ((scan (Text.strip t)).tokens.map Prod.snd) + 14 ∨
        depthLimit < p + (scan (Text.strip t)).tokens.length + 9 ∧ ∃ f, parse t = .error f)
      (parseAt p t) (parse t) := by
  rw [scan_strip]
  unfold parseAt parse
  dsimp only
  generalize Text.stripList t.toList = whole
  generalize Scan.scanFrom whole 0 = sc
  refine Agrees.reach (fun _ => by simp; omega) ?_
  refine Agrees.bind ((exprAt_agrees (p + 1) sc.tokens).mono (fun hd => .inl (by omega)))
    (fun err h => by simp only [h]) ?_
  rintro ⟨e, r, hr⟩ h
  simp only [h]
  rcases r with _ | ⟨⟨pos, tok⟩, r⟩
  · dsimp only
    cases sc.stop with
    | some err => exact Agrees.error
    | none => exact Agrees.reach (fun hd => by simp [takeSeen]; omega) Agrees.ok
  · dsimp only
    -- a token is left: the message prints it and the tree, which is no taller than the text
    have hlen : e.height ≤ sc.tokens.length := by
      obtain ⟨us, hts, hd, -⟩ := expr_sound h
      have := hd.height_le
      rw [hts, List.length_append]
      simp only [List.length_map] at this
      omega
    have hroom : ¬ (depthLimit < p + 3 * nesting (sc.tokens.map Prod.snd) + 14 ∨
        depthLimit < p + sc.tokens.length + 9 ∧ ∃ f, (Except.error
          (faultAt whole (.unexpectedToken tok e) pos) : Except ParseError Expr) = .error f) →
        p + e.height + 9 ≤ depthLimit := by
      intro hd
      have : ¬ depthLimit < p + sc.tokens.length + 9 := fun hl => hd (.inr ⟨hl, _, rfl⟩)
      omega
    refine Agrees.reach (fun hd => by have := hroom hd; simp [takeSeen]; omega) ?_
    cases hx : tok.leaf? with
    | some x =>
      refine Agrees.print (fun hd => by have := hroom hd; rw [leaf?_height hx]; omega) ?_
      exact Agrees.print hroom (Agrees.reach (fun hd => by have := hroom hd; simp [Excursion.construct]; omega)
        Agrees.error)
    | none =>
      exact Agrees.print hroom (Agrees.reach (fun hd => by have := hroom hd; simp [Excursion.construct]; omega)
        Agrees.error)

/-- **Reading needs room.**  A text is read from level `p` only if its parentheses leave room for
the rules they nest: three levels for each parenthesis open at once. -/
theorem parseAt_room {p : Nat} {t : String} {e : Expr} (h : parseAt p t = .ok e) :
    p + 3 * nesting ((scan (Text.strip t)).tokens.map Prod.snd) + 6 ≤ depthLimit := by
  rw [scan_strip]
  unfold parseAt at h
  dsimp only at h
  generalize Text.stripList t.toList = whole at h ⊢
  generalize Scan.scanFrom whole 0 = sc at h ⊢
  obtain ⟨_, -, h⟩ := bind_eq_ok.1 h
  obtain ⟨⟨e1, r, hr⟩, he1, h⟩ := bind_eq_ok.1 h
  have hfits := exprAt_fits he1
  dsimp only at h
  split at h
  · -- the expression took every token, so its deepest point is the text's
    simp only [Fits, List.map_nil, nesting] at hfits
    omega
  · -- a token left after the expression is always rejected
    obtain ⟨_, -, h⟩ := bind_eq_ok.1 h
    split at h
    · obtain ⟨_, -, h⟩ := bind_eq_ok.1 h
      obtain ⟨_, -, h⟩ := bind_eq_ok.1 h
      obtain ⟨_, -, h⟩ := bind_eq_ok.1 h
      cases h
    · obtain ⟨_, -, h⟩ := bind_eq_ok.1 h
      obtain ⟨_, -, h⟩ := bind_eq_ok.1 h
      cases h

/-! ## Texts nested in parentheses -/

/-- The number one inside `n` pairs of parentheses. -/
def nestedOne (n : Nat) : String :=
  String.ofList (List.replicate n '(' ++ '1' :: List.replicate n ')')

theorem nestedOne_tokens (n : Nat) :
    (scan (Text.strip (nestedOne n))).tokens.map Prod.snd =
        List.replicate n Token.openParen ++ .number (.int 1) :: List.replicate n Token.closeParen ∧
      (scan (Text.strip (nestedOne n))).stop = none := by
  have hlist : (Text.strip (nestedOne n)).toList =
      List.replicate n '(' ++ '1' :: List.replicate n ')' := by
    -- no character of the text is blank
    have hall : ∀ c ∈ List.replicate n '(' ++ '1' :: List.replicate n ')', Text.isBlank c = false := by
      intro c hc
      simp only [List.mem_append, List.mem_replicate, List.mem_cons] at hc
      rcases hc with ⟨-, rfl⟩ | rfl | ⟨-, rfl⟩ <;> decide
    rw [Text.strip, nestedOne, String.toList_ofList, String.toList_ofList,
      Text.stripList_eq_self (fun c hc => hall c (List.mem_of_mem_head? hc))
        (fun c hc => hall c (List.mem_of_mem_getLast? hc))]
  have hopen := Scan.scanFrom_replicate (show Text.isBlank '(' = false by decide)
    (Scan.lexAt_symbol (show Scan.symbolToken? '(' = some .openParen from rfl) (by decide)) n
    ('1' :: List.replicate n ')') 0
  have hdelim : Scan.Delimits (List.replicate n ')') := by
    cases n
    · exact Scan.delimits_nil
    · exact Scan.delimits_close _
  have hlex := @Scan.lexAt_int 1 (Scan.withinDigitLimit_of_lt_ten (by decide)) _ hdelim n
  rw [show (toString (1 : Int)).toList = ['1'] by decide] at hlex
  have hone := @Scan.scanFrom_lexeme ['1'] (List.replicate n ')') n (.number (.int 1))
    (by simp) (fun c hc => by simp only [List.head?_cons, Option.mem_def, Option.some.injEq] at hc; subst hc; decide) hlex
  have hclose := Scan.scanFrom_replicate (show Text.isBlank ')' = false by decide)
    (Scan.lexAt_symbol (show Scan.symbolToken? ')' = some .closeParen from rfl) (by decide)) n
    [] (n + 1)
  rw [List.append_nil] at hclose
  rw [scan, hlist]
  rw [← List.singleton_append, Nat.zero_add, hone] at hopen
  simp only [List.map_cons, List.length_singleton, hclose.1, hclose.2] at hopen
  simpa [Scan.scanFrom] using hopen

theorem nesting_replicate_open (n : Nat) (us : List Token) :
    nesting (List.replicate n Token.openParen ++ us) = nesting us + n := by
  induction n with
  | zero => simp
  | succ n ih => simp [List.replicate_succ, nesting, ih]; omega

theorem nesting_replicate_close (n : Nat) : nesting (List.replicate n Token.closeParen) = 0 := by
  induction n with
  | zero => rfl
  | succ n ih => simp [List.replicate_succ, nesting, ih]

theorem derives_nestedOne (n : Nat) :
    Derives .expr (List.replicate n Token.openParen ++ .number (.int 1) ::
      List.replicate n Token.closeParen) (.lit (.int 1)) := by
  induction n with
  | zero => exact .term (.factor (.leaf rfl))
  | succ n ih =>
    have := Derives.term (Derives.factor (Derives.paren ih))
    rw [List.replicate_succ, List.replicate_succ']
    simpa only [List.cons_append, List.append_assoc] using this

/-- **Within the call depth limit, reading accepts exactly the grammar.**  When the parentheses
of a text leave room for the reader, the text is read as a tree exactly when its scan runs to the
end and its tokens are an expression of the grammar with that tree.  Every other text is refused
with the syntax fault of the plain reader, or with a recursion fault when a token is left after a
complete expression and the text is too long to print that expression into the message. -/
theorem parseAt_eq_ok_iff (p : Nat) (t : String)
    (hroom : p + 3 * nesting ((scan (Text.strip t)).tokens.map Prod.snd) + 14 ≤ depthLimit) :
    (∀ e, parseAt p t = .ok e ↔ (scan (Text.strip t)).stop = none ∧
        Derives .expr ((scan (Text.strip t)).tokens.map Prod.snd) e) ∧
    ∀ err, parseAt p t = .error err →
      (∃ f, err = .malformed f ∧ parse t = .error f) ∨
        depthLimit < p + (scan (Text.strip t)).tokens.length + 9 ∧ ∃ en, err = .tooDeep en := by
  have hagree := parseAt_agrees p t
  refine ⟨fun e => ?_, fun err herr => ?_⟩
  · rw [← parse_eq_ok_iff]
    constructor
    · intro h
      rcases hagree with hm | ⟨-, en, hen⟩
      · rw [h] at hm
        cases hp : parse t with
        | error f => rw [hp] at hm; cases hm
        | ok e' => rw [hp] at hm; cases hm; rfl
      · rw [h] at hen; cases hen
    · intro h
      -- a text that reads is refused by no fault, so only its nesting could make it too deep
      have hnot : ¬ (depthLimit < p + 3 * nesting ((scan (Text.strip t)).tokens.map Prod.snd) + 14 ∨
          depthLimit < p + (scan (Text.strip t)).tokens.length + 9 ∧ ∃ f, parse t = .error f) := by
        rintro (hd | ⟨-, f, hf⟩)
        · omega
        · rw [h] at hf; cases hf
      rw [hagree.eq_of_not hnot, h]
      rfl
  · rcases hagree with hm | ⟨hd, en, hen⟩
    · cases hp : parse t with
      | error f =>
        rw [hp, herr] at hm
        cases hm
        exact .inl ⟨f, rfl, rfl⟩
      | ok e' => rw [hp, herr] at hm; cases hm
    · rw [herr] at hen
      cases hen
      rcases hd with hd | ⟨hd, -⟩
      · omega
      · exact .inr ⟨hd, en, rfl⟩

/-- One inside two pairs of parentheses is read within the limit as the grammar says. -/
theorem parseAt_eq_ok_iff_twoParens :
    5 + 3 * nesting ((scan (Text.strip (nestedOne 2))).tokens.map Prod.snd) + 14 ≤ depthLimit ∧
    (∀ e, parseAt 5 (nestedOne 2) = .ok e ↔ (scan (Text.strip (nestedOne 2))).stop = none ∧
        Derives .expr ((scan (Text.strip (nestedOne 2))).tokens.map Prod.snd) e) ∧
    ∀ err, parseAt 5 (nestedOne 2) = .error err →
      (∃ f, err = .malformed f ∧ parse (nestedOne 2) = .error f) ∨
        depthLimit < 5 + (scan (Text.strip (nestedOne 2))).tokens.length + 9 ∧
          ∃ en, err = .tooDeep en := by
  have hroom : 5 + 3 * nesting ((scan (Text.strip (nestedOne 2))).tokens.map Prod.snd) + 14 ≤
      depthLimit := by
    rw [(nestedOne_tokens 2).1, nesting_replicate_open]
    simp [nesting, depthLimit]
  exact ⟨hroom, parseAt_eq_ok_iff 5 (nestedOne 2) hroom⟩

/-! ## A text nested too deeply -/

/-- One inside more parentheses than the reader has room for is an expression of the grammar,
yet reading it fails with a recursion fault. -/
theorem parseAt_nestedOne {p n : Nat} (hdeep : depthLimit < p + 3 * n + 6) :
    (scan (Text.strip (nestedOne n))).stop = none ∧
      Derives .expr ((scan (Text.strip (nestedOne n))).tokens.map Prod.snd) (.lit (.int 1)) ∧
      ∃ en, parseAt p (nestedOne n) = .error (.tooDeep en) := by
  obtain ⟨htoks, hstop⟩ := nestedOne_tokens n
  have hd : Derives .expr ((scan (Text.strip (nestedOne n))).tokens.map Prod.snd) (.lit (.int 1)) := by
    rw [htoks]
    exact derives_nestedOne n
  refine ⟨hstop, hd, ?_⟩
  have hparse : parse (nestedOne n) = .ok (.lit (.int 1)) := (parse_eq_ok_iff _ _).2 ⟨hstop, hd⟩
  cases h : parseAt p (nestedOne n) with
  | ok e =>
    have := parseAt_room h
    rw [htoks, nesting_replicate_open] at this
    simp [nesting, nesting_replicate_close] at this
    omega
  | error err =>
    rcases parseAt_agrees p (nestedOne n) with hm | ⟨-, en, hen⟩
    · rw [h, hparse] at hm; cases hm
    · rw [h] at hen; exact ⟨en, hen⟩


/-- Four hundred pairs of parentheses around one are an expression of the grammar, yet reading
them from the level the command line reads at fails with a recursion fault. -/
theorem parseAt_fourHundredParens :
    (scan (Text.strip (nestedOne 400))).stop = none ∧
      Derives .expr ((scan (Text.strip (nestedOne 400))).tokens.map Prod.snd) (.lit (.int 1)) ∧
      ∃ en, parseAt 5 (nestedOne 400) = .error (.tooDeep en) :=
  parseAt_nestedOne (by decide)

end Expr

end DiceNotation
