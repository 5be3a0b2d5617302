import DiceNotation.Expr.Parser

/-!
# The grammar of dice notation, and the reader that follows it

The reader is written as recursive descent with one token of look-ahead; the grammar it follows
is stated here on its own, as an inductive relation `Derives` over plain tokens:

```
expr   = term   { ("+" | "-") term }
term   = factor { ("*" | "/") factor }
factor = name | roll | number | "(" expr ")"
```

A repetition is a left-recursive step of the relation, so the tree of `a - b + c` is
`(a - b) + c` by construction.  The reader is proved against it in both directions:

* **Soundness** (`expr_sound`): the tokens an `expr` consumes derive the tree it returns, and it
  stops only before a token that is no operator.
* **Completeness** (`expr_complete`): for every derivation, reading its tokens followed by any
  rest gives the tree of the derivation, and goes on as it would have from that tree.

`Expr.parse_eq_ok_iff` puts the two together: reading a text gives a tree exactly when its scan
ends cleanly and its tokens derive that tree.  Everything else is a syntax error.
-/

namespace DiceNotation

namespace Parser

/-! ## The grammar -/

/-- The three rules of the grammar. -/
inductive Rule where
  | expr
  | term
  | factor
  deriving DecidableEq, Repr

/-- `Derives k ts e`: the tokens `ts` are a phrase of rule `k`, and `e` is its tree. -/
inductive Derives : Rule → List Token → Expr → Prop
  | leaf {t : Token} {e : Expr} : t.leaf? = some e → Derives .factor [t] e
  | paren {ts : List Token} {e : Expr} :
      Derives .expr ts e → Derives .factor (.openParen :: ts ++ [.closeParen]) e
  | factor {ts : List Token} {e : Expr} : Derives .factor ts e → Derives .term ts e
  | mulStep {ts us : List Token} {a b : Expr} {o : Operator} :
      Derives .term ts a → o.isAdditive = false → Derives .factor us b →
      Derives .term (ts ++ .oper o :: us) (.op o a b)
  | term {ts : List Token} {e : Expr} : Derives .term ts e → Derives .expr ts e
  | addStep {ts us : List Token} {a b : Expr} {o : Operator} :
      Derives .expr ts a → o.isAdditive = true → Derives .term us b →
      Derives .expr (ts ++ .oper o :: us) (.op o a b)

/-- The next token, if any, is no `*` or `/`: a term cannot go on past it. -/
def EndsTerm : Tokens → Prop
  | [] => True
  | (_, t) :: _ => ∀ o, t = .oper o → o.isAdditive = true

/-- The next token, if any, is no operator: an expression cannot go on past it. -/
def EndsExpr : Tokens → Prop
  | [] => True
  | (_, t) :: _ => ∀ o, t ≠ .oper o

theorem endsTerm_additive {p : Nat} {o : Operator} {r : Tokens} (ho : o.isAdditive = true) :
    EndsTerm ((p, .oper o) :: r) := by
  intro o' h
  cases h
  exact ho

theorem EndsTerm.of_endsExpr {ts : Tokens} (h : EndsExpr ts) : EndsTerm ts := by
  match ts, h with
  | [], _ => trivial
  | (_, _) :: _, h => exact fun o ho => absurd ho (h o)

variable {whole : List Char} {stop : Option ParseError}

/-! ## Soundness -/

-- Each theorem follows the rule it is about, and calls the others where the rule does: on fewer
-- tokens, or on the same tokens one rule further down.
mutual

theorem factor_sound {ts : Tokens} {e : Expr} {r : { r : Tokens // r.length < ts.length }}
    (h : factor whole stop ts = .ok (e, r)) :
    ∃ us, ts = us ++ r.1 ∧ Derives .factor (us.map Prod.snd) e := by
  unfold factor at h
  split at h
  · split at h <;> cases h
  · split at h
    · cases h; exact ⟨[_], rfl, .leaf rfl⟩
    · cases h; exact ⟨[_], rfl, .leaf rfl⟩
    · cases h; exact ⟨[_], rfl, .leaf rfl⟩
    · cases h
    · cases h
    · rename_i pos rest _
      split at h
      · cases h
      · rename_i e' r' hr' he
        obtain ⟨us, hts, hd, -⟩ := expr_sound he
        split at h
        · rename_i p t' r'' _
          split at h
          · cases h
            rename_i ht
            subst ht
            refine ⟨(pos, .openParen) :: us ++ [(p, .closeParen)], by simp [hts], ?_⟩
            simpa using Derives.paren hd
          · cases h
        · split at h <;> cases h
termination_by (ts.length, 0)

theorem termRest_sound {pre : List Token} {acc : Expr} (hacc : Derives .term pre acc)
    {ts : Tokens} {e : Expr} {r : { r : Tokens // r.length ≤ ts.length }}
    (h : termRest whole stop acc ts = .ok (e, r)) :
    ∃ us, ts = us ++ r.1 ∧ Derives .term (pre ++ us.map Prod.snd) e ∧ EndsTerm r.1 := by
  unfold termRest at h
  split at h
  · split at h
    · cases h
    · cases h; exact ⟨[], rfl, by simpa using hacc, trivial⟩
  · split at h
    · rename_i pos rest _ o
      split at h
      · cases h; rename_i ho
        exact ⟨[], rfl, by simpa using hacc, by simp [EndsTerm, ho]⟩
      · rename_i ho
        split at h
        · cases h
        · rename_i b r1 hr1 hb
          obtain ⟨us1, hrest, hd1⟩ := factor_sound hb
          split at h
          · cases h
          · rename_i e' r2 hr2 he'
            cases h
            have hstep := Derives.mulStep hacc (by simpa using ho) hd1
            obtain ⟨us2, hr1', hd2, hs⟩ := termRest_sound hstep he'
            refine ⟨(pos, .oper o) :: us1 ++ us2, by simp [hrest, hr1'], ?_, hs⟩
            simpa using hd2
    · cases h; rename_i t ht
      exact ⟨[], rfl, by simpa using hacc, fun o hto => absurd hto (ht o)⟩
termination_by (ts.length, 0)
decreasing_by all_goals (subst_vars; simp_wf; grind)

theorem term_sound {ts : Tokens} {e : Expr} {r : { r : Tokens // r.length < ts.length }}
    (h : term whole stop ts = .ok (e, r)) :
    ∃ us, ts = us ++ r.1 ∧ Derives .term (us.map Prod.snd) e ∧ EndsTerm r.1 := by
  unfold term at h
  split at h
  · cases h
  · rename_i a r1 hr1 ha
    obtain ⟨us1, hts, hd1⟩ := factor_sound ha
    split at h
    · cases h
    · rename_i e' r2 hr2 he'
      cases h
      obtain ⟨us2, hr1', hd2, hs⟩ := termRest_sound (Derives.factor hd1) he'
      exact ⟨us1 ++ us2, by simp [hts, hr1'], by simpa using hd2, hs⟩
termination_by (ts.length, 1)

theorem exprRest_sound {pre : List Token} {acc : Expr} (hacc : Derives .expr pre acc)
    {ts : Tokens} (hts : EndsTerm ts) {e : Expr} {r : { r : Tokens // r.length ≤ ts.length }}
    (h : exprRest whole stop acc ts = .ok (e, r)) :
    ∃ us, ts = us ++ r.1 ∧ Derives .expr (pre ++ us.map Prod.snd) e ∧ EndsExpr r.1 := by
  unfold exprRest at h
  split at h
  · split at h
    · cases h
    · cases h; exact ⟨[], rfl, by simpa using hacc, trivial⟩
  · split at h
    · rename_i pos rest _ o
      split at h
      · -- a `*` or `/` here would have been taken by the term before
        rename_i ho
        simp [hts o rfl] at ho
      · rename_i ho
        split at h
        · cases h
        · rename_i b r1 hr1 hb
          obtain ⟨us1, hrest, hd1, hs1⟩ := term_sound hb
          split at h
          · cases h
          · rename_i e' r2 hr2 he'
            cases h
            have hstep := Derives.addStep hacc (by simpa using ho) hd1
            obtain ⟨us2, hr1', hd2, hs⟩ := exprRest_sound hstep hs1 he'
            dsimp only at hrest hr1'
            refine ⟨(pos, .oper o) :: us1 ++ us2, by simp [hrest, hr1'], ?_, hs⟩
            simpa using hd2
    · cases h; rename_i t ht
      exact ⟨[], rfl, by simpa using hacc, fun o hto => ht o hto⟩
termination_by (ts.length, 0)
decreasing_by all_goals (subst_vars; simp_wf; grind)

theorem expr_sound {ts : Tokens} {e : Expr} {r : { r : Tokens // r.length < ts.length }}
    (h : expr whole stop ts = .ok (e, r)) :
    ∃ us, ts = us ++ r.1 ∧ Derives .expr (us.map Prod.snd) e ∧ EndsExpr r.1 := by
  unfold expr at h
  split at h
  · cases h
  · rename_i a r1 hr1 ha
    obtain ⟨us1, hts, hd1, hs1⟩ := term_sound ha
    split at h
    · cases h
    · rename_i e' r2 hr2 he'
      cases h
      obtain ⟨us2, hr1', hd2, hs⟩ := exprRest_sound (Derives.term hd1) hs1 he'
      dsimp only at hts hr1'
      exact ⟨us1 ++ us2, by simp [hts, hr1'], by simpa using hd2, hs⟩
termination_by (ts.length, 2)

end

/-! ## Single steps of the reader -/

/-- A result of the reader with the proof about the rest of the tokens dropped. -/
def peel {P : Tokens → Prop} : Except ParseError (Expr × Subtype P) → Except ParseError (Expr × Tokens)
  | .error e => .error e
  | .ok (e, r) => .ok (e, r.1)

theorem peel_eq_ok {P : Tokens → Prop} {x : Except ParseError (Expr × Subtype P)} {e : Expr}
    {r : Tokens} (h : peel x = .ok (e, r)) : ∃ hr, x = .ok (e, ⟨r, hr⟩) := by
  match x, h with
  | .ok (_, ⟨_, hr⟩), rfl => exact ⟨hr, rfl⟩

theorem peel_eq_error {P : Tokens → Prop} {x : Except ParseError (Expr × Subtype P)}
    {err : ParseError} (h : peel x = .error err) : x = .error err := by
  match x, h with
  | .error _, rfl => rfl

/-- What a rule returns once it can read no further: the fault of the scan at the end of the
tokens, and otherwise the tree so far and the tokens it stopped before. -/
def finish (stop : Option ParseError) (acc : Expr) : Tokens → Except ParseError (Expr × Tokens)
  | [] =>
    match stop with
    | some e => .error e
    | none => .ok (acc, [])
  | ts => .ok (acc, ts)

theorem peel_termRest_finish {acc : Expr} {ts : Tokens} (h : EndsTerm ts) :
    peel (termRest whole stop acc ts) = finish stop acc ts := by
  match ts, h with
  | [], _ => cases stop <;> simp [termRest.eq_1, termRest.eq_2, peel, finish]
  | (p, t) :: rest, h =>
    by_cases ht : ∃ o, t = .oper o
    · obtain ⟨o, rfl⟩ := ht
      simp [termRest.eq_3, h o rfl, peel, finish]
    · rw [termRest.eq_4 _ _ _ _ _ _ fun o ho => ht ⟨o, ho⟩]
      rfl

theorem peel_exprRest_finish {acc : Expr} {ts : Tokens} (h : EndsExpr ts) :
    peel (exprRest whole stop acc ts) = finish stop acc ts := by
  match ts, h with
  | [], _ => cases stop <;> simp [exprRest.eq_1, exprRest.eq_2, peel, finish]
  | (p, t) :: rest, h =>
    rw [exprRest.eq_4 _ _ _ _ _ _ fun o ho => h o ho]
    rfl

theorem peel_term_of_factor {ts : Tokens} {a : Expr} {r : Tokens} {hr : r.length < ts.length}
    (h : factor whole stop ts = .ok (a, ⟨r, hr⟩)) :
    peel (term whole stop ts) = peel (termRest whole stop a r) := by
  rw [term.eq_1, h]
  dsimp only
  rcases termRest whole stop a r with _ | ⟨_, _, _⟩ <;> rfl

theorem peel_expr_of_term {ts : Tokens} {a : Expr} {r : Tokens} {hr : r.length < ts.length}
    (h : term whole stop ts = .ok (a, ⟨r, hr⟩)) :
    peel (expr whole stop ts) = peel (exprRest whole stop a r) := by
  rw [expr.eq_1, h]
  dsimp only
  rcases exprRest whole stop a r with _ | ⟨_, _, _⟩ <;> rfl

theorem expr_of_term_error {ts : Tokens} {err : ParseError}
    (h : term whole stop ts = .error err) : expr whole stop ts = .error err := by
  rw [expr.eq_1, h]

theorem peel_termRest_mul {acc b : Expr} {p : Nat} {o : Operator} {rest r : Tokens}
    {hr : r.length < rest.length} (ho : o.isAdditive = false)
    (h : factor whole stop rest = .ok (b, ⟨r, hr⟩)) :
    peel (termRest whole stop acc ((p, .oper o) :: rest)) =
      peel (termRest whole stop (.op o acc b) r) := by
  rw [termRest.eq_3, if_neg (by simp [ho]), h]
  dsimp only
  rcases termRest whole stop (.op o acc b) r with _ | ⟨_, _, _⟩ <;> rfl

theorem peel_exprRest_add {acc b : Expr} {p : Nat} {o : Operator} {rest r : Tokens}
    {hr : r.length < rest.length} (ho : o.isAdditive = true)
    (h : term whole stop rest = .ok (b, ⟨r, hr⟩)) :
    peel (exprRest whole stop acc ((p, .oper o) :: rest)) =
      peel (exprRest whole stop (.op o acc b) r) := by
  rw [exprRest.eq_3, if_neg (by simp [ho]), h]
  dsimp only
  rcases exprRest whole stop (.op o acc b) r with _ | ⟨_, _, _⟩ <;> rfl

theorem exprRest_add_error {acc : Expr} {p : Nat} {o : Operator} {rest : Tokens}
    {err : ParseError} (ho : o.isAdditive = true) (h : term whole stop rest = .error err) :
    exprRest whole stop acc ((p, .oper o) :: rest) = .error err := by
  rw [exprRest.eq_3, if_neg (by simp [ho]), h]

theorem finish_cases (stop : Option ParseError) (acc : Expr) (ts : Tokens) :
    finish stop acc ts = .ok (acc, ts) ∨
      ts = [] ∧ ∃ err, stop = some err ∧ finish stop acc ts = .error err := by
  match ts, stop with
  | [], some err => exact .inr ⟨rfl, err, rfl, rfl⟩
  | [], none => exact .inl rfl
  | _ :: _, _ => exact .inl rfl

/-! ## Completeness -/

/-- What reading does on the tokens of a phrase of each rule, followed by any rest: a factor
returns its tree and exactly the rest; a term, and an expression before a token that no term
goes on past, continue from their tree as their loops would. -/
def Completes (whole : List Char) (stop : Option ParseError) : Rule → List Token → Expr → Prop
  | .factor, us, e => ∀ ps rest, ps.map Prod.snd = us →
      ∃ h, factor whole stop (ps ++ rest) = .ok (e, ⟨rest, h⟩)
  | .term, us, e => ∀ ps rest, ps.map Prod.snd = us →
      peel (term whole stop (ps ++ rest)) = peel (termRest whole stop e rest)
  | .expr, us, e => ∀ ps rest, ps.map Prod.snd = us → EndsTerm rest →
      peel (expr whole stop (ps ++ rest)) = peel (exprRest whole stop e rest)

/-- A term followed by a token it cannot take ends there, or at the scan's fault. -/
theorem Completes.term_finish {us : List Token} {e : Expr} (h : Completes whole stop .term us e)
    {ps rest : Tokens} (hps : ps.map Prod.snd = us) (hrest : EndsTerm rest) :
    peel (term whole stop (ps ++ rest)) = finish stop e rest :=
  (h ps rest hps).trans (peel_termRest_finish hrest)

theorem completes_leaf {t : Token} {e : Expr} (ht : t.leaf? = some e) :
    Completes whole stop .factor [t] e := by
  intro ps rest hps
  obtain ⟨⟨p, t'⟩, rfl, rfl⟩ := List.map_eq_singleton_iff.1 hps
  cases t' <;> simp [Token.leaf?] at ht <;> subst ht <;> exact ⟨by simp, by unfold factor; rfl⟩

theorem completes_paren {ts : List Token} {e : Expr} (ih : Completes whole stop .expr ts e) :
    Completes whole stop .factor (.openParen :: ts ++ [.closeParen]) e := by
  intro ps rest hps
  obtain ⟨⟨p, _⟩, ps', rfl, rfl, hps'⟩ := List.map_eq_cons_iff.1 hps
  obtain ⟨qs, cs, rfl, hqs, hcs⟩ := List.map_eq_append_iff.1 hps'
  obtain ⟨⟨q, _⟩, rfl, rfl⟩ := List.map_eq_singleton_iff.1 hcs
  -- inside the parentheses the expression stops at the `)`
  have hend : EndsExpr ((q, Token.closeParen) :: rest) := fun o ho => by cases ho
  have hin := (ih qs _ hqs (EndsTerm.of_endsExpr hend)).trans (peel_exprRest_finish hend)
  obtain ⟨hr, hx⟩ := peel_eq_ok hin
  have hl : (p, Token.openParen) :: (qs ++ [(q, .closeParen)]) ++ rest =
      (p, .openParen) :: (qs ++ (q, .closeParen) :: rest) := by simp
  rw [hl]
  refine ⟨by simp; omega, ?_⟩
  unfold factor
  simp only [hx]
  rfl

theorem completes_factor {ts : List Token} {e : Expr} (ih : Completes whole stop .factor ts e) :
    Completes whole stop .term ts e := by
  intro ps rest hps
  obtain ⟨_, h⟩ := ih ps rest hps
  exact peel_term_of_factor h

theorem completes_mulStep {ts us : List Token} {a b : Expr} {o : Operator}
    (iha : Completes whole stop .term ts a) (ho : o.isAdditive = false)
    (ihb : Completes whole stop .factor us b) :
    Completes whole stop .term (ts ++ .oper o :: us) (.op o a b) := by
  intro ps rest hps
  obtain ⟨ps1, ps2', rfl, hps1, hps2'⟩ := List.map_eq_append_iff.1 hps
  obtain ⟨⟨p, _⟩, ps2, rfl, rfl, hps2⟩ := List.map_eq_cons_iff.1 hps2'
  obtain ⟨_, hb⟩ := ihb ps2 rest hps2
  rw [List.append_assoc, List.cons_append, iha ps1 _ hps1]
  exact peel_termRest_mul ho hb

theorem completes_term {ts : List Token} {e : Expr} (ih : Completes whole stop .term ts e) :
    Completes whole stop .expr ts e := by
  intro ps rest hps hrest
  rcases finish_cases stop e rest with hok | ⟨rfl, err, rfl, herr⟩
  · obtain ⟨_, ht⟩ := peel_eq_ok ((ih.term_finish hps hrest).trans hok)
    exact peel_expr_of_term ht
  · rw [expr_of_term_error (peel_eq_error ((ih.term_finish hps hrest).trans herr))]
    simp [exprRest.eq_1, peel]

theorem completes_addStep {ts us : List Token} {a b : Expr} {o : Operator}
    (iha : Completes whole stop .expr ts a) (ho : o.isAdditive = true)
    (ihb : Completes whole stop .term us b) :
    Completes whole stop .expr (ts ++ .oper o :: us) (.op o a b) := by
  intro ps rest hps hrest
  obtain ⟨ps1, ps2', rfl, hps1, hps2'⟩ := List.map_eq_append_iff.1 hps
  obtain ⟨⟨p, _⟩, ps2, rfl, rfl, hps2⟩ := List.map_eq_cons_iff.1 hps2'
  rw [List.append_assoc, List.cons_append, iha ps1 _ hps1 (endsTerm_additive ho)]
  rcases finish_cases stop b rest with hok | ⟨rfl, err, rfl, herr⟩
  · obtain ⟨_, ht⟩ := peel_eq_ok ((ihb.term_finish hps2 hrest).trans hok)
    exact peel_exprRest_add ho ht
  · rw [exprRest_add_error ho (peel_eq_error ((ihb.term_finish hps2 hrest).trans herr))]
    simp [exprRest.eq_1, peel]

/-- **Completeness.**  Every derivation is read back: its tokens, followed by any rest, give its
tree, each rule continuing from it as its loop does. -/
theorem derives_completes {k : Rule} {us : List Token} {e : Expr} (h : Derives k us e) :
    Completes whole stop k us e := by
  induction h with
  | leaf ht => exact completes_leaf ht
  | paren _ ih => exact completes_paren ih
  | factor _ ih => exact completes_factor ih
  | mulStep _ ho _ iha ihb => exact completes_mulStep iha ho ihb
  | term _ ih => exact completes_term ih
  | addStep _ ho _ iha ihb => exact completes_addStep iha ho ihb

/-- An expression before the end of the tokens or before a token that is no operator is read
as its tree, stopping exactly there. -/
theorem expr_complete {us : List Token} {e : Expr} (h : Derives .expr us e) {ps rest : Tokens}
    (hps : ps.map Prod.snd = us) (hrest : EndsExpr rest) :
    peel (expr whole stop (ps ++ rest)) = finish stop e rest :=
  (derives_completes h ps rest hps (EndsTerm.of_endsExpr hrest)).trans
    (peel_exprRest_finish hrest)

end Parser

/-! ## Reading a text -/

namespace Expr

theorem scan_strip (t : String) :
    scan (Text.strip t) = Scan.scanFrom (Text.stripList t.toList) 0 := by
  simp [scan, Text.strip]

/-- **Reading accepts exactly the grammar.**  A text is read as a tree exactly when the scan of
the text without blanks at its ends runs to the end, and its tokens are an expression of the
grammar with that tree. -/
theorem parse_eq_ok_iff (t : String) (e : Expr) :
    parse t = .ok e ↔
      (scan (Text.strip t)).stop = none ∧
        Parser.Derives .expr ((scan (Text.strip t)).tokens.map Prod.snd) e := by
  rw [scan_strip]
  unfold parse
  dsimp only
  generalize Text.stripList t.toList = whole
  generalize Scan.scanFrom whole 0 = sc
  constructor
  · intro h
    split at h
    · cases h
    · rename_i e' r hr hx
      split at h
      · split at h
        · cases h
        · rename_i hstop
          cases h
          obtain ⟨us, hts, hd, -⟩ := Parser.expr_sound hx
          simp only [List.append_nil] at hts
          exact ⟨hstop, hts ▸ hd⟩
      · cases h
  · rintro ⟨hstop, hd⟩
    have hx := @Parser.expr_complete whole sc.stop _ _ hd sc.tokens [] rfl trivial
    rw [List.append_nil, hstop] at hx
    obtain ⟨_, hx⟩ := Parser.peel_eq_ok hx
    rw [hstop, hx]

end Expr

end DiceNotation
