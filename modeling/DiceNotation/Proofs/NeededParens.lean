import DiceNotation.Proofs.ReadBack

/-!
# Every parenthesis the printer writes is needed

The printer puts an operand between parentheses only where the reader would otherwise group the
text differently (`Expr.parenLeft`, `Expr.parenRight`).  This file shows that it writes no pair
too many: a text that reads as a tree has at least as many opening parentheses as the printer
writes for a tree of that shape (`Expr.parens`).  So deleting one pair from the printed text of a
tree leaves a text that is refused, or that reads as another tree, even with numbers compared by
value.

* `Parser.Derives.parens_le`: a phrase of the grammar holds an opening parenthesis for every
  operand whose operator binds less tightly than its place in the phrase allows;
* `Scan.count_openParen_le`: scanning makes no more opening parentheses than the text has;
* `Expr.count_text`: the printed text of a tree has exactly `Expr.parens` of them;
* `Expr.parseAt_dropParens`: deleting a pair of parentheses from the printed text of a tree loses
  the tree.
-/

namespace DiceNotation

namespace Expr

/-- The pairs of parentheses the printer writes into the text of a tree. -/
def parens : Expr → Nat
  | op o l r => l.parens + r.parens + (parenLeft o l).toNat + (parenRight o r).toNat
  | _ => 0

/-- Whether a tree standing in a place of the grammar needs parentheses there: an operation
where a factor stands, and a sum or difference where a term stands. -/
def needsParens : Parser.Rule → Expr → Bool
  | .factor, op _ _ _ => true
  | .term, op o _ _ => o.isAdditive
  | _, _ => false

/-! ## Where the printer's parentheses stand -/

@[simp] theorem needsParens_expr (e : Expr) : needsParens .expr e = false := by
  cases e <;> rfl

theorem needsParens_term_le (e : Expr) :
    (needsParens .term e).toNat ≤ (needsParens .factor e).toNat := by
  cases e <;> simp [needsParens, Bool.toNat_le]

/-- Left of `*` or `/`, an operand is parenthesised exactly where it could not stand as a term. -/
theorem parenLeft_of_mul {o : Operator} (ho : o.isAdditive = false) (l : Expr) :
    parenLeft o l = needsParens .term l := by
  cases l with
  | op c _ _ =>
    -- only the two operators matter
    show decide (c.precedence < o.precedence) = c.isAdditive
    revert ho
    cases o <;> cases c <;> decide
  | _ => rfl

/-- Right of `*` or `/`, an operand is parenthesised exactly where it could not stand as a
factor. -/
theorem parenRight_of_mul {o : Operator} (ho : o.isAdditive = false) (r : Expr) :
    parenRight o r = needsParens .factor r := by
  cases r with
  | op c _ _ =>
    show decide (c.precedence ≤ o.precedence) = true
    revert ho
    cases o <;> cases c <;> decide
  | _ => rfl

/-- Left of `+` or `-`, no operand is parenthesised. -/
theorem parenLeft_of_add {o : Operator} (ho : o.isAdditive = true) (l : Expr) :
    parenLeft o l = false := by
  cases l with
  | op c _ _ =>
    show decide (c.precedence < o.precedence) = false
    revert ho
    cases o <;> cases c <;> decide
  | _ => rfl

/-- Right of `+` or `-`, an operand is parenthesised exactly where it could not stand as a
term. -/
theorem parenRight_of_add {o : Operator} (ho : o.isAdditive = true) (r : Expr) :
    parenRight o r = needsParens .term r := by
  cases r with
  | op c _ _ =>
    show decide (c.precedence ≤ o.precedence) = c.isAdditive
    revert ho
    cases o <;> cases c <;> decide
  | _ => rfl

end Expr

/-! ## A phrase pays for its parentheses -/

namespace Parser

open DiceNotation.Expr

/-- **A phrase holds the parentheses its tree needs.**  The tokens of a phrase of rule `k` hold
an opening parenthesis for each pair the printer writes into the text of its tree, and one more
when the tree itself needs parentheses where rule `k` stands. -/
theorem Derives.parens_le {k : Rule} {ts : List Token} {e : Expr} (h : Derives k ts e) :
    e.parens + (needsParens k e).toNat ≤ ts.count .openParen := by
  induction h with
  | leaf ht =>
    rename_i t x
    cases t <;> simp only [Token.leaf?, reduceCtorEq, Option.some.injEq] at ht <;>
      subst ht <;> simp [parens, needsParens]
  | paren _ ih =>
    -- the pair around the expression pays for it standing as a factor
    rename_i ts x _
    have hle : (needsParens .factor x).toNat ≤ 1 := Bool.toNat_le _
    simp only [needsParens_expr, Bool.toNat_false, Nat.add_zero] at ih
    simp only [List.cons_append, List.count_cons_self, List.count_append, List.count_singleton]
    omega
  | factor _ ih =>
    rename_i x _
    have := needsParens_term_le x
    omega
  | mulStep _ ho _ iha ihb =>
    -- the operands' own parentheses are those they need as a term and as a factor
    rename_i ts us a b o _ _
    have hterm : needsParens .term (op o a b) = false := ho
    simp only [parens, parenLeft_of_mul ho, parenRight_of_mul ho, hterm, Bool.toNat_false,
      Nat.add_zero, List.count_append, List.count_cons, reduceCtorEq, beq_iff_eq, if_false]
    omega
  | term _ ih =>
    simp only [needsParens_expr, Bool.toNat_false, Nat.add_zero]
    omega
  | addStep _ ho _ iha ihb =>
    rename_i ts us a b o _ _
    simp only [needsParens_expr, Bool.toNat_false, Nat.add_zero] at iha
    simp only [parens, parenLeft_of_add ho, parenRight_of_add ho, needsParens_expr,
      Bool.toNat_false, Nat.add_zero, List.count_append, List.count_cons, reduceCtorEq,
      beq_iff_eq, if_false]
    omega

end Parser

/-! ## Scanning makes no parentheses of its own -/

namespace Scan

/-- The only token that starts at `(` is the opening parenthesis, and it starts nowhere else. -/
theorem lexAt_openParen {cs : List Char} {pos k : Nat} (h : lexAt cs pos = .ok (.openParen, k)) :
    cs.head? = some '(' := by
  unfold lexAt at h
  dsimp only at h
  split at h
  · cases h
  split at h
  · split at h
    · cases h
    · split at h <;> cases h
  split at h
  · cases h
  · split at h <;> cases h
  · split at h
    · rename_i t ht
      cases h
      obtain ⟨c, hc, hs⟩ := Option.bind_eq_some_iff.1 ht
      unfold symbolToken? at hs
      split at hs <;> cases hs
      exact hc
    · cases h

/-- Scanning makes at most one opening parenthesis for each `(` of the text. -/
theorem count_openParen_le (cs : List Char) (pos : Nat) :
    ((scanFrom cs pos).tokens.map Prod.snd).count .openParen ≤ cs.count '(' := by
  fun_induction scanFrom cs pos with
  | case1 => simp
  | case2 pos c rest _ ih =>
    have := (List.sublist_cons_self c rest).count_le '('
    omega
  | case3 => simp
  | case4 pos c rest _ t k hlex s ih =>
    -- the token takes `c` and `k` characters after it; the rest of the scan starts past them
    have ih' : (s.tokens.map Prod.snd).count .openParen ≤ (rest.drop k).count '(' := ih
    have hdrop : (rest.drop k).count '(' ≤ rest.count '(' := (List.drop_sublist k rest).count_le _
    have hcons := (List.sublist_cons_self c rest).count_le '('
    by_cases ht : t = .openParen
    · subst ht
      have hc : c = '(' := by simpa using lexAt_openParen hlex
      subst hc
      simp only [List.map_cons, List.count_cons_self]
      omega
    · simp only [List.map_cons, List.count_cons, beq_iff_eq, ht, if_false, Nat.add_zero]
      omega

end Scan

/-- Removing blanks at the ends removes no parenthesis. -/
theorem Text.count_stripList_le (cs : List Char) (x : Char) :
    (Text.stripList cs).count x ≤ cs.count x := by
  unfold Text.stripList
  rw [List.count_reverse]
  calc ((cs.dropWhile isBlank).reverse.dropWhile isBlank).count x
      ≤ (cs.dropWhile isBlank).reverse.count x := (List.dropWhile_suffix _).sublist.count_le _
    _ = (cs.dropWhile isBlank).count x := List.count_reverse
    _ ≤ cs.count x := (List.dropWhile_suffix _).sublist.count_le _

namespace Expr

open Scan DiceNotation.Parser

/-! ## The printed text has exactly the printer's parentheses -/

/-- Digits and a sign hold no parenthesis. -/
theorem count_signed_digits {neg : Bool} {ds : List Char} (hds : ∀ c ∈ ds, c.isDigit = true) :
    (signChars neg ++ ds).count '(' = 0 := by
  refine List.count_eq_zero.2 fun hc => ?_
  rcases List.mem_append.1 hc with hc | hc
  · cases neg <;> simp [signChars] at hc
  · exact absurd (hds _ hc) (by decide)

theorem count_int_text (n : Int) : (toString n).toList.count '(' = 0 := by
  rw [int_text_toList]
  exact count_signed_digits (digits_isDigit _)

theorem count_float_text {neg : Bool} {m : Nat} {ex : Int}
    (hcan : Binary64.Canonical (.finite neg m ex)) :
    (Number.text (.float (.finite neg m ex))).toList.count '(' = 0 := by
  cases hint : (Binary64.finite neg m ex).isInteger
  · obtain ⟨ws, fs, htext, hws, -, hfs, -, -⟩ := Number.float_text_toList hcan hint
    have hfs0 : fs.count '(' = 0 := List.count_eq_zero.2 fun hc => absurd (hfs _ hc) (by decide)
    rw [htext, List.count_append, count_signed_digits hws, List.count_cons, hfs0]
    rfl
  · simp only [Number.text, hint, if_true]
    exact count_int_text _

theorem count_name_text {x : String} (hx : isName x = true) : x.toList.count '(' = 0 := by
  refine List.count_eq_zero.2 fun hc => ?_
  unfold isName at hx
  split at hx
  · rename_i c cs hxs
    simp only [Bool.and_eq_true, List.all_eq_true] at hx
    rw [hxs] at hc
    rcases List.mem_cons.1 hc with rfl | hc
    · exact absurd hx.1 (by decide)
    · exact absurd (hx.2 _ hc) (by decide)
  · cases hx

theorem count_roll_text (r : Roll) : r.text.toList.count '(' = 0 := by
  rw [roll_text_toList, List.count_append, List.count_append, List.count_cons, count_int_text,
    count_int_text]
  cases r.keep with
  | none => rfl
  | some k => cases k <;> rfl

theorem count_wrap (b : Bool) (s : String) :
    (wrap b s).toList.count '(' = s.toList.count '(' + b.toNat := by
  cases b <;> simp [wrap, List.count_append]

/-- **The printed text of a tree holds exactly the printer's parentheses.** -/
theorem count_text {e : Expr} (he : e.Printable) : e.text.toList.count '(' = e.parens := by
  induction e with
  | lit n =>
    cases n with
    | int i => exact count_int_text i
    | float x =>
      cases x with
      | finite neg m ex => exact count_float_text he
      | inf _ => exact he.elim
      | nan => exact he.elim
    | bool b => exact he.elim
  | ref x => exact count_name_text he
  | roll r => exact count_roll_text r
  | op o l r ihl ihr =>
    have hsym : (o.symbol == '(') = false := by cases o <;> rfl
    rw [text_op_toList, List.count_append, List.count_cons, List.count_cons, List.count_cons,
      count_wrap, count_wrap, ihl he.1, ihr he.2, hsym]
    simp only [parens, show (' ' == '(') = false from rfl, Bool.false_eq_true, if_false]
    omega
  | missing => exact he.elim

/-! ## Deleting a pair loses the tree -/

/-- A tree the reader gives from some level is the tree the plain reader gives. -/
theorem parse_of_parseAt {p : Nat} {t : String} {e : Expr} (h : parseAt p t = .ok e) :
    parse t = .ok e := by
  rcases parseAt_agrees p t with hm | ⟨-, en, hen⟩
  · rw [h] at hm
    cases hp : parse t with
    | error f => rw [hp] at hm; cases hm
    | ok e' => rw [hp] at hm; cases hm; rfl
  · rw [h] at hen
    cases hen

/-- Trees equal by value are operations exactly together, with the same operator, so the
printer parenthesises them alike on the left of an operator. -/
theorem parenLeft_eqv (o : Operator) {l l₂ : Expr} (h : l.eqv l₂ = true) :
    parenLeft o l = parenLeft o l₂ := by
  cases l with
  | op c _ _ =>
    cases l₂ with
    | op c₂ _ _ =>
      simp only [eqv, Bool.and_eq_true, beq_iff_eq] at h
      -- whether an operand is parenthesised reads only its operator
      rw [h.1.1]
      rfl
    | _ => cases h
  | _ =>
    cases l₂ with
    | op => cases h
    | _ => rfl

/-- The same on the right of an operator. -/
theorem parenRight_eqv (o : Operator) {r r₂ : Expr} (h : r.eqv r₂ = true) :
    parenRight o r = parenRight o r₂ := by
  cases r with
  | op c _ _ =>
    cases r₂ with
    | op c₂ _ _ =>
      simp only [eqv, Bool.and_eq_true, beq_iff_eq] at h
      rw [h.1.1]
      rfl
    | _ => cases h
  | _ =>
    cases r₂ with
    | op => cases h
    | _ => rfl

/-- Trees equal by value have their operations in the same places, so the printer writes the
same parentheses into their texts. -/
theorem parens_eqv {e e' : Expr} (h : e'.eqv e = true) : e'.parens = e.parens := by
  induction e' generalizing e with
  | op o l r ihl ihr =>
    cases e with
    | op o₂ l₂ r₂ =>
      simp only [eqv, Bool.and_eq_true, beq_iff_eq] at h
      obtain ⟨⟨rfl, hl⟩, hr⟩ := h
      simp only [parens, ihl hl, ihr hr, parenLeft_eqv o hl, parenRight_eqv o hr]
    | _ => cases h
  | _ =>
    cases e with
    | op => cases h
    | _ => rfl

/-- **Every pair of parentheses the printer writes is needed.**  Take the printed text of a
printable tree and delete one opening parenthesis and a closing one after it, as a matching pair
is.  Reading what is left, from any level, either fails or gives a tree that differs from the
printed one, numbers compared by value: a text that reads as a tree of that shape holds all the
parentheses the printer wrote. -/
theorem parseAt_dropParens {e : Expr} (he : e.Printable) {d p : Nat} {a b c : String}
    (hr : e.renderAt d = .ok (a ++ "(" ++ b ++ ")" ++ c)) {e' : Expr}
    (hp : parseAt p (a ++ b ++ c) = .ok e') : e'.eqv e = false := by
  have htext : e.text = a ++ "(" ++ b ++ ")" ++ c := by
    rcases he.renderAt d with h | ⟨-, en, h⟩
    · rw [h] at hr
      exact Except.ok.inj hr
    · rw [h] at hr
      cases hr
  -- the text left holds one opening parenthesis fewer than the printer wrote
  have hcount : (a ++ b ++ c).toList.count '(' + 1 = e.parens := by
    rw [← count_text he, htext]
    simp [String.toList_append, List.count_append]
    omega
  -- so the tree read from it has fewer pairs of parentheses
  have hfew : e'.parens < e.parens := by
    obtain ⟨-, hd⟩ := (parse_eq_ok_iff _ _).1 (parse_of_parseAt hp)
    have hphrase := hd.parens_le
    rw [scan_strip] at hphrase
    have hscan := count_openParen_le (Text.stripList (a ++ b ++ c).toList) 0
    have hstrip := Text.count_stripList_le (a ++ b ++ c).toList '('
    omega
  cases heqv : e'.eqv e
  · rfl
  · exact absurd (parens_eqv heqv) (by omega)

/-- Dropping the parentheses of `(1 + 2) * 3` gives `1 + 2 * 3`, which reads as another tree. -/
theorem parseAt_dropParens_sum :
    (op .mul (op .add (lit (.int 1)) (lit (.int 2))) (lit (.int 3))).Printable ∧
      (op .mul (op .add (lit (.int 1)) (lit (.int 2))) (lit (.int 3))).renderAt 5 =
        .ok ("" ++ "(" ++ "1 + 2" ++ ")" ++ " * 3") ∧
      parseAt 5 ("" ++ "1 + 2" ++ " * 3") =
        .ok (op .add (lit (.int 1)) (op .mul (lit (.int 2)) (lit (.int 3)))) ∧
      (op .add (lit (.int 1)) (op .mul (lit (.int 2)) (lit (.int 3)))).eqv
        (op .mul (op .add (lit (.int 1)) (lit (.int 2))) (lit (.int 3))) = false := by
  have hsmall : ∀ n : Int, 0 ≤ n → n < 10 → Number.withinDigitLimit n = true :=
    fun n h0 h10 => withinDigitLimit_of_lt_ten (by omega)
  have he : (op .mul (op .add (lit (.int 1)) (lit (.int 2))) (lit (.int 3))).Printable :=
    ⟨⟨hsmall 1 (by decide) (by decide), hsmall 2 (by decide) (by decide)⟩,
      hsmall 3 (by decide) (by decide)⟩
  have he' : (op .add (lit (.int 1)) (op .mul (lit (.int 2)) (lit (.int 3)))).Printable :=
    ⟨hsmall 1 (by decide) (by decide),
      ⟨hsmall 2 (by decide) (by decide), hsmall 3 (by decide) (by decide)⟩⟩
  have hr : (op .mul (op .add (lit (.int 1)) (lit (.int 2))) (lit (.int 3))).renderAt 5 =
      .ok ("" ++ "(" ++ "1 + 2" ++ ")" ++ " * 3") := by
    rw [(he.renderAt 5).resolve_right fun h => absurd h.1 (by decide)]
    exact congrArg Except.ok (by decide)
  have hp : parseAt 5 ("" ++ "1 + 2" ++ " * 3") =
      .ok (op .add (lit (.int 1)) (op .mul (lit (.int 2)) (lit (.int 3)))) := by
    have h := he'.parseAt_eq (p := 5) (by decide)
    rwa [show (op .add (lit (.int 1)) (op .mul (lit (.int 2)) (lit (.int 3)))).text =
        "" ++ "1 + 2" ++ " * 3" by decide,
      show (op .add (lit (.int 1)) (op .mul (lit (.int 2)) (lit (.int 3)))).asRead =
        op .add (lit (.int 1)) (op .mul (lit (.int 2)) (lit (.int 3))) by decide] at h
  exact ⟨he, hr, hp, parseAt_dropParens he hr hp⟩

end Expr

end DiceNotation
