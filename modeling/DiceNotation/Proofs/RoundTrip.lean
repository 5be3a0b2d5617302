import DiceNotation.Proofs.NumberText
import DiceNotation.Proofs.ReadDepth

/-!
# Printing a tree and reading it back

The printer writes a tree with the fewest parentheses that keep its shape under the reader's
left-associative precedence climbing, and numbers never with an exponent.  This file shows that
reading the text back gives the tree again, for every tree whose leaves have a text at all
(`Expr.Printable`), with whole floats coming back as the integers they equal (`Expr.asRead`):

* `Expr.scansTo_text`: the text scans to the tokens of the tree (`Expr.tokens`);
* `Expr.derives_tokens`: those tokens are a phrase of the grammar whose tree is the tree read;
* `Expr.parse_text`: with no call depth limit, reading the text gives the tree read;
* `Expr.renderAt_parseAt`: within the limit, printing gives the text unless the tree is too high,
  and reading it gives the tree read unless its parentheses nest too deeply; in both cases the
  only other outcome is a recursion fault.

The limit is reached by ordinary trees: `1 - (1 - (… - 1))` with 400 subtractions prints, but
its 399 nested parentheses are too deep to be read back (`Expr.parseAt_subChain`).
-/

namespace DiceNotation

namespace Number

/-- The number the reader takes back from the text of `n`: a whole float comes back as the
integer it equals, every other number as itself. -/
def asRead : Number → Number
  | float x => if x.isInteger then int (x.floor?.getD 0) else float x
  | n => n

end Number

namespace Parser

/-- A phrase of any rule is an expression. -/
theorem Derives.toExpr {k : Rule} {ts : List Token} {e : Expr} (h : Derives k ts e) :
    Derives .expr ts e := by
  cases k with
  | expr => exact h
  | term => exact .term h
  | factor => exact .term (.factor h)

/-- A phrase of a rule other than the expression is a term. -/
theorem Derives.toTerm {k : Rule} {ts : List Token} {e : Expr} (h : Derives k ts e)
    (hk : k ≠ .expr) : Derives .term ts e := by
  cases k with
  | expr => exact absurd rfl hk
  | term => exact h
  | factor => exact .factor h

end Parser

namespace Expr

open Scan DiceNotation.Parser

/-- The tree the reader takes back from the text of a tree: the same shape, with each whole
float replaced by the integer it equals. -/
def asRead : Expr → Expr
  | lit n => lit n.asRead
  | op o l r => op o l.asRead r.asRead
  | e => e

/-- The trees whose text reads back: names that start with a letter, `_` or `$` and go on with
letters, digits, `_`, `$` and `.`; rolls of at least one die of at least one side; integers within
the digit limit and finite floats; no truth value and no missing node. -/
def Printable : Expr → Prop
  | lit (.int n) => Number.withinDigitLimit n = true
  | lit (.float (.finite neg m e)) => Binary64.Canonical (.finite neg m e)
  | lit _ => False
  | ref x => isName x = true
  | roll r => 1 ≤ r.dice ∧ 1 ≤ r.sides ∧ Number.withinDigitLimit r.dice = true ∧
      Number.withinDigitLimit r.sides = true
  | op _ l r => Printable l ∧ Printable r
  | missing => False

/-- Tokens between parentheses when asked, as `wrap` puts text between them. -/
def wrapTokens (b : Bool) (ts : List Token) : List Token :=
  if b then .openParen :: ts ++ [.closeParen] else ts

/-- The tokens of the text of a tree. -/
def tokens : Expr → List Token
  | lit n => [.number n.asRead]
  | ref x => [.name x]
  | roll r => [.dice r]
  | op o l r =>
    wrapTokens (parenLeft o l) l.tokens ++ .oper o :: wrapTokens (parenRight o r) r.tokens
  | missing => []

/-- The rule of the grammar whose phrase the text of a tree is, at its top: a leaf is a factor, a
product or quotient a term, a sum or difference an expression. -/
def rule : Expr → Rule
  | op o _ _ => if o.isAdditive then .expr else .term
  | _ => .factor

/-! ## Printable trees print -/

theorem printFault?_eq_none {e : Expr} (he : e.Printable) : e.printFault? = none := by
  induction e with
  | lit n =>
    cases n with
    | int i => simp [printFault?, show Number.withinDigitLimit i = true from he]
    | float x => rfl
    | bool b => exact he.elim
  | ref x => rfl
  | roll r => simp [printFault?, he.2.2.1, he.2.2.2]
  | op o l r ihl ihr => simp [printFault?, ihl he.1, ihr he.2]
  | missing => exact he.elim

theorem render?_eq_text {e : Expr} (he : e.Printable) : e.render? = .ok e.text := by
  simp [render?, printFault?_eq_none he]

/-- A printable tree prints as its text, unless it is too high for the printer. -/
theorem Printable.renderAt {e : Expr} (he : e.Printable) (d : Nat) :
    e.renderAt d = .ok e.text ∨
      depthLimit < d + e.height + 5 ∧ ∃ en, e.renderAt d = .error (.tooDeep en) := by
  have h := renderAt_follows d e
  rw [render?_eq_text he] at h
  exact h.eq_or_tooDeep

/-! ## The text of a tree has no blank at its ends -/

/-- A text that is not empty and has no blank at either end: stripping leaves it as it is. -/
def Trimmed (cs : List Char) : Prop :=
  cs ≠ [] ∧ (∀ c ∈ cs.head?, Text.isBlank c = false) ∧ ∀ c ∈ cs.getLast?, Text.isBlank c = false

namespace Trimmed

theorem of_all {cs : List Char} (hne : cs ≠ []) (h : ∀ c ∈ cs, Text.isBlank c = false) :
    Trimmed cs :=
  ⟨hne, fun c hc => h c (List.mem_of_mem_head? hc), fun c hc => h c (List.mem_of_mem_getLast? hc)⟩

/-- Two trimmed texts with anything between them. -/
theorem around {a b : List Char} (ha : Trimmed a) (hb : Trimmed b) (m : List Char) :
    Trimmed (a ++ m ++ b) := by
  refine ⟨by simp [ha.1], ?_, ?_⟩
  · rw [List.append_assoc, List.head?_append_of_ne_nil _ ha.1]
    exact ha.2.1
  · rw [List.getLast?_append_of_ne_nil _ hb.1]
    exact hb.2.2

theorem stripList {cs : List Char} (h : Trimmed cs) : Text.stripList cs = cs :=
  Text.stripList_eq_self h.2.1 h.2.2

end Trimmed

/-- The digits of a number, with a minus in front when asked, have no blank. -/
theorem signed_digits_not_blank {neg : Bool} {ds : List Char} (hds : ∀ c ∈ ds, c.isDigit = true) :
    ∀ c ∈ signChars neg ++ ds, Text.isBlank c = false := by
  intro c hc
  rcases List.mem_append.1 hc with hc | hc
  · cases neg
    · cases hc
    · rw [List.mem_singleton.1 hc]
      decide
  · exact isBlank_of_isDigit (hds c hc)

theorem int_text_trimmed (n : Int) : Trimmed (toString n).toList := by
  refine Trimmed.of_all (int_text_ne_nil n) ?_
  rw [int_text_toList]
  exact signed_digits_not_blank (digits_isDigit _)

theorem float_text_trimmed {neg : Bool} {m : Nat} {e : Int}
    (hcan : Binary64.Canonical (.finite neg m e)) :
    Trimmed (Number.text (.float (.finite neg m e))).toList := by
  cases hint : (Binary64.finite neg m e).isInteger
  · obtain ⟨ws, fs, htext, hws, -, hfs, -, -⟩ := Number.float_text_toList hcan hint
    rw [htext]
    refine Trimmed.of_all (by simp) ?_
    intro c hc
    rcases List.mem_append.1 hc with hc | hc
    · exact signed_digits_not_blank hws c hc
    · rcases List.mem_cons.1 hc with rfl | hc
      · decide
      · exact isBlank_of_isDigit (hfs c hc)
  · simp only [Number.text, hint, if_true]
    exact int_text_trimmed _

theorem name_text_trimmed {x : String} (hx : isName x = true) : Trimmed x.toList := by
  unfold isName at hx
  split at hx
  · rename_i c cs hxs
    simp only [Bool.and_eq_true, List.all_eq_true] at hx
    rw [hxs]
    refine Trimmed.of_all (by simp) ?_
    intro d hd
    rcases List.mem_cons.1 hd with rfl | hd
    · exact isBlank_of_isNameChar (isNameChar_of_isNameStart hx.1)
    · exact isBlank_of_isNameChar (hx.2 d hd)
  · cases hx

/-- The text of a positive integer is its digits. -/
theorem pos_text_toList {n : Int} (hn : 1 ≤ n) : (toString n).toList = Nat.toDigits 10 n.natAbs := by
  rw [int_text_toList]
  simp [signChars, show ¬ n < 0 by omega]

theorem roll_text_trimmed {r : Roll} (hd : 1 ≤ r.dice) (hs : 1 ≤ r.sides) : Trimmed r.text.toList := by
  rw [roll_text_toList, pos_text_toList hd, pos_text_toList hs]
  refine Trimmed.of_all (by simp) ?_
  intro c hc
  simp only [List.mem_append, List.mem_cons] at hc
  rcases hc with (hc | rfl | hc) | hc
  · exact isBlank_of_isDigit (digits_isDigit _ c hc)
  · decide
  · exact isBlank_of_isDigit (digits_isDigit _ c hc)
  · -- the keep letter
    cases hk : r.keep with
    | none => simp [keepChars, hk] at hc
    | some k =>
      simp only [keepChars, hk, List.mem_singleton] at hc
      subst hc
      cases k <;> decide

theorem wrap_toList (b : Bool) (s : String) :
    (wrap b s).toList = if b then '(' :: s.toList ++ [')'] else s.toList := by
  cases b <;> simp [wrap]

theorem text_op_toList (o : Operator) (l r : Expr) :
    (op o l r).text.toList = (wrap (parenLeft o l) l.text).toList ++
      ' ' :: o.symbol :: ' ' :: (wrap (parenRight o r) r.text).toList := by
  simp [text]

theorem wrap_trimmed {s : String} (h : Trimmed s.toList) (b : Bool) : Trimmed (wrap b s).toList := by
  cases b
  · exact h
  · rw [wrap_toList, if_pos rfl]
    refine ⟨by simp, fun c hc => ?_, fun c hc => ?_⟩
    · simp only [List.cons_append, List.head?_cons, Option.mem_def, Option.some.injEq] at hc
      subst hc
      decide
    · simp only [List.getLast?_concat, Option.mem_def, Option.some.injEq] at hc
      subst hc
      decide

theorem text_trimmed {e : Expr} (he : e.Printable) : Trimmed e.text.toList := by
  induction e with
  | lit n =>
    cases n with
    | int i => exact int_text_trimmed i
    | float x =>
      cases x with
      | finite neg m e => exact float_text_trimmed he
      | inf _ => exact he.elim
      | nan => exact he.elim
    | bool b => exact he.elim
  | ref x => exact name_text_trimmed he
  | roll r => exact roll_text_trimmed he.1 he.2.1
  | op o l r ihl ihr =>
    rw [text_op_toList]
    have h := Trimmed.around (wrap_trimmed (ihl he.1) (parenLeft o l))
      (wrap_trimmed (ihr he.2) (parenRight o r)) [' ', o.symbol, ' ']
    simpa only [List.append_assoc, List.cons_append, List.nil_append] using h
  | missing => exact he.elim

/-! ## The text scans to the tokens of the tree -/

theorem scansTo_lit {n : Number} (hn : (lit n).Printable) :
    ScansTo Delimits (lit n).text.toList (lit n).tokens := by
  cases n with
  | int i =>
    exact scansTo_word (int_text_trimmed i).1 (int_text_trimmed i).2.1
      (fun rest hrest pos => lexAt_int hn hrest pos)
  | float x =>
    cases x with
    | finite neg m e =>
      have htr := float_text_trimmed hn
      cases hint : (Binary64.finite neg m e).isInteger
      · have htok : (lit (.float (.finite neg m e))).tokens = [.number (.float (.finite neg m e))] := by
          simp [tokens, Number.asRead, hint]
        rw [htok]
        exact scansTo_word htr.1 htr.2.1 (fun rest hrest pos => lexAt_float hn hint hrest pos)
      · have htok : (lit (.float (.finite neg m e))).tokens =
            [.number (.int ((Binary64.finite neg m e).floor?.getD 0))] := by
          simp [tokens, Number.asRead, hint]
        rw [htok]
        exact scansTo_word htr.1 htr.2.1 (fun rest hrest pos => lexAt_wholeFloat hn hint hrest pos)
    | inf _ => exact hn.elim
    | nan => exact hn.elim
  | bool b => exact hn.elim

/-- Text between parentheses scans to its tokens between parenthesis tokens. -/
theorem scansTo_wrap {cs : List Char} {ts : List Token} (h : ScansTo Delimits cs ts) (b : Bool) :
    ScansTo Delimits (if b then '(' :: cs ++ [')'] else cs) (wrapTokens b ts) := by
  cases b
  · exact h
  · have hclose : ScansTo Delimits [')'] [.closeParen] :=
      (scansTo_symbol rfl (by decide) (by decide)).mono (fun _ _ => trivial)
    have hinner := h.append hclose (fun rest _ => delimits_close rest)
    exact (scansTo_symbol rfl (by decide) (by decide)).append hinner (fun _ _ => trivial)

/-- An operator symbol scans to its token before a blank; a `-` needs no digit after it. -/
theorem scansTo_operator (o : Operator) :
    ScansTo (fun rest => ∀ d ∈ rest.head?, d.isDigit = false) [o.symbol] [.oper o] := by
  cases o with
  | sub => exact scansTo_minus
  | add => exact (scansTo_symbol rfl (by decide) (by decide)).mono (fun _ _ => trivial)
  | mul => exact (scansTo_symbol rfl (by decide) (by decide)).mono (fun _ _ => trivial)
  | div => exact (scansTo_symbol rfl (by decide) (by decide)).mono (fun _ _ => trivial)

/-- The text of a printable tree scans to the tokens of the tree, before any delimiter. -/
theorem scansTo_text {e : Expr} (he : e.Printable) : ScansTo Delimits e.text.toList e.tokens := by
  induction e with
  | lit n => exact scansTo_lit he
  | ref x =>
    exact scansTo_word (name_text_trimmed he).1 (name_text_trimmed he).2.1
      (fun rest hrest pos => lexAt_name he hrest pos)
  | roll r =>
    exact scansTo_word (roll_text_trimmed he.1 he.2.1).1 (roll_text_trimmed he.1 he.2.1).2.1
      (fun rest hrest pos => lexAt_roll he.1 he.2.1 he.2.2.1 he.2.2.2 hrest pos)
  | op o l r ihl ihr =>
    -- the left operand, a blank, the operator, a blank and the right operand, chained from the
    -- right: each part ends where the next begins
    have hl := scansTo_wrap (ihl he.1) (parenLeft o l)
    have hr := scansTo_wrap (ihr he.2) (parenRight o r)
    rw [← wrap_toList] at hl hr
    have h3 := scansTo_blank.append hr (fun _ _ => trivial)
    have h2 := (scansTo_operator o).append h3 (fun _ _ => fun d hd => by
      simp only [List.cons_append, List.head?_cons, Option.mem_def, Option.some.injEq] at hd
      subst hd
      rfl)
    have h1 := scansTo_blank.append h2 (fun _ _ => trivial)
    have h0 := hl.append h1 (fun rest _ => delimits_space _)
    rw [text_op_toList]
    simpa only [tokens, List.nil_append, List.singleton_append] using h0
  | missing => exact he.elim

/-- The scan of the text of a printable tree, as the reader makes it. -/
theorem scan_text {e : Expr} (he : e.Printable) :
    (scan (Text.strip e.text)).tokens.map Prod.snd = e.tokens ∧
      (scan (Text.strip e.text)).stop = none := by
  rw [scan_strip, (text_trimmed he).stripList]
  exact (scansTo_text he).scan_eq delimits_nil

/-! ## The tokens are a phrase of the grammar -/

theorem derives_wrapTokens_expr {k : Rule} {ts : List Token} {e : Expr} (h : Derives k ts e)
    (b : Bool) : Derives .expr (wrapTokens b ts) e := by
  cases b
  · exact h.toExpr
  · exact .term (.factor (.paren h.toExpr))

theorem derives_wrapTokens_term {k : Rule} {ts : List Token} {e : Expr} (h : Derives k ts e)
    {b : Bool} (hb : b = true ∨ k ≠ .expr) : Derives .term (wrapTokens b ts) e := by
  cases b
  · exact h.toTerm (hb.resolve_left (by decide))
  · exact .factor (.paren h.toExpr)

theorem derives_wrapTokens_factor {k : Rule} {ts : List Token} {e : Expr} (h : Derives k ts e)
    {b : Bool} (hb : b = true ∨ k = .factor) : Derives .factor (wrapTokens b ts) e := by
  cases b
  · rw [← hb.resolve_left (by decide)]
    exact h
  · exact .paren h.toExpr

/-- A left operand goes without parentheses only where its rule may stand. -/
theorem parenLeft_or (o : Operator) (l : Expr) :
    parenLeft o l = true ∨ o.isAdditive = true ∨ l.rule ≠ .expr := by
  cases l with
  | op c _ _ =>
    cases o <;> cases c <;> simp [parenLeft, rule, Operator.precedence, Operator.isAdditive]
  | _ => exact .inr (.inr (by simp [rule]))

/-- A right operand goes without parentheses only where its rule may stand. -/
theorem parenRight_or (o : Operator) (r : Expr) :
    parenRight o r = true ∨ o.isAdditive = true ∧ r.rule ≠ .expr ∨ r.rule = .factor := by
  cases r with
  | op c _ _ =>
    cases o <;> cases c <;> simp [parenRight, rule, Operator.precedence, Operator.isAdditive]
  | _ => exact .inr (.inr rfl)

/-- The tokens of a printable tree are a phrase of its rule, whose tree is the tree read. -/
theorem derives_tokens {e : Expr} (he : e.Printable) : Derives e.rule e.tokens e.asRead := by
  induction e with
  | lit n => exact .leaf rfl
  | ref x => exact .leaf rfl
  | roll r => exact .leaf rfl
  | op o l r ihl ihr =>
    simp only [rule, tokens, asRead]
    cases ho : o.isAdditive
    · -- a product or quotient: a term, the operator and a factor
      rw [if_neg (by decide)]
      refine .mulStep (derives_wrapTokens_term (ihl he.1) ?_) ho
        (derives_wrapTokens_factor (ihr he.2) ?_)
      · rcases parenLeft_or o l with h | h | h
        · exact .inl h
        · exact absurd (ho ▸ h) (by decide)
        · exact .inr h
      · rcases parenRight_or o r with h | ⟨h, -⟩ | h
        · exact .inl h
        · exact absurd (ho ▸ h) (by decide)
        · exact .inr h
    · -- a sum or difference: an expression, the operator and a term
      rw [if_pos rfl]
      refine .addStep (derives_wrapTokens_expr (ihl he.1) _) ho
        (derives_wrapTokens_term (ihr he.2) ?_)
      rcases parenRight_or o r with h | ⟨-, h⟩ | h
      · exact .inl h
      · exact .inr h
      · exact .inr (by rw [h]; decide)
  | missing => exact he.elim

/-! ## Reading the text back -/

/-- With no call depth limit, the text of a printable tree reads back as the tree read. -/
theorem parse_text {e : Expr} (he : e.Printable) : parse e.text = .ok e.asRead := by
  obtain ⟨htoks, hstop⟩ := scan_text he
  rw [parse_eq_ok_iff]
  exact ⟨hstop, htoks ▸ (derives_tokens he).toExpr⟩

/-- The text of a printable tree reads back as the tree read, unless its parentheses nest too
deeply for the reader. -/
theorem Printable.parseAt_text {e : Expr} (he : e.Printable) (p : Nat) :
    parseAt p e.text = .ok e.asRead ∨
      depthLimit < p + 3 * nesting e.tokens + 14 ∧ ∃ en, parseAt p e.text = .error (.tooDeep en) := by
  obtain ⟨htoks, -⟩ := scan_text he
  -- the reader agrees with the plain one, which succeeds, so it fails only when too deep
  rcases parseAt_agrees p e.text with h | ⟨hdeep, en, h⟩
  · left
    rw [h, parse_text he]
    rfl
  · right
    refine ⟨?_, en, h⟩
    rcases hdeep with hdeep | ⟨-, f, hf⟩
    · rwa [htoks] at hdeep
    · rw [parse_text he] at hf
      cases hf

/-- **Printing and reading back.**  A printable tree prints as its text unless it is too high
for the printer, and its text reads back as the tree read unless its parentheses nest too deeply
for the reader; the only other outcome of either is a recursion fault. -/
theorem renderAt_parseAt {e : Expr} (he : e.Printable) (d p : Nat) :
    (e.renderAt d = .ok e.text ∨
        depthLimit < d + e.height + 5 ∧ ∃ en, e.renderAt d = .error (.tooDeep en)) ∧
      (parseAt p e.text = .ok e.asRead ∨
        depthLimit < p + 3 * nesting e.tokens + 14 ∧ ∃ en, parseAt p e.text = .error (.tooDeep en)) :=
  ⟨he.renderAt d, he.parseAt_text p⟩

theorem renderAt_parseAt_difference :
    (op .sub (lit (.int 1)) (op .add (lit (.int 2)) (ref "x"))).Printable ∧
      (((op .sub (lit (.int 1)) (op .add (lit (.int 2)) (ref "x"))).renderAt 5 =
          .ok (op .sub (lit (.int 1)) (op .add (lit (.int 2)) (ref "x"))).text ∨
        depthLimit < 5 + (op .sub (lit (.int 1)) (op .add (lit (.int 2)) (ref "x"))).height + 5 ∧
          ∃ en, (op .sub (lit (.int 1)) (op .add (lit (.int 2)) (ref "x"))).renderAt 5 =
            .error (.tooDeep en)) ∧
      (parseAt 5 (op .sub (lit (.int 1)) (op .add (lit (.int 2)) (ref "x"))).text =
          .ok (op .sub (lit (.int 1)) (op .add (lit (.int 2)) (ref "x"))).asRead ∨
        depthLimit < 5 + 3 * nesting (op .sub (lit (.int 1)) (op .add (lit (.int 2)) (ref "x"))).tokens
            + 14 ∧
          ∃ en, parseAt 5 (op .sub (lit (.int 1)) (op .add (lit (.int 2)) (ref "x"))).text =
            .error (.tooDeep en))) := by
  have hp : (op .sub (lit (.int 1)) (op .add (lit (.int 2)) (ref "x"))).Printable :=
    ⟨withinDigitLimit_of_lt_ten (by decide), withinDigitLimit_of_lt_ten (by decide), rfl⟩
  exact ⟨hp, renderAt_parseAt hp 5 5⟩

/-! ## A chain of subtractions too deep to read back -/

/-- `1 - (1 - (… - 1))` with `n` subtractions. -/
def subChain : Nat → Expr
  | 0 => lit (.int 1)
  | n + 1 => op .sub (lit (.int 1)) (subChain n)

theorem subChain_printable (n : Nat) : (subChain n).Printable := by
  induction n with
  | zero => exact withinDigitLimit_of_lt_ten (by decide)
  | succ n ih => exact ⟨withinDigitLimit_of_lt_ten (by decide), ih⟩

theorem height_subChain (n : Nat) : (subChain n).height = n := by
  induction n with
  | zero => rfl
  | succ n ih => simp [subChain, height, ih]

/-- Closing parentheses at the end do not deepen a token list. -/
theorem nesting_append_of_zero {ts us : List Token} (h : nesting us = 0) :
    nesting (ts ++ us) = nesting ts := by
  induction ts with
  | nil => exact h
  | cons t ts ih => cases t <;> simp [nesting, ih]

theorem tokens_subChain (n : Nat) :
    (subChain (n + 2)).tokens =
      .number (.int 1) :: .oper .sub :: .openParen :: ((subChain (n + 1)).tokens ++ [.closeParen]) :=
  rfl

/-- Each subtraction after the first puts its right operand between one more pair of
parentheses. -/
theorem nesting_subChain (n : Nat) : nesting (subChain n).tokens = n - 1 := by
  induction n with
  | zero => rfl
  | succ n ih =>
    cases n with
    | zero => rfl
    | succ k =>
      rw [tokens_subChain]
      simp only [nesting]
      rw [nesting_append_of_zero rfl, ih]
      omega

/-- A chain of 331 to 990 subtractions nested to the right prints, but its text, a sentence of
the grammar, is too deep to be read back: reading it is a recursion fault. -/
theorem subChain_tooDeep {n : Nat} (hlo : 331 ≤ n) (hhi : n ≤ 990) :
    (subChain n).Printable ∧ (subChain n).renderAt 5 = .ok (subChain n).text ∧
      ∃ en, parseAt 5 (subChain n).text = .error (.tooDeep en) := by
  have hp := subChain_printable n
  obtain ⟨htoks, -⟩ := scan_text hp
  have hparse := parse_text hp
  refine ⟨hp, ?_, ?_⟩
  · have hroom : 5 + (subChain n).height + 5 ≤ depthLimit := by
      rw [height_subChain]
      unfold depthLimit
      omega
    rw [renderAt_eq_render? hroom, render?_eq_text hp]
  · rcases parseAt_agrees 5 (subChain n).text with h | ⟨-, en, h⟩
    · -- reading back would need room for `n - 1` open parentheses
      rw [hparse] at h
      have hroom := parseAt_room h
      rw [htoks, nesting_subChain] at hroom
      unfold depthLimit at hroom
      omega
    · exact ⟨en, h⟩

/-- Four hundred subtractions nested to the right print, but their text does not read back. -/
theorem parseAt_subChain :
    (subChain 400).Printable ∧ (subChain 400).renderAt 5 = .ok (subChain 400).text ∧
      ∃ en, parseAt 5 (subChain 400).text = .error (.tooDeep en) :=
  subChain_tooDeep (by decide) (by decide)

end Expr

end DiceNotation
