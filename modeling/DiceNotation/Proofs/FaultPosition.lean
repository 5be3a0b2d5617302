import DiceNotation.Proofs.ReadDepth
import DiceNotation.Proofs.StreamScan

/-!
# Where a syntax fault points

A syntax fault carries a piece of the text it was found in and the position where that piece
starts, counting characters of the text with blanks at both ends removed.  This file states, by
kind of fault, which piece and which position those are (`ParseError.Locates`), and proves that
every fault of reading a text is located so, from any call depth.

* The scanner's faults (`Scan.StopsAt`): the scan stops at the first place where no token can be
  read, every token before lying wholly before it; the fault quotes the text from there, or, for a
  roll with no dice or no sides, the roll itself (`Scan.LexFault`).
* The reader's faults (`Parser.ReadFault`): the end of the text where an operand is due, a `(`
  whose expression is followed by something other than `)`, and an operator or `)` where an
  operand is due; each points at its token and quotes the text from there.
* The end of the text is reported only once every token was read and the scan ended cleanly, and
  then the tokens begin an expression (`Parser.Begins`): nothing in the text is wrong yet, it only
  stops too soon.
* A token left after a complete expression is reported at that token, the tokens before it
  forming the expression that the message prints.

`Expr.parseAt_syntaxFault_located` puts these together.
-/

namespace DiceNotation

namespace Scan

/-! ## Faults of the scanner -/

/-- `lexeme` is the roll written at the front of `cs`, and it has no dice or no sides. -/
def EmptyRollAt (cs : List Char) (lexeme : String) : Prop :=
  ∃ count sides keep n, matchRoll cs = some (count, sides, keep, n) ∧
    lexeme = String.ofList (cs.take n) ∧ (digitsValue count = 0 ∨ digitsValue sides = 0)

/-- What a fault of reading a token at the front of `cs` quotes: the text from there when no
token starts there or a digit run is too long, and the roll itself when it has no dice or no
sides.  No other fault comes from reading a token. -/
def LexFault (cs : List Char) (err : ParseError) : Prop :=
  match err.fault with
  | .unexpectedInput rest => err.text = String.ofList cs ∧ rest = err.text
  | .invalidNumber _ => err.text = String.ofList cs
  | .invalidDice lexeme => err.text = lexeme ∧ EmptyRollAt cs lexeme
  | _ => False

/-- The scan of `s` stops at the fault `err`: the fault is raised where the character at its
position starts no token that can be read, and every token of the scan lies wholly before it. -/
structure StopsAt (s : List Char) (err : ParseError) : Prop where
  stop_eq : (scanFrom s 0).stop = some err
  lexAt_eq : lexAt (s.drop err.position) err.position = .error err
  lexFault : LexFault (s.drop err.position) err
  not_blank : ∃ c rest, s.drop err.position = c :: rest ∧ Text.isBlank c = false
  before : ∀ q ∈ (scanFrom s 0).tokens,
    ∃ k, lexAt (s.drop q.1) q.1 = .ok (q.2, k) ∧ q.1 + k < err.position

theorem matchRoll_length_pos {cs count sides : List Char} {keep : Option Keep} {n : Nat}
    (h : matchRoll cs = some (count, sides, keep, n)) : 0 < n := by
  unfold matchRoll at h
  dsimp only at h
  split at h
  · cases h
  · split at h
    · split at h
      · cases h
      · cases h
        omega
    · cases h

/-- Reading a token fails only with a fault of the scanner, raised at the position it reads
from. -/
theorem lexAt_error {cs : List Char} {pos : Nat} {err : ParseError}
    (h : lexAt cs pos = .error err) : err.position = pos ∧ LexFault cs err := by
  unfold lexAt at h
  dsimp only at h
  split at h
  · cases h
  · split at h
    · rename_i count sides keep n hroll
      split at h
      · cases h
        exact ⟨rfl, rfl⟩
      · split at h
        · cases h
          rename_i hzero
          refine ⟨rfl, rfl, count, sides, keep, n, hroll, rfl, ?_⟩
          simp only [Bool.or_eq_true, decide_eq_true_eq] at hzero
          omega
        · cases h
    · split at h
      · cases h
      · split at h
        · cases h
          exact ⟨rfl, rfl⟩
        · cases h
      · split at h
        · cases h
        · cases h
          exact ⟨rfl, rfl, rfl⟩

/-- A symbol token read from the front of `cs` is the character there. -/
theorem symbolToken?_symbol {c : Char} {tok : Token} (h : symbolToken? c = some tok) :
    tok.symbol? = some c := by
  unfold symbolToken? at h
  split at h <;> cases h <;> rfl

theorem lexAt_head_of_symbol {cs : List Char} {pos k : Nat} {tok : Token} {c : Char}
    (h : lexAt cs pos = .ok (tok, k)) (hc : tok.symbol? = some c) : cs.head? = some c := by
  unfold lexAt at h
  dsimp only at h
  split at h
  · cases h; cases hc
  · split at h
    · split at h
      · cases h
      · split at h
        · cases h
        · cases h; cases hc
    · split at h
      · cases h; cases hc
      · split at h
        · cases h
        · cases h; cases hc
      · split at h
        · cases h
          rename_i tok' hsym
          cases hcs : cs.head? with
          | none => rw [hcs] at hsym; cases hsym
          | some d =>
            rw [hcs, Option.bind_some] at hsym
            rw [symbolToken?_symbol hsym] at hc
            rw [hc]
        · cases h

/-- No token is read from the end of the text. -/
theorem lexAt_ne_nil {cs : List Char} {pos k : Nat} {tok : Token}
    (h : lexAt cs pos = .ok (tok, k)) : cs ≠ [] := by
  rintro rfl
  simp [lexAt, matchName, matchRoll, matchNumber] at h

/-- The scan stops at its fault: it is raised where the text from its position starts no token
that can be read, at a character that is no blank, after every token of the scan. -/
theorem stopsAt_scanFrom (T cs : List Char) (pos : Nat) (hcs : cs = T.drop pos) {err : ParseError}
    (h : (scanFrom cs pos).stop = some err) :
    lexAt (T.drop err.position) err.position = .error err ∧
      (∃ c rest, T.drop err.position = c :: rest ∧ Text.isBlank c = false) ∧ pos ≤ err.position ∧
      ∀ q ∈ (scanFrom cs pos).tokens,
        ∃ k, lexAt (T.drop q.1) q.1 = .ok (q.2, k) ∧ q.1 + k < err.position := by
  fun_induction scanFrom cs pos with
  | case1 => cases h
  | case2 pos c rest _ ih =>
    -- a blank is skipped: the rest of the text starts one position further
    obtain ⟨hlex, hblank, hle, hbefore⟩ := ih (by rw [← List.tail_drop, ← hcs]; rfl) h
    exact ⟨hlex, hblank, by omega, hbefore⟩
  | case3 pos c rest hc e hlex =>
    cases h
    obtain ⟨rfl, -⟩ := lexAt_error hlex
    exact ⟨hcs ▸ hlex, ⟨c, rest, hcs.symm, by simpa using hc⟩, Nat.le_refl _, by simp⟩
  | case4 pos c rest _ t k hlex s ih =>
    -- the scan goes on after the `k + 1` characters of the token
    have hrest : rest = T.drop (pos + 1) := by rw [← List.tail_drop, ← hcs]; rfl
    have hs : rest.drop k = T.drop (pos + k + 1) := by
      rw [hrest, List.drop_drop]
      congr 1
      omega
    obtain ⟨hlex', hblank, hle, hbefore⟩ := ih hs h
    refine ⟨hlex', hblank, by omega, ?_⟩
    intro q hq
    rcases List.mem_cons.1 hq with rfl | hq
    · exact ⟨k, hcs ▸ hlex, by omega⟩
    · exact hbefore q hq

/-- The fault of a scan is where the scan stops. -/
theorem stopsAt_of_stop {s : List Char} {err : ParseError} (h : (scanFrom s 0).stop = some err) :
    StopsAt s err := by
  obtain ⟨hlex, hblank, -, hbefore⟩ := stopsAt_scanFrom s s 0 (by simp) h
  exact ⟨h, hlex, (lexAt_error hlex).2, hblank, hbefore⟩

end Scan

namespace Parser

/-! ## Faults of the reader -/

/-- The fault at the end of the text `whole`, where an operand is due. -/
def incompleteFault (whole : List Char) : ParseError :=
  ⟨.incomplete, String.ofList whole, whole.length⟩

/-- A fault the reader can raise on the positioned tokens `ts` of `whole`: the fault of the scan,
the end of the text where an operand is due, or a fault at one of the tokens, which is a `(`
whose expression is not closed, or an operator or `)` where an operand is due. -/
def ReadFault (whole : List Char) (stop : Option ParseError) (ts : Tokens) (err : ParseError) :
    Prop :=
  stop = some err ∨ stop = none ∧ err = incompleteFault whole ∨
    ∃ pos tok, (pos, tok) ∈ ts ∧
      (tok = .openParen ∧ err = faultAt whole .unmatchedParen pos ∨
        ∃ c, tok.symbol? = some c ∧ tok ≠ .openParen ∧
          err = faultAt whole (.unexpectedOperator c) pos)

namespace ReadFault

variable {whole : List Char} {stop : Option ParseError} {ts ts' : Tokens} {err : ParseError}

theorem mono (h : ReadFault whole stop ts err) (hsub : ts ⊆ ts') :
    ReadFault whole stop ts' err := by
  rcases h with h | h | ⟨pos, tok, hmem, h⟩
  · exact .inl h
  · exact .inr (.inl h)
  · exact .inr (.inr ⟨pos, tok, hsub hmem, h⟩)

theorem of_stop (h : stop = some err) : ReadFault whole stop ts err := .inl h

theorem unclosed {pos : Nat} {rest : Tokens} :
    ReadFault whole stop ((pos, .openParen) :: rest) (faultAt whole .unmatchedParen pos) :=
  .inr (.inr ⟨pos, .openParen, List.mem_cons_self, .inl ⟨rfl, rfl⟩⟩)

theorem symbol {pos : Nat} {tok : Token} {c : Char} {rest : Tokens} (hc : tok.symbol? = some c)
    (hne : tok ≠ .openParen) :
    ReadFault whole stop ((pos, tok) :: rest) (faultAt whole (.unexpectedOperator c) pos) :=
  .inr (.inr ⟨pos, tok, List.mem_cons_self, .inr ⟨c, hc, hne, rfl⟩⟩)

end ReadFault

variable {whole : List Char} {stop : Option ParseError}

/-- The tokens left after a factor are among the tokens it was given. -/
theorem factor_rest_subset {ts : Tokens} {e : Expr} {r : { r : Tokens // r.length < ts.length }}
    (h : factor whole stop ts = .ok (e, r)) : r.1 ⊆ ts := by
  obtain ⟨us, hts, -⟩ := factor_sound h
  exact fun q hq => hts ▸ List.mem_append_right us hq

/-- The tokens left after a term are among the tokens it was given. -/
theorem term_rest_subset {ts : Tokens} {e : Expr} {r : { r : Tokens // r.length < ts.length }}
    (h : term whole stop ts = .ok (e, r)) : r.1 ⊆ ts := by
  obtain ⟨us, hts, -⟩ := term_sound h
  exact fun q hq => hts ▸ List.mem_append_right us hq

-- Each theorem follows the rule it is about, as the soundness theorems do: a fault comes from a
-- token the rule looks at, from the end of the tokens, or from a rule it calls on a suffix.
mutual

theorem factor_fault {ts : Tokens} {err : ParseError} (h : factor whole stop ts = .error err) :
    ReadFault whole stop ts err := by
  unfold factor at h
  split at h
  · split at h
    · cases h; exact .of_stop rfl
    · cases h; exact .inr (.inl ⟨rfl, rfl⟩)
  · rename_i pos tok rest
    split at h
    · cases h
    · cases h
    · cases h
    · cases h; exact .symbol rfl (by simp)
    · cases h; exact .symbol rfl (by simp)
    · split at h
      · cases h
        rename_i he
        exact (expr_fault he).mono (List.subset_cons_self _ _)
      · split at h
        · split at h
          · cases h
          · cases h; exact .unclosed
        · split at h
          · cases h; exact .of_stop rfl
          · cases h; exact .unclosed
termination_by (ts.length, 0)

theorem termRest_fault {acc : Expr} {ts : Tokens} {err : ParseError}
    (h : termRest whole stop acc ts = .error err) : ReadFault whole stop ts err := by
  unfold termRest at h
  split at h
  · split at h
    · cases h; exact .of_stop rfl
    · cases h
  · rename_i pos tok rest
    split at h
    · split at h
      · cases h
      · split at h
        · cases h
          rename_i he
          exact (factor_fault he).mono (List.subset_cons_self _ _)
        · rename_i b r hr hb
          split at h
          · cases h
            rename_i he
            exact (termRest_fault he).mono fun q hq =>
              List.mem_cons_of_mem _ (factor_rest_subset hb hq)
          · cases h
    · cases h
termination_by (ts.length, 0)
decreasing_by all_goals (subst_vars; simp_wf; grind)

theorem term_fault {ts : Tokens} {err : ParseError} (h : term whole stop ts = .error err) :
    ReadFault whole stop ts err := by
  unfold term at h
  split at h
  · cases h
    rename_i he
    exact factor_fault he
  · rename_i a r hr ha
    split at h
    · cases h
      rename_i he
      exact (termRest_fault he).mono (factor_rest_subset ha)
    · cases h
termination_by (ts.length, 1)

theorem exprRest_fault {acc : Expr} {ts : Tokens} {err : ParseError}
    (h : exprRest whole stop acc ts = .error err) : ReadFault whole stop ts err := by
  unfold exprRest at h
  split at h
  · split at h
    · cases h; exact .of_stop rfl
    · cases h
  · rename_i pos tok rest
    split at h
    · split at h
      · cases h
      · split at h
        · cases h
          rename_i he
          exact (term_fault he).mono (List.subset_cons_self _ _)
        · rename_i b r hr hb
          split at h
          · cases h
            rename_i he
            exact (exprRest_fault he).mono fun q hq =>
              List.mem_cons_of_mem _ (term_rest_subset hb hq)
          · cases h
    · cases h
termination_by (ts.length, 0)
decreasing_by all_goals (subst_vars; simp_wf; grind)

theorem expr_fault {ts : Tokens} {err : ParseError} (h : expr whole stop ts = .error err) :
    ReadFault whole stop ts err := by
  unfold expr at h
  split at h
  · cases h
    rename_i he
    exact term_fault he
  · rename_i a r hr ha
    split at h
    · cases h
      rename_i he
      exact (exprRest_fault he).mono (term_rest_subset ha)
    · cases h
termination_by (ts.length, 2)

end

/-! ## The end of the text comes too soon -/

/-- The tokens `us` begin a phrase of rule `k`: some tokens after them make one. -/
def Begins (k : Rule) (us : List Token) : Prop := ∃ vs e, Derives k (us ++ vs) e

namespace Begins

/-- Nothing begins every factor: a single number is one. -/
theorem factor_nil : Begins .factor [] := ⟨[.number (.int 0)], _, .leaf rfl⟩

theorem term {us : List Token} (h : Begins .factor us) : Begins .term us := by
  obtain ⟨vs, e, hd⟩ := h
  exact ⟨vs, e, .factor hd⟩

theorem expr {us : List Token} (h : Begins .term us) : Begins .expr us := by
  obtain ⟨vs, e, hd⟩ := h
  exact ⟨vs, e, .term hd⟩

/-- An open parenthesis followed by the beginning of an expression begins a factor, which the
closing parenthesis ends. -/
theorem paren {us : List Token} (h : Begins .expr us) : Begins .factor (.openParen :: us) := by
  obtain ⟨vs, e, hd⟩ := h
  exact ⟨vs ++ [.closeParen], e, by simpa using Derives.paren hd⟩

theorem mulStep {pre us : List Token} {a : Expr} {o : Operator} (ha : Derives .term pre a)
    (ho : o.isAdditive = false) (h : Begins .factor us) : Begins .term (pre ++ .oper o :: us) := by
  obtain ⟨vs, b, hd⟩ := h
  exact ⟨vs, _, by simpa using Derives.mulStep ha ho hd⟩

theorem addStep {pre us : List Token} {a : Expr} {o : Operator} (ha : Derives .expr pre a)
    (ho : o.isAdditive = true) (h : Begins .term us) : Begins .expr (pre ++ .oper o :: us) := by
  obtain ⟨vs, b, hd⟩ := h
  exact ⟨vs, _, by simpa using Derives.addStep ha ho hd⟩

end Begins

-- The end of the text is met by `factor` only; every other rule meets it through a factor, after
-- the phrase it has read so far (`pre` for the loops), so that phrase is begun by the tokens.
mutual

theorem factor_incomplete {ts : Tokens}
    (h : factor whole none ts = .error (incompleteFault whole)) :
    Begins .factor (ts.map Prod.snd) := by
  unfold factor at h
  split at h
  · exact Begins.factor_nil
  · split at h
    · cases h
    · cases h
    · cases h
    · cases h
    · cases h
    · split at h
      · cases h
        rename_i he
        exact (expr_incomplete he).paren
      · split at h
        · split at h
          · cases h
          · cases h
        · cases h
termination_by (ts.length, 0)

theorem termRest_incomplete {pre : List Token} {acc : Expr} (hacc : Derives .term pre acc)
    {ts : Tokens} (h : termRest whole none acc ts = .error (incompleteFault whole)) :
    Begins .term (pre ++ ts.map Prod.snd) := by
  unfold termRest at h
  split at h
  · cases h
  · split at h
    · rename_i pos rest _ o
      split at h
      · cases h
      · rename_i ho
        split at h
        · cases h
          rename_i he
          simpa using (factor_incomplete he).mulStep hacc (by simpa using ho)
        · rename_i b r hr hb
          split at h
          · cases h
            rename_i he
            obtain ⟨us, hrest, hd⟩ := factor_sound hb
            have hstep := Derives.mulStep hacc (by simpa using ho) hd
            have := termRest_incomplete hstep he
            dsimp only at hrest
            simpa [hrest] using this
          · cases h
    · cases h
termination_by (ts.length, 0)
decreasing_by all_goals (subst_vars; simp_wf; grind)

theorem term_incomplete {ts : Tokens} (h : term whole none ts = .error (incompleteFault whole)) :
    Begins .term (ts.map Prod.snd) := by
  unfold term at h
  split at h
  · cases h
    rename_i he
    exact (factor_incomplete he).term
  · rename_i a r hr ha
    split at h
    · cases h
      rename_i he
      obtain ⟨us, hts, hd⟩ := factor_sound ha
      have := termRest_incomplete (.factor hd) he
      dsimp only at hts
      simpa [hts] using this
    · cases h
termination_by (ts.length, 1)

theorem exprRest_incomplete {pre : List Token} {acc : Expr} (hacc : Derives .expr pre acc)
    {ts : Tokens} (h : exprRest whole none acc ts = .error (incompleteFault whole)) :
    Begins .expr (pre ++ ts.map Prod.snd) := by
  unfold exprRest at h
  split at h
  · cases h
  · split at h
    · rename_i pos rest _ o
      split at h
      · cases h
      · rename_i ho
        split at h
        · cases h
          rename_i he
          simpa using (term_incomplete he).addStep hacc (by simpa using ho)
        · rename_i b r hr hb
          split at h
          · cases h
            rename_i he
            obtain ⟨us, hrest, hd, -⟩ := term_sound hb
            have hstep := Derives.addStep hacc (by simpa using ho) hd
            have := exprRest_incomplete hstep he
            dsimp only at hrest
            simpa [hrest] using this
          · cases h
    · cases h
termination_by (ts.length, 0)
decreasing_by all_goals (subst_vars; simp_wf; grind)

theorem expr_incomplete {ts : Tokens} (h : expr whole none ts = .error (incompleteFault whole)) :
    Begins .expr (ts.map Prod.snd) := by
  unfold expr at h
  split at h
  · cases h
    rename_i he
    exact (term_incomplete he).expr
  · rename_i a r hr ha
    split at h
    · cases h
      rename_i he
      obtain ⟨us, hts, hd, -⟩ := term_sound ha
      have := exprRest_incomplete (.term hd) he
      dsimp only at hts
      simpa [hts] using this
    · cases h
termination_by (ts.length, 2)

end

end Parser

/-! ## Where each fault points -/

namespace ParseError

open DiceNotation.Parser

/-- Where a syntax fault met in reading `s` points, by kind; `s` is the text read, blanks at both
ends removed, and its scan is `Scan.scanFrom s 0`.

* `Incomplete expression`: the whole text, at its length, once the scan ended cleanly and its
  tokens, every one of them, began an expression;
* `Unmatched parenthesis`: the text from a `(` token;
* `Unexpected operator`: the text from a token that is an operator or `)`, the symbol the
  message names;
* `Unexpected token`: the text from the first token after the tokens of the expression that the
  message prints;
* `Unexpected input`, `Invalid number` and `Invalid dice roll`: where the scan stops. -/
def Locates (s : List Char) (err : ParseError) : Prop :=
  match err.fault with
  | .incomplete =>
    err.text = String.ofList s ∧ err.position = s.length ∧ (Scan.scanFrom s 0).stop = none ∧
      Begins .expr ((Scan.scanFrom s 0).tokens.map Prod.snd)
  | .unmatchedParen =>
    err.text = textFrom s err.position ∧ s[err.position]? = some '(' ∧
      (err.position, .openParen) ∈ (Scan.scanFrom s 0).tokens
  | .unexpectedOperator c =>
    err.text = textFrom s err.position ∧ s[err.position]? = some c ∧ c ≠ '(' ∧
      ∃ tok, (err.position, tok) ∈ (Scan.scanFrom s 0).tokens ∧ tok.symbol? = some c
  | .unexpectedToken tok e =>
    err.text = textFrom s err.position ∧
      ∃ pre rest, (Scan.scanFrom s 0).tokens = pre ++ (err.position, tok) :: rest ∧
        Derives .expr (pre.map Prod.snd) e
  | .unexpectedInput _ | .invalidNumber _ | .invalidDice _ => Scan.StopsAt s err

variable {s : List Char} {err : ParseError}

/-- A fault where the scan stops is located there. -/
theorem locates_of_stopsAt (h : Scan.StopsAt s err) : err.Locates s := by
  obtain ⟨f, text, pos⟩ := err
  cases f with
  | incomplete => exact absurd h.lexFault id
  | unmatchedParen => exact absurd h.lexFault id
  | unexpectedOperator => exact absurd h.lexFault id
  | unexpectedToken => exact absurd h.lexFault id
  | unexpectedInput => exact h
  | invalidNumber => exact h
  | invalidDice => exact h

/-- A fault that quotes the text from its position, inside the text, quotes a piece of the text
that is not empty and starts there. -/
theorem quotes_of_text_eq (htext : err.text = textFrom s err.position)
    (h : s.drop err.position ≠ []) :
    err.position < s.length ∧ err.text ≠ "" ∧ err.text.toList <+: s.drop err.position := by
  rw [htext, textFrom, Ne, String.ofList_eq_empty_iff, String.toList_ofList]
  refine ⟨?_, h, List.prefix_refl _⟩
  rcases Nat.lt_or_ge err.position s.length with hlt | hle
  · exact hlt
  · exact absurd (List.drop_eq_nil_of_le hle) h

/-- A token of the scan starts inside the text. -/
theorem drop_ne_nil_of_mem {pos : Nat} {tok : Token} (h : (pos, tok) ∈ (Scan.scanFrom s 0).tokens) :
    s.drop pos ≠ [] := by
  obtain ⟨k, hlex⟩ := Scan.lexAt_of_mem_scanFrom s s 0 rfl h
  exact Scan.lexAt_ne_nil hlex

/-- A symbol token of the scan is the character at its position. -/
theorem getElem?_of_mem {pos : Nat} {tok : Token} {c : Char}
    (h : (pos, tok) ∈ (Scan.scanFrom s 0).tokens) (hc : tok.symbol? = some c) :
    s[pos]? = some c := by
  obtain ⟨k, hlex⟩ := Scan.lexAt_of_mem_scanFrom s s 0 rfl h
  rw [← List.head?_drop]
  exact Scan.lexAt_head_of_symbol hlex hc

/-- Every fault but the end of the text quotes a piece of the text that is not empty, starting at
its position, inside the text. -/
theorem Locates.quotes (h : err.Locates s) (hne : err.fault ≠ .incomplete) :
    err.position < s.length ∧ err.text ≠ "" ∧ err.text.toList <+: s.drop err.position := by
  obtain ⟨f, text, pos⟩ := err
  cases f with
  | incomplete => exact absurd rfl hne
  | unmatchedParen => exact quotes_of_text_eq h.1 (drop_ne_nil_of_mem h.2.2)
  | unexpectedOperator c =>
    obtain ⟨htext, -, -, tok, hmem, -⟩ := h
    exact quotes_of_text_eq htext (drop_ne_nil_of_mem hmem)
  | unexpectedToken tok e =>
    obtain ⟨htext, pre, rest, htoks, -⟩ := h
    exact quotes_of_text_eq htext
      (drop_ne_nil_of_mem (htoks ▸ List.mem_append_right pre List.mem_cons_self))
  | unexpectedInput rest =>
    obtain ⟨c, cs, hcs, -⟩ := h.not_blank
    exact quotes_of_text_eq h.lexFault.1 (by simp [hcs])
  | invalidNumber lexeme =>
    obtain ⟨c, cs, hcs, -⟩ := h.not_blank
    exact quotes_of_text_eq h.lexFault (by simp [hcs])
  | invalidDice lexeme =>
    -- the roll itself is quoted: a piece of at least one character from the position on
    obtain ⟨c, cs, hcs, -⟩ := h.not_blank
    obtain ⟨htext, count, sides, keep, n, hroll, hlex, -⟩ := h.lexFault
    obtain ⟨m, rfl⟩ : ∃ m, n = m + 1 := ⟨n - 1, by have := Scan.matchRoll_length_pos hroll; omega⟩
    dsimp only at htext hcs ⊢
    rw [htext, hlex, hcs, Ne, String.ofList_eq_empty_iff, String.toList_ofList]
    refine ⟨?_, by simp, List.take_prefix _ _⟩
    rcases Nat.lt_or_ge pos s.length with hlt | hle
    · exact hlt
    · simp [List.drop_eq_nil_of_le hle] at hcs

end ParseError

namespace Parser

/-- A fault of the reader on the tokens of the scan of `s` is located, given that an end of the
text that comes too soon comes after tokens that begin an expression. -/
theorem ReadFault.locates {s : List Char} {err : ParseError}
    (h : ReadFault s (Scan.scanFrom s 0).stop (Scan.scanFrom s 0).tokens err)
    (hbegins : (Scan.scanFrom s 0).stop = none → err = incompleteFault s →
      Begins .expr ((Scan.scanFrom s 0).tokens.map Prod.snd)) :
    err.Locates s := by
  rcases h with hstop | ⟨hstop, rfl⟩ | ⟨pos, tok, hmem, ⟨rfl, rfl⟩ | ⟨c, hc, hne, rfl⟩⟩
  · exact ParseError.locates_of_stopsAt (Scan.stopsAt_of_stop hstop)
  · exact ⟨rfl, rfl, hstop, hbegins hstop rfl⟩
  · exact ⟨rfl, ParseError.getElem?_of_mem hmem rfl, hmem⟩
  · refine ⟨rfl, ParseError.getElem?_of_mem hmem hc, ?_, tok, hmem, hc⟩
    rintro rfl
    -- only `(` has the symbol `(`
    cases tok <;> simp [Token.symbol?] at hc hne
    rename_i o
    cases o <;> simp [Operator.symbol] at hc

end Parser

namespace Expr

open DiceNotation.Parser

/-- Every syntax fault of reading a text is located in the text without blanks at its ends. -/
theorem parse_error_located {t : String} {err : ParseError} (h : parse t = .error err) :
    err.Locates (Text.strip t).toList := by
  rw [Text.strip, String.toList_ofList]
  unfold parse at h
  dsimp only at h
  generalize Text.stripList t.toList = whole at h ⊢
  split at h
  · rename_i he
    cases h
    refine (expr_fault he).locates fun hstop hinc => ?_
    rw [hstop, hinc] at he
    exact expr_incomplete he
  · rename_i e r hr he
    split at h
    · split at h
      · cases h
        exact ParseError.locates_of_stopsAt (Scan.stopsAt_of_stop ‹_›)
      · cases h
    · cases h
      -- a token is left after a complete expression, whose tokens come before it
      rename_i pos tok rest _
      obtain ⟨us, hts, hd, -⟩ := expr_sound he
      exact ⟨rfl, us, rest, hts, hd⟩

/-- A syntax fault of reading from any level is the plain reader's fault. -/
theorem parse_of_parseAt_malformed {p : Nat} {t : String} {err : ParseError}
    (h : parseAt p t = .error (.malformed err)) : parse t = .error err := by
  rcases parseAt_agrees p t with hm | ⟨-, en, hen⟩
  · rw [h] at hm
    cases hp : parse t with
    | error f => rw [hp] at hm; cases hm; rfl
    | ok e => rw [hp] at hm; cases hm
  · rw [h] at hen
    cases hen

/-- **Syntax faults point at the right place.**  When reading a text from any level fails with a
syntax fault, the fault is located in the text without blanks at its ends as its kind says
(`ParseError.Locates`); and every fault but the end of the text quotes a piece of that text that is
not empty and starts at the fault's position, inside the text. -/
theorem parseAt_syntaxFault_located (p : Nat) (t : String) {err : ParseError}
    (h : parseAt p t = .error (.malformed err)) :
    err.Locates (Text.strip t).toList ∧
      (err.fault ≠ .incomplete → err.position < (Text.strip t).length ∧ err.text ≠ "" ∧
        err.text.toList <+: (Text.strip t).toList.drop err.position) := by
  have hloc := parse_error_located (parse_of_parseAt_malformed h)
  refine ⟨hloc, fun hne => ?_⟩
  rw [← String.length_toList]
  exact hloc.quotes hne

/-- In `1 + (2 * 3 4)`, read with blanks in front, the `(` at position 4 of the stripped text is
not closed: the fault points there and quotes the text from it. -/
theorem parseAt_unmatchedParen_located :
    parseAt 5 "  1 + (2 * 3 4)" = .error (.malformed ⟨.unmatchedParen, "(2 * 3 4)", 4⟩) ∧
      ParseError.Locates (Text.strip "  1 + (2 * 3 4)").toList ⟨.unmatchedParen, "(2 * 3 4)", 4⟩ ∧
      (SyntaxFault.unmatchedParen ≠ .incomplete → 4 < (Text.strip "  1 + (2 * 3 4)").length ∧
        "(2 * 3 4)" ≠ "" ∧
          "(2 * 3 4)".toList <+: (Text.strip "  1 + (2 * 3 4)").toList.drop 4) := by
  have hstrip : Text.stripList "  1 + (2 * 3 4)".toList =
      ['1', ' ', '+', ' ', '(', '2', ' ', '*', ' ', '3', ' ', '4', ')'] := by decide
  have hscan : Scan.scanFrom ['1', ' ', '+', ' ', '(', '2', ' ', '*', ' ', '3', ' ', '4', ')'] 0 =
      ⟨[(0, .number (.int 1)), (2, .oper .add), (4, .openParen), (5, .number (.int 2)),
        (7, .oper .mul), (9, .number (.int 3)), (11, .number (.int 4)), (12, .closeParen)],
        none⟩ := by
    decide +kernel
  have hparse : parse "  1 + (2 * 3 4)" = .error ⟨.unmatchedParen, "(2 * 3 4)", 4⟩ := by
    unfold parse
    rw [hstrip]
    dsimp only
    rw [hscan]
    simp [expr, term, factor, termRest, exprRest, Operator.isAdditive, faultAt, textFrom]
  -- the text nests one parenthesis deep, far from the limit
  have hat :
      parseAt 5 "  1 + (2 * 3 4)" = .error (.malformed ⟨.unmatchedParen, "(2 * 3 4)", 4⟩) := by
    rw [(parseAt_agrees 5 _).eq_of_not ?_, hparse]
    · rfl
    · rw [scan_strip, hstrip, hscan]
      simp [nesting, depthLimit]
  exact ⟨hat, parseAt_syntaxFault_located 5 _ hat⟩

end Expr

end DiceNotation
