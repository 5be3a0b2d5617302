import Mathlib
import DiceNotation.Token.Scan

/-!
# Scanning the words the printer writes

The printer writes leaves, operator symbols and parentheses, separated by single spaces or by a
parenthesis.  This file shows that the scanner reads each such word back as the token it stands
for, as long as what follows it is a space, a closing parenthesis or the end of the text
(`Scan.Delimits`):

* `Scan.lexAt_symbol`, `Scan.lexAt_minus`: the operators and the parentheses;
* `Scan.lexAt_name`: a name of letters, digits, `_`, `$` and `.` that starts with no digit;
* `Scan.lexAt_int`, `Scan.lexAt_roll`: integers and rolls within the digit limit, written as
  their decimal digits;
* `Scan.lexAt_decimal`: a number with a point, read as the float nearest to its digits.

`Scan.scanFrom_lexeme` chains words: scanning a word and what follows gives the word's token and
the scan of what follows.
-/

namespace DiceNotation

namespace Scan

/-! ## Words and what follows them -/

/-- What may follow a number, roll or name for the scanner to end it there: a space, a closing
parenthesis, or nothing. -/
def Delimits (rest : List Char) : Prop := ∀ c ∈ rest.head?, c = ' ' ∨ c = ')'

theorem delimits_nil : Delimits [] := by simp [Delimits]

theorem delimits_space (cs : List Char) : Delimits (' ' :: cs) := by simp [Delimits]

theorem delimits_close (cs : List Char) : Delimits (')' :: cs) := by simp [Delimits]

theorem Delimits.cases {rest : List Char} (h : Delimits rest) :
    rest = [] ∨ (∃ t, rest = ' ' :: t) ∨ ∃ t, rest = ')' :: t := by
  cases rest with
  | nil => exact .inl rfl
  | cons c t =>
    rcases h c rfl with rfl | rfl
    · exact .inr (.inl ⟨t, rfl⟩)
    · exact .inr (.inr ⟨t, rfl⟩)

/-- A delimiter stops every class of characters that a number, roll or name is made of. -/
theorem Delimits.head_false {p : Char → Bool} (hsp : p ' ' = false) (hcl : p ')' = false)
    {rest : List Char} (h : Delimits rest) : ∀ c ∈ rest.head?, p c = false := by
  intro c hc
  rcases h c hc with rfl | rfl
  · exact hsp
  · exact hcl

/-- The longest prefix of a class is a run of that class stopped by a character outside it. -/
theorem takeWhile_append_stop {p : Char → Bool} {ds rest : List Char}
    (hds : ∀ c ∈ ds, p c = true) (hrest : ∀ c ∈ rest.head?, p c = false) :
    (ds ++ rest).takeWhile p = ds := by
  rw [List.takeWhile_append_of_pos hds]
  cases rest with
  | nil => simp
  | cons c cs => simp [hrest c rfl]

/-! ## Decimal digits -/

/-- The decimal digits of a natural number, as the printer writes them. -/
theorem digits_isDigit (n : Nat) : ∀ c ∈ Nat.toDigits 10 n, c.isDigit = true :=
  fun _ hc => Nat.isDigit_of_mem_toDigits (by decide) (by decide) hc

@[simp] theorem digitsValue_toDigits (n : Nat) : digitsValue (Nat.toDigits 10 n) = n :=
  Nat.ofDigitChars_ten_toDigits

theorem digitsValue_append (ds es : List Char) :
    digitsValue (ds ++ es) = 10 ^ es.length * digitsValue ds + digitsValue es := by
  simp only [digitsValue]
  rw [List.foldl_append]
  exact Nat.ofDigitChars_eq_ofDigitChars_zero

/-- An integer has at most 4300 digits exactly when its decimal text does. -/
theorem digits_length_le_iff (n : Nat) :
    (Nat.toDigits 10 n).length ≤ digitLimit ↔ n < 10 ^ 4300 := by
  unfold digitLimit
  exact Nat.length_toDigits_le_iff (by decide) (by decide)

/-- A single digit is within the digit limit. -/
theorem withinDigitLimit_of_lt_ten {n : Int} (h : n.natAbs < 10) :
    Number.withinDigitLimit n = true :=
  decide_eq_true (Nat.lt_of_lt_of_le h (Nat.le_self_pow (by decide) 10))

/-! ## Scanning word by word -/

theorem scanFrom_blank {c : Char} {cs : List Char} {pos : Nat} (hc : Text.isBlank c = true) :
    scanFrom (c :: cs) pos = scanFrom cs (pos + 1) := by
  rw [scanFrom]
  simp [hc]

/-- A word that the scanner reads whole is its token, and the scan goes on after it. -/
theorem scanFrom_lexeme {w rest : List Char} {pos : Nat} {t : Token} (hne : w ≠ [])
    (hw : ∀ c ∈ w.head?, Text.isBlank c = false) (h : lexAt (w ++ rest) pos = .ok (t, w.length - 1)) :
    scanFrom (w ++ rest) pos =
      ⟨(pos, t) :: (scanFrom rest (pos + w.length)).tokens, (scanFrom rest (pos + w.length)).stop⟩ := by
  obtain ⟨c, cs, rfl⟩ := List.exists_cons_of_ne_nil hne
  rw [List.cons_append, scanFrom]
  simp only [hw c rfl, Bool.false_eq_true, if_false]
  rw [← List.cons_append, h]
  simp only [List.length_cons, Nat.add_sub_cancel, List.drop_left, Nat.add_assoc]

/-- A symbol other than `-` repeated: each is a token of its own. -/
theorem scanFrom_replicate {c : Char} {t : Token} (hb : Text.isBlank c = false)
    (hlex : ∀ cs pos, lexAt (c :: cs) pos = .ok (t, 0)) (n : Nat) (cs : List Char) (pos : Nat) :
    (scanFrom (List.replicate n c ++ cs) pos).tokens.map Prod.snd =
        List.replicate n t ++ (scanFrom cs (pos + n)).tokens.map Prod.snd ∧
      (scanFrom (List.replicate n c ++ cs) pos).stop = (scanFrom cs (pos + n)).stop := by
  induction n generalizing pos with
  | zero => simp
  | succ n ih =>
    have hstep := @scanFrom_lexeme [c] (List.replicate n c ++ cs) pos t (by simp) (by simp [hb])
      (hlex _ pos)
    simp only [List.replicate_succ, List.cons_append]
    rw [← List.singleton_append, hstep]
    obtain ⟨h1, h2⟩ := ih (pos + 1)
    simp only [List.length_singleton, List.map_cons, h1, h2]
    constructor <;> rw [Nat.add_assoc, Nat.add_comm 1 n]

/-! ## Texts that scan to tokens -/

/-- `cs` scans to the tokens `ts` whenever what follows it satisfies `P`: the scan of `cs` and
the rest is `ts` followed by the scan of the rest, from some position on. -/
def ScansTo (P : List Char → Prop) (cs : List Char) (ts : List Token) : Prop :=
  ∀ rest, P rest → ∀ pos, ∃ pos',
    (scanFrom (cs ++ rest) pos).tokens.map Prod.snd =
        ts ++ (scanFrom rest pos').tokens.map Prod.snd ∧
      (scanFrom (cs ++ rest) pos).stop = (scanFrom rest pos').stop

namespace ScansTo

variable {P Q : List Char → Prop} {cs ds : List Char} {ts us : List Token}

/-- Two texts scan one after the other, when what follows the second lets the first end. -/
theorem append (h1 : ScansTo P cs ts) (h2 : ScansTo Q ds us) (hPQ : ∀ rest, Q rest → P (ds ++ rest)) :
    ScansTo Q (cs ++ ds) (ts ++ us) := by
  intro rest hq pos
  obtain ⟨p1, h1a, h1b⟩ := h1 (ds ++ rest) (hPQ rest hq) pos
  obtain ⟨p2, h2a, h2b⟩ := h2 rest hq p1
  refine ⟨p2, ?_, ?_⟩
  · rw [List.append_assoc, h1a, h2a, List.append_assoc]
  · rw [List.append_assoc, h1b, h2b]

theorem mono (h : ScansTo P cs ts) (hQP : ∀ rest, Q rest → P rest) : ScansTo Q cs ts :=
  fun rest hq pos => h rest (hQP rest hq) pos

/-- A text that ends the scan cleanly on its own scans to its tokens and nothing else. -/
theorem scan_eq (h : ScansTo P cs ts) (hnil : P []) :
    (scanFrom cs 0).tokens.map Prod.snd = ts ∧ (scanFrom cs 0).stop = none := by
  obtain ⟨p, h1, h2⟩ := h [] hnil 0
  rw [List.append_nil] at h1 h2
  rw [scanFrom] at h1 h2
  exact ⟨by simpa using h1, h2⟩

end ScansTo

theorem scansTo_blank : ScansTo (fun _ => True) [' '] [] := by
  intro rest _ pos
  exact ⟨pos + 1, by rw [List.singleton_append, scanFrom_blank rfl]; simp,
    by rw [List.singleton_append, scanFrom_blank rfl]⟩

/-- A word the scanner reads whole, before any rest that `P` allows, scans to its token. -/
theorem scansTo_word {P : List Char → Prop} {w : List Char} {t : Token} (hne : w ≠ [])
    (hw : ∀ c ∈ w.head?, Text.isBlank c = false)
    (hlex : ∀ rest, P rest → ∀ pos, lexAt (w ++ rest) pos = .ok (t, w.length - 1)) :
    ScansTo P w [t] := by
  intro rest hrest pos
  refine ⟨pos + w.length, ?_, ?_⟩ <;> rw [scanFrom_lexeme hne hw (hlex rest hrest pos)]
  rfl

/-! ## Symbols -/

theorem matchName_eq_none {c : Char} {cs : List Char} (hc : isNameStart c = false) :
    matchName (c :: cs) = none := by
  simp [matchName, hc]

theorem matchRoll_eq_none {c : Char} {cs : List Char} (hc : c.isDigit = false) :
    matchRoll (c :: cs) = none := by
  simp [matchRoll, hc]

theorem matchNumber_eq_none {c : Char} {cs : List Char} (hc : c.isDigit = false)
    (hneg : c = '-' → ∀ d ∈ cs.head?, d.isDigit = false) : matchNumber (c :: cs) = none := by
  by_cases hm : c = '-'
  · subst hm
    cases cs with
    | nil => simp [matchNumber]
    | cons d ds => simp [matchNumber, hneg rfl d rfl]
  · simp [matchNumber, hm, hc]

/-- A symbol other than `-` is read as itself, whatever follows. -/
theorem lexAt_symbol {c : Char} {t : Token} (ht : symbolToken? c = some t) (hc : c ≠ '-')
    (cs : List Char) (pos : Nat) : lexAt (c :: cs) pos = .ok (t, 0) := by
  have hcases : c = '+' ∨ c = '*' ∨ c = '/' ∨ c = '(' ∨ c = ')' := by
    unfold symbolToken? at ht
    split at ht <;> simp_all
  have hname : isNameStart c = false := by rcases hcases with h | h | h | h | h <;> subst h <;> rfl
  have hdigit : c.isDigit = false := by rcases hcases with h | h | h | h | h <;> subst h <;> rfl
  simp only [lexAt, matchName_eq_none hname, matchRoll_eq_none hdigit,
    matchNumber_eq_none hdigit (fun h => absurd h hc), List.head?_cons, Option.bind_some, ht]

/-- A `-` that no digit follows is the subtraction operator. -/
theorem lexAt_minus {cs : List Char} (hcs : ∀ d ∈ cs.head?, d.isDigit = false) (pos : Nat) :
    lexAt ('-' :: cs) pos = .ok (.oper .sub, 0) := by
  have hname : isNameStart '-' = false := rfl
  have hdigit : Char.isDigit '-' = false := rfl
  simp only [lexAt, matchName_eq_none hname, matchRoll_eq_none hdigit,
    matchNumber_eq_none hdigit (fun _ => hcs), List.head?_cons, Option.bind_some]
  rfl

/-! ## Numbers and rolls -/

theorem scansTo_symbol {c : Char} {t : Token} (ht : symbolToken? c = some t) (hc : c ≠ '-')
    (hb : Text.isBlank c = false) : ScansTo (fun _ => True) [c] [t] :=
  scansTo_word (by simp) (by simp [hb]) (fun rest _ pos => lexAt_symbol ht hc rest pos)

theorem scansTo_minus :
    ScansTo (fun rest => ∀ d ∈ rest.head?, d.isDigit = false) ['-'] [.oper .sub] :=
  scansTo_word (by simp)
    (fun c hc => by
      simp only [List.head?_cons, Option.mem_def, Option.some.injEq] at hc
      subst hc
      decide)
    (fun _ hrest pos => lexAt_minus hrest pos)

theorem digit_range {c : Char} (hc : c.isDigit = true) : 48 ≤ c.toNat ∧ c.toNat ≤ 57 := by
  simp only [Char.isDigit, Bool.and_eq_true, decide_eq_true_eq] at hc
  exact ⟨hc.1, hc.2⟩

/-- No name starts with a digit. -/
theorem isNameStart_of_isDigit {c : Char} (hc : c.isDigit = true) : isNameStart c = false := by
  have h := digit_range hc
  -- a digit is one of ten code points, each checked by evaluation
  have hall : ∀ k < 10, isNameStart (Char.ofNat (48 + k)) = false := by decide
  rw [← Char.ofNat_toNat c, show c.toNat = 48 + (c.toNat - 48) by omega]
  exact hall _ (by omega)

theorem ne_of_isDigit {c d : Char} (hc : c.isDigit = true) (hd : d.isDigit = false) : c ≠ d := by
  rintro rfl
  rw [hc] at hd
  cases hd

/-- A run of digits that no `d` follows is no roll. -/
theorem matchRoll_digits {ds rest : List Char} (hds : ∀ c ∈ ds, c.isDigit = true)
    (hrest : ∀ c ∈ rest.head?, c.isDigit = false ∧ c ≠ 'd') : matchRoll (ds ++ rest) = none := by
  unfold matchRoll
  rw [takeWhile_append_stop hds (fun c hc => (hrest c hc).1)]
  simp only [List.drop_left]
  cases rest with
  | nil => simp
  | cons c cs =>
    have hc := (hrest c rfl).2
    split
    · rfl
    · split
      · rename_i hd
        simp only [List.cons.injEq] at hd
        exact absurd hd.1 hc
      · rfl

/-- The sign a number may start with, and the characters it takes. -/
def signChars (neg : Bool) : List Char := if neg then ['-'] else []

/-- Digits that no point follows are a whole number, signed when a `-` stands before them. -/
theorem matchNumber_whole {neg : Bool} {ds rest : List Char} (hds : ∀ c ∈ ds, c.isDigit = true)
    (hne : ds ≠ []) (hrest : ∀ c ∈ rest.head?, c.isDigit = false ∧ c ≠ '.') :
    matchNumber (signChars neg ++ ds ++ rest) =
      some (neg, ds, none, (if neg then 1 else 0) + ds.length) := by
  have ht := takeWhile_append_stop hds (fun c hc => (hrest c hc).1)
  obtain ⟨d, ds', rfl⟩ := List.exists_cons_of_ne_nil hne
  have hdm : d ≠ '-' := ne_of_isDigit (hds d (by simp)) rfl
  have hdrop : (d :: ds' ++ rest).drop (d :: ds').length = rest := List.drop_left
  -- after the sign, the digits end where the rest begins, and no point follows them: `simp`
  -- discharges the last case of the match from this
  have hnodot : ∀ r, rest ≠ '.' :: r := fun r h => (hrest '.' (by simp [h])).2 rfl
  cases neg
  · simp only [matchNumber, signChars, Bool.false_eq_true, if_false, List.nil_append]
    split
    · rename_i h; simp only [List.cons_append, List.cons.injEq] at h; exact absurd h.1 hdm
    · simp only [ht, hdrop, List.isEmpty_cons, Bool.false_eq_true, if_false]
  · simp only [matchNumber, signChars, if_true, List.singleton_append]
    split
    · rename_i r h
      obtain rfl : r = d :: ds' ++ rest := (List.cons.inj h).2.symm
      simp only [ht, hdrop, List.isEmpty_cons, Bool.false_eq_true, if_false, if_true]
    · rename_i h
      exact absurd rfl (h _)

/-- Digits, a point and digits are a number with a fraction, signed when a `-` stands before
them. -/
theorem matchNumber_point {neg : Bool} {ws fs rest : List Char}
    (hws : ∀ c ∈ ws, c.isDigit = true) (hwne : ws ≠ []) (hfs : ∀ c ∈ fs, c.isDigit = true)
    (hfne : fs ≠ []) (hrest : ∀ c ∈ rest.head?, c.isDigit = false) :
    matchNumber (signChars neg ++ ws ++ '.' :: fs ++ rest) =
      some (neg, ws, some fs, (if neg then 1 else 0) + ws.length + 1 + fs.length) := by
  have ht : (ws ++ '.' :: fs ++ rest).takeWhile Char.isDigit = ws := by
    rw [List.append_assoc]
    exact takeWhile_append_stop hws (by simp)
  have hft : (fs ++ rest).takeWhile Char.isDigit = fs := takeWhile_append_stop hfs hrest
  have hdrop : (ws ++ '.' :: fs ++ rest).drop ws.length = '.' :: (fs ++ rest) := by
    rw [List.append_assoc, List.drop_left, List.cons_append]
  have hfe : fs.isEmpty = false := by cases fs <;> simp_all
  obtain ⟨d, ws', rfl⟩ := List.exists_cons_of_ne_nil hwne
  have hdm : d ≠ '-' := ne_of_isDigit (hws d (by simp)) rfl
  cases neg
  · simp only [matchNumber, signChars, Bool.false_eq_true, if_false, List.nil_append]
    split
    · rename_i h; simp only [List.cons_append, List.cons.injEq] at h; exact absurd h.1 hdm
    · simp only [ht, hdrop, hft, hfe, List.isEmpty_cons, Bool.false_eq_true, if_false]
  · simp only [matchNumber, signChars, if_true, List.singleton_append]
    split
    · rename_i r h
      obtain rfl : r = d :: ws' ++ '.' :: fs ++ rest := (List.cons.inj h).2.symm
      simp only [ht, hdrop, hft, hfe, List.isEmpty_cons, Bool.false_eq_true, if_false, if_true]
    · rename_i h
      exact absurd rfl (h _)

/-- The decimal text of an integer: its sign, then the digits of its magnitude. -/
theorem int_text_toList (n : Int) :
    (toString n).toList = signChars (decide (n < 0)) ++ Nat.toDigits 10 n.natAbs := by
  rw [Int.toString_eq_repr, Int.repr_eq_if]
  by_cases h : 0 ≤ n
  · have hn : n.toNat = n.natAbs := by omega
    simp [h, signChars, Int.not_lt.2 h, hn]
  · have hn : (-n).toNat = n.natAbs := by omega
    simp [h, signChars, Int.lt_of_not_ge h, hn]

theorem int_text_ne_nil (n : Int) : (toString n).toList ≠ [] := by
  rw [int_text_toList]
  simp

/-- The decimal text of an integer within the digit limit is read as that integer. -/
theorem lexAt_int {n : Int} (hn : Number.withinDigitLimit n = true) {rest : List Char}
    (hrest : Delimits rest) (pos : Nat) :
    lexAt ((toString n).toList ++ rest) pos =
      .ok (.number (.int n), (toString n).toList.length - 1) := by
  have hD := digits_isDigit n.natAbs
  have hne : Nat.toDigits 10 n.natAbs ≠ [] := Nat.toDigits_ne_nil
  have hlen : ¬ digitLimit < (Nat.toDigits 10 n.natAbs).length := by
    rw [Nat.not_lt, digits_length_le_iff]
    exact of_decide_eq_true hn
  have hdot : ∀ c ∈ rest.head?, c.isDigit = false ∧ c ≠ '.' := by
    intro c hc
    rcases hrest c hc with rfl | rfl <;> decide
  have hnum := @matchNumber_whole (decide (n < 0)) _ _ hD hne hdot
  rw [int_text_toList]
  obtain ⟨d, ds, hds⟩ := List.exists_cons_of_ne_nil hne
  have hd : d.isDigit = true := hD d (by simp [hds])
  have hname : matchName (signChars (decide (n < 0)) ++ Nat.toDigits 10 n.natAbs ++ rest) = none := by
    cases decide (n < 0)
    · simp only [signChars, Bool.false_eq_true, if_false, List.nil_append, hds, List.cons_append]
      exact matchName_eq_none (isNameStart_of_isDigit hd)
    · exact matchName_eq_none rfl
  have hroll : matchRoll (signChars (decide (n < 0)) ++ Nat.toDigits 10 n.natAbs ++ rest) = none := by
    cases decide (n < 0)
    · simp only [signChars, Bool.false_eq_true, if_false, List.nil_append]
      exact matchRoll_digits hD (fun c hc => ⟨(hdot c hc).1, by rcases hrest c hc with rfl | rfl <;> decide⟩)
    · exact matchRoll_eq_none rfl
  simp only [lexAt, hname, hroll, hnum, hlen, if_false, digitsValue_toDigits]
  by_cases hneg : n < 0
  · simp only [hneg, decide_true, if_true, signChars, List.length_append, List.length_singleton]
    rw [show -(n.natAbs : Int) = n by omega]
  · simp only [hneg, decide_false, Bool.false_eq_true, if_false, signChars, List.nil_append,
      Nat.zero_add]
    rw [show (n.natAbs : Int) = n by omega]

/-- A number with a point is read as the float nearest to its digits. -/
theorem lexAt_decimal {neg : Bool} {ws fs rest : List Char} (hws : ∀ c ∈ ws, c.isDigit = true)
    (hwne : ws ≠ []) (hfs : ∀ c ∈ fs, c.isDigit = true) (hfne : fs ≠ []) (hrest : Delimits rest)
    (pos : Nat) :
    lexAt (signChars neg ++ ws ++ '.' :: fs ++ rest) pos =
      .ok (.number (.float (Binary64.ofDecimal neg (digitsValue (ws ++ fs)) (-(fs.length : Int)))),
        (signChars neg ++ ws ++ '.' :: fs).length - 1) := by
  have hnum := @matchNumber_point neg ws fs rest hws hwne hfs hfne (hrest.head_false rfl rfl)
  obtain ⟨d, ds, hds⟩ := List.exists_cons_of_ne_nil hwne
  have hd : d.isDigit = true := hws d (by simp [hds])
  have hname : matchName (signChars neg ++ ws ++ '.' :: fs ++ rest) = none := by
    cases neg
    · simp only [signChars, Bool.false_eq_true, if_false, List.nil_append, hds, List.cons_append]
      exact matchName_eq_none (isNameStart_of_isDigit hd)
    · exact matchName_eq_none rfl
  have hroll : matchRoll (signChars neg ++ ws ++ '.' :: fs ++ rest) = none := by
    cases neg
    · simp only [signChars, Bool.false_eq_true, if_false, List.nil_append, List.append_assoc,
        List.cons_append]
      exact matchRoll_digits hws (by simp)
    · exact matchRoll_eq_none rfl
  simp only [lexAt, hname, hroll, hnum]
  cases neg
  · simp [signChars]
  · simp [signChars]
    omega

/-- The letters a kept die is written with. -/
def keepChars : Option Keep → List Char
  | some k => [k.symbol]
  | none => []

theorem roll_text_toList (r : Roll) :
    r.text.toList = (toString r.dice).toList ++ 'd' :: (toString r.sides).toList ++ keepChars r.keep := by
  cases hk : r.keep <;> simp [Roll.text, hk, keepChars]

/-- Digits, `d`, digits and a keep letter are a roll. -/
theorem matchRoll_roll {cs ss rest : List Char} {k : Option Keep}
    (hcs : ∀ c ∈ cs, c.isDigit = true) (hcne : cs ≠ []) (hss : ∀ c ∈ ss, c.isDigit = true)
    (hsne : ss ≠ []) (hrest : Delimits rest) :
    matchRoll (cs ++ 'd' :: ss ++ keepChars k ++ rest) =
      some (cs, ss, k, cs.length + 1 + ss.length + (if k.isSome then 1 else 0)) := by
  have hkr : ∀ c ∈ (keepChars k ++ rest).head?, c.isDigit = false := by
    cases k with
    | none => simpa [keepChars] using hrest.head_false rfl rfl
    | some k => cases k <;> simp [keepChars, Keep.symbol]
  have ht1 : (cs ++ 'd' :: ss ++ keepChars k ++ rest).takeWhile Char.isDigit = cs := by
    simp only [List.append_assoc, List.cons_append]
    exact takeWhile_append_stop hcs (by simp)
  have ht2 : (ss ++ (keepChars k ++ rest)).takeWhile Char.isDigit = ss :=
    takeWhile_append_stop hss hkr
  have hdrop : (cs ++ 'd' :: ss ++ keepChars k ++ rest).drop cs.length =
      'd' :: (ss ++ (keepChars k ++ rest)) := by
    simp only [List.append_assoc, List.cons_append, List.drop_left]
  have hcne' : cs.isEmpty = false := by cases cs <;> simp_all
  have hsne' : ss.isEmpty = false := by cases ss <;> simp_all
  unfold matchRoll
  simp only [ht1, hcne', hdrop, ht2, hsne', List.drop_left, Bool.false_eq_true, if_false]
  -- the keep letter, or the delimiter when there is none
  rcases k with _ | _ | _
  · rcases hrest.cases with rfl | ⟨t, rfl⟩ | ⟨t, rfl⟩ <;> simp [keepChars]
  · simp [keepChars, Keep.symbol]
  · simp [keepChars, Keep.symbol]

/-- A roll of positive counts within the digit limit is read back as that roll. -/
theorem lexAt_roll {r : Roll} (hd : 1 ≤ r.dice) (hs : 1 ≤ r.sides)
    (hdl : Number.withinDigitLimit r.dice = true) (hsl : Number.withinDigitLimit r.sides = true)
    {rest : List Char} (hrest : Delimits rest) (pos : Nat) :
    lexAt (r.text.toList ++ rest) pos = .ok (.dice r, r.text.toList.length - 1) := by
  have hpos : ∀ n : Int, 1 ≤ n → (toString n).toList = Nat.toDigits 10 n.natAbs := by
    intro n hn
    rw [int_text_toList]
    simp [signChars, show ¬ n < 0 by omega]
  have hlim : ∀ n : Int, Number.withinDigitLimit n = true →
      ¬ digitLimit < (Nat.toDigits 10 n.natAbs).length := by
    intro n hn
    rw [Nat.not_lt, digits_length_le_iff]
    exact of_decide_eq_true hn
  have hroll := @matchRoll_roll (Nat.toDigits 10 r.dice.natAbs) (Nat.toDigits 10 r.sides.natAbs)
    rest r.keep (digits_isDigit _) Nat.toDigits_ne_nil (digits_isDigit _) Nat.toDigits_ne_nil hrest
  obtain ⟨d, ds, hds⟩ := List.exists_cons_of_ne_nil (@Nat.toDigits_ne_nil r.dice.natAbs 10)
  have hname : matchName (Nat.toDigits 10 r.dice.natAbs ++ 'd' :: Nat.toDigits 10 r.sides.natAbs ++
      keepChars r.keep ++ rest) = none := by
    simp only [hds, List.cons_append]
    exact matchName_eq_none (isNameStart_of_isDigit (digits_isDigit r.dice.natAbs d (by simp [hds])))
  rw [roll_text_toList, hpos _ hd, hpos _ hs]
  simp only [lexAt, hname, hroll, hlim _ hdl, hlim _ hsl, digitsValue_toDigits]
  have hd' : ¬ r.dice.natAbs < 1 := by omega
  have hs' : ¬ r.sides.natAbs < 1 := by omega
  simp only [hd', hs', decide_false, Bool.or_false, Bool.false_eq_true, if_false]
  have hr : (⟨(r.dice.natAbs : Int), (r.sides.natAbs : Int), r.keep⟩ : Roll) = r := by
    obtain ⟨d0, s0, k0⟩ := r
    simp only at hd hs ⊢
    simp only [Roll.mk.injEq, and_true]
    omega
  rw [hr]
  cases hk : r.keep
  · simp [keepChars]
  · simp [keepChars]
    omega

/-! ## No blank in a word -/

/-- Printable ASCII characters other than the space are not blank. -/
theorem isBlank_eq_false {c : Char} (h1 : 33 ≤ c.toNat) (h2 : c.toNat ≤ 126) :
    Text.isBlank c = false := by
  simp only [Text.isBlank, Bool.or_eq_false_iff, Bool.and_eq_false_iff, decide_eq_false_iff_not,
    beq_eq_false_iff_ne]
  omega

theorem isNameChar_range {c : Char} (h : isNameChar c = true) : 36 ≤ c.toNat ∧ c.toNat ≤ 122 := by
  have hv : c.toNat = c.val.toNat := rfl
  simp only [isNameChar, Char.isAlphanum, Char.isAlpha, Char.isUpper, Char.isLower, Char.isDigit,
    Bool.or_eq_true, Bool.and_eq_true, decide_eq_true_eq, beq_iff_eq, ge_iff_le,
    UInt32.le_iff_toNat_le] at h
  -- a letter or digit is in its range of code points; the three signs are checked by evaluation
  rcases h with ((((h | h) | h) | rfl) | rfl) | rfl
  · simp only [Char.reduceVal, UInt32.reduceToNat] at h
    omega
  · simp only [Char.reduceVal, UInt32.reduceToNat] at h
    omega
  · simp only [Char.reduceVal, UInt32.reduceToNat] at h
    omega
  · decide
  · decide
  · decide

theorem isNameChar_of_isNameStart {c : Char} (h : isNameStart c = true) : isNameChar c = true := by
  simp only [isNameStart, isNameChar, Char.isAlphanum, Bool.or_eq_true] at h ⊢
  rcases h with (h | h) | h
  · exact .inl (.inl (.inl (.inl h)))
  · exact .inl (.inl (.inr h))
  · exact .inl (.inr h)

theorem isBlank_of_isNameChar {c : Char} (h : isNameChar c = true) : Text.isBlank c = false :=
  isBlank_eq_false (by have := isNameChar_range h; omega) (by have := isNameChar_range h; omega)

theorem isBlank_of_isDigit {c : Char} (h : c.isDigit = true) : Text.isBlank c = false :=
  isBlank_eq_false (by have := digit_range h; omega) (by have := digit_range h; omega)

/-- Whether a text is a name: a letter, `_` or `$`, then letters, digits, `_`, `$` and `.`. -/
def isName (x : String) : Bool :=
  match x.toList with
  | c :: cs => isNameStart c && cs.all isNameChar
  | [] => false

/-- A name is read back as itself. -/
theorem lexAt_name {x : String} (hx : isName x = true) {rest : List Char} (hrest : Delimits rest)
    (pos : Nat) : lexAt (x.toList ++ rest) pos = .ok (.name x, x.toList.length - 1) := by
  unfold isName at hx
  split at hx
  · rename_i c cs hxs
    simp only [Bool.and_eq_true, List.all_eq_true] at hx
    have ht : (cs ++ rest).takeWhile isNameChar = cs := takeWhile_append_stop hx.2 (hrest.head_false rfl rfl)
    simp only [lexAt, hxs, List.cons_append, matchName, hx.1, if_true, ht]
    simp [← hxs, Nat.add_comm]
    rw [hxs]
    simp
  · cases hx

end Scan

namespace Text

/-- A text with no blank at either end is its own strip. -/
theorem stripList_eq_self {cs : List Char} (hhead : ∀ c ∈ cs.head?, isBlank c = false)
    (hlast : ∀ c ∈ cs.getLast?, isBlank c = false) : stripList cs = cs := by
  have h1 : cs.dropWhile isBlank = cs := by
    cases cs with
    | nil => rfl
    | cons c t => simp [hhead c rfl]
  have h2 : cs.reverse.dropWhile isBlank = cs.reverse := by
    cases hr : cs.reverse with
    | nil => rfl
    | cons c t =>
      have : c ∈ cs.getLast? := by simp [List.getLast?_eq_head?_reverse, hr]
      simp [hlast c this]
  simp [stripList, h1, h2]

end Text

end DiceNotation
