import DiceNotation.Proofs.RoundTrip
import DiceNotation.Proofs.NormalForm
import DiceNotation.Proofs.Binary64.Canonical

/-!
# The trees the program makes print back

Reading a text and simplifying a tree make trees of one kind (`Expr.WellFormed`): names that are
names, rolls of at least one die of at least one side, integers, and floats in canonical form.
Such a tree is printable as soon as its literals are (`Expr.literalsPrint`): integers within the
digit limit and finite floats.  So the text the printer writes for a tree that was read, or read
and simplified, reads back as that tree, with whole floats coming back as the integers they
equal:

* `Expr.wellFormed_of_parse`: reading makes well-formed trees, since every token of the scan is a
  well-formed leaf or punctuation;
* `Expr.wellFormed_rewrite`: simplifying keeps a tree well formed, against bindings whose floats
  are canonical, since arithmetic makes only canonical numbers;
* `Expr.Printable.eqv_asRead`: the tree read back equals the tree printed, numbers compared by
  value (`Expr.eqv`);
* `Expr.parse_simplify_readBack`: printing such a tree and reading its text back, within the
  call depth limit.

Literals that do not print come out of reading and simplifying all the same: `1 / 0` simplifies
to `+∞`, which prints as `Infinity`, and that text reads back as a name
(`Expr.simplify_divZero_readsName`).
-/

namespace DiceNotation

namespace Expr

open Scan DiceNotation.Parser

/-- The trees that reading a text and simplifying make: names that start with a letter, `_` or
`$`; rolls of at least one die of at least one side, with counts within the digit limit;
integers and canonical floats; no truth value and no missing node. -/
def WellFormed : Expr → Prop
  | lit n => n.IsCanonical
  | ref x => isName x = true
  | roll r => 1 ≤ r.dice ∧ 1 ≤ r.sides ∧ Number.withinDigitLimit r.dice = true ∧
      Number.withinDigitLimit r.sides = true
  | op _ l r => WellFormed l ∧ WellFormed r
  | missing => False

/-- Whether every literal of a tree has a text that reads back: an integer within the digit
limit, or a finite float. -/
def literalsPrint : Expr → Bool
  | lit (.int n) => Number.withinDigitLimit n
  | lit (.float x) => x.isFinite
  | lit (.bool _) => false
  | op _ l r => literalsPrint l && literalsPrint r
  | _ => true

/-- Equality of trees with their numbers compared by value: an integer equals a float of the
same value, and NaN equals nothing. -/
def eqv : Expr → Expr → Bool
  | lit a, lit b => a.eq b
  | ref x, ref y => x == y
  | roll r, roll r' => r == r'
  | op o l r, op o' l' r' => o == o' && eqv l l' && eqv r r'
  | missing, missing => true
  | _, _ => false

/-- A well-formed tree whose literals print is printable. -/
theorem WellFormed.printable {e : Expr} (he : e.WellFormed) (hl : e.literalsPrint = true) :
    e.Printable := by
  induction e with
  | lit n =>
    cases n with
    | int k => exact hl
    | float x =>
      cases x with
      | finite neg m ex => exact he
      | inf neg => cases hl
      | nan => cases hl
    | bool b => cases hl
  | op o l r ihl ihr =>
    simp only [literalsPrint, Bool.and_eq_true] at hl
    exact ⟨ihl he.1 hl.1, ihr he.2 hl.2⟩
  | missing => exact he.elim
  | _ => exact he

end Expr

/-! ## Reading makes well-formed trees -/

/-- A token whose leaf, if it is one, is well formed. -/
def Token.WellFormed (t : Token) : Prop := ∀ e, t.leaf? = some e → e.WellFormed

namespace Scan

/-- The value of `k` digits has at most `k` digits. -/
theorem digitsValue_lt {ds : List Char} (hds : ∀ c ∈ ds, c.isDigit = true) :
    digitsValue ds < 10 ^ ds.length := by
  -- the fold from any accumulator `a` stays below `(a + 1) * 10 ^ k`
  suffices h : ∀ a, ds.foldl (fun acc c => 10 * acc + (c.toNat - 48)) a < (a + 1) * 10 ^ ds.length by
    unfold digitsValue
    simpa using h 0
  induction ds with
  | nil => intro a; simp
  | cons c cs ih =>
    intro a
    have hc : c.toNat - 48 < 10 := by
      have := digit_range (hds c (List.mem_cons_self ..))
      omega
    have hstep := ih (fun c' hc' => hds c' (List.mem_cons_of_mem _ hc')) (10 * a + (c.toNat - 48))
    calc List.foldl (fun acc c => 10 * acc + (c.toNat - 48)) a (c :: cs)
        < (10 * a + (c.toNat - 48) + 1) * 10 ^ cs.length := hstep
      _ ≤ (a + 1) * 10 * 10 ^ cs.length := Nat.mul_le_mul_right _ (by omega)
      _ = (a + 1) * 10 ^ (c :: cs).length := by
        rw [List.length_cons, Nat.pow_succ, Nat.mul_assoc, Nat.mul_comm 10]

/-- At most 4300 digits are within the digit limit. -/
theorem withinDigitLimit_digitsValue {ds : List Char} (hds : ∀ c ∈ ds, c.isDigit = true)
    (hlen : ds.length ≤ digitLimit) : Number.withinDigitLimit (digitsValue ds) = true := by
  have hlen' : ds.length ≤ 4300 := hlen
  unfold Number.withinDigitLimit
  rw [Int.natAbs_natCast]
  exact decide_eq_true (Nat.lt_of_lt_of_le (digitsValue_lt hds) (Nat.pow_le_pow_right (by decide) hlen'))

/-- A name at the front of a text is a name. -/
theorem isName_of_matchName {cs : List Char} {n : Nat} (h : matchName cs = some n) :
    isName (String.ofList (cs.take n)) = true := by
  cases cs with
  | nil => cases h
  | cons c rest =>
    simp only [matchName] at h
    split at h
    · rename_i hc
      cases h
      have htake : (c :: rest).take (1 + (rest.takeWhile isNameChar).length) =
          c :: rest.takeWhile isNameChar := by
        rw [Nat.add_comm, List.take_succ_cons, ← List.prefix_iff_eq_take.1 (List.takeWhile_prefix _)]
      rw [htake, isName, String.toList_ofList]
      simp [hc]
    · cases h

/-- The digit runs of a roll at the front of a text are digits. -/
theorem matchRoll_isDigit {cs count sides : List Char} {keep : Option Keep} {n : Nat}
    (h : matchRoll cs = some (count, sides, keep, n)) :
    (∀ c ∈ count, c.isDigit = true) ∧ ∀ c ∈ sides, c.isDigit = true := by
  unfold matchRoll at h
  dsimp only at h
  split at h
  · cases h
  split at h
  · split at h
    · cases h
    · cases h
      exact ⟨List.all_eq_true.1 List.all_takeWhile, List.all_eq_true.1 List.all_takeWhile⟩
  · cases h

/-- A punctuation token is no leaf. -/
theorem leaf?_of_symbolToken? {c : Char} {t : Token} (h : symbolToken? c = some t) :
    t.leaf? = none := by
  unfold symbolToken? at h
  split at h <;> cases h <;> rfl

/-- Every token the scanner reads is a well-formed leaf or punctuation. -/
theorem lexAt_wellFormed {cs : List Char} {pos : Nat} {t : Token} {k : Nat}
    (h : lexAt cs pos = .ok (t, k)) : t.WellFormed := by
  unfold lexAt at h
  dsimp only at h
  split at h
  · -- a name
    rename_i n hn
    cases h
    rintro e ⟨⟩
    exact isName_of_matchName hn
  split at h
  · -- a roll: its counts have at most 4300 digits and are not zero
    rename_i count sides keep n hroll
    obtain ⟨hcount, hsides⟩ := matchRoll_isDigit hroll
    split at h
    · cases h
    rename_i hlen
    simp only [Bool.or_eq_true, decide_eq_true_eq, not_or, Nat.not_lt] at hlen
    split at h
    · cases h
    rename_i hpos
    simp only [Bool.or_eq_true, decide_eq_true_eq, not_or, Nat.not_lt] at hpos
    cases h
    rintro e ⟨⟩
    exact ⟨Int.ofNat_le.2 hpos.1, Int.ofNat_le.2 hpos.2,
      withinDigitLimit_digitsValue hcount hlen.1, withinDigitLimit_digitsValue hsides hlen.2⟩
  split at h
  · -- a number with a point: the float nearest to its digits
    cases h
    rintro e ⟨⟩
    exact Binary64.canonical_ofDecimal _ _ _
  · -- a whole number
    split at h
    · cases h
    · cases h
      rintro e ⟨⟩
      trivial
  · -- a symbol
    split at h
    · rename_i t' ht
      cases h
      intro e he
      obtain ⟨c, -, hc⟩ := Option.bind_eq_some_iff.1 ht
      rw [leaf?_of_symbolToken? hc] at he
      cases he
    · cases h

theorem scanFrom_wellFormed (cs : List Char) (pos : Nat) :
    ∀ pt ∈ (scanFrom cs pos).tokens, pt.2.WellFormed := by
  fun_induction scanFrom cs pos with
  | case1 => intro pt h; cases h
  | case2 pos c rest _ ih => exact ih
  | case3 => intro pt h; cases h
  | case4 pos c rest _ t k hlex s ih =>
    intro pt h
    rcases List.mem_cons.1 h with rfl | h
    · exact lexAt_wellFormed hlex
    · exact ih pt h

end Scan

namespace Parser

/-- A phrase of the grammar made of well-formed tokens has a well-formed tree. -/
theorem Derives.wellFormed {k : Rule} {ts : List Token} {e : Expr} (h : Derives k ts e)
    (hts : ∀ t ∈ ts, t.WellFormed) : e.WellFormed := by
  induction h with
  | leaf hl => exact hts _ (List.mem_singleton_self _) _ hl
  | paren _ ih => exact ih fun t ht => hts t (by simp [ht])
  | factor _ ih => exact ih hts
  | term _ ih => exact ih hts
  | mulStep _ _ _ ihl ihr =>
    exact ⟨ihl fun t ht => hts t (by simp [ht]), ihr fun t ht => hts t (by simp [ht])⟩
  | addStep _ _ _ ihl ihr =>
    exact ⟨ihl fun t ht => hts t (by simp [ht]), ihr fun t ht => hts t (by simp [ht])⟩

end Parser

namespace Expr

open Scan DiceNotation.Parser

/-- **Reading makes well-formed trees.** -/
theorem wellFormed_of_parse {t : String} {e : Expr} (h : parse t = .ok e) : e.WellFormed := by
  obtain ⟨-, hd⟩ := (parse_eq_ok_iff t e).1 h
  refine hd.wellFormed fun tok htok => ?_
  obtain ⟨pt, hpt, rfl⟩ := List.mem_map.1 htok
  exact scanFrom_wellFormed _ _ pt hpt

/-! ## Simplifying keeps trees well formed -/

/-- Bindings whose floats are in canonical form. -/
def FloatsCanonical (c : Option Bindings) : Prop :=
  ∀ bs ∈ c, ∀ p ∈ bs, ∀ x : Binary64, p.2 = .num (.float x) → x.Canonical

theorem canonical_of_substitute? {c : Option Bindings} (hc : FloatsCanonical c) {x : String}
    {n : Number} (h : substitute? c x = some n) : n.IsCanonical := by
  unfold substitute? at h
  split at h
  · cases h
    trivial
  · rename_i f hf
    cases h
    obtain ⟨bs, hbs, hl⟩ := Option.bind_eq_some_iff.1 hf
    obtain ⟨l₁, l₂, hbs', -⟩ := List.lookup_eq_some_iff.1 hl
    exact hc bs hbs (x, .num (.float f)) (by rw [hbs']; simp) f rfl
  · cases h

/-- The literal of merged steps is one an operator made. -/
theorem Merged.canonical_of_step {lo ro o : Operator} {a b c : Number}
    (h : Merged.of lo a ro b = .step o c) : c.IsCanonical := by
  unfold Merged.of at h
  split at h
  · cases h
    exact Operator.canonical_apply _ _ _
  · split at h
    · cases h
    · by_cases hg : a.gt b = true
      · simp only [hg, if_true] at h
        cases h
        exact Operator.canonical_apply _ _ _
      · simp only [hg] at h
        cases h
        exact Operator.canonical_apply _ _ _

theorem wellFormed_node {o : Operator} {p q : Expr × Bool} (hp : p.1.WellFormed)
    (hq : q.1.WellFormed) : (node o p q).1.WellFormed := by
  unfold node
  split
  · unfold fold
    split
    · exact Operator.canonical_apply _ _ _
    · -- merged steps: the expression on their left, alone or with one literal step
      rename_i lo x a b h₁ _
      rw [h₁] at hp
      have hx : x.WellFormed := hp.1
      cases hm : Merged.of lo a o b with
      | cancel => exact hx
      | step o' c => exact ⟨hx, Merged.canonical_of_step hm⟩
    · exact ⟨hp, hq⟩
  · exact ⟨hp, hq⟩

variable {c : Option Bindings}

/-- **Simplifying keeps a tree well formed**, against bindings whose floats are canonical. -/
theorem wellFormed_rewrite (hc : FloatsCanonical c) {e : Expr} (he : e.WellFormed) :
    (rewrite c e).1.WellFormed := by
  induction e with
  | ref x =>
    cases hs : substitute? c x with
    | none => simpa [rewrite, hs] using he
    | some n =>
      simp only [rewrite, hs]
      exact canonical_of_substitute? hc hs
  | op o l r ihl ihr =>
    rw [rewrite_op]
    exact wellFormed_node (ihl he.1) (ihr he.2)
  | _ => simpa [rewrite] using he

end Expr

/-! ## Reading back gives an equal tree -/

namespace Binary64

/-- A whole float is worth its floor. -/
theorem compareScaled_floor {neg : Bool} {m : Nat} {e : Int}
    (h : (finite neg m e).isInteger = true) :
    compareScaled ((finite neg m e).floor?.getD 0) 0 (signedSignificand neg m) e = .eq := by
  unfold compareScaled
  rw [Int.compare_eq_eq]
  by_cases he : 0 ≤ e
  · -- no bits below the point: the floor is the significand scaled up
    have hmin : min 0 e = 0 := Int.min_eq_left he
    simp only [floor?, if_pos he, Option.getD_some, hmin, Int.sub_zero, Int.sub_self, Int.toNat_zero,
      pow_zero, mul_one]
    cases neg <;> simp [signedSignificand]
  · -- the bits below the point are zero: the floor scaled back is the significand
    have hmin : min 0 e = e := Int.min_eq_right (by omega)
    have hmod : m % 2 ^ (-e).toNat = 0 := by
      simpa [isInteger, he] using h
    obtain ⟨q, rfl⟩ := Nat.dvd_of_mod_eq_zero hmod
    have hpos : 0 < 2 ^ (-e).toNat := Nat.pow_pos (by decide)
    simp only [floor?, if_neg he, Option.getD_some, hmin, Int.sub_self, Int.toNat_zero, pow_zero,
      mul_one, Nat.mul_div_cancel_left _ hpos, Nat.mul_mod_right, if_true]
    cases neg <;> simp [signedSignificand, Int.mul_comm]

end Binary64

namespace Number

/-- The number read back from the text of a printable literal equals it by value. -/
theorem eq_asRead {n : Number} (hn : (Expr.lit n).Printable) : n.asRead.eq n = true := by
  cases n with
  | int k => simp [asRead, eq, compare?, exact, Exact.compare?, Binary64.compareScaled]
  | float x =>
    cases x with
    | finite neg m e =>
      by_cases hint : (Binary64.finite neg m e).isInteger = true
      · simp [asRead, hint, eq, compare?, exact, Exact.compare?, Binary64.compareScaled_floor hint]
      · simp [asRead, hint, eq, compare?, exact, Exact.compare?, Binary64.compareScaled]
    | _ => exact absurd hn id
  | bool b => exact absurd hn id

end Number

namespace Expr

open Scan DiceNotation.Parser

/-- The tree read back from the text of a printable tree equals it, numbers compared by value. -/
theorem Printable.eqv_asRead {e : Expr} (he : e.Printable) : e.asRead.eqv e = true := by
  induction e with
  | lit n => exact Number.eq_asRead he
  | op o l r ihl ihr => simp [asRead, eqv, ihl he.1, ihr he.2]
  | missing => exact he.elim
  | _ => simp [asRead, eqv]

/-! ## Printing and reading back -/

/-- A printable tree whose parentheses leave the reader room reads back from its text. -/
theorem Printable.parseAt_eq {e : Expr} (he : e.Printable) {p : Nat}
    (hroom : p + 3 * nesting e.tokens + 14 ≤ depthLimit) : parseAt p e.text = .ok e.asRead :=
  (he.parseAt_text p).resolve_right fun h => absurd h.1 (Nat.not_lt.2 hroom)

/-- **What the program prints, it reads back.**  Take a tree read from a text, or read and then
simplified against bindings whose floats are canonical, whose literals are integers within the
digit limit and finite floats.  Its text prints unless the tree is too high for the printer, and
reads back as the tree, with whole floats as the integers they equal, unless its parentheses
nest too deeply for the reader; the only other outcome of either is a recursion fault.  The tree
read back equals the tree by value. -/
theorem parse_simplify_readBack {t : String} {e₀ : Expr} (ht : parse t = .ok e₀)
    (hc : FloatsCanonical c) {e : Expr} (he : e = e₀ ∨ e = simplify c e₀)
    (hl : e.literalsPrint = true) (d p : Nat) :
    (e.renderAt d = .ok e.text ∨
        depthLimit < d + e.height + 5 ∧ ∃ en, e.renderAt d = .error (.tooDeep en)) ∧
      (parseAt p e.text = .ok e.asRead ∨
        depthLimit < p + 3 * nesting e.tokens + 14 ∧ ∃ en, parseAt p e.text = .error (.tooDeep en)) ∧
      e.asRead.eqv e = true := by
  have hwf : e.WellFormed := by
    rcases he with rfl | rfl
    · exact wellFormed_of_parse ht
    · exact wellFormed_rewrite hc (wellFormed_of_parse ht)
  have hp := hwf.printable hl
  exact ⟨hp.renderAt d, hp.parseAt_text p, hp.eqv_asRead⟩

/-- `a * 2 + b` simplified with `a` bound to `4` is `8 + b`, which prints and reads back. -/
theorem parse_simplify_readBack_product :
    parse "a * 2 + b" = .ok (op .add (op .mul (ref "a") (lit (.int 2))) (ref "b")) ∧
      FloatsCanonical (some [("a", .num (.int 4))]) ∧
      (op .add (lit (.int 8)) (ref "b") = op .add (op .mul (ref "a") (lit (.int 2))) (ref "b") ∨
        op .add (lit (.int 8)) (ref "b") =
          simplify (some [("a", .num (.int 4))]) (op .add (op .mul (ref "a") (lit (.int 2))) (ref "b"))) ∧
      (op .add (lit (.int 8)) (ref "b")).literalsPrint = true ∧
      ((op .add (lit (.int 8)) (ref "b")).renderAt 5 = .ok (op .add (lit (.int 8)) (ref "b")).text ∨
          depthLimit < 5 + (op .add (lit (.int 8)) (ref "b")).height + 5 ∧
            ∃ en, (op .add (lit (.int 8)) (ref "b")).renderAt 5 = .error (.tooDeep en)) ∧
        (parseAt 5 (op .add (lit (.int 8)) (ref "b")).text = .ok (op .add (lit (.int 8)) (ref "b")).asRead ∨
          depthLimit < 5 + 3 * nesting (op .add (lit (.int 8)) (ref "b")).tokens + 14 ∧
            ∃ en, parseAt 5 (op .add (lit (.int 8)) (ref "b")).text = .error (.tooDeep en)) ∧
        (op .add (lit (.int 8)) (ref "b")).asRead.eqv (op .add (lit (.int 8)) (ref "b")) = true := by
  have hp : (op .add (op .mul (ref "a") (lit (.int 2))) (ref "b")).Printable :=
    ⟨⟨rfl, withinDigitLimit_of_lt_ten (by decide)⟩, rfl⟩
  have ht : parse "a * 2 + b" = .ok (op .add (op .mul (ref "a") (lit (.int 2))) (ref "b")) := by
    have h := parse_text hp
    rwa [show (op .add (op .mul (ref "a") (lit (.int 2))) (ref "b")).text = "a * 2 + b" by decide,
      show (op .add (op .mul (ref "a") (lit (.int 2))) (ref "b")).asRead =
        op .add (op .mul (ref "a") (lit (.int 2))) (ref "b") by decide] at h
  have hc : FloatsCanonical (some [("a", .num (.int 4))]) := by
    intro bs hbs q hq x hx
    cases hbs
    simp only [List.mem_singleton] at hq
    subst hq
    cases hx
  have he : op .add (lit (.int 8)) (ref "b") = op .add (op .mul (ref "a") (lit (.int 2))) (ref "b") ∨
      op .add (lit (.int 8)) (ref "b") =
        simplify (some [("a", .num (.int 4))]) (op .add (op .mul (ref "a") (lit (.int 2))) (ref "b")) :=
    .inr (by decide)
  have hl : (op .add (lit (.int 8)) (ref "b")).literalsPrint = true := by
    show (Number.withinDigitLimit 8 && true) = true
    rw [withinDigitLimit_of_lt_ten (by decide)]
    rfl
  exact ⟨ht, hc, he, hl, parse_simplify_readBack ht hc he hl 5 5⟩

/-! ## An infinity prints as a name -/

/-- `1 / 0` reads as a quotient of two literals and simplifies to the float `+∞`, which prints
as `Infinity`; that text reads back as a name. -/
theorem simplify_divZero_readsName :
    parseAt 5 "1 / 0" = .ok (op .div (lit (.int 1)) (lit (.int 0))) ∧
      simplifyAt none 6 (op .div (lit (.int 1)) (lit (.int 0))) = .ok (lit (.float (.inf false)), true) ∧
      (lit (.float (.inf false))).renderAt 5 = .ok "Infinity" ∧
      parseAt 5 "Infinity" = .ok (ref "Infinity") := by
  have hq : (op .div (lit (.int 1)) (lit (.int 0))).Printable :=
    ⟨withinDigitLimit_of_lt_ten (by decide), withinDigitLimit_of_lt_ten (by decide)⟩
  have hname : (ref "Infinity").Printable := rfl
  refine ⟨?_, by decide, by decide, hname.parseAt_eq (by decide)⟩
  have h := hq.parseAt_eq (p := 5) (by decide)
  rwa [show (op .div (lit (.int 1)) (lit (.int 0))).text = "1 / 0" by decide,
    show (op .div (lit (.int 1)) (lit (.int 0))).asRead = op .div (lit (.int 1)) (lit (.int 0)) by decide] at h

end Expr

end DiceNotation
