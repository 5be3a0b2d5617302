import DiceNotation.Token.Stream

/-!
# A token stream hands out the scan of its text

A `TokenStream` over a text hands out the tokens of the scan of the text (`scan`), one at a time
or all to the end, and shows the next one without taking it.  The scan keeps the position of each
token; taking a token moves the stream's offset there.  Where the scan stopped at a fault, the
fault is raised by the first operation that needs the token after the last, and the stream is at
its end from then on.

* `Scan.lexAt_of_mem_scan`: the position of a token of the scan is where its text starts: lexing
  the text from there gives the token;
* `TokenStream.peek_atToken_lt`, `TokenStream.next_atToken_lt`, `TokenStream.drain_atToken`: what
  each call does to the stream that has handed out the first `j` tokens of the scan
  (`TokenStream.atToken`);
* `TokenStream.run_handed`: after any sequence of calls (`TokenStream.run`) the stream is such a
  stream, having raised the fault of the scan at most once, after the last token;
* `TokenStream.run_agrees`: what each call does after any sequence of calls.
-/

namespace DiceNotation

namespace Scan

/-- Every token of a scan of `T` from position `pos` on starts at its position: lexing `T` from
there gives the token. -/
theorem lexAt_of_mem_scanFrom (T : List Char) (cs : List Char) (pos : Nat) (hcs : cs = T.drop pos)
    {p : Nat} {tok : Token} (h : (p, tok) ∈ (scanFrom cs pos).tokens) :
    ∃ k, lexAt (T.drop p) p = .ok (tok, k) := by
  fun_induction scanFrom cs pos with
  | case1 => cases h
  | case2 pos c rest _ ih =>
    -- a blank is skipped: the rest of the text starts one position further
    exact ih (by rw [← List.tail_drop, ← hcs]; rfl) h
  | case3 => cases h
  | case4 pos c rest _ t k hlex s ih =>
    rcases List.mem_cons.1 h with h | h
    · cases h
      exact ⟨k, hcs ▸ hlex⟩
    · -- the scan goes on after the `k + 1` characters of the token
      have hrest : rest = T.drop (pos + 1) := by rw [← List.tail_drop, ← hcs]; rfl
      refine ih ?_ h
      rw [hrest, List.drop_drop]
      congr 1
      omega

theorem lexAt_of_mem_scan {t : String} {p : Nat} {tok : Token} (h : (p, tok) ∈ (scan t).tokens) :
    ∃ k, lexAt (t.toList.drop p) p = .ok (tok, k) :=
  lexAt_of_mem_scanFrom t.toList t.toList 0 rfl h

end Scan

namespace TokenStream

/-! ## A stream that has handed out the first tokens of the scan -/

/-- The stream over `t` that has handed out the first `j` tokens of the scan of `t`, with its
offset at `offset`; `raised` tells whether it has raised the fault that ended the scan. -/
def atToken (t : String) (j : Nat) (raised : Bool) (offset : Nat) : TokenStream :=
  ⟨t, (scan t).tokens.drop j, if raised then none else (scan t).stop, offset⟩

theorem ofText_eq (t : String) : ofText t = atToken t 0 false 0 := rfl

@[simp] theorem atToken_offset (t : String) (j : Nat) (raised : Bool) (offset : Nat) :
    (atToken t j raised offset).offset = offset := rfl

@[simp] theorem atToken_text (t : String) (j : Nat) (raised : Bool) (offset : Nat) :
    (atToken t j raised offset).text = t := rfl

/-- The fault still to be raised: the scan's, until it is raised. -/
def pendingFault (t : String) (raised : Bool) : Option ParseError :=
  if raised then none else (scan t).stop

variable {t : String} {j : Nat} {raised : Bool} {offset : Nat}

/-- Past the last token, how many tokens were handed out no longer shows. -/
theorem atToken_of_le (h : (scan t).tokens.length ≤ j) :
    atToken t j raised offset = atToken t (scan t).tokens.length raised offset := by
  simp [atToken, List.drop_eq_nil_of_le h]

/-! ## Each operation -/

/-- Before the last token, looking shows the next token of the scan and changes nothing. -/
theorem peek_atToken_lt (h : j < (scan t).tokens.length) :
    (atToken t j raised offset).peek = (.ok (some (scan t).tokens[j].2), atToken t j raised offset) := by
  have hp : (atToken t j raised offset).pending = (scan t).tokens[j] :: (scan t).tokens.drop (j + 1) :=
    List.drop_eq_getElem_cons h
  unfold peek
  rw [hp]

/-- After the last token, looking raises the fault still to be raised, and otherwise shows the
end. -/
theorem peek_atToken_end (h : (scan t).tokens.length ≤ j) :
    (atToken t j raised offset).peek =
      match pendingFault t raised with
      | some e => (.error e, atToken t j true offset)
      | none => (.ok none, atToken t j raised offset) := by
  simp only [peek, atToken, List.drop_eq_nil_of_le h, pendingFault]
  cases raised <;> cases (scan t).stop <;> rfl

/-- Before the last token, taking hands out the next token of the scan and moves the offset to
its position. -/
theorem next_atToken_lt (h : j < (scan t).tokens.length) :
    (atToken t j raised offset).next =
      (.ok (some (scan t).tokens[j].2), atToken t (j + 1) raised (scan t).tokens[j].1) := by
  have hp : (atToken t j raised offset).pending = (scan t).tokens[j] :: (scan t).tokens.drop (j + 1) :=
    List.drop_eq_getElem_cons h
  unfold next
  rw [hp]
  simp [atToken]

/-- After the last token, taking raises the fault still to be raised, and otherwise hands out the
end and moves the offset to the end of the text. -/
theorem next_atToken_end (h : (scan t).tokens.length ≤ j) :
    (atToken t j raised offset).next =
      match pendingFault t raised with
      | some e => (.error e, atToken t j true offset)
      | none => (.ok none, atToken t j raised t.length) := by
  simp only [next, atToken, List.drop_eq_nil_of_le h, pendingFault]
  cases raised <;> cases (scan t).stop <;> rfl

/-- Draining the tokens `l` still pending hands them all out and ends at the end of the text, or
raises the fault still to be raised after taking them, with the offset at the last of them. -/
theorem drainFrom_atToken (l : List (Nat × Token)) (j offset : Nat) (hl : l = (scan t).tokens.drop j) :
    drainFrom l (atToken t j raised offset) =
      match pendingFault t raised with
      | some e => (.error e, atToken t (scan t).tokens.length true ((l.getLast?.map Prod.fst).getD offset))
      | none => (.ok (l.map Prod.snd), atToken t (scan t).tokens.length raised t.length) := by
  induction l generalizing j offset with
  | nil =>
    have hj : (scan t).tokens.length ≤ j := by
      simpa [List.drop_eq_nil_iff] using hl.symm
    rw [atToken_of_le hj]
    simp only [drainFrom, atToken, pendingFault]
    cases raised <;> cases (scan t).stop <;> rfl
  | cons pt l ih =>
    -- the first pending token is token `j` of the scan; the rest are pending after it
    have hj : j < (scan t).tokens.length := by
      rcases Nat.lt_or_ge j (scan t).tokens.length with hj | hj
      · exact hj
      · simp [List.drop_eq_nil_of_le hj] at hl
    rw [List.drop_eq_getElem_cons hj, List.cons.injEq] at hl
    obtain ⟨rfl, hl⟩ := hl
    have hstep : ({ atToken t j raised offset with pending := l, offset := (scan t).tokens[j].1 } :
        TokenStream) = atToken t (j + 1) raised (scan t).tokens[j].1 := by
      simp [atToken, hl]
    simp only [drainFrom, hstep, ih (j + 1) _ hl]
    cases pendingFault t raised with
    | some e =>
      cases l with
      | nil => rfl
      | cons q l =>
        -- the last pending token is among the rest
        simp [List.getLast?_cons, Except.map]
    | none => rfl

theorem drain_atToken :
    (atToken t j raised offset).drain =
      match pendingFault t raised with
      | some e => (.error e, atToken t (scan t).tokens.length true
          ((((scan t).tokens.drop j).getLast?.map Prod.fst).getD offset))
      | none => (.ok (((scan t).tokens.drop j).map Prod.snd),
          atToken t (scan t).tokens.length raised t.length) :=
  drainFrom_atToken _ j offset rfl

/-- Looking answers what taking would: the same token, fault or end. -/
theorem peek_fst (st : TokenStream) : st.peek.1 = st.next.1 := by
  unfold peek next
  rcases st.pending with _ | ⟨⟨p, tok⟩, rest⟩ <;> rcases st.stop with _ | e <;> rfl

/-- Looking never moves the offset. -/
theorem peek_snd_offset (st : TokenStream) : st.peek.2.offset = st.offset := by
  unfold peek
  rcases st.pending with _ | ⟨⟨p, tok⟩, rest⟩ <;> rcases st.stop with _ | e <;> rfl

/-- A look that finds a token or the end changes nothing. -/
theorem peek_snd_of_ok {st : TokenStream} {a : Option Token} (h : st.peek.1 = .ok a) :
    st.peek.2 = st := by
  obtain ⟨text, pending, stop, offset⟩ := st
  rcases pending with _ | ⟨⟨p, tok⟩, rest⟩ <;> rcases stop with _ | e <;> first | rfl | cases h

theorem next_snd_text (st : TokenStream) : st.next.2.text = st.text := by
  unfold next
  rcases st.pending with _ | ⟨⟨p, tok⟩, rest⟩ <;> rcases st.stop with _ | e <;> rfl

/-! ## Every sequence of calls -/

/-- A call a reader makes on a stream: look at the next token, take it, or take every token to
the end. -/
inductive Call
  | peek
  | next
  | drain
  deriving DecidableEq, Repr

/-- A stream with the tokens it has handed out and the faults it has raised. -/
structure Reading where
  stream : TokenStream
  handed : List Token
  raised : List ParseError

/-- The faults an answer raises: its fault, or none. -/
def faults {α : Type} : Except ParseError α → List ParseError
  | .error e => [e]
  | .ok _ => []

/-- The token an answer of `next` hands out, if any. -/
def taken : Except ParseError (Option Token) → List Token
  | .ok (some tok) => [tok]
  | _ => []

/-- Makes one call.  Draining takes every pending token, one after another, and raises the fault
after them if there is one; the tokens it took are handed out even then. -/
def Call.apply : Call → Reading → Reading
  | .peek, ⟨st, hs, fs⟩ => ⟨st.peek.2, hs, fs ++ faults st.peek.1⟩
  | .next, ⟨st, hs, fs⟩ => ⟨st.next.2, hs ++ taken st.next.1, fs ++ faults st.next.1⟩
  | .drain, ⟨st, hs, fs⟩ => ⟨st.drain.2, hs ++ st.pending.map Prod.snd, fs ++ faults st.drain.1⟩

/-- Makes the calls `cs`, in order, on the stream over `t`. -/
def run (t : String) (cs : List Call) : Reading :=
  cs.foldl (fun r c => c.apply r) ⟨ofText t, [], []⟩

/-- The stream over `t` has handed out the first `j` tokens of the scan as `hs`, and raised the
scan's fault, if at all, once and after the last token. -/
structure Handed (t : String) (st : TokenStream) (hs : List Token) (fs : List ParseError) (j : Nat) :
    Prop where
  le : j ≤ (scan t).tokens.length
  eq_atToken : ∃ offset, st = atToken t j (!fs.isEmpty) offset
  handed : hs = ((scan t).tokens.take j).map Prod.snd
  raised : fs = [] ∨ ∃ e, (scan t).stop = some e ∧ fs = [e] ∧ j = (scan t).tokens.length

theorem Handed.pendingFault_eq {st : TokenStream} {hs : List Token} {fs : List ParseError}
    (h : Handed t st hs fs j) :
    pendingFault t (!fs.isEmpty) = if fs = [] then (scan t).stop else none := by
  rcases h.raised with rfl | ⟨e, -, rfl, -⟩ <;> rfl

/-- A fault still to be raised is the scan's, before any was raised. -/
theorem Handed.of_pendingFault {st : TokenStream} {hs : List Token} {fs : List ParseError}
    {e : ParseError} (h : Handed t st hs fs j) (he : pendingFault t (!fs.isEmpty) = some e) :
    fs = [] ∧ (scan t).stop = some e := by
  rw [h.pendingFault_eq] at he
  by_cases hfs : fs = []
  · rw [if_pos hfs] at he
    exact ⟨hfs, he⟩
  · rw [if_neg hfs] at he
    cases he

/-- While a token is pending, no fault was raised. -/
theorem Handed.nil_of_lt {st : TokenStream} {hs : List Token} {fs : List ParseError}
    (h : Handed t st hs fs j) (hj : j < (scan t).tokens.length) : fs = [] := by
  rcases h.raised with hfs | ⟨_, _, _, hjl⟩
  · exact hfs
  · omega

theorem take_succ_map {j : Nat} (hj : j < (scan t).tokens.length) :
    ((scan t).tokens.take j).map Prod.snd ++ [(scan t).tokens[j].2] =
      ((scan t).tokens.take (j + 1)).map Prod.snd := by
  rw [List.take_add_one, List.getElem?_eq_getElem hj, Option.toList_some, List.map_append,
    List.map_singleton]

/-- Looking keeps what a stream has handed out, and raises the scan's fault only after its last
token. -/
theorem Handed.peek {st : TokenStream} {hs : List Token} {fs : List ParseError}
    (h : Handed t st hs fs j) : Handed t st.peek.2 hs (fs ++ faults st.peek.1) j := by
  obtain ⟨offset, rfl⟩ := h.eq_atToken
  rcases Nat.lt_or_ge j (scan t).tokens.length with hj | hj
  · simpa [peek_atToken_lt hj, faults] using h
  · rw [peek_atToken_end hj]
    cases hp : pendingFault t (!fs.isEmpty) with
    | none => simpa [faults] using h
    | some e =>
      obtain ⟨rfl, he⟩ := h.of_pendingFault hp
      exact ⟨h.le, ⟨offset, rfl⟩, h.handed, .inr ⟨e, he, rfl, Nat.le_antisymm h.le hj⟩⟩

/-- Taking hands out the next token of the scan, or raises the scan's fault after its last token. -/
theorem Handed.next {st : TokenStream} {hs : List Token} {fs : List ParseError}
    (h : Handed t st hs fs j) :
    ∃ j', Handed t st.next.2 (hs ++ taken st.next.1) (fs ++ faults st.next.1) j' := by
  obtain ⟨offset, rfl⟩ := h.eq_atToken
  rcases Nat.lt_or_ge j (scan t).tokens.length with hj | hj
  · obtain rfl := h.nil_of_lt hj
    rw [next_atToken_lt hj]
    refine ⟨j + 1, hj, ⟨_, rfl⟩, ?_, .inl rfl⟩
    rw [h.handed]
    exact take_succ_map hj
  · refine ⟨j, ?_⟩
    rw [next_atToken_end hj]
    cases hp : pendingFault t (!fs.isEmpty) with
    | none =>
      exact ⟨h.le, ⟨t.length, by simp [faults]⟩, by simp [taken, h.handed],
        by simpa [faults] using h.raised⟩
    | some e =>
      obtain ⟨rfl, he⟩ := h.of_pendingFault hp
      exact ⟨h.le, ⟨offset, rfl⟩, by simpa [taken] using h.handed,
        .inr ⟨e, he, rfl, Nat.le_antisymm h.le hj⟩⟩

/-- Draining hands out every pending token, and raises the scan's fault after them if it was not
raised yet. -/
theorem Handed.drain {st : TokenStream} {hs : List Token} {fs : List ParseError}
    (h : Handed t st hs fs j) :
    Handed t st.drain.2 (hs ++ st.pending.map Prod.snd) (fs ++ faults st.drain.1)
      (scan t).tokens.length := by
  obtain ⟨offset, rfl⟩ := h.eq_atToken
  have hhs : hs ++ (atToken t j (!fs.isEmpty) offset).pending.map Prod.snd =
      ((scan t).tokens.take (scan t).tokens.length).map Prod.snd := by
    rw [h.handed, List.take_length, atToken, ← List.map_append, List.take_append_drop]
  rw [hhs, drain_atToken]
  cases hp : pendingFault t (!fs.isEmpty) with
  | none =>
    refine ⟨Nat.le_refl _, ⟨t.length, by simp [faults]⟩, rfl, ?_⟩
    rcases h.raised with hfs | ⟨e, he, hfs, -⟩
    · exact .inl (by simp [hfs, faults])
    · exact .inr ⟨e, he, by simp [hfs, faults], rfl⟩
  | some e =>
    obtain ⟨rfl, he⟩ := h.of_pendingFault hp
    exact ⟨Nat.le_refl _, ⟨_, rfl⟩, rfl, .inr ⟨e, he, rfl, rfl⟩⟩

/-- Every call keeps a stream over `t` one that has handed out the first tokens of the scan. -/
theorem Handed.apply {r : Reading} {j : Nat} (h : Handed t r.stream r.handed r.raised j) (c : Call) :
    ∃ j', Handed t (c.apply r).stream (c.apply r).handed (c.apply r).raised j' := by
  obtain ⟨st, hs, fs⟩ := r
  cases c with
  | peek => exact ⟨j, h.peek⟩
  | next => exact h.next
  | drain => exact ⟨_, h.drain⟩

/-- Any calls keep a stream over `t` one that has handed out the first tokens of the scan. -/
theorem Handed.foldl {r : Reading} {j : Nat} (h : Handed t r.stream r.handed r.raised j)
    (cs : List Call) :
    ∃ j', Handed t (cs.foldl (fun r c => c.apply r) r).stream (cs.foldl (fun r c => c.apply r) r).handed
      (cs.foldl (fun r c => c.apply r) r).raised j' := by
  induction cs generalizing r j with
  | nil => exact ⟨j, h⟩
  | cons c cs ih =>
    obtain ⟨j', h'⟩ := h.apply c
    exact ih h'

/-- After any calls, a stream over `t` has handed out the first tokens of the scan, and raised the
scan's fault at most once, after the last of them. -/
theorem run_handed (t : String) (cs : List Call) :
    ∃ j, Handed t (run t cs).stream (run t cs).handed (run t cs).raised j :=
  -- at the start, no token was handed out and no fault raised
  Handed.foldl (r := ⟨ofText t, [], []⟩) ⟨Nat.zero_le _, ⟨0, ofText_eq t⟩, rfl, .inl rfl⟩ cs

/-! ## What each call does after any calls -/

section Handed

variable {st : TokenStream} {hs : List Token} {fs : List ParseError}

theorem Handed.text (h : Handed t st hs fs j) : st.text = t := by
  obtain ⟨offset, rfl⟩ := h.eq_atToken
  rfl

theorem Handed.length_handed (h : Handed t st hs fs j) : hs.length = j := by
  simp [h.handed, h.le]

/-- Every token was handed out exactly when the stream is past the last. -/
theorem Handed.handed_eq_iff (h : Handed t st hs fs j) :
    hs = (scan t).tokens.map Prod.snd ↔ j = (scan t).tokens.length := by
  constructor
  · intro he
    rw [← h.length_handed, he, List.length_map]
  · rintro rfl
    simp [h.handed]

theorem pendingFault_eq_some {e : ParseError} :
    pendingFault t (!fs.isEmpty) = some e ↔ fs = [] ∧ (scan t).stop = some e := by
  cases fs <;> simp [pendingFault]

/-- A token taken is the next token of the scan, and the offset moves to its position. -/
theorem Handed.next_some (h : Handed t st hs fs j) {tok : Token} (hn : st.next.1 = .ok (some tok)) :
    (scan t).tokens[hs.length]? = some (st.next.2.offset, tok) := by
  obtain ⟨offset, rfl⟩ := h.eq_atToken
  rcases Nat.lt_or_ge j (scan t).tokens.length with hj | hj
  · rw [next_atToken_lt hj] at hn ⊢
    simp only [Except.ok.injEq, Option.some.injEq] at hn
    subst hn
    simp [h.length_handed, hj]
  · rw [next_atToken_end hj] at hn
    cases hp : pendingFault t (!fs.isEmpty) <;> simp [hp] at hn

/-- Taking finds the end only past the last token, and moves the offset to the end of the text. -/
theorem Handed.next_none (h : Handed t st hs fs j) (hn : st.next.1 = .ok none) :
    hs = (scan t).tokens.map Prod.snd ∧ st.next.2.offset = t.length := by
  obtain ⟨offset, rfl⟩ := h.eq_atToken
  rcases Nat.lt_or_ge j (scan t).tokens.length with hj | hj
  · rw [next_atToken_lt hj] at hn
    cases hn
  · have hlen : j = (scan t).tokens.length := Nat.le_antisymm h.le hj
    rw [next_atToken_end hj] at hn ⊢
    cases hp : pendingFault t (!fs.isEmpty) with
    | some e => simp [hp] at hn
    | none => exact ⟨h.handed_eq_iff.2 hlen, rfl⟩

/-- Draining to the end hands out the rest of the scan and moves the offset to the end of the
text. -/
theorem Handed.drain_ok (h : Handed t st hs fs j) {ts : List Token} (hd : st.drain.1 = .ok ts) :
    hs ++ ts = (scan t).tokens.map Prod.snd ∧ st.drain.2.offset = t.length := by
  obtain ⟨offset, rfl⟩ := h.eq_atToken
  rw [drain_atToken] at hd ⊢
  cases hp : pendingFault t (!fs.isEmpty) with
  | some e => simp [hp] at hd
  | none =>
    simp only [hp, Except.ok.injEq] at hd ⊢
    subst hd
    refine ⟨?_, rfl⟩
    rw [h.handed, ← List.map_append, List.take_append_drop]

/-- Taking raises the scan's fault when every token was handed out and the fault was not raised
yet, and only then. -/
theorem Handed.next_error (h : Handed t st hs fs j) (e : ParseError) :
    st.next.1 = .error e ↔ fs = [] ∧ (scan t).stop = some e ∧ hs = (scan t).tokens.map Prod.snd := by
  obtain ⟨offset, rfl⟩ := h.eq_atToken
  rw [h.handed_eq_iff, ← and_assoc, ← pendingFault_eq_some]
  rcases Nat.lt_or_ge j (scan t).tokens.length with hj | hj
  · rw [next_atToken_lt hj]
    simp only [reduceCtorEq, false_iff]
    rintro ⟨-, hlen⟩
    omega
  · have hlen : j = (scan t).tokens.length := Nat.le_antisymm h.le hj
    rw [next_atToken_end hj]
    cases hp : pendingFault t (!fs.isEmpty) <;> simp [hlen]

/-- Draining raises the scan's fault whenever it was not raised yet. -/
theorem Handed.drain_error (h : Handed t st hs fs j) (e : ParseError) :
    st.drain.1 = .error e ↔ fs = [] ∧ (scan t).stop = some e := by
  obtain ⟨offset, rfl⟩ := h.eq_atToken
  rw [← pendingFault_eq_some, drain_atToken]
  cases hp : pendingFault t (!fs.isEmpty) <;> simp

/-- After the fault, the stream is at its end. -/
theorem Handed.after_fault (h : Handed t st hs fs j) (hfs : fs ≠ []) :
    st.next.1 = .ok none ∧ st.drain.1 = .ok [] := by
  obtain ⟨offset, rfl⟩ := h.eq_atToken
  obtain ⟨e, -, rfl, rfl⟩ := h.raised.resolve_left hfs
  have hp : pendingFault t (!([e] : List ParseError).isEmpty) = none := rfl
  rw [next_atToken_end (Nat.le_refl _), drain_atToken, hp]
  simp

end Handed

/-- What a stream over `t` does on each call, after the calls that gave `r`. -/
structure Agrees (t : String) (r : Reading) : Prop where
  /-- The tokens handed out are the first tokens of the scan. -/
  handed_eq_take : ∃ j, r.handed = ((scan t).tokens.map Prod.snd).take j
  /-- The scan's fault is raised at most once, and only after every token was handed out. -/
  raised : r.raised = [] ∨
    ∃ e, (scan t).stop = some e ∧ r.raised = [e] ∧ r.handed = (scan t).tokens.map Prod.snd
  /-- Looking answers what taking would, and moves nothing. -/
  peek_eq_next : r.stream.peek.1 = r.stream.next.1
  peek_offset : r.stream.peek.2.offset = r.stream.offset
  /-- The call after a look that finds a token or the end takes what it found. -/
  next_after_peek : ∀ a, r.stream.peek.1 = .ok a → r.stream.peek.2.next.1 = .ok a
  /-- A token taken is the next token of the scan; the offset moves to its position, from where
  the remainder starts with the token's text. -/
  next_some : ∀ tok, r.stream.next.1 = .ok (some tok) →
    (scan t).tokens[r.handed.length]? = some (r.stream.next.2.offset, tok) ∧
      ∃ k, Scan.lexAt r.stream.next.2.remainder.toList r.stream.next.2.offset = .ok (tok, k)
  /-- At the end every token was handed out, and the offset is the length of the text. -/
  next_none : r.stream.next.1 = .ok none →
    r.handed = (scan t).tokens.map Prod.snd ∧ r.stream.next.2.offset = t.length
  drain_ok : ∀ ts, r.stream.drain.1 = .ok ts →
    r.handed ++ ts = (scan t).tokens.map Prod.snd ∧ r.stream.drain.2.offset = t.length
  /-- The scan's fault is raised by the first call that needs the token after the last. -/
  next_error : ∀ e, r.stream.next.1 = .error e ↔
    r.raised = [] ∧ (scan t).stop = some e ∧ r.handed = (scan t).tokens.map Prod.snd
  drain_error : ∀ e, r.stream.drain.1 = .error e ↔ r.raised = [] ∧ (scan t).stop = some e
  /-- After the fault, every call finds the end. -/
  after_fault : r.raised ≠ [] → r.stream.next.1 = .ok none ∧ r.stream.drain.1 = .ok []

theorem Handed.agrees {r : Reading} (h : Handed t r.stream r.handed r.raised j) : Agrees t r where
  handed_eq_take := ⟨j, by rw [h.handed, List.map_take]⟩
  raised := by
    rcases h.raised with hfs | ⟨e, he, hfs, hlen⟩
    · exact .inl hfs
    · exact .inr ⟨e, he, hfs, h.handed_eq_iff.2 hlen⟩
  peek_eq_next := peek_fst _
  peek_offset := peek_snd_offset _
  next_after_peek a ha := by rw [peek_snd_of_ok ha, ← peek_fst, ha]
  next_some tok hn := by
    have hi := h.next_some hn
    refine ⟨hi, ?_⟩
    rw [remainder, String.toList_ofList, next_snd_text, h.text]
    exact Scan.lexAt_of_mem_scan (List.mem_of_getElem? hi)
  next_none := h.next_none
  drain_ok _ := h.drain_ok
  next_error := h.next_error
  drain_error := h.drain_error
  after_fault := h.after_fault

/-- Whatever calls a reader makes on the stream over a text, the stream hands out the tokens of
the scan of the text in order, looks ahead without moving, keeps its offset at the token taken
last, and raises the fault of the scan once, on the first call that needs the token after the
last. -/
theorem run_agrees (t : String) (cs : List Call) : Agrees t (run t cs) :=
  (run_handed t cs).elim fun _ h => h.agrees

end TokenStream

end DiceNotation
