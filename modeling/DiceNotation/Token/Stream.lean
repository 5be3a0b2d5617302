import DiceNotation.Token.Scan

/-!
# A token stream with one token of lookahead

A `TokenStream` hands out the tokens of a text one at a time.  `peek` shows the next token
without taking it; `next` takes it and moves the offset to where the token starts; at the end
the offset moves to the length of the text.  A fault of the scan is raised by the first step that
needs the token that could not be scanned, whether it peeks or takes; after that the stream is at
its end.
-/

namespace DiceNotation

/-- The state of a token stream over a text. -/
structure TokenStream where
  /-- The text being read. -/
  text : String
  /-- Tokens not yet taken, with their positions. -/
  pending : List (Nat × Token)
  /-- The fault waiting after the pending tokens; none at a plain end. -/
  stop : Option ParseError
  /-- Where the last token taken starts, or the length of the text after the end. -/
  offset : Nat
  deriving Inhabited

namespace TokenStream

/-- A stream at the start of a text. -/
def ofText (s : String) : TokenStream :=
  let sc := scan s
  ⟨s, sc.tokens, sc.stop, 0⟩

/-- The text from the offset on. -/
def remainder (st : TokenStream) : String := String.ofList (st.text.toList.drop st.offset)

/-- The next token without taking it; `none` at the end. -/
def peek (st : TokenStream) : Except ParseError (Option Token) × TokenStream :=
  match st.pending, st.stop with
  | (_, t) :: _, _ => (.ok (some t), st)
  | [], some e => (.error e, { st with stop := none })
  | [], none => (.ok none, st)

/-- Takes the next token; `none` at the end. -/
def next (st : TokenStream) : Except ParseError (Option Token) × TokenStream :=
  match st.pending, st.stop with
  | (p, t) :: rest, _ => (.ok (some t), { st with pending := rest, offset := p })
  | [], some e => (.error e, { st with stop := none })
  | [], none => (.ok none, { st with offset := st.text.length })

/-- Takes the tokens `ts`, which are the pending ones, and then the end. -/
def drainFrom : List (Nat × Token) → TokenStream → Except ParseError (List Token) × TokenStream
  | (p, t) :: rest, st =>
    let (r, st') := drainFrom rest { st with pending := rest, offset := p }
    (r.map (t :: ·), st')
  | [], st =>
    match st.stop with
    | some e => (.error e, { st with stop := none })
    | none => (.ok [], { st with offset := st.text.length })

/-- Takes every token to the end.  A fault loses the tokens taken before it. -/
def drain (st : TokenStream) : Except ParseError (List Token) × TokenStream :=
  drainFrom st.pending st

end TokenStream

end DiceNotation
