import Mathlib
import DiceNotation.Expr.Eval
import DiceNotation.Proofs.CallDepth

/-!
# Evaluation rolls every die first

`Expr.eval` interleaves throwing dice with arithmetic: an operation evaluates its left operand,
rolls and all, before it looks at its right one.  Since arithmetic on numbers never fails and
never draws, the same outcome comes from two phases: throw the dice of every roll of the tree, in
order (`Roll.runAll` over `Expr.rolls`), and then compute the tree with each roll worth its value
(`Expr.compute`).  That is `Expr.rollsFirst`.

* `Expr.eval_eq_rollsFirst`: for bindings of numbers and a tree with no missing node, evaluation
  is the two phases, failure included: the first roll that fails stops the whole evaluation with
  its own fault, keeping the records of the rolls before it and the draws taken
  (`Roll.runAll_eq_error`).
* `Expr.evalAt_follows`: evaluating in frames from level `d` agrees with `eval`, except that a
  tree reaching within `src.steps.height + 6` levels of the limit may fail with a recursion fault.
* `Expr.evalAt_rollsFirst`: the two together, for the draws of a fixed list, with the number of
  draws taken and records made, and what a caller's sink holds after the calculator's entry point.
* `Expr.evalAt_sumChain`: `1 + 1 + ... + 1` with 1200 terms is a tree too high for the limit.
-/

namespace DiceNotation

/-- Bindings of names to numbers. -/
abbrev NumberBindings := List (String × Number)

namespace NumberBindings

/-- The bindings as bindings of values. -/
def toBindings (bs : NumberBindings) : Bindings := bs.map fun p => (p.1, .num p.2)

/-- The number a name is bound to: unbound names and the absence of bindings give `0`. -/
def find (ctx : Option NumberBindings) (x : String) : Number :=
  match ctx with
  | none => .int 0
  | some bs => (bs.lookup x).getD (.int 0)

theorem lookup_toBindings (bs : NumberBindings) (x : String) :
    (toBindings bs).lookup x = (bs.lookup x).map Value.num := by
  induction bs with
  | nil => rfl
  | cons p bs ih =>
    obtain ⟨y, n⟩ := p
    simp only [toBindings] at ih ⊢
    cases hxy : x == y <;> simp [List.lookup, hxy, ih]

theorem lookup_map_toBindings (ctx : Option NumberBindings) (x : String) :
    Expr.lookup (ctx.map toBindings) x = .num (find ctx x) := by
  cases ctx with
  | none => rfl
  | some bs =>
    simp only [Option.map_some, Expr.lookup, find, lookup_toBindings]
    cases bs.lookup x <;> rfl

end NumberBindings

/-! ## Stops at a recursion fault -/

/-- A stop of evaluation is a recursion fault when its fault is one. -/
instance {σ : Type} : DepthFault (Stop σ) := ⟨fun x => DepthFault.IsTooDeep x.fault⟩

namespace Follows

variable {σ α : Type} {deep : Prop}

/-- A step that can only fail, taken at a point of evaluation, follows as the step does. -/
theorem lift {m m' : Except Fault α} (rs : List RollRecord) (s : σ) (h : Follows deep m m') :
    Follows deep (Stop.lift rs s m) (Stop.lift rs s m') :=
  h.mapError (g := fun f => (⟨f, rs, s⟩ : Stop σ)) fun _ hx => hx

/-- A part of evaluation taken after the rolls recorded in `rs` follows as the part does. -/
theorem after {m m' : Except (Stop σ) α} (rs : List RollRecord) (h : Follows deep m m') :
    Follows deep (m.mapError (Stop.after rs)) (m'.mapError (Stop.after rs)) :=
  h.mapError (g := Stop.after rs) fun _ hx => hx

end Follows

/-! ## The two phases -/

namespace Roll

variable {σ : Type} (src : DrawSource σ)

/-- Throws the dice of each roll in turn, stopping at the first roll that fails with the records
of the rolls before it. -/
def runAll : List Roll → σ → Except (Stop σ) (List RollRecord × σ)
  | [], s => .ok ([], s)
  | r :: rs, s =>
    match r.run src s with
    | .error (f, s') => .error ⟨f, [], s'⟩
    | .ok (rec, s') =>
      match runAll rs s' with
      | .error x => .error (x.after [rec])
      | .ok (recs, s'') => .ok (rec :: recs, s'')

variable {src}

/-- Running two lists of rolls one after the other runs their concatenation; a stop in the
second keeps the records of the first. -/
theorem runAll_append (xs ys : List Roll) (s : σ) :
    runAll src (xs ++ ys) s =
      match runAll src xs s with
      | .error x => .error x
      | .ok (a, s') =>
        match runAll src ys s' with
        | .error x => .error (x.after a)
        | .ok (b, s'') => .ok (a ++ b, s'') := by
  induction xs generalizing s with
  | nil =>
    simp only [List.nil_append, runAll]
    cases runAll src ys s <;> rfl
  | cons r rs ih =>
    simp only [List.cons_append, runAll]
    rcases r.run src s with ⟨f, s₁⟩ | ⟨rec, s₁⟩
    · rfl
    · simp only [ih]
      rcases runAll src rs s₁ with x | ⟨a, s₂⟩
      · rfl
      · dsimp only
        rcases runAll src ys s₂ with x | ⟨b, s₃⟩ <;> rfl

/-- A run of rolls that fails stops at one of them: the rolls before it succeeded, their records
are all the run keeps, and the roll it stops at failed from where they left the source, with the
run's fault and leaving the source as the run does. -/
theorem runAll_eq_error {rs : List Roll} {s : σ} {x : Stop σ} (h : runAll src rs s = .error x) :
    ∃ pre r post s₁, rs = pre ++ r :: post ∧ runAll src pre s = .ok (x.rolls, s₁) ∧
      r.run src s₁ = .error (x.fault, x.source) := by
  induction rs generalizing s x with
  | nil => cases h
  | cons r rs ih =>
    simp only [runAll] at h
    split at h
    · -- the first roll fails: nothing before it
      rename_i f s' hrun
      cases h
      exact ⟨[], r, rs, s, rfl, rfl, hrun⟩
    · rename_i rec s' hrun
      split at h
      · -- a later roll fails: the first one's record goes in front
        rename_i y hy
        cases h
        obtain ⟨pre, r', post, s₁, rfl, hpre, hr'⟩ := ih hy
        refine ⟨r :: pre, r', post, s₁, rfl, ?_, hr'⟩
        simp [runAll, hrun, hpre, Stop.after]
      · cases h

/-- What a run of rolls that succeeds did: the first roll succeeded, and so did the run of the
rest from where it left the source. -/
theorem of_runAll_cons {r : Roll} {rs : List Roll} {s s'' : σ} {recs : List RollRecord}
    (h : runAll src (r :: rs) s = .ok (recs, s'')) :
    ∃ rec s' rest, r.run src s = .ok (rec, s') ∧ runAll src rs s' = .ok (rest, s'') ∧
      recs = rec :: rest := by
  simp only [runAll] at h
  split at h
  · cases h
  · rename_i rec s' hrun
    split at h
    · cases h
    · rename_i rest s₂ hrest
      cases h
      exact ⟨rec, s', rest, hrun, hrest, rfl⟩

/-- A run that succeeds makes one record per roll. -/
theorem length_of_runAll {rs : List Roll} {s s' : σ} {recs : List RollRecord}
    (h : runAll src rs s = .ok (recs, s')) : recs.length = rs.length := by
  induction rs generalizing s recs with
  | nil => cases h; rfl
  | cons r rs ih =>
    obtain ⟨rec, s₁, rest, -, hrest, rfl⟩ := of_runAll_cons h
    simp [ih hrest]

/-! ### Throwing dice with the draws of a list -/

/-- Throwing `n` dice from position `i` of a list of draws takes the next `n` draws, one die
each: the faces are those of the draws, in order. -/
theorem throwDice_ofList {ds : List Number} {sides : Int} {acc fs : List Int} {n i j : Nat}
    (h : throwDice (DrawSource.ofList ds) sides acc n i = .ok (fs, j)) :
    j = i + n ∧ ∃ new, ((ds.drop i).take n).mapM (face sides) = .ok new ∧
      fs = new.reverse ++ acc := by
  induction n generalizing acc i with
  | zero =>
    cases h
    exact ⟨rfl, [], rfl, rfl⟩
  | succ n ih =>
    simp only [throwDice, DrawSource.ofList] at h
    cases hu : ds[i]? with
    | none => simp [hu] at h
    | some u =>
      simp only [hu] at h
      cases hf : face sides u with
      | error e => simp [hf] at h
      | ok f =>
        simp only [hf] at h
        obtain ⟨hj, new, hnew, hfs⟩ := ih h
        obtain ⟨hi, hui⟩ := List.getElem?_eq_some_iff.1 hu
        refine ⟨by omega, f :: new, ?_, by simp [hfs]⟩
        rw [List.drop_eq_getElem_cons hi, hui, List.take_succ_cons, List.mapM_cons, hf, hnew]
        rfl

/-- A roll that succeeds from position `i` of a list of draws took the next draws, one for each
die; it records its sides, the face of each of those draws, and the value of the faces. -/
theorem run_ofList {ds : List Number} {r : Roll} {i j : Nat} {rec : RollRecord}
    (h : r.run (DrawSource.ofList ds) i = .ok (rec, j)) :
    j = i + r.dice.toNat ∧ rec.die = r.sides ∧
      ((ds.drop i).take r.dice.toNat).mapM (face r.sides) = .ok rec.faces ∧
      valueOf r.keep rec.faces = .ok rec.value := by
  simp only [run] at h
  split at h
  · cases h
  · rename_i rev s' hthrow
    split at h
    · cases h
    · rename_i v hv
      cases h
      obtain ⟨hj, new, hnew, rfl⟩ := throwDice_ofList hthrow
      refine ⟨hj, rfl, ?_, ?_⟩
      · simpa using hnew
      · simpa using hv

/-- Rolls that succeed take, together, as many draws as they have dice. -/
theorem used_of_runAll_ofList {ds : List Number} {rs : List Roll} {i j : Nat}
    {recs : List RollRecord} (h : runAll (DrawSource.ofList ds) rs i = .ok (recs, j)) :
    j = i + (rs.map fun r => r.dice.toNat).sum := by
  induction rs generalizing i recs with
  | nil => cases h; rfl
  | cons r rs ih =>
    obtain ⟨rec, i₁, rest, hrun, hrest, rfl⟩ := of_runAll_cons h
    have h₁ := (run_ofList hrun).1
    have h₂ := ih hrest
    simp only [List.map_cons, List.sum_cons]
    omega

end Roll

namespace Expr

/-- The arithmetic of a tree whose rolls are worth `vs`, in order: each operand takes as many of
the values as it has rolls.  A missing node, which a complete tree has none of, counts as `0`. -/
def compute (ctx : Option NumberBindings) : Expr → List Int → Number
  | lit n, _ => n
  | ref x, _ => NumberBindings.find ctx x
  | roll _, vs => .int (vs.headD 0)
  | op o l r, vs =>
    o.apply (l.compute ctx (vs.take l.rolls.length)) (r.compute ctx (vs.drop l.rolls.length))
  | missing, _ => .int 0

variable {σ : Type} (ctx : Option NumberBindings) (src : DrawSource σ)

/-- Evaluation in two phases: every die of the tree first, in order, then the arithmetic.  A roll
that fails stops it with the records of the rolls before it. -/
def rollsFirst (e : Expr) (s : σ) : Except (Stop σ) (Outcome σ) :=
  match Roll.runAll src e.rolls s with
  | .error x => .error x
  | .ok (recs, s') => .ok ⟨.num (e.compute ctx (recs.map RollRecord.value)), recs, s'⟩

/-! ## Evaluation, node by node -/

variable {ctx src}

theorem eval_roll (env : Option Bindings) (r : Roll) (s : σ) :
    eval env src (roll r) s =
      match r.run src s with
      | .error (f, s') => .error ⟨f, [], s'⟩
      | .ok (rec, s') => .ok ⟨.num (.int rec.value), [rec], s'⟩ := rfl

/-- An operation evaluates its left operand, then its right one, then applies its operator; a
stop in the right operand or in applying the operator keeps the records of what came before. -/
theorem eval_op (env : Option Bindings) (o : Operator) (l r : Expr) (s : σ) :
    eval env src (op o l r) s = (do
      let a ← eval env src l s
      let c ← (eval env src r a.source).mapError (Stop.after a.rolls)
      let v ← Stop.lift (a.rolls ++ c.rolls) c.source (Value.apply o a.value c.value)
      pure ⟨v, a.rolls ++ c.rolls, c.source⟩) := by
  simp only [eval, bind, Except.bind, pure, Except.pure, Except.mapError, Stop.lift]
  cases eval env src l s with
  | error x => rfl
  | ok a =>
    dsimp only
    cases eval env src r a.source with
    | error x => rfl
    | ok c =>
      dsimp only
      cases Value.apply o a.value c.value <;> rfl

/-! ## Evaluation is the two phases -/

theorem rollsFirst_roll (r : Roll) (s : σ) :
    rollsFirst ctx src (roll r) s =
      match r.run src s with
      | .error (f, s') => .error ⟨f, [], s'⟩
      | .ok (rec, s') => .ok ⟨.num (.int rec.value), [rec], s'⟩ := by
  simp only [rollsFirst, rolls, Roll.runAll]
  cases r.run src s with
  | error p => rfl
  | ok p => rfl

/-- For bindings of numbers and a tree with no missing node, evaluation is the two phases:
the same value, the same records and the same state of the draw source when every roll
succeeds, and otherwise the fault of the first roll that fails, with the records of the rolls
before it and the source as that roll left it. -/
theorem eval_eq_rollsFirst {e : Expr} (he : e.complete = true) (s : σ) :
    eval (ctx.map NumberBindings.toBindings) src e s = rollsFirst ctx src e s := by
  induction e generalizing s with
  | lit n => rfl
  | ref x =>
    simp only [eval, rollsFirst, rolls, Roll.runAll, NumberBindings.lookup_map_toBindings]
    rfl
  | roll r => rw [eval_roll, rollsFirst_roll]
  | missing => simp [complete] at he
  | op o l r ihl ihr =>
    have hl : l.complete = true := by simp_all [complete]
    have hr : r.complete = true := by simp_all [complete]
    -- the dice of the left operand come first on both sides, then those of the right one
    rw [eval_op, ihl hl]
    simp only [rollsFirst, rolls, Roll.runAll_append]
    cases hla : Roll.runAll src l.rolls s with
    | error x => rfl
    | ok p =>
      obtain ⟨ra, s₁⟩ := p
      simp only [bind, Except.bind]
      rw [ihr hr s₁]
      simp only [rollsFirst]
      cases hrb : Roll.runAll src r.rolls s₁ with
      | error x => rfl
      | ok q =>
        -- both operands are numbers, so applying the operator cannot fail; the left operand's
        -- records are exactly as many as its rolls, so it takes the first values
        obtain ⟨rb, s₂⟩ := q
        have hlen := Roll.length_of_runAll hla
        simp [Value.apply, compute, hlen, pure, Except.pure, Except.mapError]

/-! ## Evaluating in frames -/

theorem throwExcursion_height_le (r : Roll) :
    (throwExcursion src r).height ≤ src.steps.height + 3 := by
  have := Excursion.height_lift_le 3 src.steps
  unfold throwExcursion
  split
  · split <;> simp
  · simp
    omega

/-- Entering a node's frame at a point of evaluation, with room when the computation is not too
deep. -/
theorem Follows.enterAt_lift {deep : Prop} {d : Nat} (hroom : ¬ deep → d ≤ depthLimit)
    (rs : List RollRecord) (s : σ) : Follows deep (Stop.lift rs s (enterAt d)) (.ok ()) :=
  (Follows.enterAt hroom).lift rs s

/-- A step of evaluation's own, at a point of evaluation, with room when the computation is not
too deep. -/
theorem Follows.excursion_lift {deep : Prop} {d : Nat} {x : Excursion}
    (hroom : ¬ deep → d + x.height ≤ depthLimit) (rs : List RollRecord) (s : σ) :
    Follows deep (Stop.lift rs s (Excursion.run d x)) (.ok ()) :=
  (Follows.excursion hroom).lift rs s

/-- An operation evaluated in frames follows `eval` when both operands, one level down, do, and
the node has room to apply its operator, in frames at most three levels down. -/
theorem evalAt_op_follows {deep : Prop} (env : Option Bindings) (o : Operator) (l r : Expr)
    (d : Nat) (hl : ∀ s, Follows deep (l.evalAt env src (d + 1) s) (l.eval env src s))
    (hr : ∀ s, Follows deep (r.evalAt env src (d + 1) s) (r.eval env src s))
    (hroom : ¬ deep → d + 3 ≤ depthLimit) (s : σ) :
    Follows deep ((op o l r).evalAt env src d s) ((op o l r).eval env src s) := by
  rw [eval_op]
  refine Follows.bind_ok (Follows.enterAt_lift (fun h => by have := hroom h; omega) [] s) ?_
  refine Follows.bind (hl s) (fun f hf => by rw [hf]; rfl) (fun a ha => ?_)
  rw [ha, ok_bind]
  refine Follows.bind ((hr a.source).after a.rolls) (fun f hf => by rw [hf]; rfl) (fun c hc => ?_)
  rw [hc, ok_bind]
  exact Follows.bind_ok
    (Follows.excursion_lift (fun h => by have := hroom h; simpa using this) _ _) Follows.refl

/-- Evaluating in frames from level `d` gives the outcome of `eval`, unless the tree reaches
within `src.steps.height + 6` levels of the limit, where it may fail with a recursion fault
instead.  A roll needs the most room: it throws its dice three levels down, each die takes a draw
through the source's own steps, and running out of draws is reported six levels down. -/
theorem evalAt_follows (env : Option Bindings) (d : Nat) (e : Expr) (s : σ) :
    Follows (depthLimit < d + e.height + src.steps.height + 6)
      (e.evalAt env src d s) (e.eval env src s) := by
  induction e generalizing d s with
  | lit n =>
    exact Follows.bind_ok (Follows.enterAt_lift (fun h => by simp [height] at h; omega) [] s)
      Follows.refl
  | ref x =>
    exact Follows.bind_ok (Follows.enterAt_lift (fun h => by simp [height] at h; omega) [] s)
      Follows.refl
  | roll r =>
    have := @throwExcursion_height_le σ src r
    refine Follows.bind_ok (Follows.enterAt_lift (fun h => by simp [height] at h; omega) [] s)
      (Follows.bind_ok (Follows.excursion_lift (fun h => by simp [height] at h; omega) [] s) ?_)
    rw [eval_roll]
    split
    · -- running out of draws is reported six levels down
      rename_i k s' h
      rw [h]
      exact Follows.bind_ok
        (Follows.excursion_lift (fun h => by simp [height] at h ⊢; omega) [] s') Follows.refl
    · rename_i f s' _ h
      rw [h]
      exact Follows.refl
    · rename_i rec s' h
      rw [h]
      exact Follows.refl
  | missing => exact Follows.refl
  | op o l r ihl ihr =>
    -- each operand is evaluated one level down, where it has the room the node had
    exact evalAt_op_follows env o l r d (fun s => (ihl (d + 1) s).mono (fun h => by simp; omega))
      (fun s => (ihr (d + 1) s).mono (fun h => by simp; omega)) (fun h => by simp at h; omega) s

/-! ## Evaluating with the draws of a list -/

@[simp] theorem ofList_steps_height (ds : List Number) : (DrawSource.ofList ds).steps.height = 2 :=
  rfl

/-- The calculator's entry point gives its caller what evaluating gives: when evaluating follows
the two phases, the caller gets what they give. -/
theorem calculate_eq_deliver {deep : Prop} {env : Option Bindings} {e : Expr} {d : Nat} {s : σ}
    {m : Except (Stop σ) (Outcome σ)} (h : Follows deep (e.evalAt env src d s) m) (hd : ¬ deep)
    (sink : Option (List RollRecord)) : e.calculate env src sink d s = deliver sink m := by
  rw [calculate, h.eq_of_not hd]

/-- Whether or not the caller passes a sink, it gets the same value or fault and the draw source
is left in the same state: evaluating never reads the sink. -/
theorem calculate_sink (env : Option Bindings) (e : Expr) (d : Nat) (s : σ)
    (sink : Option (List RollRecord)) :
    (e.calculate env src sink d s).1 = (e.calculate env src none d s).1 ∧
      (e.calculate env src sink d s).2.2 = (e.calculate env src none d s).2.2 := by
  unfold calculate
  cases evalAt env src d e s <;> exact ⟨rfl, rfl⟩

/-- **Evaluation rolls every die first.**  Evaluating a tree with no missing node in frames from
level `d`, against bindings of numbers and the draws of a list, throws every die first and does
the arithmetic after, unless the tree reaches within eight levels of the limit, where it may fail
with a recursion fault instead.  When the dice are all thrown, there is one record per roll, and
the rolls took as many draws as they have dice.  When a roll fails, evaluation stops with that
roll's fault after the rolls before it: their records are all that is kept, one per roll, and
their draws are taken.  The calculator's entry point appends the records to a caller's sink, also
when it stops, and gives the same value or fault and takes the same draws with or without one. -/
theorem evalAt_rollsFirst (ctx : Option NumberBindings) (draws : List Number) {e : Expr}
    (he : e.complete = true) (d : Nat) :
    Follows (depthLimit < d + e.height + 8)
        (e.evalAt (ctx.map NumberBindings.toBindings) (.ofList draws) d 0)
        (e.rollsFirst ctx (.ofList draws) 0) ∧
      (∀ recs used, Roll.runAll (.ofList draws) e.rolls 0 = .ok (recs, used) →
        recs.length = e.rolls.length ∧ used = (e.rolls.map fun r => r.dice.toNat).sum) ∧
      (∀ x, Roll.runAll (.ofList draws) e.rolls 0 = .error x →
        ∃ pre r post, e.rolls = pre ++ r :: post ∧ x.rolls.length = pre.length ∧
          Roll.runAll (.ofList draws) pre 0 = .ok (x.rolls, (pre.map fun r => r.dice.toNat).sum) ∧
          r.run (.ofList draws) (pre.map fun r => r.dice.toNat).sum = .error (x.fault, x.source)) ∧
      ∀ sink,
        (¬ depthLimit < d + e.height + 8 →
          e.calculate (ctx.map NumberBindings.toBindings) (.ofList draws) sink d 0 =
            deliver sink (e.rollsFirst ctx (.ofList draws) 0)) ∧
        (e.calculate (ctx.map NumberBindings.toBindings) (.ofList draws) sink d 0).1 =
          (e.calculate (ctx.map NumberBindings.toBindings) (.ofList draws) none d 0).1 ∧
        (e.calculate (ctx.map NumberBindings.toBindings) (.ofList draws) sink d 0).2.2 =
          (e.calculate (ctx.map NumberBindings.toBindings) (.ofList draws) none d 0).2.2 := by
  have hfollow : Follows (depthLimit < d + e.height + 8)
      (e.evalAt (ctx.map NumberBindings.toBindings) (.ofList draws) d 0)
      (e.rollsFirst ctx (.ofList draws) 0) := by
    rw [← eval_eq_rollsFirst he]
    exact (evalAt_follows (ctx.map NumberBindings.toBindings) d e 0).mono
      (fun h => by rwa [ofList_steps_height] at h)
  refine ⟨hfollow, fun recs used h => ⟨Roll.length_of_runAll h, ?_⟩, fun x h => ?_,
    fun sink => ⟨fun hd => calculate_eq_deliver hfollow hd sink, calculate_sink _ e d 0 sink⟩⟩
  · simpa using Roll.used_of_runAll_ofList h
  · -- the rolls before the one that fails ran, each taking as many draws as it has dice
    obtain ⟨pre, r, post, s₁, hsplit, hpre, hr⟩ := Roll.runAll_eq_error h
    have hs₁ : s₁ = (pre.map fun r => r.dice.toNat).sum := by
      simpa using Roll.used_of_runAll_ofList hpre
    subst hs₁
    exact ⟨pre, r, post, hsplit, Roll.length_of_runAll hpre, hpre, hr⟩

/-- Two dice added to a bound name, at the level the calculator starts from. -/
theorem evalAt_rollsFirst_twoDice :
    (op .add (roll ⟨2, 6, some .highest⟩) (ref "x")).complete = true ∧
      Follows (depthLimit < 6 + (op .add (roll ⟨2, 6, some .highest⟩) (ref "x")).height + 8)
        ((op .add (roll ⟨2, 6, some .highest⟩) (ref "x")).evalAt
          ((some [("x", .int 3)]).map NumberBindings.toBindings) (.ofList [.int 0, .int 1]) 6 0)
        ((op .add (roll ⟨2, 6, some .highest⟩) (ref "x")).rollsFirst (some [("x", .int 3)])
          (.ofList [.int 0, .int 1]) 0) ∧
      (∀ recs used, Roll.runAll (.ofList [.int 0, .int 1])
          (op .add (roll ⟨2, 6, some .highest⟩) (ref "x")).rolls 0 = .ok (recs, used) →
        recs.length = (op .add (roll ⟨2, 6, some .highest⟩) (ref "x")).rolls.length ∧
          used = ((op .add (roll ⟨2, 6, some .highest⟩) (ref "x")).rolls.map
            fun r => r.dice.toNat).sum) ∧
      (∀ x, Roll.runAll (.ofList [.int 0, .int 1])
          (op .add (roll ⟨2, 6, some .highest⟩) (ref "x")).rolls 0 = .error x →
        ∃ pre r post, (op .add (roll ⟨2, 6, some .highest⟩) (ref "x")).rolls = pre ++ r :: post ∧
          x.rolls.length = pre.length ∧
          Roll.runAll (.ofList [.int 0, .int 1]) pre 0 =
            .ok (x.rolls, (pre.map fun r => r.dice.toNat).sum) ∧
          r.run (.ofList [.int 0, .int 1]) (pre.map fun r => r.dice.toNat).sum =
            .error (x.fault, x.source)) ∧
      ∀ sink,
        (¬ depthLimit < 6 + (op .add (roll ⟨2, 6, some .highest⟩) (ref "x")).height + 8 →
          (op .add (roll ⟨2, 6, some .highest⟩) (ref "x")).calculate
              ((some [("x", .int 3)]).map NumberBindings.toBindings) (.ofList [.int 0, .int 1])
              sink 6 0 =
            deliver sink ((op .add (roll ⟨2, 6, some .highest⟩) (ref "x")).rollsFirst
              (some [("x", .int 3)]) (.ofList [.int 0, .int 1]) 0)) ∧
        ((op .add (roll ⟨2, 6, some .highest⟩) (ref "x")).calculate
            ((some [("x", .int 3)]).map NumberBindings.toBindings) (.ofList [.int 0, .int 1])
            sink 6 0).1 =
          ((op .add (roll ⟨2, 6, some .highest⟩) (ref "x")).calculate
            ((some [("x", .int 3)]).map NumberBindings.toBindings) (.ofList [.int 0, .int 1])
            none 6 0).1 ∧
        ((op .add (roll ⟨2, 6, some .highest⟩) (ref "x")).calculate
            ((some [("x", .int 3)]).map NumberBindings.toBindings) (.ofList [.int 0, .int 1])
            sink 6 0).2.2 =
          ((op .add (roll ⟨2, 6, some .highest⟩) (ref "x")).calculate
            ((some [("x", .int 3)]).map NumberBindings.toBindings) (.ofList [.int 0, .int 1])
            none 6 0).2.2 :=
  ⟨rfl, evalAt_rollsFirst (some [("x", .int 3)]) [.int 0, .int 1] rfl 6⟩

/-! ## A sum too long for the limit -/

/-- Evaluating reaches the leftmost leaf of a tree `leftDepth` levels below the tree's frame,
before any other step can fail: past the limit there, evaluating is a recursion fault, with no
roll made and no draw taken. -/
theorem evalAt_tooDeep (env : Option Bindings) {e : Expr} (he : e.complete = true) {d : Nat}
    (h : depthLimit < d + e.leftDepth) (s : σ) :
    ∃ en, e.evalAt env src d s = .error ⟨.tooDeep en, [], s⟩ := by
  induction e generalizing d with
  | op o l r ihl _ =>
    have hl : l.complete = true := by simp_all [complete]
    by_cases hd : depthLimit < d
    · simp only [evalAt, enterAt_eq_error hd]
      exact ⟨.frame, rfl⟩
    obtain ⟨en, hen⟩ := ihl hl (d := d + 1) (by simp only [leftDepth] at h; omega)
    refine ⟨en, ?_⟩
    simp only [evalAt, enterAt_eq_ok (Nat.le_of_not_lt hd), hen]
    rfl
  | missing => simp [complete] at he
  | lit _ | ref _ | roll _ =>
    simp only [leftDepth, Nat.add_zero] at h
    simp only [evalAt, enterAt_eq_error h]
    exact ⟨.frame, rfl⟩

/-- `1 + 1 + ... + 1` with `n + 1` terms, grouped to the left as the reader groups it. -/
def sumChain : Nat → Expr
  | 0 => lit (.int 1)
  | n + 1 => op .add (sumChain n) (lit (.int 1))

theorem complete_sumChain (n : Nat) : (sumChain n).complete = true := by
  induction n with
  | zero => rfl
  | succ n ih => simp [sumChain, complete, ih]

theorem rolls_sumChain (n : Nat) : (sumChain n).rolls = [] := by
  induction n with
  | zero => rfl
  | succ n ih => simp [sumChain, rolls, ih]

theorem leftDepth_sumChain (n : Nat) : (sumChain n).leftDepth = n := by
  induction n with
  | zero => rfl
  | succ n ih => simp [sumChain, ih, leftDepth]

theorem compute_sumChain (n : Nat) (vs : List Int) :
    (sumChain n).compute ctx vs = .int ((n : Int) + 1) := by
  induction n generalizing vs with
  | zero => rfl
  | succ n ih =>
    simp only [sumChain, compute, ih, Operator.apply, Number.arith, Number.int.injEq]
    omega

/-- The two phases add the terms up. -/
theorem rollsFirst_sumChain (n : Nat) (s : σ) :
    (sumChain n).rollsFirst ctx src s = .ok ⟨.num (.int ((n : Int) + 1)), [], s⟩ := by
  simp only [rollsFirst, rolls_sumChain, Roll.runAll, compute_sumChain]

/-- The leftmost term of the sum is `n` frames below the sum's: from level `d`, past the limit
when `depthLimit < d + n`. -/
theorem sumChain_tooDeep (env : Option Bindings) {d n : Nat} (hn : depthLimit < d + n) (s : σ) :
    ∃ en, (sumChain n).evalAt env src d s = .error ⟨.tooDeep en, [], s⟩ :=
  evalAt_tooDeep env (complete_sumChain n) (by rwa [leftDepth_sumChain]) s

/-- `1 + 1 + ... + 1` with 1200 terms: the two phases give 1200, but evaluating it from the
calculator's level is a recursion fault. -/
theorem evalAt_sumChain :
    (sumChain 1199).complete = true ∧
      (sumChain 1199).rollsFirst none (.ofList []) 0 = .ok ⟨.num (.int 1200), [], 0⟩ ∧
      ∃ en, (sumChain 1199).evalAt none (.ofList []) 6 0 = .error ⟨.tooDeep en, [], 0⟩ :=
  ⟨complete_sumChain 1199, rollsFirst_sumChain 1199 0,
    sumChain_tooDeep none (by unfold depthLimit; omega) 0⟩

end Expr

end DiceNotation
