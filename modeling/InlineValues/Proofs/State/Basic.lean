import InlineValues.Proofs.Grammar.Steps

/-!
# The discipline of the parser's state

A parser is in order between two tokens (`ParserState.Settled`): the register holds the kind of the
lexer's token, and the trivia of that token start where the last consumed token ends.  A call is
disciplined (`Call.Disciplined`) when it starts and ends so, with the same context and at the same
depth, and when it changes nothing at all if it looks ahead.

A parser is disciplined (`Parser.Disciplined`) when every call within each of its runs is.  That is
closed under the operations parsers are written with, so that it is found for a production from what
the production is made of.  Looking ahead needs more of what is read ahead: coming back leaves the
arena, the context and the depth as they are found, so that what is read ahead has to leave them in
place (`Parser.Frames`).

A loop that does not move on is noted in the state, and coming back does not take that note away.
The note is never taken away, so that no call of a run has made one where none stands in the end.
-/

namespace InlineValues

namespace ParserState

/-- The parser stands between two tokens. -/
structure Settled (st : ParserState) : Prop where
  current : st.current = st.lexer.token.kind
  previous : st.previousStop = st.here

/-- What a call keeps of the state at its entry. -/
structure Keeps (st st' : ParserState) : Prop where
  settled : st.Settled → st'.Settled
  context : st'.context = st.context
  depth : st'.depth = st.depth
  moving : st'.stalled = false → st.stalled = false

namespace Keeps

variable {st st' st'' : ParserState}

lemma refl (st : ParserState) : st.Keeps st := ⟨id, rfl, rfl, id⟩

lemma trans (h : st.Keeps st') (h' : st'.Keeps st'') : st.Keeps st'' :=
  ⟨fun hst => h'.settled (h.settled hst), h'.context.trans h.context, h'.depth.trans h.depth,
    fun hst => h.moving (h'.moving hst)⟩

end Keeps

/-- What was read ahead is forgotten as a whole, unless a loop did not move on. -/
lemma Frame.restore_eq {st st' : ParserState} (h : st.Frame st')
    (hstalled : st'.stalled = st.stalled) : st'.restore st.save = st := by
  have hlexer : st'.lexer.restore st.lexer.save = st.lexer := h.restore_save.1
  have hdiagnostics : st'.diagnostics.shrink st.diagnostics.size = st.diagnostics :=
    h.restore_save.2
  rw [restore, save]
  dsimp only
  rw [hlexer, hdiagnostics, h.context, h.depth, h.refused, h.arena, h.known, h.consulted, hstalled]

end ParserState

/-- A call that starts and ends between two tokens, in one context and at one depth, and that
changes nothing if it looks ahead. -/
structure Call.Disciplined (c : Call) : Prop where
  entry : c.entry.Settled
  exit : c.exit.Settled
  context : c.exit.context = c.entry.context
  depth : c.exit.depth = c.entry.depth
  ahead : c.ahead = true → c.exit = c.entry

namespace Parser

open ParserState

variable {α β : Type}

/-- The parser keeps what a call keeps, and so do the calls within its runs that do not stall. -/
class Disciplined (p : Parser α) : Prop where
  keeps : ∀ st : ParserState, st.Keeps (p.run st).2
  within : ∀ st : ParserState, st.Settled → (p.run st).2.stalled = false →
    ∀ c, p.within st c → c.Disciplined

namespace Disciplined

variable {p q : Parser α} {f : α → Parser β}

/-- All calls of a run that does not stall are disciplined. -/
lemma calls [p.Disciplined] {st : ParserState} (hst : st.Settled)
    (hstalled : (p.run st).2.stalled = false) {c : Call} (hc : p.calls st c) : c.Disciplined := by
  rcases hc with rfl | hc
  · have h : st.Keeps (p.run st).2 := keeps st
    exact ⟨hst, h.settled hst, h.context, h.depth, nofun⟩
  · exact within st hst hstalled c hc

/-- What calls no other parsers has to keep what a call keeps. -/
lemma of_primitive {run : ParserState → α × ParserState} (h : ∀ st, Keeps st (run st).2) :
    (primitive run).Disciplined := ⟨h, fun _ _ _ _ => False.elim⟩

lemma of_modify {g : ParserState → ParserState} (h : ∀ st, Keeps st (g st)) :
    (modify g : Parser PUnit).Disciplined := of_primitive h

lemma bind (hp : p.Disciplined) (hf : ∀ a, (f a).Disciplined) : (p >>= f).Disciplined where
  keeps st := (hp.keeps st).trans ((hf _).keeps _)
  within st hst hstalled c hc := by
    have hmoving : (p.run st).2.stalled = false := ((hf _).keeps _).moving hstalled
    rcases hc with hc | hc
    · exact calls hst hmoving hc
    · have hf := hf (p.run st).1
      exact calls ((hp.keeps st).settled hst) hstalled hc

instance [p.Disciplined] [∀ a, (f a).Disciplined] : (p >>= f).Disciplined :=
  bind inferInstance fun _ => inferInstance

instance (a : α) : (pure a : Parser α).Disciplined := of_primitive fun st => .refl st

instance [p.Disciplined] (g : α → β) : (g <$> p).Disciplined :=
  bind inferInstance fun a => inferInstanceAs (pure (g a) : Parser β).Disciplined

instance [p.Disciplined] : (Functor.discard p).Disciplined :=
  inferInstanceAs (_ <$> p : Parser PUnit).Disciplined

lemma ite {c : Prop} [Decidable c] (hp : p.Disciplined) (hq : q.Disciplined) :
    (if c then p else q).Disciplined := by
  split
  · exact hp
  · exact hq

instance {c : Prop} [Decidable c] [p.Disciplined] [q.Disciplined] :
    (if c then p else q).Disciplined :=
  ite inferInstance inferInstance

/-- Two branches that go on in one way. -/
lemma ite_bind {c : Prop} [Decidable c] (hp : p.Disciplined) (hq : q.Disciplined)
    (hf : ∀ a, (f a).Disciplined) : (if c then p >>= f else q >>= f).Disciplined :=
  ite (bind hp hf) (bind hq hf)

/-- A step that is left out where its condition fails. -/
lemma when_bind {c : Prop} [Decidable c] {p : Parser Unit} {f : Unit → Parser β}
    (hp : p.Disciplined) (hf : ∀ a, (f a).Disciplined) :
    (if c then p >>= f else f ()).Disciplined :=
  ite (bind hp hf) (hf ())

/-- A branch that is taken where a condition holds and a test then succeeds. -/
lemma ite_test {c : Prop} [Decidable c] {d : Bool → Prop} [∀ b, Decidable (d b)]
    {test : Parser Bool} (htest : test.Disciplined) (hp : p.Disciplined) (hq : q.Disciplined) :
    (if c then test >>= fun b => if d b then p else q else q).Disciplined :=
  ite (bind htest fun _ => ite hp hq) hq

-- What branches share is looked for once, and so is what follows a step whose result is not used.
instance (priority := high) {c : Prop} [Decidable c] [p.Disciplined] [q.Disciplined]
    [∀ a, (f a).Disciplined] : (if c then p >>= f else q >>= f).Disciplined :=
  ite_bind inferInstance inferInstance inferInstance

instance (priority := high) {c : Prop} [Decidable c] {p : Parser Unit} {f : Unit → Parser β}
    [p.Disciplined] [∀ a, (f a).Disciplined] : (if c then p >>= f else f ()).Disciplined :=
  when_bind inferInstance inferInstance

instance (priority := high) {c : Prop} [Decidable c] {d : Bool → Prop} [∀ b, Decidable (d b)]
    {test : Parser Bool} [test.Disciplined] [p.Disciplined] [q.Disciplined] :
    (if c then test >>= fun b => if d b then p else q else q).Disciplined :=
  ite_test inferInstance inferInstance inferInstance

instance (priority := high) {q : Parser β} [p.Disciplined] [q.Disciplined] :
    (p >>= fun _ => q).Disciplined :=
  bind inferInstance fun _ => inferInstance

/-! ## Tokens and faults -/

instance : (get : Parser ParserState).Disciplined := of_primitive fun st => .refl st

instance : kind.Disciplined := by
  unfold kind
  infer_instance

instance (k : TokenKind) : (at? k).Disciplined := by
  unfold at?
  infer_instance

instance : pos.Disciplined := by
  unfold pos
  infer_instance

instance : value.Disciplined := by
  unfold value
  infer_instance

instance : afterLineBreak.Disciplined := by
  unfold afterLineBreak
  infer_instance

/-- The next token starts where the one that is consumed ends. -/
instance : advance.Disciplined :=
  of_modify fun st => ⟨fun _ => ⟨rfl, (Lexer.fullStart_scan st.lexer).symm⟩, rfl, rfl, id⟩

/-- The current token may be read in another way that does not move its start. -/
lemma rescan {g : Lexer → Lexer}
    (h : ∀ l : Lexer, (g l).token.fullStart = l.token.fullStart) :
    (Parser.rescan g).Disciplined :=
  bind (of_modify fun st =>
    ⟨fun hst => ⟨rfl, hst.previous.trans (h st.lexer).symm⟩, rfl, rfl, id⟩) inferInstance

instance : (Parser.rescan Lexer.rescanGreater).Disciplined := rescan Lexer.fullStart_rescanGreater

instance : (Parser.rescan Lexer.rescanSlash).Disciplined := rescan Lexer.fullStart_rescanSlash

instance : (Parser.rescan Lexer.rescanTemplate).Disciplined :=
  rescan Lexer.fullStart_rescanTemplate

instance (k : TokenKind) : (optional k).Disciplined := by
  unfold Parser.optional
  infer_instance

instance (start length : Nat) (fault : Fault) : (reportAt start length fault).Disciplined := by
  refine of_modify fun st => ?_
  split
  · exact .refl st
  · exact ⟨fun hst => ⟨hst.current, hst.previous⟩, rfl, rfl, id⟩

instance (fault : Fault) : (report fault).Disciplined := by
  unfold report
  infer_instance

instance (k : TokenKind) : (expect k).Disciplined := by
  unfold Parser.expect
  infer_instance

instance : canEndStatement.Disciplined := by
  refine bind inferInstance fun k => ?_
  split <;> infer_instance

instance : semicolon.Disciplined := by
  unfold semicolon
  infer_instance

/-! ## Nodes -/

instance (pos stop : Nat) (form : Form Node) (payload : Form Nat) :
    (addNode pos stop form payload).Disciplined :=
  of_primitive fun _ => ⟨fun hst => ⟨hst.current, hst.previous⟩, rfl, rfl, id⟩

instance (pos stop : Nat) (form : Form Node) : (nodeAt pos stop form).Disciplined := by
  unfold nodeAt
  infer_instance

instance (pos : Nat) (form : Form Node) : (finish pos form).Disciplined := by
  unfold finish
  infer_instance

/-! ## Looking ahead and guarding the depth -/

/-- Coming back undoes all that was read ahead. -/
lemma lookAhead [p.Frames] (hp : p.Disciplined) : (Parser.lookAhead p).Disciplined where
  keeps st := by
    have h : st.Keeps (p.run st).2 := keeps st
    have hframe : st.Frame (p.run st).2 := Frames.frame st
    refine ⟨fun hst => ⟨?_, ?_⟩, h.context, h.depth, h.moving⟩
    · change st.current = ((p.run st).2.lexer.restore st.lexer.save).token.kind
      rw [hframe.lexer.restore_save]
      exact hst.current
    · change st.previousStop = ((p.run st).2.lexer.restore st.lexer.save).token.fullStart
      rw [hframe.lexer.restore_save]
      exact hst.previous
  within st hst hstalled c hc := by
    have h : st.Keeps (p.run st).2 := keeps st
    have hframe : st.Frame (p.run st).2 := Frames.frame st
    have hstalled : (p.run st).2.stalled = false := hstalled
    rcases hc with hc | rfl
    · exact calls hst hstalled hc
    · have hback : (p.run st).2.restore st.save = st :=
        hframe.restore_eq (hstalled.trans (h.moving hstalled).symm)
      rw [hback]
      exact ⟨hst, hst, rfl, rfl, fun _ => rfl⟩

instance [p.Disciplined] [p.Frames] : (Parser.lookAhead p).Disciplined := lookAhead inferInstance

lemma nextOnSameLine {test : Parser Bool} [test.Frames] (h : test.Disciplined) :
    (Parser.nextOnSameLine test).Disciplined := by
  unfold Parser.nextOnSameLine
  infer_instance

instance {test : Parser Bool} [test.Disciplined] [test.Frames] :
    (Parser.nextOnSameLine test).Disciplined := nextOnSameLine inferInstance

instance (test : TokenKind → Bool) : (nextIs test).Disciplined := by
  unfold nextIs
  infer_instance

/-- The context is put back behind a run in another one. -/
instance [p.Disciplined] (change : Context → Context) : (inContext change p).Disciplined where
  keeps st := by
    have h : Keeps { st with context := change st.context } _ := keeps (p := p) _
    refine ⟨fun hst => ?_, rfl, h.depth, h.moving⟩
    have hsettled := h.settled ⟨hst.current, hst.previous⟩
    exact ⟨hsettled.current, hsettled.previous⟩
  within st hst hstalled c hc := by
    have hchanged : Settled { st with context := change st.context } := ⟨hst.current, hst.previous⟩
    have hc : p.calls { st with context := change st.context } c := hc
    exact calls hchanged hstalled hc

instance : refuse.Disciplined := by
  refine bind inferInstance fun st => bind (of_modify fun st => ?_) fun _ => inferInstance
  exact ⟨fun hst => ⟨hst.current, hst.previous⟩, rfl, rfl, id⟩

/-- A level that is opened is closed again. -/
instance {p : Parser (Option Node)} [p.Disciplined] : (nested p).Disciplined where
  keeps st := by
    rw [Parser.nested]
    dsimp only
    split
    case isTrue hdepth =>
      have h : Keeps { st with depth := st.depth + 1 } _ := keeps (p := p) _
      refine ⟨fun hst => ?_, h.context, ?_, h.moving⟩
      · have hsettled := h.settled ⟨hst.current, hst.previous⟩
        exact ⟨hsettled.current, hsettled.previous⟩
      · dsimp only
        rw [h.depth]
        exact Nat.add_sub_cancel ..
    case isFalse => exact keeps (p := refuse) st
  within st hst hstalled c hc := by
    rw [Parser.nested] at hstalled hc
    dsimp only at hstalled hc
    split at hc
    case isTrue hdepth =>
      rw [if_pos hdepth] at hstalled
      have hopened : Settled { st with depth := st.depth + 1 } := ⟨hst.current, hst.previous⟩
      exact calls hopened hstalled hc
    case isFalse hdepth =>
      rw [if_neg hdepth] at hstalled
      exact calls hst hstalled hc

/-! ## Loops and lists -/

/-- A note stays: behind it nothing is claimed of the calls. -/
instance : stall.Disciplined :=
  of_modify fun _ => ⟨fun hst => ⟨hst.current, hst.previous⟩, rfl, rfl, nofun⟩

lemma iterate {step : β → Parser (ForInStep β)} (h : ∀ b, (step b).Disciplined) (fuel : Nat)
    (b : β) : (Parser.iterate step fuel b).Disciplined := by
  induction fuel generalizing b with
  | zero => exact bind inferInstance fun _ => inferInstance
  | succ fuel ih =>
    refine bind inferInstance fun before => bind (h b) fun r => ?_
    cases r with
    | done b => exact inferInstanceAs (pure b : Parser β).Disciplined
    | yield b =>
      have hrest : (Parser.iterate step fuel b).Disciplined := ih b
      refine bind inferInstance fun here => ite ?_ hrest
      exact bind inferInstance fun _ => hrest

lemma repeatFrom {step : β → Parser (ForInStep β)} (h : ∀ b, (step b).Disciplined) (b : β) :
    (Parser.repeatFrom b step).Disciplined :=
  bind inferInstance fun _ => iterate h _ b

instance {step : β → Parser (ForInStep β)} [∀ b, (step b).Disciplined] (b : β) :
    (Parser.repeatFrom b step).Disciplined := repeatFrom (fun _ => inferInstance) b

lemma foldlM {step : β → α → Parser β} (h : ∀ b a, (step b a).Disciplined) (items : List α)
    (b : β) : (items.foldlM step b).Disciplined := by
  induction items generalizing b with
  | nil => exact inferInstanceAs (pure b : Parser β).Disciplined
  | cons a items ih => exact bind (h b a) ih

instance (items : List α) (node? : α → Option Node) : (sequenceOf items node?).Disciplined := by
  unfold sequenceOf
  infer_instance

instance (items : List Node) : (sequence items).Disciplined := by
  unfold sequence
  infer_instance

instance (items : List Node) : (sequence? items).Disciplined := by
  unfold sequence?
  infer_instance

instance {element : Parser (Option Node)} [element.Disciplined] (close : TokenKind)
    (read : List Node × Bool) : (delimitedStep close element read).Disciplined := by
  unfold delimitedStep
  infer_instance

instance {element : Parser (Option Node)} [element.Disciplined] (opening close : TokenKind) :
    (delimited opening close element).Disciplined := by
  unfold delimited
  infer_instance

end Disciplined
end Parser
end InlineValues
