import InlineValues.Proofs.Replay.Basic

/-!
# Chains that are read again

Operators between operands and accesses behind an object are read by loops of one shape: an operand
is read, and every round makes it longer or ends the loop (`chainOf`).  Such a loop is followed
round by round: what the rounds so far have read again (`Rounds`), a round makes longer (`Extends`)
or ends (`RereadsStop`).  If the operand and every round are read again, so is the chain
(`replays_chainOf`).
-/

namespace InlineValues
namespace Parser

open ParserState

variable {s : Source} {w d cost : Nat} {st : ParserState}

/-- An operand that is made longer round by round. -/
def chainOf (operand : Parser (Option Node)) (step : Nat → Node → Parser (ForInStep Node)) :
    Parser (Option Node) := do
  let start ← pos
  match ← operand with
  | none => return none
  | some first => return some (← repeatFrom first (step start))

section

variable {g : Stage} {operand : Parser (Option Node)}
  {step : Nat → Node → Parser (ForInStep Node)} {production : Nat → Parser (Option Node)}
  {steps : Nat → Nat → Node → Parser (ForInStep Node)} {l l' l'' : Lexer} {left n : Node}
  {ts us : List Lexeme}

/-- Wherever the lexemes `ts` follow, the rounds so far read `n`, and the rounds behind them decide
what the chain gives. -/
def RereadsRounds (g : Stage) (cost : Nat) (production : Nat → Parser (Option Node))
    (steps : Nat → Nat → Node → Parser (ForInStep Node)) (l' : Lexer) (n : Node)
    (ts : List Lexeme) : Prop :=
  ∀ (rest : List Lexeme) (st : ParserState) (fuel d : Nat) (Q : Option Node → ParserState → Prop),
    Lexer.Tail g.ends l' rest → Follows d (ts ++ rest) st →
    d + n.levels ≤ maxParserDepth + g.opened →
    4 * (ts.length + rest.length + (maxParserDepth - d)) + cost ≤ fuel →
    (∀ start n' st' rounds, n.Alike n' → Follows d rest st' → rest.length < rounds →
      (iterate (steps fuel start) rounds n').Gives st' fun n st => Q (some n) st) →
    (chainOf (production fuel) (steps fuel)).Gives st Q

/-- A round ends the chain in front of whatever may follow. -/
def RereadsStop (g : Stage) (steps : Nat → Nat → Node → Parser (ForInStep Node)) (l' : Lexer) :
    Prop :=
  ∀ (rest : List Lexeme) (st : ParserState) (fuel d start : Nat) (left : Node),
    Lexer.Tail g.ends l' rest → Follows d rest st →
    (steps fuel start left).Gives st fun r st' => r = .done left ∧ Follows d rest st' ∧
      (g.joined = true → st'.lexer.rescanGreater = st'.lexer)

/-- The rounds so far have read `n` from `l` to `l'`, which is made of the lexemes `ts`. -/
structure Rounds (s : Source) (g : Stage) (cost d : Nat) (production : Nat → Parser (Option Node))
    (steps : Nat → Nat → Node → Parser (ForInStep Node)) (l l' : Lexer) (n : Node)
    (ts : List Lexeme) : Prop where
  madeOf : n.MadeOf s g.level ts
  path : l.Path ts l'
  levels : d ≤ maxParserDepth → d + n.levels ≤ maxParserDepth + g.opened
  again : RereadsRounds g cost production steps l' n ts

/-- A round makes `left` the node `n` by the lexemes `us`, and does it again where they follow. -/
structure Extends (s : Source) (g : Stage) (cost d : Nat)
    (steps : Nat → Nat → Node → Parser (ForInStep Node)) (left : Node) (l : Lexer) (n : Node)
    (l' : Lexer) (us : List Lexeme) : Prop where
  madeOf : ∀ ts, left.MadeOf s g.level ts → n.MadeOf s g.level (ts ++ us)
  path : l.Path us l'
  head : ∃ t us', us = t :: us' ∧ g.ends t.kind = true
  levels_le : left.levels ≤ n.levels
  levels : d ≤ maxParserDepth → d + left.levels ≤ maxParserDepth + g.opened →
    d + n.levels ≤ maxParserDepth + g.opened
  again : ∀ (rest : List Lexeme) (st : ParserState) (fuel d start : Nat) (left' : Node),
    left.Alike left' → Lexer.Tail g.ends l' rest → Follows d (us ++ rest) st →
    d + n.levels ≤ maxParserDepth + g.opened →
    4 * (us.length + rest.length + (maxParserDepth - d)) + cost ≤ fuel →
    (steps fuel start left').Gives st fun r st' =>
      ∃ n', r = .yield n' ∧ n.Alike n' ∧ Follows d rest st'

/-- A round ends the chain, and does it again. -/
structure Stops (g : Stage) (steps : Nat → Nat → Node → Parser (ForInStep Node))
    (l l' : Lexer) : Prop where
  agrees : l.rescanGreater.Agrees l'.rescanGreater
  again : RereadsStop g steps l'

/-- What is known of a round of a chain: it makes the chain longer, by an operator or by something
else, or ends it. -/
inductive ChainRound (s : Source) (g : Stage) (cost : Nat)
    (steps : Nat → Nat → Node → Parser (ForInStep Node)) (left : Node) (st : ParserState) :
    ForInStep Node → ParserState → Prop
  | longer {n : Node} {st' : ParserState} (tells : Tells s st st')
      (operand : n.IsEvaluable → left.IsEvaluable)
      (h : st'.Quiet → n.IsEvaluable → ∃ us,
        Extends s (g.within st.context) cost st.depth steps left st.lexer n st'.lexer us) :
      ChainRound s g cost steps left st (.yield n) st'
  | foreign {n : Node} {st' : ParserState} (h : n.IsForeign) :
      ChainRound s g cost steps left st (.yield n) st'
  | stop {st' : ParserState} (tells : Tells s st st')
      (h : Stops (g.within st.context) steps st.lexer st'.lexer) :
      ChainRound s g cost steps left st (.done left) st'

/-- The operand is what the rounds read before the first one. -/
lemma Rereads.rounds {level : Nat} {joined : Bool}
    (h : Rereads { g with level, joined } cost production l' n ts) :
    RereadsRounds g cost production steps l' n ts := by
  intro rest st fuel d Q htail hfollows hlevels hfuel hrounds
  refine .pos ((h rest st fuel d htail hfollows hlevels hfuel).bind fun o st₁ h₁ => ?_)
  obtain ⟨n', rfl, halike⟩ := h₁.alike
  have hlen := h₁.follows.spelled.length_le
  exact Gives.bind (.get (hrounds st.here n' st₁ _ halike h₁.follows (by omega)))
    fun _ _ hQ => hQ

/-- The last round. -/
lemma RereadsRounds.stop (h : RereadsRounds g cost production steps l' n ts)
    (h' : RereadsStop g steps l') :
    Rereads g cost (fun fuel => chainOf (production fuel) (steps fuel)) l' n ts := by
  intro rest st fuel d htail hfollows hlevels hfuel
  refine h rest st fuel d _ htail hfollows hlevels hfuel
    fun start n' st' rounds halike hfollows' hlen => ?_
  refine gives_iterate_done ((h' rest st' fuel d start n' htail hfollows').mono
    fun r st'' hr => ?_) (by omega)
  obtain ⟨rfl, hfollows'', hjoined⟩ := hr
  exact ⟨n', rfl, ⟨n', rfl, halike⟩, hfollows'', hjoined⟩

lemma Replay.rounds {level : Nat} {joined : Bool}
    (h : Replay s { g with level, joined } cost d production l l' n ts) (hlevel : level ≤ g.level) :
    Rounds s g cost d production steps l l' n ts :=
  ⟨.lift hlevel h.madeOf, h.path, h.levels, h.again.rounds⟩

namespace Rounds

/-- What was read so far does not depend on how the lexer has come to its token. -/
lemma of_agrees (h : Rounds s g cost d production steps l l' n ts)
    (hagrees : l'.rescanGreater.Agrees l''.rescanGreater) :
    Rounds s g cost d production steps l l'' n ts := by
  have hpath : l.Path (ts ++ []) l'' := h.path.trans hagrees
  rw [List.append_nil] at hpath
  exact ⟨h.madeOf, hpath, h.levels, fun rest st fuel d Q htail =>
    h.again rest st fuel d Q (htail.of_agrees hagrees)⟩

/-- One more round. -/
lemma longer (h : Rounds s g cost d production steps l l' left ts)
    (h' : Extends s g cost d steps left l' n l'' us) :
    Rounds s g cost d production steps l l'' n (ts ++ us) := by
  refine ⟨h'.madeOf ts h.madeOf, h.path.trans h'.path,
    fun hdepth => h'.levels hdepth (h.levels hdepth),
    fun rest st fuel d Q htail hfollows hlevels hfuel hrounds => ?_⟩
  obtain ⟨t, us', rfl, hends⟩ := h'.head
  rw [List.append_assoc] at hfollows
  simp only [List.length_append, List.length_cons] at hfuel
  have htail' := htail.append h'.path fun u hu => by
    cases hu
    exact hends
  have hleft := h'.levels_le
  refine h.again _ st fuel d Q htail' hfollows (by omega) ?_
    fun start left' st' rounds halike hfollows' hlen => ?_
  · simp only [List.length_append, List.length_cons]
    omega
  · obtain ⟨rounds, rfl⟩ : ∃ k, rounds = k + 1 := ⟨rounds - 1, by omega⟩
    have hround := h'.again rest st' fuel d start left' halike htail hfollows' hlevels (by
      simp only [List.length_cons]
      omega)
    refine gives_iterate_yield (P := fun n' st'' => n.Alike n' ∧ Follows d rest st'') hround
      (fun _ _ h => ⟨h.1, h.2.of_same rfl rfl rfl h.2.plain h.2.depth⟩) fun n' st'' hn => ?_
    refine hrounds start n' st'' rounds hn.1 hn.2 ?_
    simp only [List.length_append, List.length_cons] at hlen
    omega

/-- The last round. -/
lemma stop (h : Rounds s g cost d production steps l l' n ts)
    (h' : Stops g steps l' l'') :
    Replay s g cost d (fun fuel => chainOf (production fuel) (steps fuel)) l l'' n ts := by
  have hmoved := h.of_agrees h'.agrees
  exact ⟨h.madeOf, hmoved.path, h.levels, hmoved.again.stop h'.again⟩

end Rounds

/-- A chain is read again if its operand and every round are.  What the rounds keep is more than
that a node was read. -/
lemma replays_chainOf {I : ParserState → Node → ParserState → Prop}
    (step : Nat → Node → Parser (ForInStep Node))
    (steps : Nat → Nat → Node → Parser (ForInStep Node)) {level : Nat} {joined : Bool}
    (hlevel : level ≤ g.level)
    (hfills : ∀ {st₀ st : ParserState} {n : Node}, I st₀ n st → st₀.FillsTo s w st (some n))
    (hfirst : ∀ st : ParserState, st.Sound s w → operand.Gives st fun o st' => ∀ n ∈ o, I st n st')
    (hoperand : Replays s w { g with level, joined } cost operand production)
    (hstep : ∀ {st₀ st : ParserState} {left : Node}, I st₀ left st →
      (step st₀.here left).Gives st fun r st' =>
        Round (I st₀) st r st' ∧ ChainRound s g cost steps left st r st') :
    Replays s w g cost (chainOf operand step) fun fuel =>
      chainOf (production fuel) (steps fuel) := by
  intro st hs
  refine .pos (((hfirst st hs).and (hoperand st hs)).bind fun first st₁ h => ?_)
  obtain ⟨hinit, h₁, hrepeats⟩ := h
  cases first with
  | none => exact ⟨h₁, fun hquiet => nomatch hrepeats hquiet⟩
  | some first =>
    -- A chain that was read so far was read by rounds, and in the end by the whole production.
    refine (Gives.repeatUntil (s := s) (w := w)
      (I := fun n st' => I st n st' ∧ (st'.Quiet → n.IsEvaluable → ∃ ts,
        Rounds s (g.within st.context) cost st.depth production steps st.lexer st'.lexer n ts))
      (J := fun n st' => st'.Quiet → n.IsEvaluable → ∃ ts,
        Replay s (g.within st.context) cost st.depth
          (fun fuel => chainOf (production fuel) (steps fuel)) st.lexer st'.lexer n ts)
      (fun _ _ h => (hfills h.1).reads.sound) ⟨hinit first rfl, ?_⟩ fun left st₂ h₂ => ?_).bind
      fun n st' h => .pure ⟨(hfills h.1.1).reads.forget, fun hquiet => ⟨n, rfl, h.2 hquiet⟩⟩
    · intro hquiet hevaluable
      obtain ⟨_, ⟨⟩, hreplay⟩ := hrepeats hquiet
      obtain ⟨ts, hreplay⟩ := hreplay hevaluable
      exact ⟨ts, Replay.rounds hreplay hlevel⟩
    · obtain ⟨hkept, hrounds⟩ := h₂
      have hfills₂ := hfills hkept
      refine (hstep hkept).mono fun r st₃ h₃ => ?_
      obtain ⟨hround, hchain⟩ := h₃
      have hdepth : st₂.depth = st.depth := hfills₂.reads.depth
      have hcontext : st₂.context = st.context := hfills₂.reads.context
      cases hchain with
      | longer htells hleft h =>
        refine ⟨⟨⟨hround.keeps, fun hquiet hevaluable => ?_⟩, hround.lt⟩, nofun⟩
        obtain ⟨ts, hrounds⟩ := hrounds (htells.quiet hquiet) (hleft hevaluable)
        obtain ⟨us, hextends⟩ := h hquiet hevaluable
        rw [hdepth, hcontext] at hextends
        exact ⟨_, hrounds.longer hextends⟩
      | foreign hforeign =>
        exact ⟨⟨⟨hround.keeps, fun _ hevaluable => absurd hevaluable hforeign⟩,
          hround.lt⟩, nofun⟩
      | stop htells h =>
        rw [hcontext] at h
        refine ⟨⟨⟨hround.keeps, fun hquiet hevaluable => ?_⟩, hround.lt⟩, ?_⟩
        · obtain ⟨ts, hrounds⟩ := hrounds (htells.quiet hquiet) hevaluable
          exact ⟨ts, hrounds.of_agrees h.agrees⟩
        · rintro _ ⟨⟩ hquiet hevaluable
          obtain ⟨ts, hrounds⟩ := hrounds (htells.quiet hquiet) hevaluable
          exact ⟨ts, hrounds.stop h⟩

end

end Parser
end InlineValues
