import InlineValues.Proofs.Grammar.Arrow
import InlineValues.Proofs.Token.Reading

/-!
# What is seen ahead

Two questions about an expression are answered by reading ahead, as tokens are scanned: whether
parentheses are the parameters of an arrow function, and whether a `<` opens type arguments.

Where no arrow, no brace and no template follows, there are no parameters (`gives_opensArrow`).
Whether there are type arguments is a function of the kinds of the tokens that follow
(`AngleBalance.closes`, `gives_opensTypeArguments`), and where a text that is made of lexemes has
type arguments, so has every text from which these lexemes were read (`Lexer.Path.exists_scans`).
-/

namespace InlineValues

/-! ## Coming back -/

namespace ParserState

/-- The parser has come back to the token of an earlier state. -/
structure Returns (st st' : ParserState) : Prop extends st.Frame st' where
  agrees : st'.lexer.Agrees st.lexer
  current : st'.current = st.current
  quiet : st.Quiet → st'.Quiet

lemma Returns.refl (st : ParserState) : st.Returns st := ⟨.refl st, .refl _, rfl, id⟩

end ParserState

namespace Parser

open ParserState

variable {α β : Type} {st : ParserState}

/-- What was reported ahead is forgotten. -/
lemma gives_lookAhead_returns {p : Parser α} [hp : p.Frames] {Q : α → ParserState → Prop}
    (h : p.Gives st Q) :
    (lookAhead p).Gives st fun a st' => st.Returns st' ∧ ∃ st₁, Q a st₁ ∧
      st'.stalled = st₁.stalled := by
  have hframe : st.Frame ((lookAhead p).run st).2 := Frames.frame st
  refine ⟨⟨hframe, ⟨rfl, rfl⟩, rfl, fun hquiet => ⟨?_, ?_⟩⟩, _, h, rfl⟩
  · change (p.run st).2.diagnostics.shrink st.diagnostics.size = #[]
    simp [hquiet.diagnostics]
  · change (p.run st).2.lexer.diagnostics.shrink st.lexer.diagnostics.size = #[]
    simp [hquiet.lexer]

/-- What the token behind this one is. -/
lemma gives_nextIs_returns (test : TokenKind → Bool) (st : ParserState) :
    (nextIs test).Gives st fun b st' => b = test st.advanced.kind ∧ st.Returns st' := by
  have hnext : Gives (do
      advance
      return test (← kind)) st fun b _ => b = test st.advanced.kind := .advance (.kind (.pure rfl))
  exact (gives_lookAhead_returns hnext).mono fun b st' h =>
    ⟨h.2.elim fun _ h => h.1, h.1⟩

end Parser

/-! ## Arrow functions -/

/-- Tokens that are no arrow, no brace and no part of a template. -/
def TokenKind.isCalm (k : TokenKind) : Bool :=
  k != equalsGreaterThan && k != openBrace && k != closeBrace && k != templateHead

/-- From the current token to the end of the file stand only calm tokens. -/
def Lexer.Calm (l : Lexer) : Prop :=
  ∃ ks, l.Scans ks ∧ ks.getLast? = some .endOfFile ∧ ∀ k ∈ ks, k.isCalm = true

namespace Lexer.Calm

variable {l : Lexer}

lemma kind (h : l.Calm) : l.token.kind.isCalm = true := by
  obtain ⟨ks, hscans, hlast, hcalm⟩ := h
  cases ks with
  | nil => cases hlast
  | cons k ks =>
    rw [hscans.1]
    exact hcalm k List.mem_cons_self

lemma scan (h : l.Calm) (hkind : l.token.kind ≠ .endOfFile) : l.scan.Calm := by
  obtain ⟨ks, hscans, hlast, hcalm⟩ := h
  cases ks with
  | nil => cases hlast
  | cons k ks =>
    refine ⟨ks, scans_scan hscans.2, ?_, fun k hk => hcalm k (List.mem_cons_of_mem _ hk)⟩
    cases ks with
    | nil =>
      cases hlast
      exact absurd hscans.1 hkind
    | cons k' ks => rwa [List.getLast?_cons_cons] at hlast

end Lexer.Calm

/-- The parser knows its token, and from there to the end of the file stand only calm tokens. -/
structure ParserState.Calm (st : ParserState) : Prop where
  current : st.current = st.lexer.token.kind
  lexer : st.lexer.Calm

namespace ParserState.Calm

variable {st : ParserState}

lemma kind (h : st.Calm) : st.kind.isCalm = true := by
  rw [ParserState.kind, h.current]
  exact h.lexer.kind

lemma advanced (h : st.Calm) (hkind : st.kind ≠ .endOfFile) : st.advanced.Calm :=
  ⟨rfl, h.lexer.scan (h.current ▸ hkind)⟩

lemma stalled (h : st.Calm) : Calm { st with stalled := true } := ⟨h.current, h.lexer⟩

end ParserState.Calm

/-- The parser knows its token, and from there on tokens of these kinds are scanned. -/
structure ParserState.Scans (st : ParserState) (ks : List TokenKind) : Prop where
  current : st.current = st.lexer.token.kind
  lexer : st.lexer.Scans ks

namespace ParserState.Scans

variable {st : ParserState} {k : TokenKind} {ks : List TokenKind}

lemma kind (h : st.Scans (k :: ks)) : st.kind = k := h.current.trans h.lexer.1

lemma advanced (h : st.Scans (k :: ks)) : st.advanced.Scans ks :=
  ⟨rfl, Lexer.scans_scan h.lexer.2⟩

end ParserState.Scans

namespace Parser

open ParserState

variable {α β : Type} {st : ParserState}

/-- What every round of a loop keeps, whether it moves on or not, is kept by the loop. -/
lemma gives_iterate_keeping {I : β → ParserState → Prop} {step : β → Parser (ForInStep β)}
    (hstall : ∀ b st, I b st → I b { st with stalled := true })
    (hround : ∀ b st, I b st → (step b).Gives st fun r st' => I r.value st') (fuel : Nat) (b : β)
    (h : I b st) : (iterate step fuel b).Gives st I := by
  induction fuel generalizing b st with
  | zero => exact hstall b st h
  | succ fuel ih =>
    refine .pos ((hround b st h).bind fun r st₁ h₁ => ?_)
    cases r with
    | done b => exact h₁
    | yield b =>
      exact .pos (.when_bind (fun _ => hstall b st₁ h₁) (fun _ => h₁) fun _ h₂ => ih b h₂)

/-- Where there are no braces, a token is just consumed. -/
lemma gives_skipToken_calm (braces : List Bool) (h : st.Calm) (hkind : st.kind ≠ .endOfFile) :
    (skipToken braces).Gives st fun _ st' => st'.Calm := by
  have hadvance (braces : List Bool) : Gives (do
      advance
      return braces) st fun _ st' => st'.Calm := h.advanced hkind
  have hcalm : st.kind.isCalm = true := h.kind
  refine .kind ?_
  split
  case h_3 hk =>
    rw [hk] at hcalm
    cases hcalm
  all_goals exact hadvance _

lemma gives_skipBalanced_calm {opening closing : TokenKind} (h : st.Calm) :
    (skipBalanced opening closing).Gives st fun _ st' => st'.Calm := by
  refine Gives.bind (.get (gives_iterate_keeping (I := fun _ st' => st'.Calm)
    (fun _ _ h => h.stalled) (fun b st h => ?_) _ _ h)) fun _ _ h => .pure h
  refine .kind ?_
  split
  · exact h
  case isFalse hend =>
    have hkind : st.kind ≠ .endOfFile := fun heq => hend (by simp [heq])
    split
    · exact h.advanced hkind
    · exact (gives_skipToken_calm _ h hkind).bind fun _ _ h => h

/-- Without an arrow none is found. -/
lemma gives_skipReturnType_calm (h : st.Calm) :
    skipReturnType.Gives st fun b _ => b = false := by
  refine Gives.bind (.get (gives_iterate_keeping
    (I := fun b st' => st'.Calm ∧ Balance.found b.1 = false)
    (fun _ _ h => ⟨h.1.stalled, h.2⟩) (fun b st h => ?_) _ _ ⟨h, rfl⟩)) fun _ _ h => .pure h.2
  obtain ⟨h, hfound⟩ := h
  refine .kind ?_
  split
  · exact ⟨h, hfound⟩
  case isFalse hend =>
    have hkind : st.kind ≠ .endOfFile := fun heq => hend (by simp [heq])
    split
    case isTrue harrow =>
      have hcalm : st.kind.isCalm = true := h.kind
      rw [(eq_of_beq (Bool.and_eq_true_iff.mp harrow).1 : st.kind = .equalsGreaterThan)] at hcalm
      cases hcalm
    split
    · exact ⟨h, hfound⟩
    · exact (gives_skipToken_calm _ h hkind).bind fun _ _ h => ⟨h, hfound⟩

/-- Where no arrow follows, parentheses are not the parameters of an arrow function. -/
lemma gives_reachesArrow_calm (typed : Bool) (h : st.Calm) (hkind : st.kind = .openParen) :
    (reachesArrow typed).Gives st fun b _ => b = false := by
  refine .optional_ne (by simp [hkind]) (.at?_ne (by simp [hkind]) (.at?_eq hkind ?_))
  refine (gives_skipBalanced_calm h).bind fun closed st₁ h₁ => .ite rfl (.kind ?_)
  split
  case h_1 hk =>
    have hcalm : st₁.kind.isCalm = true := h₁.kind
    rw [hk] at hcalm
    cases hcalm
  case h_2 hk =>
    have hne : st₁.kind ≠ .endOfFile := by rw [hk]; simp
    exact .ite rfl (.advance (gives_skipReturnType_calm (h₁.advanced hne)))
  case h_3 => rfl

lemma gives_opensArrow_calm (h : st.Calm) (hkind : st.kind = .openParen) :
    opensArrow.Gives st fun b st' => b = false ∧ st.Returns st' := by
  refine .get ((gives_lookAhead_returns (gives_reachesArrow_calm _ h hkind)).mono fun b st' h => ?_)
  obtain ⟨hreturns, _, hb, -⟩ := h
  exact ⟨hb, hreturns⟩

/-! ## Type arguments -/

namespace AngleBalance

/-- The depths behind a token that does not close the type arguments, if it can stand there. -/
def next (b : AngleBalance) (k : TokenKind) : Option AngleBalance :=
  match k with
  | .lessThan => some { b with angles := b.angles + 1 }
  | .greaterThan => some { b with angles := b.angles - 1 }
  | .openParen | .openBracket | .openBrace => some { b with brackets := b.brackets + 1 }
  | .closeParen | .closeBracket | .closeBrace =>
    if b.brackets == 0 then none else some { b with brackets := b.brackets - 1 }
  | .semicolon => if b.brackets == 0 then none else some b
  | k => if isTypeArgumentToken k then some b else none

/-- Whether tokens of these kinds close the type arguments, with a call or a template behind. -/
def closes (b : AngleBalance) : List TokenKind → Bool
  | [] => false
  | k :: ks =>
    if k == .greaterThan && b.angles ≤ 1 then ks.head?.any followsTypeArguments
    else
      match b.next k with
      | none => false
      | some b => b.closes ks

lemma found_next {b b' : AngleBalance} {k : TokenKind} (h : b.next k = some b') :
    b'.found = b.found := by
  unfold next at h
  split at h
  all_goals first
    | (cases h; rfl)
    | (split at h
       · first | (cases h; rfl) | cases h
       · first | (cases h; rfl) | cases h)

end AngleBalance

/-- What is known of a round: the type arguments close here, they cannot go on, or they go on. -/
inductive AngleRound (st : ParserState) (b : AngleBalance) :
    ForInStep AngleBalance → ParserState → Prop
  | close (hkind : st.kind = .greaterThan) (hangles : b.angles ≤ 1) :
      AngleRound st b (.done { b with found := followsTypeArguments st.advanced.kind }) st.advanced
  | stop (hgo : ¬(st.kind = .greaterThan ∧ b.angles ≤ 1)) (hnext : b.next st.kind = none) :
      AngleRound st b (.done b) st
  | go {b' : AngleBalance} (hgo : ¬(st.kind = .greaterThan ∧ b.angles ≤ 1))
      (hnext : b.next st.kind = some b') : AngleRound st b (.yield b') st.advanced

lemma gives_typeArgumentStep (b : AngleBalance) :
    (typeArgumentStep b).Gives st (AngleRound st b) := by
  refine .kind ?_
  split
  case isTrue hclose =>
    simp only [Bool.and_eq_true, beq_iff_eq, decide_eq_true_eq] at hclose
    exact .advance (.kind (.close hclose.1 hclose.2))
  case isFalse hgo =>
    simp only [Bool.and_eq_true, beq_iff_eq, decide_eq_true_eq] at hgo
    change Gives (match b.next st.kind with
      | none => return ForInStep.done b
      | some b => do
        advance
        return ForInStep.yield b) st _
    split
    case h_1 hnext => exact .stop hgo hnext
    case h_2 b' hnext => exact .advance (.go hgo hnext)

/-- The loop finds what `AngleBalance.closes` says, unless the bound on its rounds is reached. -/
lemma gives_typeArgumentLoop (fuel : Nat) (b : AngleBalance) (ks : List TokenKind)
    (hfound : b.found = false) (hscans : st.Scans ks) :
    (iterate typeArgumentStep fuel b).Gives st fun b' st' =>
      (ks.getLast? = some .endOfFile → b'.found = true → b.closes ks = true) ∧
        (st'.stalled = false → b.closes ks = true → b'.found = true) := by
  induction fuel generalizing b st ks with
  | zero => exact .modify_bind (.pure ⟨fun _ h => absurd h (by simp [hfound]), nofun⟩)
  | succ fuel ih =>
    cases ks with
    | nil => exact ⟨nofun, fun _ => nofun⟩
    | cons k ks =>
      have hkind : st.kind = k := hscans.kind
      have hrest : st.advanced.Scans ks := hscans.advanced
      refine .pos ((gives_typeArgumentStep b).bind fun r st₁ h₁ => ?_)
      cases h₁ with
      | close hgreater hangles =>
        rw [AngleBalance.closes, if_pos (by simp [← hkind, hgreater, hangles])]
        cases ks with
        | nil =>
          refine .pure ⟨fun hlast => ?_, fun _ => nofun⟩
          cases hlast
          cases hkind.symm.trans hgreater
        | cons k' ks =>
          rw [List.head?_cons, Option.any_some, ← hrest.kind]
          exact .pure ⟨fun _ => id, fun _ => id⟩
      | stop hgo hnext =>
        rw [AngleBalance.closes, if_neg (by simpa [← hkind] using hgo), ← hkind, hnext]
        exact .pure ⟨fun _ h => absurd h (by simp [hfound]), fun _ => nofun⟩
      | @go b' hgo hnext =>
        rw [AngleBalance.closes, if_neg (by simpa [← hkind] using hgo), ← hkind, hnext]
        have hlast : (st.kind :: ks).getLast? = some .endOfFile →
            ks.getLast? = some .endOfFile := by
          cases ks with
          | nil =>
            intro hlast
            have hend : st.kind = .endOfFile := Option.some.inj hlast
            rw [hend] at hnext
            cases hnext
          | cons k' ks => rw [List.getLast?_cons_cons]; exact id
        have hround (st' : ParserState) (hst' : st'.Scans ks) :
            (iterate typeArgumentStep fuel b').Gives st' fun b'' st'' =>
              ((st.kind :: ks).getLast? = some .endOfFile → b''.found = true →
                b'.closes ks = true) ∧
                (st''.stalled = false → b'.closes ks = true → b''.found = true) :=
          (ih b' ks ((AngleBalance.found_next hnext).trans hfound) hst').mono fun _ _ h =>
            ⟨fun h' => h.1 (hlast h'), h.2⟩
        exact .pos (.when_bind (P := fun st' => st'.Scans ks)
          (fun _ => ⟨hrest.current, hrest.lexer⟩) (fun _ => hrest) hround)

/-- Whether type arguments open here is read off the tokens that follow. -/
theorem gives_opensTypeArguments {ks : List TokenKind} (hscans : st.Scans ks) :
    opensTypeArguments.Gives st fun b st' => st.Returns st' ∧
      (ks.getLast? = some .endOfFile → b = true → AngleBalance.closes {} ks = true) ∧
        (st'.stalled = false → AngleBalance.closes {} ks = true → b = true) := by
  have hloop : Gives (do return (← repeatFrom ({} : AngleBalance) typeArgumentStep).found) st
      fun b st' => (ks.getLast? = some .endOfFile → b = true → AngleBalance.closes {} ks = true) ∧
        (st'.stalled = false → AngleBalance.closes {} ks = true → b = true) :=
    Gives.bind (.get (gives_typeArgumentLoop _ {} ks rfl hscans)) fun _ _ h => .pure h
  refine (gives_lookAhead_returns hloop).mono fun b st' h => ?_
  obtain ⟨hreturns, st₁, ⟨hfound, hcloses⟩, hstalled⟩ := h
  exact ⟨hreturns, hfound, fun h => hcloses (hstalled ▸ h)⟩

/-! ## Type arguments in a text that is made of lexemes -/

namespace AngleBalance

variable {b : AngleBalance} {ks ks' : List TokenKind}

/-- Tokens `ks` on the way to closing: they close themselves, the next token does, or it goes on. -/
lemma closes_append (h : b.closes (ks ++ ks') = true) :
    (∀ more, b.closes (ks ++ more) = true) ∨
      (ks'.head?.any followsTypeArguments = true ∧
        ∀ more : List TokenKind, more.head?.any followsTypeArguments = true →
          b.closes (ks ++ more) = true) ∨
      ∃ b' : AngleBalance, b'.closes ks' = true ∧
        ∀ more, b'.closes more = true → b.closes (ks ++ more) = true := by
  induction ks generalizing b with
  | nil => exact .inr (.inr ⟨b, h, fun _ => id⟩)
  | cons k ks ih =>
    rw [List.cons_append, closes] at h
    simp only [List.cons_append, closes]
    split at h
    case isTrue hclose =>
      simp only [hclose, if_true]
      cases ks with
      | nil => exact .inr (.inl ⟨h, fun _ => id⟩)
      | cons k' ks => exact .inl fun _ => h
    case isFalse hgo =>
      simp only [hgo]
      cases hnext : b.next k with
      | none =>
        rw [hnext] at h
        cases h
      | some b' =>
        rw [hnext] at h
        exact ih h

/-- No type arguments go on behind the end of an expression. -/
lemma closes_closing {tail : List TokenKind} (htail : tail ∈ closings) (b : AngleBalance) :
    b.closes tail = false := by
  have hend (b : AngleBalance) : b.closes [.endOfFile] = false := rfl
  simp only [closings, List.mem_cons, List.not_mem_nil, or_false] at htail
  rcases htail with rfl | rfl
  · rfl
  · rw [closes, if_neg (by simp)]
    cases b.next .semicolon with
    | none => rfl
    | some b' => rfl

/-- Nor do they go on behind the parentheses in front of that end. -/
lemma closes_ending (h : IsEnding ks) (b : AngleBalance) : b.closes ks = false := by
  obtain ⟨parens, tail, htail, rfl⟩ := h
  induction parens generalizing b with
  | zero => exact closes_closing htail b
  | succ parens ih =>
    rw [List.replicate_succ, List.cons_append, closes, if_neg (by simp)]
    cases b.next .closeParen with
    | none => rfl
    | some b' => exact ih b'

/-- An operator that ends with `=` does not occur in types. -/
lemma closes_equals (more : List TokenKind) (b : AngleBalance) :
    b.closes (.greaterThan :: .equals :: more) = false := by
  rw [closes]
  split
  · rfl
  · rfl

lemma closes_greaterThan (hks : ∀ b : AngleBalance, b.closes (.greaterThan :: ks) = false)
    (b : AngleBalance) : b.closes (.greaterThan :: .greaterThan :: ks) = false := by
  rw [closes]
  split
  · rfl
  · exact hks _

end AngleBalance

end Parser

/-- The kinds of lexemes that do not occur in types. -/
def endsWithEquals : List TokenKind :=
  [.greaterThanEquals, .greaterThanGreaterThanEquals, .greaterThanGreaterThanGreaterThanEquals]

lemma closes_endsWithEquals {k : TokenKind} (hk : k ∈ endsWithEquals) (b : Parser.AngleBalance)
    (more : List TokenKind) : b.closes (k.parts ++ more) = false := by
  have hone (b) := Parser.AngleBalance.closes_equals more b
  have htwo (b) := Parser.AngleBalance.closes_greaterThan hone b
  simp only [endsWithEquals, List.mem_cons, List.not_mem_nil, or_false] at hk
  rcases hk with rfl | rfl | rfl
  · exact hone b
  · exact htwo b
  · exact Parser.AngleBalance.closes_greaterThan htwo b

/-- What a `>` is extended to, other than with `=`, is scanned as its parts. -/
lemma Cursor.scans_greaterOperator {rest : List Char} {pos : Nat} {ks : List TokenKind} :
    (Lexer.greaterOperator rest).1 ∉ endsWithEquals →
    (Cursor.skip ⟨rest, pos⟩ (Lexer.greaterOperator rest).2).Scans ks →
    ∃ ks', (Lexer.greaterOperator rest).1.parts ++ ks = .greaterThan :: ks' ∧
      Cursor.Scans ⟨rest, pos⟩ ks' := by
  unfold Lexer.greaterOperator
  split
  case h_1 | h_3 | h_5 => exact fun hk => absurd (by decide) hk
  case h_2 => exact fun _ h => ⟨_, rfl, scans_greaterThan.mpr (scans_greaterThan.mpr h)⟩
  case h_4 => exact fun _ h => ⟨_, rfl, scans_greaterThan.mpr h⟩
  case h_6 => exact fun _ h => ⟨_, rfl, h⟩

/-- At the end of an expression no type arguments are followed by what they would be for. -/
lemma IsEnding.followsTypeArguments_head? {ks : List TokenKind} (h : IsEnding ks) :
    ks.head?.any Parser.followsTypeArguments = false := by
  obtain ⟨parens, tail, htail, rfl⟩ := h
  cases parens with
  | zero =>
    have hends : ∀ tail ∈ closings, tail.head?.any Parser.followsTypeArguments = false := by decide
    exact hends tail htail
  | succ parens => rfl

namespace Lexer

lemma scans_rescanGreater {l : Lexer} {ks : List TokenKind} (hkind : l.token.kind = .greaterThan)
    (hk : l.rescanGreater.token.kind ∉ endsWithEquals) (h : l.rescanGreater.cursor.Scans ks) :
    l.Scans (l.rescanGreater.token.kind.parts ++ ks) := by
  have hsame : l.rescanGreater = { l with
      token := { l.token with kind := (greaterOperator l.cursor.rest).1 }
      cursor := l.cursor.skip (greaterOperator l.cursor.rest).2 } := by
    rw [rescanGreater, if_pos (by simp [hkind])]
  rw [hsame] at h hk ⊢
  obtain ⟨ks', hparts, hscans⟩ := Cursor.scans_greaterOperator hk h
  simp only at hparts ⊢
  rw [hparts]
  exact ⟨hkind, hscans⟩

/-- Where the token is not extended, it is scanned as the parts of what it is extended to. -/
lemma scans_first {l : Lexer} {ks : List TokenKind}
    (hraw : l.token.kind ∈ TokenKind.greaterKinds → l.token.kind = .greaterThan)
    (hk : l.rescanGreater.token.kind ∉ endsWithEquals) (h : l.rescanGreater.cursor.Scans ks) :
    l.Scans (l.rescanGreater.token.kind.parts ++ ks) := by
  by_cases hkind : l.token.kind = .greaterThan
  · exact scans_rescanGreater hkind hk h
  · rw [rescanGreater_eq_self hkind] at h ⊢
    rw [TokenKind.parts_eq_singleton fun hmem => hkind (hraw hmem)]
    exact ⟨rfl, h⟩

lemma raw_scan (l : Lexer) :
    l.scan.token.kind ∈ TokenKind.greaterKinds → l.scan.token.kind = .greaterThan := by
  rw [token_scan]
  exact (Scanned.raw_token _).greater

lemma cursor_scans {l : Lexer} {ks : List TokenKind} (h : l.scan.Scans ks) :
    l.cursor.Scans ks := by
  cases ks with
  | nil => trivial
  | cons k ks =>
    obtain ⟨hkind, hrest⟩ := h
    rw [token_scan] at hkind
    rw [cursor_scan] at hrest
    exact ⟨hkind, hrest⟩

/-- Where lexemes spell type arguments, the tokens that they were read from do. -/
theorem Path.exists_scans {l l' : Lexer} {ts : List Lexeme} {tail : List TokenKind}
    (hpath : l.Path ts l')
    (hraw : l.token.kind ∈ TokenKind.greaterKinds → l.token.kind = .greaterThan)
    (htail : IsEnding tail) {b : Parser.AngleBalance}
    (h : b.closes (rawKinds ts ++ tail) = true) :
    ∃ ks, l.Scans ks ∧ b.closes ks = true := by
  induction ts generalizing l b with
  | nil =>
    rw [rawKinds_nil, List.nil_append, Parser.AngleBalance.closes_ending htail] at h
    cases h
  | cons t ts ih =>
    obtain ⟨hkind, hrest⟩ := hpath
    rw [rawKinds_cons, List.append_assoc] at h
    have hequals : t.kind ∉ endsWithEquals := fun hmem => by
      rw [closes_endsWithEquals hmem] at h
      cases h
    rw [← hkind] at h hequals
    rcases Parser.AngleBalance.closes_append h with hclosed | ⟨hnext, hclosed⟩ | ⟨b', hgo, hclosed⟩
    · have hnil : l.rescanGreater.cursor.Scans [] := trivial
      exact ⟨_, scans_first hraw hequals hnil, hclosed []⟩
    · -- The token behind is one of those that follow type arguments.
      obtain ⟨k, hk, hscans⟩ : ∃ k, Parser.followsTypeArguments k = true ∧
          l.rescanGreater.scan.Scans [k] := by
        cases ts with
        | nil =>
          rw [rawKinds_nil, List.nil_append, htail.followsTypeArguments_head?] at hnext
          cases hnext
        | cons u us =>
          refine ⟨l.rescanGreater.scan.token.kind, ?_, rfl, trivial⟩
          by_cases hu : u.kind ∈ TokenKind.greaterKinds
          · rw [rawKinds_cons] at hnext
            simp only [TokenKind.greaterKinds, List.mem_cons, List.not_mem_nil, or_false] at hu
            rcases hu with hu | hu | hu | hu | hu | hu <;> rw [hu] at hnext <;> cases hnext
          · rw [rawKinds_cons, TokenKind.parts_eq_singleton hu] at hnext
            have hplain := eq_of_rescanGreater (l := l.rescanGreater.scan) (by rwa [hrest.1])
            rw [← hplain, hrest.1]
            exact hnext
      exact ⟨_, scans_first hraw hequals (cursor_scans hscans), hclosed _ (by simpa using hk)⟩
    · obtain ⟨ks, hscans, hks⟩ := ih hrest (raw_scan _) hgo
      exact ⟨_, scans_first hraw hequals (cursor_scans hscans), hclosed ks hks⟩

end Lexer

end InlineValues
