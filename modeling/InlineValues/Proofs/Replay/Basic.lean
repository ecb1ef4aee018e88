import InlineValues.Grammar.SourceFile
import InlineValues.Proofs.Grammar.Precedence
import InlineValues.Proofs.Grammar.Results
import InlineValues.Proofs.Printer.Operation

/-!
# Reading an expression again

An evaluable expression is made of lexemes (`Node.MadeOf`), and what is printed for it is made of
the same ones.  `Rereads` says that a production reads the expression from any text that is made of
these lexemes, whatever may follow it there, and `Replay` that it has read it from its own text.
The two runs do not stand at the same offsets or at the same depth, and their lexers agree only on
the lexemes.  What the second run needs to know of its own place is `Follows`.

What may follow an expression depends on the production (`Stage`): behind the operand of an operator
another operator may stand, behind a whole expression may not.  This is how the levels of
`Node.MadeOf` and the levels of the grammar are kept in step.  In the second text a parenthesis may
close behind the expression that stood elsewhere in the first one (`Lexer.Leads`).

`Replays` is the property of a production that is proved in the modules below this one: if nothing
was reported, it gave a node, and a node that is an evaluable expression is read again.
-/

namespace InlineValues

/-! ## Runs that report nothing -/

namespace ParserState

variable {s : Source} {w : Nat} {st st' : ParserState}

lemma SamePlace.agrees (h : SamePlace s st st') : st'.lexer.Agrees st.lexer :=
  ⟨h.token, h.cursor⟩

end ParserState

namespace Parser

open ParserState

variable {α β : Type} {s : Source} {w : Nat} {st : ParserState}

/-- A fault is reported, unless one was reported at the same place. -/
lemma gives_report_loud (fault : Fault) (hs : st.Sound s w) :
    (report fault).Gives st fun _ st' => ¬ st'.Quiet := by
  change ¬ Quiet (if st.lastFault == some st.lexer.token.start then st else _)
  split
  case isTrue hfault =>
    intro hquiet
    have htold := hs.told.noted (by simp [eq_of_beq hfault])
    rw [hquiet.diagnostics] at htold
    exact absurd htold (by simp)
  case isFalse =>
    intro hquiet
    exact Array.push_ne_empty hquiet.diagnostics

/-- Where nothing is reported, the token that has to be there is there. -/
lemma gives_expect_quiet (k : TokenKind) (hs : st.Sound s w) :
    (expect k).Gives st fun _ st' => st'.Quiet → st.kind = k ∧ st' = st.advanced := by
  by_cases hkind : st.kind = k
  · exact .optional_eq hkind fun _ => ⟨hkind, rfl⟩
  · exact .optional_ne hkind ((gives_report_loud _ hs).mono fun _ _ hloud hquiet =>
      absurd hquiet hloud)

/-- At the deepest level nothing is read, and that is reported. -/
lemma gives_nested_quiet {p : Parser (Option Node)} {Q : Option Node → ParserState → Prop}
    (hs : st.Sound s w) (hloud : ∀ st', st.SamePlace s st' → ¬ st'.Quiet → Q none st')
    (h : st.depth < maxParserDepth → p.Gives { st with depth := st.depth + 1 } fun o st' =>
      Q o { st' with depth := st'.depth - 1 }) :
    (nested p).Gives st Q := by
  refine gives_nested hs (fun st' hsame hrefused => hloud st' hsame fun hquiet => ?_) h
  have hsize := (hsame.told hs.told).refusal hrefused
  rw [hquiet.diagnostics] at hsize
  exact absurd hsize (by simp)

end Parser

/-! ## Loops of a second run -/

namespace Parser

variable {β : Type} {step : β → Parser (ForInStep β)} {b : β} {st : ParserState}

/-- A loop that ends with its first round. -/
lemma gives_iterate_done {Q : β → ParserState → Prop}
    (h : (step b).Gives st fun r st' => ∃ b', r = .done b' ∧ Q b' st') {fuel : Nat}
    (hfuel : 0 < fuel) : (iterate step fuel b).Gives st Q := by
  obtain ⟨fuel, rfl⟩ : ∃ k, fuel = k + 1 := ⟨fuel - 1, by omega⟩
  refine .pos (h.bind fun r st' hr => ?_)
  obtain ⟨b', rfl, hQ⟩ := hr
  exact .pure hQ

/-- A loop that goes on behind its first round. -/
lemma gives_iterate_yield {P Q : β → ParserState → Prop}
    (h : (step b).Gives st fun r st' => ∃ b', r = .yield b' ∧ P b' st')
    (hstall : ∀ b st, P b st → P b { st with stalled := true }) {fuel : Nat}
    (hrest : ∀ b st, P b st → (iterate step fuel b).Gives st Q) :
    (iterate step (fuel + 1) b).Gives st Q := by
  refine .pos (h.bind fun r st' hr => ?_)
  obtain ⟨b', rfl, hP⟩ := hr
  exact .pos (.when_bind (fun _ => hstall b' st' hP) (fun _ => hP) fun st'' => hrest b' st'')

end Parser

/-! ## Lexemes on the way -/

namespace Lexer

variable {l l' l'' : Lexer} {t : Lexeme} {ts rest : List Lexeme} {ends ends' : TokenKind → Bool}

/-- One token, which is no operator that might be longer. -/
lemma Path.single_of_eq (hself : l.rescanGreater = l) (hkind : l.token.kind = t.kind) :
    l.Path [t] l.scan := by
  refine ⟨by rw [hself, hkind], ?_⟩
  rw [hself]
  exact .refl _

/-- One token that does not begin with `>`. -/
lemma Path.single (hkind : l.token.kind = t.kind) (hgreater : t.kind ∉ TokenKind.greaterKinds) :
    l.Path [t] l.scan := by
  refine .single_of_eq (rescanGreater_eq_self fun h => hgreater ?_) hkind
  rw [← hkind, h]
  decide

lemma rescanGreater_rescanGreater (l : Lexer) :
    l.rescanGreater.rescanGreater = l.rescanGreater := by
  have hagrees := rescanGreater_idem l
  have hsource := source_rescanGreater l.rescanGreater
  have hdiagnostics := diagnostics_rescanGreater l.rescanGreater
  cases h : l.rescanGreater.rescanGreater
  cases h' : l.rescanGreater
  simp only [h'] at h hagrees hsource hdiagnostics
  obtain ⟨htoken, hcursor⟩ := hagrees
  simp_all

lemma Spelled.of_agrees (h : l.Spelled ts) (hagrees : l'.Agrees l)
    (hsource : l'.source = l.source) : l'.Spelled ts := by
  obtain ⟨l₀, hsource₀, hon, hspells, hl⟩ := h
  refine ⟨l₀, by rw [hsource₀, hsource], by rwa [hsource], hspells, ?_⟩
  exact hl.imp hagrees.trans hagrees.trans

/-- From `l` the lexemes `rest` are read, perhaps all but the parentheses at the end. -/
def Leads (l : Lexer) (rest : List Lexeme) : Prop :=
  ∃ ts parens l', rest = ts ++ List.replicate parens (.ofKind .closeParen) ∧ l.Path ts l'

namespace Leads

lemma of_agrees (h : l'.Leads rest) (hagrees : l.rescanGreater.Agrees l'.rescanGreater) :
    l.Leads rest := by
  obtain ⟨ts, parens, l'', hrest, hpath⟩ := h
  exact ⟨ts, parens, l'', hrest, hpath.of_agrees hagrees⟩

lemma append (h : l'.Leads rest) (hpath : l.Path ts l') : l.Leads (ts ++ rest) := by
  obtain ⟨us, parens, l'', rfl, hrest⟩ := h
  exact ⟨ts ++ us, parens, l'', (List.append_assoc ..).symm, hpath.trans hrest⟩

/-- Parentheses may close anywhere. -/
lemma parens (l : Lexer) (parens : Nat) :
    l.Leads (List.replicate parens (.ofKind .closeParen)) := ⟨[], parens, l, rfl, .refl l⟩

/-- The first token is the first of the lexemes, unless that is a parenthesis. -/
lemma kind_eq (h : l.Leads (t :: rest)) (ht : t.kind ≠ .closeParen) :
    l.rescanGreater.token.kind = t.kind := by
  obtain ⟨ts, parens, l', hrest, hpath⟩ := h
  cases ts with
  | nil =>
    have hmem : t ∈ List.replicate parens (Lexeme.ofKind .closeParen) := by
      rw [← List.nil_append (List.replicate parens _), ← hrest]
      exact List.mem_cons_self
    rw [List.eq_of_mem_replicate hmem] at ht
    exact absurd rfl ht
  | cons u us =>
    obtain ⟨rfl, -⟩ := List.cons.inj hrest
    exact hpath.1

/-- What is scanned are the lexemes on the way, and then the text ends. -/
lemma exists_ending (h : l.Leads rest) {tail : List TokenKind} (htail : tail ∈ closings) :
    ∃ ts l' ending, l.Path ts l' ∧ IsEnding ending ∧
      rawKinds rest ++ tail = rawKinds ts ++ ending := by
  obtain ⟨ts, parens, l', rfl, hpath⟩ := h
  refine ⟨ts, l', _, hpath, ⟨parens, tail, htail, rfl⟩, ?_⟩
  have hparens : rawKinds (List.replicate parens (.ofKind .closeParen)) =
      List.replicate parens .closeParen := by
    simp [rawKinds, Lexeme.ofKind, TokenKind.parts, List.flatMap_replicate]
  rw [← hparens, rawKinds, rawKinds, rawKinds, List.flatMap_append, List.append_assoc]

end Leads

/-- From `l` the lexemes `rest` are read, and the first of them may stand there. -/
structure Tail (ends : TokenKind → Bool) (l : Lexer) (rest : List Lexeme) : Prop where
  leads : l.Leads rest
  head : ∀ t ∈ rest.head?, ends t.kind = true

namespace Tail

/-- Nothing follows. -/
lemma nil (l : Lexer) : Tail ends l [] := ⟨.parens l 0, nofun⟩

lemma of_agrees (h : Tail ends l' rest) (hagrees : l.rescanGreater.Agrees l'.rescanGreater) :
    Tail ends l rest := ⟨h.leads.of_agrees hagrees, h.head⟩

/-- What follows some lexemes that are read on the way follows behind them. -/
lemma append (h : Tail ends' l' rest) (hpath : l.Path ts l')
    (hhead : ∀ t ∈ (ts ++ rest).head?, ends t.kind = true) : Tail ends l (ts ++ rest) :=
  ⟨h.leads.append hpath, hhead⟩

lemma cons (h : Tail ends' l.scan rest) (hkind : l.token.kind = t.kind)
    (hgreater : t.kind ∉ TokenKind.greaterKinds) (hends : ends t.kind = true) :
    Tail ends l (t :: rest) :=
  h.append (.single hkind hgreater) fun u hu => by
    cases hu
    exact hends

lemma mono (h : Tail ends l rest) (hends : ∀ k, ends k = true → ends' k = true) :
    Tail ends' l rest := ⟨h.leads, fun t ht => hends _ (h.head t ht)⟩

/-- Behind the end of the text only parentheses close. -/
lemma eq_replicate (h : Tail ends l rest) (hend : l.token.kind = .endOfFile)
    (hends : ends .endOfFile = false) :
    ∃ parens, rest = List.replicate parens (.ofKind .closeParen) := by
  obtain ⟨⟨ts, parens, l', rfl, hpath⟩, hhead⟩ := h
  cases ts with
  | nil => exact ⟨parens, rfl⟩
  | cons t ts =>
    obtain ⟨hkind, -⟩ := hpath
    rw [rescanGreater_eq_self (by simp [hend]), hend] at hkind
    have ht := hhead t rfl
    rw [← hkind, hends] at ht
    cases ht

end Tail

end Lexer

/-! ## The second run -/

/-- A level of the grammar: the level of the expressions that are read there, what may follow them,
whether a `>` behind them has been extended, and how many of the guarded productions that such an
expression needs are open already. -/
structure Stage where
  level : Nat
  ends : TokenKind → Bool
  joined : Bool
  opened : Nat

namespace Stage

/-- What signs stand behind or in front of, and accesses and calls behind. -/
def operand : Stage where
  level := 0
  ends k := k.joinsOperand || k == .plusPlus || k == .minusMinus || k == .dot ||
    k == .questionDot || k == .openBracket || k == .openParen
  joined := false
  opened := 2

/-- An operand of an operator between two. -/
def unary : Stage where
  level := 1
  ends := TokenKind.joinsOperand
  joined := false
  opened := 1

/-- A chain of operators. -/
def chain : Stage where
  level := 2
  ends := TokenKind.joinsOperand
  joined := true
  opened := 1

/-- A whole expression, or one between commas. -/
def expression : Stage where
  level := 2
  ends k := k == .comma || k == .colon || k == .closeParen || k == .closeBracket
  joined := false
  opened := 0

/-- Inside of one more guarded production. -/
def deeper (g : Stage) : Stage := { g with opened := g.opened + 1 }

/-- In the head of a loop, an `in` does not follow. -/
def within (g : Stage) (c : Context) : Stage :=
  { g with ends := fun k => !(c.disallowIn && k == .inKeyword) && g.ends k }

variable {g : Stage} {c : Context} {k : TokenKind}

lemma within_eq (h : c.disallowIn = false) : g.within c = g := by
  rw [within, h]
  rfl

lemma ends_within :
    (g.within c).ends k = true ↔ (c.disallowIn = true → k ≠ .inKeyword) ∧ g.ends k = true := by
  cases hin : c.disallowIn <;> simp [within, hin]

/-- Most tokens may follow in the head of a loop as elsewhere. -/
lemma ends_within_of_ne (hne : k ≠ .inKeyword) (h : g.ends k = true) :
    (g.within c).ends k = true := ends_within.mpr ⟨fun _ => hne, h⟩

end Stage

namespace Lexer.Tail

variable {g : Stage} {c : Context} {l : Lexer} {rest : List Lexeme}

lemma of_within (h : Tail (g.within c).ends l rest) : Tail g.ends l rest :=
  h.mono fun _ hends => (Stage.ends_within.mp hends).2

end Lexer.Tail

namespace Parser

open ParserState

/-- The parser stands in front of the lexemes `ts`, as deep as `d` guarded productions, and nothing
was reported so far. -/
structure Follows (d : Nat) (ts : List Lexeme) (st : ParserState) : Prop where
  spelled : st.lexer.Spelled ts
  current : st.current = st.lexer.token.kind
  calm : ∀ t ∈ ts, t.kind.isCalm = true
  quiet : st.Quiet
  plain : st.context.disallowIn = false
  depth : st.depth = d

namespace Follows

variable {d : Nat} {t : Lexeme} {ts rest : List Lexeme} {st st' : ParserState}
  {ends : TokenKind → Bool}

lemma kind_eq (h : Follows d (t :: ts) st) (hgreater : t.kind ∉ TokenKind.greaterKinds) :
    st.kind = t.kind := h.current.trans (h.spelled.first_of_kind hgreater).kind

/-- The token is the lexeme, or a `>` that has not been extended to it yet. -/
lemma kind_or (h : Follows d (t :: ts) st) :
    st.kind = t.kind ∨ st.kind = .greaterThan ∧ t.kind ∈ TokenKind.greaterKinds := by
  by_cases hgreater : t.kind ∈ TokenKind.greaterKinds
  · by_cases hkind : st.kind = .greaterThan
    · exact .inr ⟨hkind, hgreater⟩
    · have hfirst := h.spelled.first.kind
      rw [Lexer.rescanGreater_eq_self (h.current ▸ hkind)] at hfirst
      exact .inl (h.current.trans hfirst)
  · exact .inl (h.kind_eq hgreater)

lemma extended (h : Follows d ts st) : Follows d ts st.extended where
  spelled := h.spelled.rescanGreater
  current := rfl
  calm := h.calm
  quiet :=
    ⟨h.quiet.diagnostics, (Lexer.diagnostics_rescanGreater st.lexer).trans h.quiet.lexer⟩
  plain := h.plain
  depth := h.depth

/-- What only the lexer, the token, the reports, the context and the depth decide. -/
lemma of_same {e : Nat} (h : Follows d ts st) (hlexer : st'.lexer = st.lexer)
    (hcurrent : st'.current = st.current)
    (hdiagnostics : st'.diagnostics = st.diagnostics) (hplain : st'.context.disallowIn = false)
    (hdepth : st'.depth = e) : Follows e ts st' where
  spelled := by rw [hlexer]; exact h.spelled
  current := by rw [hcurrent, hlexer, h.current]
  calm := h.calm
  quiet := ⟨hdiagnostics.trans h.quiet.diagnostics, by rw [hlexer]; exact h.quiet.lexer⟩
  plain := hplain
  depth := hdepth

lemma closed (h : Follows d ts st) (pos : Nat) (form : Form Node) :
    Follows d ts (st.closed pos form) := h.of_same rfl rfl rfl h.plain h.depth

lemma returns (h : Follows d ts st) (hst : st.Returns st') : Follows d ts st' where
  spelled := h.spelled.of_agrees hst.agrees hst.source
  current := by rw [hst.current, hst.agrees.token, h.current]
  calm := h.calm
  quiet := hst.quiet h.quiet
  plain := by rw [hst.context, h.plain]
  depth := hst.depth.trans h.depth

/-- Behind the first lexeme. -/
lemma advanced_of_first (h : Follows d (t :: ts) st)
    (hfirst : Lexer.Spelled.First st.lexer t ts) : Follows d ts st.advanced where
  spelled := hfirst.scan
  current := rfl
  calm u hu := h.calm u (List.mem_cons_of_mem _ hu)
  quiet := ⟨h.quiet.diagnostics, hfirst.diagnostics.trans h.quiet.lexer⟩
  plain := h.plain
  depth := h.depth

lemma advanced (h : Follows d (t :: ts) st) (hgreater : t.kind ∉ TokenKind.greaterKinds) :
    Follows d ts st.advanced := h.advanced_of_first (h.spelled.first_of_kind hgreater)

/-- Behind an expression stands what may follow it, or the text closes. -/
lemma kind_behind (h : Follows d rest st) (hhead : ∀ t ∈ rest.head?, ends t.kind = true) :
    ends st.kind = true ∨ st.kind ∈ [TokenKind.endOfFile, .semicolon, .greaterThan] := by
  cases rest with
  | nil =>
    rcases h.spelled.last.kind with hkind | ⟨hkind, -⟩
    · exact .inr (by rw [ParserState.kind, h.current, hkind]; simp)
    · exact .inr (by rw [ParserState.kind, h.current, hkind]; simp)
  | cons t rest =>
    rcases h.kind_or with hkind | ⟨hkind, -⟩
    · exact .inl (by rw [hkind]; exact hhead t rfl)
    · exact .inr (by simp [hkind])

/-- No arrow follows. -/
lemma calm_ahead (h : Follows d ts st) (hgreater : st.kind ∉ TokenKind.greaterKinds) :
    st.Calm := by
  refine ⟨h.current, ?_⟩
  obtain ⟨tail, htail, hscans⟩ := h.spelled.scans (h.current ▸ hgreater)
  have htails : ∀ tail ∈ closings, tail.getLast? = some .endOfFile ∧
      (∀ k ∈ tail, k.isCalm = true) ∧ tail ≠ [] := by decide
  obtain ⟨hlast, hcalm, hne⟩ := htails tail htail
  refine ⟨_, hscans, by rw [List.getLast?_append_of_ne_nil _ hne, hlast], fun k hk => ?_⟩
  rcases List.mem_append.mp hk with hk | hk
  · obtain ⟨t, ht, hk⟩ := List.mem_flatMap.mp hk
    have hparts : ∀ k ∈ TokenKind.greaterKinds, ∀ k' ∈ k.parts, k'.isCalm = true := by decide
    by_cases hmem : t.kind ∈ TokenKind.greaterKinds
    · exact hparts _ hmem k hk
    · rw [TokenKind.parts_eq_singleton hmem, List.mem_singleton] at hk
      rw [hk]
      exact h.calm t ht
  · exact hcalm k hk

end Follows

/-- What the second run gives: a tree that is alike, in front of the lexemes that follow. -/
structure Mirrors (g : Stage) (d : Nat) (n : Node) (rest : List Lexeme) (o : Option Node)
    (st : ParserState) : Prop where
  alike : ∃ n', o = some n' ∧ n.Alike n'
  follows : Follows d rest st
  joined : g.joined = true → st.lexer.rescanGreater = st.lexer

lemma Mirrors.unjoined {o : Option Node} (hjoined : g.joined = false)
    (halike : ∃ n', o = some n' ∧ n.Alike n') (hfollows : Follows d rest st) :
    Mirrors g d n rest o st :=
  ⟨halike, hfollows, fun h => absurd h (by simp [hjoined])⟩

/-- Wherever the lexemes `ts` follow, and behind them what may follow at `l'`, the production reads
the expression `n` that is made of them, if it can open as many levels as that needs.  The argument
of the production is a bound for the depth of its grammar, of which it needs four for every lexeme
and every level that it may still open, and `cost` besides. -/
def Rereads (g : Stage) (cost : Nat) (production : Nat → Parser (Option Node)) (l' : Lexer)
    (n : Node) (ts : List Lexeme) : Prop :=
  ∀ (rest : List Lexeme) (st : ParserState) (fuel d : Nat), Lexer.Tail g.ends l' rest →
    Follows d (ts ++ rest) st → d + n.levels ≤ maxParserDepth + g.opened →
    4 * (ts.length + rest.length + (maxParserDepth - d)) + cost ≤ fuel →
    (production fuel).Gives st (Mirrors g d n rest)

/-- An expression `n` was read from `l` to `l'` in the depth `d` and is made of the lexemes `ts`,
and the production reads it again wherever these lexemes follow. -/
structure Replay (s : Source) (g : Stage) (cost d : Nat) (production : Nat → Parser (Option Node))
    (l l' : Lexer) (n : Node) (ts : List Lexeme) : Prop where
  madeOf : n.MadeOf s g.level ts
  path : l.Path ts l'
  levels : d ≤ maxParserDepth → d + n.levels ≤ maxParserDepth + g.opened
  again : Rereads g cost production l' n ts

/-- What is known of an expression that was read from `st` to `st'`, or was not. -/
def Repeats (s : Source) (g : Stage) (cost : Nat) (production : Nat → Parser (Option Node))
    (st : ParserState) (o : Option Node) (st' : ParserState) : Prop :=
  st'.Quiet → ∃ n, o = some n ∧ (n.IsEvaluable →
    ∃ ts, Replay s (g.within st.context) cost st.depth production st.lexer st'.lexer n ts)

/-- From every sound state the parser reads an expression that can be read again. -/
def Replays (s : Source) (w : Nat) (g : Stage) (cost : Nat) (p : Parser (Option Node))
    (production : Nat → Parser (Option Node)) : Prop :=
  ∀ st : ParserState, st.Sound s w → p.Gives st fun o st' =>
    st.Reads s w st' [] ∧ Repeats s g cost production st o st'

section

variable {s : Source} {w cost d : Nat} {g : Stage} {st st₁ st' : ParserState}
  {production : Nat → Parser (Option Node)} {l l' l₁ : Lexer} {n : Node} {ts : List Lexeme}
  {x : Nonterminal}

namespace Rereads

lemma of_agrees (h : Rereads g cost production l₁ n ts)
    (hagrees : l'.rescanGreater.Agrees l₁.rescanGreater) : Rereads g cost production l' n ts :=
  fun rest st fuel d htail => h rest st fuel d (htail.of_agrees hagrees.symm)

/-- In the head of a loop less may follow. -/
lemma within (h : Rereads g cost production l' n ts) (c : Context) :
    Rereads (g.within c) cost production l' n ts :=
  fun rest st fuel d htail hfollows hlevels hfuel =>
    (h rest st fuel d htail.of_within hfollows hlevels hfuel).mono
      fun _ _ h => ⟨h.alike, h.follows, h.joined⟩

/-- At the end of a text, where nothing follows but parentheses, it does not matter what followed
the first time. -/
lemma ended {c : Context} (h : Rereads (g.within c) cost production l₁ n ts)
    (hend : l'.token.kind = .endOfFile) (hends : g.ends .endOfFile = false) :
    Rereads g cost production l' n ts := by
  intro rest st fuel d htail hfollows hlevels hfuel
  obtain ⟨parens, rfl⟩ := htail.eq_replicate hend hends
  have htail' : Lexer.Tail (g.within c).ends l₁ (List.replicate parens (.ofKind .closeParen)) := by
    refine ⟨.parens l₁ parens, fun t ht => ?_⟩
    have hparen := List.eq_of_mem_replicate (List.mem_of_head? ht)
    exact Stage.ends_within_of_ne (by rw [hparen]; decide) (htail.head t ht)
  exact (h _ st fuel d htail' hfollows hlevels hfuel).mono fun _ _ h =>
    ⟨h.alike, h.follows, h.joined⟩

/-- The expression is read in a context of its own. -/
lemma inContext (h : Rereads g cost production l' n ts) (change : Context → Context)
    {rest : List Lexeme} {st : ParserState} {fuel : Nat} (htail : Lexer.Tail g.ends l' rest)
    (hfollows : Follows d (ts ++ rest) st) (hplain : (change st.context).disallowIn = false)
    (hlevels : d + n.levels ≤ maxParserDepth + g.opened)
    (hfuel : 4 * (ts.length + rest.length + (maxParserDepth - d)) + cost ≤ fuel) :
    (Parser.inContext change (production fuel)).Gives st (Mirrors g d n rest) := by
  have hinside : Follows d (ts ++ rest) { st with context := change st.context } :=
    hfollows.of_same rfl rfl rfl hplain hfollows.depth
  refine gives_inContext ((h rest _ fuel d htail hinside hlevels hfuel).mono
    fun o st₁ hmirrors => ?_)
  exact ⟨hmirrors.alike, hmirrors.follows.of_same rfl rfl rfl hfollows.plain hmirrors.follows.depth,
    hmirrors.joined⟩

/-- One level of the grammar is used up by unfolding it. -/
lemma unfold (h : Rereads g cost production l' n ts)
    (hgrammar : ∀ fuel, grammar (fuel + 1) x = production fuel) :
    Rereads g (cost + 1) (fun fuel => grammar fuel x) l' n ts := by
  intro rest st fuel d htail hfollows hlevels hfuel
  obtain ⟨fuel, rfl⟩ : ∃ k, fuel = k + 1 := ⟨fuel - 1, by omega⟩
  beta_reduce
  rw [hgrammar]
  exact h rest st fuel d htail hfollows hlevels (by omega)

/-- A guarded production opens one of the levels that the expression needs. -/
lemma nested (h : Rereads g.deeper 2 production l' n ts) (hopened : g.opened ≤ 1)
    (hgrammar : ∀ fuel, grammar (fuel + 1) x = Parser.nested (production fuel)) :
    Rereads g 1 (fun fuel => grammar fuel x) l' n ts := by
  intro rest st fuel d htail hfollows hlevels hfuel
  obtain ⟨fuel, rfl⟩ : ∃ k, fuel = k + 1 := ⟨fuel - 1, by omega⟩
  have hdepth : d < maxParserDepth := by
    have := n.two_le_levels
    omega
  beta_reduce
  rw [hgrammar]
  have hdeeper : Follows (d + 1) (ts ++ rest) { st with depth := st.depth + 1 } :=
    hfollows.of_same rfl rfl rfl hfollows.plain (by simp [hfollows.depth])
  refine .nested (fun _ => ?_) fun hrefused => absurd (hfollows.depth ▸ hdepth) hrefused
  refine (h rest _ fuel (d + 1) htail hdeeper ?_ ?_).mono fun o' st₁ hmirrors => ?_
  · simp only [Stage.deeper]
    omega
  · omega
  · refine ⟨hmirrors.alike, ?_, hmirrors.joined⟩
    exact hmirrors.follows.of_same rfl rfl rfl hmirrors.follows.plain
      (by simp [hmirrors.follows.depth])

end Rereads

/-- The run starts and ends at a token, not at what was made of its reports. -/
lemma Replay.of_agrees (h : Replay s g cost d production l₁ l' n ts) (hagrees : l.Agrees l₁) :
    Replay s g cost d production l l' n ts :=
  ⟨h.madeOf, h.path.of_agrees hagrees.rescanGreater, h.levels, h.again⟩

namespace Repeats

variable {o : Option Node}

/-- Nothing is known of what came before but the place. -/
lemma of_same (hsame : st.SamePlace s st₁) (h : Repeats s g cost production st₁ o st') :
    Repeats s g cost production st o st' := by
  intro hquiet
  obtain ⟨n, ho, hreplay⟩ := h hquiet
  refine ⟨n, ho, fun hevaluable => ?_⟩
  obtain ⟨ts, hreplay⟩ := hreplay hevaluable
  rw [hsame.context, hsame.depth] at hreplay
  exact ⟨ts, hreplay.of_agrees hsame.agrees.symm⟩

/-- What one production reads again, another may. -/
lemma again_of {production' : Nat → Parser (Option Node)} {cost' : Nat}
    (h : Repeats s g cost production st o st')
    (hagain : ∀ l' n ts, n.MadeOf s g.level ts →
      Rereads (g.within st.context) cost production l' n ts →
      Rereads (g.within st.context) cost' production' l' n ts) :
    Repeats s g cost' production' st o st' := by
  intro hquiet
  obtain ⟨n, ho, hreplay⟩ := h hquiet
  refine ⟨n, ho, fun hevaluable => ?_⟩
  obtain ⟨ts, hreplay⟩ := hreplay hevaluable
  exact ⟨ts, hreplay.madeOf, hreplay.path, hreplay.levels,
    hagain _ n ts hreplay.madeOf hreplay.again⟩

lemma foreign (h : n.IsForeign) : Repeats s g cost production st (some n) st' :=
  fun _ => ⟨n, rfl, fun hevaluable => absurd hevaluable h⟩

lemma loud (h : ¬ st'.Quiet) : Repeats s g cost production st o st' :=
  fun hquiet => absurd hquiet h

end Repeats

/-- A production that gives no evaluable expression. -/
lemma Yields.repeats {p : Parser Node} (h : p.Yields Node.IsForeign) (st₁ : ParserState) :
    Gives (do return some (← p)) st₁ (Repeats s g cost production st) :=
  (h.gives st₁).bind fun _ _ hn => .pure (.foreign hn)

namespace Replays

variable {p : Parser (Option Node)}

/-- What is read in another context is read again. -/
lemma inContext (h : Replays s w g cost p production) (change : Context → Context)
    (hs : st.Sound s w) :
    (Parser.inContext change p).Gives st fun o st' => st.Reads s w st' [] ∧
      (st'.Quiet → ∃ n, o = some n ∧ (n.IsEvaluable → ∃ ts,
        Replay s (g.within (change st.context)) cost st.depth production st.lexer st'.lexer n
          ts)) := by
  refine gives_inContext ((h _ (hs.inContext (change st.context))).mono fun o st₁ hread => ?_)
  obtain ⟨hread, hrepeats⟩ := hread
  exact ⟨⟨covers_of_context hread.toCovers, hread.behind⟩, fun hquiet =>
    hrepeats ⟨hquiet.diagnostics, hquiet.lexer⟩⟩

lemma unfold (h : Replays s w g cost p production)
    (hgrammar : ∀ fuel, grammar (fuel + 1) x = production fuel) :
    Replays s w g (cost + 1) p fun fuel => grammar fuel x := by
  intro st hs
  refine (h st hs).mono fun o st₁ hread => ⟨hread.1, fun hquiet => ?_⟩
  obtain ⟨n, ho, hreplay⟩ := hread.2 hquiet
  refine ⟨n, ho, fun hevaluable => ?_⟩
  obtain ⟨ts, hreplay⟩ := hreplay hevaluable
  exact ⟨ts, hreplay.madeOf, hreplay.path, hreplay.levels,
    hreplay.again.unfold hgrammar⟩

/-- A guarded production opens a level in the second run as it does in the first one. -/
lemma nested (h : Replays s (w - 1) g.deeper 2 p production) (hopened : g.opened ≤ 1)
    (hgrammar : ∀ fuel, grammar (fuel + 1) x = Parser.nested (production fuel)) :
    Replays s w g 1 (Parser.nested p) fun fuel => grammar fuel x := by
  intro st hs
  refine gives_nested_quiet hs (fun st' hsame hloud => ⟨hsame.reads hs, .loud hloud⟩)
    fun hdepth => ?_
  refine (h _ (hs.deeper hdepth)).mono fun o st₁ hread => ?_
  obtain ⟨hread, hrepeats⟩ := hread
  refine ⟨⟨covers_of_deeper hdepth hread.toCovers, hread.behind⟩, fun hquiet => ?_⟩
  obtain ⟨n, ho, hreplay⟩ := hrepeats ⟨hquiet.diagnostics, hquiet.lexer⟩
  refine ⟨n, ho, fun hevaluable => ?_⟩
  obtain ⟨ts, hreplay⟩ := hreplay hevaluable
  refine ⟨ts, hreplay.madeOf, hreplay.path, fun _ => ?_,
    Rereads.nested hreplay.again hopened hgrammar⟩
  have hlevels := hreplay.levels hdepth
  simp only [Stage.deeper, Stage.within] at hlevels ⊢
  omega

end Replays

end

end Parser

end InlineValues
