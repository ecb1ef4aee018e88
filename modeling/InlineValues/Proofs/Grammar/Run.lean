import InlineValues.Grammar.SourceFile
import InlineValues.Proofs.Token.Fault
import InlineValues.Proofs.Tree.Arena
import InlineValues.Proofs.Tree.Operation

/-!
# What a parser reads

`Parser.Gives` is the logic in which the grammar is reasoned about: run from a state, a parser gives
a result and a state with a property.  A proof walks through the definition of a production with
`Gives.bind`, one step for each of its lines.

`ParserState.Reads` is the property that nearly all productions have.  They leave the lexer sound,
the nodes that they give lie in a row between the place where they start and the place where they
stop, the arena has grown by these nodes, and the context and the depth are put back.  Two runs in a
row read two rows (`Reads.trans`), and a node that is closed over what was read lies there in its
place (`Reads.node`).

The measure by which the parser comes to an end is `ParserState.left`: what is left of the text,
and how many guarded productions may still be opened.  It never grows.  `Sound` holds it below a
bound `w`, and says that no loop has been caught going round in one place.

A block is found behind some other token in every production but that of statements, which is the
last part of `Reads`; `Covers` is what is left without it.  `Spends` says in addition that a token
was taken which is part of no node, behind which a block may stand.

If nothing was reported, the expressions that are shown as a whole were each read in a run of their
own, by one of three productions (`Node.Recalled`).  This is how they can be read once more where
they do not stand in the tree.
-/

namespace InlineValues

namespace Parser

variable {α β : Type}

/-- From a state, the parser gives a result and a state with a property. -/
def Gives (p : Parser α) (st : ParserState) (Q : α → ParserState → Prop) : Prop :=
  Q (p.run st).1 (p.run st).2

namespace Gives

variable {p : Parser α} {f : α → Parser β} {st : ParserState}

theorem bind {P : α → ParserState → Prop} {Q : β → ParserState → Prop} (h : p.Gives st P)
    (hf : ∀ a st', P a st' → (f a).Gives st' Q) : (p >>= f).Gives st Q :=
  hf _ _ h

lemma pure {Q : α → ParserState → Prop} {a : α} (h : Q a st) :
    (Pure.pure a : Parser α).Gives st Q := h

lemma mono {P Q : α → ParserState → Prop} (h : p.Gives st P)
    (hPQ : ∀ a st', P a st' → Q a st') : p.Gives st Q := hPQ _ _ h

lemma and {P Q : α → ParserState → Prop} (h : p.Gives st P) (h' : p.Gives st Q) :
    p.Gives st fun a st' => P a st' ∧ Q a st' := ⟨h, h'⟩

lemma map {g : α → β} {Q : β → ParserState → Prop} (h : p.Gives st fun a st' => Q (g a) st') :
    (g <$> p).Gives st Q := h

lemma map_bind {γ : Type} {g : γ → α} {q : Parser γ} {P : γ → ParserState → Prop}
    {Q : β → ParserState → Prop} (h : q.Gives st P)
    (hf : ∀ a st', P a st' → (f (g a)).Gives st' Q) : ((g <$> q) >>= f).Gives st Q :=
  hf _ _ h

lemma discard_bind {g : Unit → Parser β} {P : α → ParserState → Prop}
    {Q : β → ParserState → Prop} (h : p.Gives st P)
    (hg : ∀ a st', P a st' → (g ()).Gives st' Q) : (Functor.discard p >>= g).Gives st Q :=
  hg _ _ h

lemma discard {Q : Unit → ParserState → Prop} (h : p.Gives st fun _ st' => Q () st') :
    (Functor.discard p).Gives st Q := h

end Gives

end Parser

/-! ## States -/

namespace ParserState

/-- Where the next node starts: at the trivia of the current token. -/
def here (st : ParserState) : Nat := st.lexer.token.fullStart

/-- The kind of the current token. -/
def kind (st : ParserState) : TokenKind := st.current

/-- The state behind the current token. -/
def advanced (st : ParserState) : ParserState :=
  { st with
    previousStop := st.lexer.stop
    lexer := st.lexer.scan
    current := st.lexer.scan.token.kind }

/-- How far the parser can still go: to the end of the text, and down to the deepest level. -/
def left (s : Source) (st : ParserState) : Nat :=
  (s.size - st.here) + (maxParserDepth - st.depth)

/-- What holds of the reports of a parser: the text is nested too deeply once at most, and something
was reported where a fault is noted or a production was refused. -/
structure Told (diagnostics : Array Diagnostic) (lastFault : Option Nat) (refused : Bool) :
    Prop where
  once : diagnostics.countP (fun d => d.fault == .excessiveNesting) ≤ 1
  noted : lastFault ≠ none → 0 < diagnostics.size
  refusal : refused = true → 0 < diagnostics.size

/-- A parser in the text `s` that knows its token, with no gap between the last token and the
current one, that has less than `w` left and has not stalled.  What went wrong was reported. -/
structure Sound (s : Source) (w : Nat) (st : ParserState) : Prop where
  lexer : st.lexer.Sound s
  current : st.current = st.lexer.token.kind
  previous : st.previousStop = st.here
  left_lt : st.left s < w
  moving : st.stalled = false
  told : Told st.diagnostics st.lastFault st.refused
  noted : st.lexer.Noted s

lemma Sound.here_le {s : Source} {w : Nat} {st : ParserState} (h : st.Sound s w) :
    st.here ≤ s.size := h.lexer.fullStart.le_size

lemma Sound.inContext {s : Source} {w : Nat} {st : ParserState} (h : st.Sound s w)
    (context : Context) : Sound s w { st with context } :=
  ⟨h.lexer, h.current, h.previous, h.left_lt, h.moving, h.told, h.noted⟩

/-- One level deeper less is left. -/
lemma Sound.deeper {s : Source} {w : Nat} {st : ParserState} (h : st.Sound s w)
    (hdepth : st.depth < maxParserDepth) : Sound s (w - 1) { st with depth := st.depth + 1 } := by
  refine ⟨h.lexer, h.current, h.previous, ?_, h.moving, h.told, h.noted⟩
  have hleft := h.left_lt
  simp only [left, here] at hleft ⊢
  omega

lemma Sound.mono {s : Source} {v w : Nat} {st : ParserState} (h : st.Sound s v) (hle : v ≤ w) :
    st.Sound s w :=
  ⟨h.lexer, h.current, h.previous, Nat.lt_of_lt_of_le h.left_lt hle, h.moving, h.told, h.noted⟩

/-- At one place the text has ended for all states or for none. -/
lemma Sound.kind_ne_end {s : Source} {v w : Nat} {st st' : ParserState} (h : st.Sound s v)
    (h' : st'.Sound s w) (hhere : st'.here = st.here) (hkind : st.kind ≠ .endOfFile) :
    st'.kind ≠ .endOfFile := fun hend => hkind <| by
  rw [kind, h'.current] at hend
  rw [kind, h.current]
  exact h'.lexer.endOfFile_of_fullStart h.lexer hhere.symm hend

/-- From `st` to `st'` nothing that was reported is taken back, and what is reported lies on the
text. -/
structure Tells (s : Source) (st st' : ParserState) : Prop where
  diagnostics : AddsTo (Diagnostic.On s) st.diagnostics st'.diagnostics
  lexer : st.lexer.Adds s st'.lexer

lemma Tells.refl (s : Source) (st : ParserState) : Tells s st st := ⟨.refl _ _, .refl _ _⟩

theorem Tells.trans {s : Source} {st st' st'' : ParserState} (h : Tells s st st')
    (h' : Tells s st' st'') : Tells s st st'' :=
  ⟨h.diagnostics.trans h'.diagnostics, h.lexer.trans h'.lexer⟩

/-- Nothing was reported so far. -/
structure Quiet (st : ParserState) : Prop where
  diagnostics : st.diagnostics = #[]
  lexer : st.lexer.diagnostics = #[]

/-- What was reported on the way is still there at the end. -/
lemma Tells.quiet {s : Source} {st st' : ParserState} (h : Tells s st st') (hquiet : st'.Quiet) :
    st.Quiet :=
  ⟨h.diagnostics.eq_empty hquiet.diagnostics, h.lexer.eq_empty hquiet.lexer⟩

/-- The state `st'` stands at the same token as `st`, in the same context.  Nodes may have been made
meanwhile and dropped. -/
structure SamePlace (s : Source) (st st' : ParserState) : Prop where
  source : st'.lexer.source = st.lexer.source
  token : st'.lexer.token = st.lexer.token
  cursor : st'.lexer.cursor = st.lexer.cursor
  current : st'.current = st.current
  previous : st'.previousStop = st.previousStop
  context : st'.context = st.context
  depth : st'.depth = st.depth
  known : st'.knownNames = st.knownNames
  moving : st.stalled = false → st'.stalled = false
  told : Told st.diagnostics st.lastFault st.refused →
    Told st'.diagnostics st'.lastFault st'.refused
  tells : Tells s st st'
  grown : Arena.Grown s st.arena st'.arena []

namespace SamePlace

variable {s : Source} {w : Nat} {st st' st'' : ParserState}

lemma refl (st : ParserState) : SamePlace s st st :=
  ⟨rfl, rfl, rfl, rfl, rfl, rfl, rfl, rfl, id, id, .refl s st, .refl s st.arena⟩

theorem trans (h : SamePlace s st st') (h' : SamePlace s st' st'') : SamePlace s st st'' :=
  ⟨h'.source.trans h.source, h'.token.trans h.token, h'.cursor.trans h.cursor,
    h'.current.trans h.current, h'.previous.trans h.previous, h'.context.trans h.context,
    h'.depth.trans h.depth, h'.known.trans h.known, fun hst => h'.moving (h.moving hst),
    fun hst => h'.told (h.told hst), h.tells.trans h'.tells, h.grown.trans h'.grown⟩

lemma here (h : SamePlace s st st') : st'.here = st.here := by
  rw [ParserState.here, h.token, ← ParserState.here]

lemma kind (h : SamePlace s st st') : st'.kind = st.kind := h.current

lemma lexer (h : SamePlace s st st') (hs : st.lexer.Sound s) : st'.lexer.Sound s :=
  hs.congr h.source h.token h.cursor

lemma sound (h : SamePlace s st st') (hs : st.Sound s w) : st'.Sound s w where
  lexer := h.lexer hs.lexer
  current := by rw [h.current, h.token, hs.current]
  previous := by rw [h.previous, h.here, hs.previous]
  left_lt := by
    rw [left, h.here, h.depth]
    exact hs.left_lt
  moving := h.moving hs.moving
  told := h.told hs.told
  noted := hs.noted.adds h.tells.lexer (by rw [h.token])

end SamePlace

end ParserState

/-! ## Expressions that are shown -/

/-- From a sound state the production has read the node, and nothing was reported.  The grammar was
deep enough for what was left of the text. -/
def Node.ReadBy (s : Source) (production : Nat → Parser (Option Node)) (n : Node) : Prop :=
  ∃ (w fuel : Nat) (st : ParserState), st.Sound s w ∧ 4 * w ≤ fuel ∧
    (production fuel).Gives st fun o st' => o = some n ∧ st'.Quiet

/-- A node that was read by one of the productions whose result is shown as a whole. -/
inductive Node.Recalled (s : Source) (n : Node) : Prop
  | expression (h : n.ReadBy s fun fuel => Parser.expression (Parser.grammar fuel))
  | assignment (h : n.ReadBy s fun fuel => Parser.grammar fuel .assignment)
  | chain (h : n.ReadBy s fun fuel => Parser.grammar fuel (.binary 0))
  | leftHandSide (h : n.ReadBy s fun fuel => Parser.grammar fuel .leftHandSide)
  | primary (h : n.ReadBy s fun fuel => Parser.grammar fuel .primary)

/-- The parts that are shown, as far as they are evaluable expressions, were read as expressions. -/
def Form.Recalls (s : Source) (form : Form Node) : Prop :=
  ∀ e ∈ form.shown, e.IsEvaluable → e.Recalled s

/-- Everywhere in the tree the parts that are shown were read as such. -/
def Node.Recalls (s : Source) (n : Node) : Prop := ∀ m : Node, m.Within n → m.form.Recalls s

lemma Form.Recalls.of_shown {s : Source} {form : Form Node} (h : form.shown = []) :
    form.Recalls s := by simp [Recalls, h]

lemma Node.Recalls.of_children {s : Source} {n : Node} (h : n.form.Recalls s)
    (hc : ∀ c ∈ n.children, c.Recalls s) : n.Recalls s := by
  intro m hm
  cases hm with
  | refl => exact h
  | child hmem hm => exact hc _ hmem m hm

/-! ## Reading -/

namespace ParserState

/-- Every block among the nodes or inside them starts behind an offset. -/
def BlocksBehind (p : Nat) (ns : List Node) : Prop :=
  ∀ n ∈ ns, ∀ m : Node, m.Within n → m.form.isBlock = true → p < m.pos

@[simp] lemma blocksBehind_nil (p : Nat) : BlocksBehind p [] := by simp [BlocksBehind]

/-- From `st` to `st'` the nodes `ns` were read. -/
structure Covers (s : Source) (w : Nat) (st st' : ParserState) (ns : List Node) : Prop where
  sound : st'.Sound s w
  start_cut : s.IsCut st.here
  fits : Fits st.here st'.here ns
  begun : st.here < st'.here → s.tokenStart st.here ≤ st'.here
  laidOut : ∀ n ∈ ns, n.LaidOut s
  named : ∀ n ∈ ns, n.Named st.knownNames
  tells : Tells s st st'
  grown : Arena.Grown s st.arena st'.arena ns
  recalled : st'.Quiet → ∀ n ∈ ns, n.Recalls s
  context : st'.context = st.context
  depth : st'.depth = st.depth
  known : st'.knownNames = st.knownNames

/-- From `st` to `st'` the nodes `ns` were read, and no block at the very start. -/
structure Reads (s : Source) (w : Nat) (st st' : ParserState) (ns : List Node) : Prop
    extends Covers s w st st' ns where
  behind : BlocksBehind st.here ns

/-- From `st` to `st'` the nodes `ns` were read, with a block at the very start only where a brace
opens. -/
structure Runs (s : Source) (w : Nat) (st st' : ParserState) (ns : List Node) : Prop
    extends Covers s w st st' ns where
  behind : st.kind ≠ .openBrace → BlocksBehind st.here ns

/-- From `st` to `st'` the nodes `ns` were read, and at least one token besides them. -/
structure Spends (s : Source) (w : Nat) (st st' : ParserState) (ns : List Node) : Prop
    extends Reads s w st st' ns where
  gap : Gap st.here st'.here ns

/-- From `st` to `st'` a node was read that can be shown as a value, or none. -/
structure FillsTo (s : Source) (w : Nat) (st st' : ParserState) (o : Option Node) : Prop where
  reads : Reads s w st st' o.toList
  proper : ∀ n ∈ o, n.Proper s

/-- From `st` to `st'` a node was read that is shown as a whole, or none. -/
structure ShowsTo (s : Source) (w : Nat) (st st' : ParserState) (o : Option Node) : Prop
    extends FillsTo s w st st' o where
  shown : st'.Quiet → ∀ n ∈ o.toList, n.IsEvaluable → n.Recalled s

lemma Sound.cut_here {s : Source} {w : Nat} {st : ParserState} (h : st.Sound s w) :
    s.IsCut st.here := h.lexer.fullStart

section

variable {s : Source} {w : Nat} {st₀ st st' : ParserState} {xs ys ns : List Node}

lemma Covers.le (h : Covers s w st st' ns) : st.here ≤ st'.here := h.fits.le

/-- One row is read behind another one. -/
theorem Covers.trans (h : Covers s w st₀ st xs) (h' : Covers s w st st' ys) :
    Covers s w st₀ st' (xs ++ ys) where
  sound := h'.sound
  start_cut := h.start_cut
  fits := h.fits.append h'.fits
  begun hlt := by
    rcases Nat.eq_or_lt_of_le h.le with heq | hmoved
    · rw [heq] at hlt ⊢
      exact h'.begun hlt
    · exact Nat.le_trans (h.begun hmoved) h'.le
  laidOut n hn := (List.mem_append.mp hn).elim (h.laidOut n) (h'.laidOut n)
  named n hn := (List.mem_append.mp hn).elim (h.named n) (h.known ▸ h'.named n)
  tells := h.tells.trans h'.tells
  grown := h.grown.trans h'.grown
  recalled hquiet n hn := (List.mem_append.mp hn).elim
    (h.recalled (h'.tells.quiet hquiet) n) (h'.recalled hquiet n)
  context := h'.context.trans h.context
  depth := h'.depth.trans h.depth
  known := h'.known.trans h.known

/-- Behind a token that was read on the way, a row may start with a block. -/
lemma Reads.trans_covers (h : Reads s w st₀ st xs) (h' : Covers s w st st' ys)
    (hlt : st₀.here < st.here) : Reads s w st₀ st' (xs ++ ys) where
  toCovers := h.toCovers.trans h'
  behind n hn m hm hblock := by
    rcases List.mem_append.mp hn with hn | hn
    · exact h.behind n hn m hm hblock
    · have hpos := ((h'.laidOut n hn).range_within hm).1
      have hstart := (h'.fits.of_mem hn).1
      omega

theorem Reads.trans (h : Reads s w st₀ st xs) (h' : Reads s w st st' ys) :
    Reads s w st₀ st' (xs ++ ys) where
  toCovers := h.toCovers.trans h'.toCovers
  behind n hn m hm hblock := by
    rcases List.mem_append.mp hn with hn | hn
    · exact h.behind n hn m hm hblock
    · exact Nat.lt_of_le_of_lt h.le (h'.behind n hn m hm hblock)

lemma Reads.runs (h : Reads s w st st' ns) : Runs s w st st' ns := ⟨h.toCovers, fun _ => h.behind⟩

/-- Behind a row that was empty, no brace may open that did not open before. -/
theorem Runs.trans (h : Runs s w st₀ st xs) (h' : Runs s w st st' ys)
    (hkind : st₀.kind ≠ .openBrace → st.here = st₀.here → st.kind ≠ .openBrace) :
    Runs s w st₀ st' (xs ++ ys) where
  toCovers := h.toCovers.trans h'.toCovers
  behind hne n hn m hm hblock := by
    rcases List.mem_append.mp hn with hn | hn
    · exact h.behind hne n hn m hm hblock
    rcases Nat.eq_or_lt_of_le h.le with heq | hlt
    · rw [heq]
      exact h'.behind (hkind hne heq.symm) n hn m hm hblock
    · have hpos := ((h'.laidOut n hn).range_within hm).1
      have hstart := (h'.fits.of_mem hn).1
      omega

lemma Runs.skip (h : Runs s w st₀ st xs) (h' : Reads s w st st' []) : Runs s w st₀ st' xs where
  toCovers := by simpa using h.toCovers.trans h'.toCovers
  behind := h.behind

/-- Nothing more was read. -/
lemma Reads.skip (h : Reads s w st₀ st xs) (h' : Reads s w st st' []) : Reads s w st₀ st' xs := by
  simpa using h.trans h'

/-- Nothing was read before. -/
lemma Reads.after (h : Reads s w st₀ st []) (h' : Reads s w st st' ys) : Reads s w st₀ st' ys :=
  h.trans h'

lemma SamePlace.reads (h : SamePlace s st st') (hs : st.Sound s w) : Reads s w st st' [] where
  sound := h.sound hs
  start_cut := hs.cut_here
  fits := Nat.le_of_eq h.here.symm
  begun hlt := absurd h.here (Nat.ne_of_gt hlt)
  laidOut := by simp
  named := by simp
  tells := h.tells
  grown := h.grown
  recalled := by simp
  context := h.context
  depth := h.depth
  known := h.known
  behind := by simp

lemma Sound.reads (hs : st.Sound s w) : Reads s w st st [] := (SamePlace.refl st).reads hs

lemma Reads.same (h : Reads s w st₀ st xs) (h' : SamePlace s st st') : Reads s w st₀ st' xs :=
  h.skip (h'.reads h.sound)

/-- Nodes that were read may be left out. -/
lemma Reads.sublist (h : Reads s w st st' xs) (hsub : ys.Sublist xs) : Reads s w st st' ys where
  sound := h.sound
  start_cut := h.start_cut
  fits := h.fits.sublist hsub
  begun := h.begun
  laidOut n hn := h.laidOut n (hsub.subset hn)
  named n hn := h.named n (hsub.subset hn)
  tells := h.tells
  grown := h.grown.sublist hsub
  recalled hquiet n hn := h.recalled hquiet n (hsub.subset hn)
  context := h.context
  depth := h.depth
  known := h.known
  behind n hn := h.behind n (hsub.subset hn)

/-- A row that was read may be forgotten. -/
lemma Covers.forget (h : Covers s w st st' ns) : Reads s w st st' [] where
  sound := h.sound
  start_cut := h.start_cut
  fits := h.le
  begun := h.begun
  laidOut := by simp
  named := by simp
  tells := h.tells
  grown := h.grown.forget
  recalled := by simp
  context := h.context
  depth := h.depth
  known := h.known
  behind := by simp

/-! ## How much is left -/

/-- What was read with less left was read. -/
lemma Covers.mono {v : Nat} (h : Covers s v st st' ns) (hle : v ≤ w) : Covers s w st st' ns :=
  { h with sound := h.sound.mono hle }

lemma Reads.mono {v : Nat} (h : Reads s v st st' ns) (hle : v ≤ w) : Reads s w st st' ns :=
  ⟨h.toCovers.mono hle, h.behind⟩

/-- Where less was left before, less is left behind. -/
lemma Covers.lower {v : Nat} (h : Covers s w st st' ns) (hs : st.Sound s v) :
    Covers s v st st' ns := by
  refine { h with sound := ⟨h.sound.lexer, h.sound.current, h.sound.previous, ?_, h.sound.moving,
    h.sound.told, h.sound.noted⟩ }
  have hbefore := hs.left_lt
  have hle := h.le
  have hdepth := h.depth
  simp only [left] at hbefore ⊢
  omega

lemma Reads.lower {v : Nat} (h : Reads s w st st' ns) (hs : st.Sound s v) :
    Reads s v st st' ns := ⟨h.toCovers.lower hs, h.behind⟩

/-- Behind a token less is left. -/
lemma Covers.sound_lt (h : Covers s w st₀ st ns) (hs : st₀.Sound s w) (hlt : st₀.here < st.here) :
    st.Sound s (w - 1) := by
  refine ⟨h.sound.lexer, h.sound.current, h.sound.previous, ?_, h.sound.moving, h.sound.told,
    h.sound.noted⟩
  have hbefore := hs.left_lt
  have hle := h.sound.here_le
  have hdepth := h.depth
  simp only [left] at hbefore ⊢
  omega

/-! ## Tokens besides the nodes -/

lemma Spends.lt (h : Spends s w st st' ns) : st.here < st'.here := h.gap.lt

/-- A token was taken that is part of no node. -/
lemma Reads.spend (h : Reads s w st₀ st xs) (h' : Reads s w st st' [])
    (hlt : st.here < st'.here) :
    Spends s w st₀ st' xs where
  toReads := h.skip h'
  gap := ⟨xs, [], st.here, st'.here, List.append_nil xs, h.fits, hlt, Nat.le_refl _⟩

/-- Moving on without a node takes a token. -/
lemma Reads.spent (h : Reads s w st st' []) (hlt : st.here < st'.here) :
    Spends s w st st' [] where
  toReads := h
  gap := ⟨[], [], st.here, st'.here, rfl, Nat.le_refl _, hlt, Nat.le_refl _⟩

lemma Reads.trans_spends (h : Reads s w st₀ st xs) (h' : Spends s w st st' ys) :
    Spends s w st₀ st' (xs ++ ys) where
  toReads := h.trans h'.toReads
  gap := Gap.append_of_fits h.fits h'.gap

/-- Behind a token of its own, a row may go on with a block. -/
lemma Spends.trans_covers (h : Spends s w st₀ st xs) (h' : Covers s w st st' ys) :
    Spends s w st₀ st' (xs ++ ys) where
  toReads := h.toReads.trans_covers h' h.lt
  gap := h.gap.append_fits h'.fits

theorem Spends.trans (h : Spends s w st₀ st xs) (h' : Reads s w st st' ys) :
    Spends s w st₀ st' (xs ++ ys) := h.trans_covers h'.toCovers

lemma Spends.skip (h : Spends s w st₀ st xs) (h' : Reads s w st st' []) :
    Spends s w st₀ st' xs := by
  simpa using h.trans h'

lemma Spends.after (h : Spends s w st₀ st []) (h' : Covers s w st st' ys) :
    Spends s w st₀ st' ys :=
  h.trans_covers h'

/-- Where a node with text of its own was read, the parser moved on. -/
lemma Covers.lt_of_mem {n : Node} (h : Covers s w st st' ns) (hn : n ∈ ns)
    (hlt : n.pos < n.stop) : st.here < st'.here := by
  have := h.fits.of_mem hn
  omega

/-- Behind a node that is not empty the parser has moved on. -/
lemma FillsTo.lt_here {n : Node} (h : FillsTo s w st st' (some n)) : st.here < st'.here :=
  h.reads.lt_of_mem (List.mem_singleton.mpr rfl) (h.proper n rfl).lt

lemma Reads.fillsNone (h : Reads s w st st' []) : FillsTo s w st st' none := ⟨h, by simp⟩

lemma FillsTo.skip {o : Option Node} (h : FillsTo s w st₀ st o) (h' : Reads s w st st' []) :
    FillsTo s w st₀ st' o := ⟨h.reads.skip h', h.proper⟩

lemma ShowsTo.skip {o : Option Node} (h : ShowsTo s w st₀ st o) (h' : Reads s w st st' []) :
    ShowsTo s w st₀ st' o := ⟨h.toFillsTo.skip h', fun hquiet => h.shown (h'.tells.quiet hquiet)⟩

lemma FillsTo.same {o : Option Node} (h : FillsTo s w st₀ st o) (h' : SamePlace s st st') :
    FillsTo s w st₀ st' o := h.skip (h'.reads h.reads.sound)

/-- Nothing was read before. -/
lemma Reads.after_fills {o : Option Node} (h : Reads s w st₀ st []) (h' : FillsTo s w st st' o) :
    FillsTo s w st₀ st' o := ⟨h.after h'.reads, h'.proper⟩

lemma Reads.after_shows {o : Option Node} (h : Reads s w st₀ st []) (h' : ShowsTo s w st st' o) :
    ShowsTo s w st₀ st' o := ⟨h.after_fills h'.toFillsTo, h'.shown⟩

lemma Reads.showsNone (h : Reads s w st st' []) : ShowsTo s w st st' none :=
  ⟨h.fillsNone, by simp⟩

/-- A node that ends here is not empty once the parser moved on. -/
lemma Covers.lt_previousStop (h : Covers s w st₀ st ns) (hlt : st₀.here < st.here) :
    st₀.here < st.previousStop := by
  rwa [h.sound.previous]

/-! ## Closing a node -/

/-- The node with a form that the parser makes next, from an offset to the last consumed token. -/
def node (st : ParserState) (pos : Nat) (form : Form Node) : Node :=
  ⟨⟨pos, st.arena.size⟩, st.previousStop, form⟩

/-- The state behind that node. -/
def closed (st : ParserState) (pos : Nat) (form : Form Node) : ParserState :=
  st.added pos st.previousStop (form.map fun c => c.index)

/-- Adding a node leaves everything in place but the arena. -/
lemma Sound.added (hs : st.Sound s w) (pos stop : Nat) (payload : Form Nat) :
    (st.added pos stop payload).Sound s w :=
  ⟨hs.lexer, hs.current, hs.previous, hs.left_lt, hs.moving, hs.told, hs.noted⟩

/-- A node that is closed over what was read, with any payload that it may have. -/
lemma Covers.added {form : Form Node} {payload : Form Nat}
    (h : Covers s w st₀ st form.children)
    (hsolid : Node.Solid s ⟨⟨st₀.here, st.arena.size⟩, st.here, form⟩)
    (htoken : ∀ kind, form.kind = .token kind → kind.isName = false →
      Node.StandsOn s ⟨⟨st₀.here, st.arena.size⟩, st.here, form⟩ kind)
    (hnamed : ∀ text, form.name? = some text → OneLine text ∨ text ∈ st.knownNames)
    (hpayload : Arena.Payload s (st.node st₀.here form) payload)
    (hshown : st.Quiet → form.Recalls s) :
    Covers s w st₀ (st.added st₀.here st.previousStop payload) [st.node st₀.here form] where
  sound := h.sound.added _ _ _
  start_cut := h.start_cut
  fits := by
    have hle : st.previousStop ≤ st.here := Nat.le_of_eq h.sound.previous
    exact ⟨Nat.le_refl _, by rw [node, h.sound.previous]; exact h.le, hle⟩
  begun := h.begun
  laidOut n hn := by
    rw [List.mem_singleton, node, h.sound.previous] at hn
    subst hn
    exact .of_children ⟨h.start_cut, h.sound.cut_here, h.fits, h.begun, hsolid, htoken⟩ h.laidOut
  named n hn := by
    rw [List.mem_singleton] at hn
    subst hn
    exact .of_children (h.known ▸ hnamed) h.named
  tells := ⟨h.tells.diagnostics, h.tells.lexer⟩
  grown := h.grown.add hpayload rfl
  recalled hquiet n hn := by
    have hbefore : st.Quiet := ⟨hquiet.diagnostics, hquiet.lexer⟩
    rw [List.mem_singleton] at hn
    subst hn
    exact .of_children (hshown hbefore) (h.recalled hbefore)
  context := h.context
  depth := h.depth
  known := h.known

/-- A node that is closed over what was read. -/
theorem Covers.node {form : Form Node} (h : Covers s w st₀ st form.children)
    (hsolid : Node.Solid s ⟨⟨st₀.here, st.arena.size⟩, st.here, form⟩)
    (hcomposite : form.kind.isToken = false) (hshown : st.Quiet → form.Recalls s) :
    Covers s w st₀ (st.closed st₀.here form) [st.node st₀.here form] :=
  h.added hsolid (fun _ htoken => absurd htoken (Form.ne_token hcomposite _))
    (fun _ htext => absurd htext (by simp [Form.name?_eq_none hcomposite]))
    (.unnamed (Form.name?_eq_none hcomposite)) hshown

/-- A node in the place of its only part. -/
lemma Reads.wrap {n : Node} {form : Form Node} (h : Reads s w st₀ st [n])
    (hchildren : form.children = [n]) (hcomposite : form.isComposite = true)
    (hshown : form.shown = [])
    (hsolid : Node.Solid s ⟨⟨n.pos, st.arena.size⟩, n.stop, form⟩) :
    Reads s w st₀ (st.added n.pos n.stop (form.map fun c => c.index))
      [⟨⟨n.pos, st.arena.size⟩, n.stop, form⟩] := by
  have hn := h.laidOut n (List.mem_singleton.mpr rfl)
  have htoken := Form.isToken_of_isComposite hcomposite
  have hrow : Node.children ⟨⟨n.pos, st.arena.size⟩, n.stop, form⟩ = [n] := hchildren
  have hgrown := h.grown
  rw [← hrow] at hgrown
  refine ⟨⟨h.sound.added _ _ _, h.start_cut, h.fits, h.begun, fun m hm => ?_, fun m hm => ?_,
    ⟨h.tells.diagnostics, h.tells.lexer⟩, hgrown.add (.unnamed (Form.name?_eq_none htoken)) rfl,
    fun hquiet m hm => ?_, h.context, h.depth, h.known⟩, fun m hm k hk hk' => ?_⟩
  all_goals
    rw [List.mem_singleton] at hm
    subst hm
  · refine .of_children ⟨hn.placed.pos_cut, hn.placed.stop_cut, ?_, hn.placed.begun, hsolid,
      fun _ hkind => absurd hkind (Form.ne_token htoken _)⟩ ?_
    · rw [hrow]
      exact ⟨Nat.le_refl _, hn.pos_le_stop, Nat.le_refl _⟩
    · rw [hrow]
      exact h.laidOut
  · refine .of_children (fun _ htext => absurd htext (by simp [Form.name?_eq_none htoken])) ?_
    rw [hrow]
    exact h.named
  · refine .of_children (.of_shown hshown) ?_
    rw [hrow]
    exact h.recalled ⟨hquiet.diagnostics, hquiet.lexer⟩
  · rcases hk.eq_or_below with rfl | ⟨c, hc, hk⟩
    · simp [Form.isBlock_of_isComposite hcomposite] at hk'
    · rw [hrow] at hc
      exact h.behind c hc k hk hk'

/-- A node other than a block starts no block. -/
lemma blocksBehind_node {form : Form Node} {p i stop : Nat} (hblock : form.isBlock = false)
    (h : BlocksBehind p form.children) : BlocksBehind p [⟨⟨p, i⟩, stop, form⟩] := by
  intro n hn m hm hm'
  rw [List.mem_singleton] at hn
  subst hn
  rcases hm.eq_or_below with rfl | ⟨c, hc, hm⟩
  · simp [hblock] at hm'
  · exact h c hc m hm hm'

/-- A composite node other than a block that is closed over what was read. -/
lemma Reads.solidNode {form : Form Node} (h : Reads s w st₀ st form.children)
    (htoken : form.kind.isToken = false) (hblock : form.isBlock = false)
    (hsolid : Node.Solid s ⟨⟨st₀.here, st.arena.size⟩, st.here, form⟩)
    (hshown : st.Quiet → form.Recalls s) :
    Reads s w st₀ (st.closed st₀.here form) [st.node st₀.here form] where
  toCovers := h.toCovers.node hsolid htoken hshown
  behind := blocksBehind_node hblock h.behind

/-- A node without a token of its own whose evaluated parts are not empty. -/
lemma Reads.evaluatedNode {form : Form Node} (h : Reads s w st₀ st form.children)
    (hown : form.ownsToken = false) (hcomposite : form.isComposite = true)
    (hfilled : form.isFilled = false) (hevaluated : ∀ c ∈ form.evaluated, c.Proper s)
    (hshown : st.Quiet → form.Recalls s) :
    Reads s w st₀ (st.closed st₀.here form) [st.node st₀.here form] := by
  have hblock := Form.isBlock_of_isComposite hcomposite
  exact h.solidNode (Form.isToken_of_isComposite hcomposite) hblock
    (.of_evaluated hown hblock hfilled (.of_isComposite hcomposite) hevaluated) hshown

/-- A node of a plain form that is closed over what was read. -/
theorem Reads.node {form : Form Node} (h : Reads s w st₀ st form.children)
    (hplain : form.isPlainNode = true) :
    Reads s w st₀ (st.closed st₀.here form) [st.node st₀.here form] := by
  obtain ⟨hcomposite, hplain⟩ := (Bool.and_eq_true ..).mp hplain
  exact h.solidNode (Form.isToken_of_isComposite hcomposite)
    (Form.isBlock_of_isComposite hcomposite) (.of_isPlain hplain)
    fun _ => .of_shown (Form.shown_of_isModest (Form.isModest_of_isPlain hplain))

/-- A node with a token of its own whose evaluated parts are not empty. -/
lemma Spends.evaluatedNode {form : Form Node} (h : Spends s w st₀ st form.children)
    (hcomposite : form.isComposite = true) (hevaluated : ∀ c ∈ form.evaluated, c.Proper s)
    (hshown : st.Quiet → form.Recalls s) :
    Reads s w st₀ (st.closed st₀.here form) [st.node st₀.here form] :=
  h.toReads.solidNode (Form.isToken_of_isComposite hcomposite)
    (Form.isBlock_of_isComposite hcomposite) (.of_gap h.gap hcomposite hevaluated) hshown

/-- A node with a token of its own. -/
theorem Spends.node {form : Form Node} (h : Spends s w st₀ st form.children)
    (hcomposite : form.isComposite = true) (hevaluated : form.evaluated = []) :
    Reads s w st₀ (st.closed st₀.here form) [st.node st₀.here form] :=
  h.evaluatedNode hcomposite (by simp [hevaluated])
    fun _ => .of_shown (Form.shown_eq_nil hevaluated)

/-- A composite node that took a token. -/
lemma Reads.fillsNode {form : Form Node}
    (h : Reads s w st₀ (st.closed st₀.here form) [st.node st₀.here form])
    (htoken : form.kind.isToken = false) (hlt : st₀.here < st.previousStop) :
    FillsTo s w st₀ (st.closed st₀.here form) (some (st.node st₀.here form)) := by
  refine ⟨h, fun n hn => ?_⟩
  cases hn
  exact ⟨hlt, .of_name?_eq_none (Form.name?_eq_none htoken)⟩

/-- An operation, from what its operands are and how its operator joins them. -/
lemma Reads.operationFills {left : Node} {operator : TokenKind} {right : Option Node}
    (h : Reads s w st₀ st (left :: right.toList)) (hleft : left.Proper s)
    (hgraded : (Form.binary left operator right).Graded)
    (hshown : st.Quiet → (Form.binary left operator right).Recalls s) (hlt : st₀.here < st.here) :
    FillsTo s w st₀ (st.closed st₀.here (.binary left operator right))
      (some (st.node st₀.here (.binary left operator right))) := by
  have hreads : Reads s w st₀ st (Form.binary left operator right).children := h
  have hevaluated : ∀ c ∈ (Form.binary left operator right).evaluated, c.Proper s :=
    List.forall_mem_singleton.mpr hleft
  exact (hreads.solidNode rfl rfl (.of_evaluated rfl rfl rfl hgraded hevaluated)
    hshown).fillsNode rfl (h.lt_previousStop hlt)

/-- A node that took a token and whose evaluated parts are not empty. -/
lemma Reads.evaluatedFills {form : Form Node} (h : Reads s w st₀ st form.children)
    (hown : form.ownsToken = false) (hcomposite : form.isComposite = true)
    (hfilled : form.isFilled = false) (hevaluated : ∀ c ∈ form.evaluated, c.Proper s)
    (hshown : st.Quiet → form.Recalls s) (hlt : st₀.here < st.here) :
    FillsTo s w st₀ (st.closed st₀.here form) (some (st.node st₀.here form)) :=
  (h.evaluatedNode hown hcomposite hfilled hevaluated hshown).fillsNode
    (Form.isToken_of_isComposite hcomposite) (h.lt_previousStop hlt)

/-- A node with a token of its own is not empty. -/
lemma Spends.evaluatedFills {form : Form Node} (h : Spends s w st₀ st form.children)
    (hcomposite : form.isComposite = true) (hevaluated : ∀ c ∈ form.evaluated, c.Proper s)
    (hshown : st.Quiet → form.Recalls s) :
    FillsTo s w st₀ (st.closed st₀.here form) (some (st.node st₀.here form)) :=
  (h.evaluatedNode hcomposite hevaluated hshown).fillsNode
    (Form.isToken_of_isComposite hcomposite)
    (h.toReads.lt_previousStop h.lt)

lemma Spends.filledNode {form : Form Node} (h : Spends s w st₀ st form.children)
    (hcomposite : form.isComposite = true) (hevaluated : form.evaluated = []) :
    FillsTo s w st₀ (st.closed st₀.here form) (some (st.node st₀.here form)) :=
  h.evaluatedFills hcomposite (by simp [hevaluated])
    fun _ => .of_shown (Form.shown_eq_nil hevaluated)

/-- A node that took a token. -/
lemma Reads.filledNode {form : Form Node} (h : Reads s w st₀ st form.children)
    (hmodest : form.isModestNode = true) (hlt : st₀.here < st.here) :
    FillsTo s w st₀ (st.closed st₀.here form) (some (st.node st₀.here form)) := by
  obtain ⟨hcomposite, hmodest⟩ := (Bool.and_eq_true ..).mp hmodest
  have htoken := Form.isToken_of_isComposite hcomposite
  exact (h.solidNode htoken (Form.isBlock_of_isComposite hcomposite)
    (.of_isFilled hmodest fun _ => hlt)
    fun _ => .of_shown (Form.shown_of_isModest hmodest)).fillsNode htoken (h.lt_previousStop hlt)

end

end ParserState

end InlineValues
