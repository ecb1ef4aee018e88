import InlineValues.Proofs.Grammar.Run
import InlineValues.Proofs.Token.Snapshot

/-!
# The steps that productions are made of

One lemma for each operation of parsers.  Asking about the current token changes nothing, looking
ahead comes back to the same place, and consuming a token moves on unless the text has ended
(`Advances`).  A loop keeps what each of its steps keeps (`Gives.repeatFrom`), so that lists are
read element by element (`reads_delimited`).
-/

namespace InlineValues

namespace ParserState

/-- The text, the context, the depth, the nodes and the names are those of an earlier state, what
was reported is kept, and no guarded production was refused meanwhile. -/
structure Frame (st st' : ParserState) : Prop where
  lexer : st.lexer.Extends st'.lexer
  diagnostics : AddsTo (fun _ => True) st.diagnostics st'.diagnostics
  context : st'.context = st.context
  depth : st'.depth = st.depth
  refused : st'.refused = st.refused
  arena : st'.arena = st.arena
  known : st'.knownNames = st.knownNames
  consulted : st'.consulted = st.consulted

namespace Frame

variable {st st' st'' : ParserState}

lemma refl (st : ParserState) : st.Frame st := ⟨.refl _, .refl _ _, rfl, rfl, rfl, rfl, rfl, rfl⟩

lemma trans (h : st.Frame st') (h' : st'.Frame st'') : st.Frame st'' :=
  ⟨h.lexer.trans h'.lexer, h.diagnostics.trans h'.diagnostics, h'.context.trans h.context,
    h'.depth.trans h.depth, h'.refused.trans h.refused, h'.arena.trans h.arena,
    h'.known.trans h.known, h'.consulted.trans h.consulted⟩

lemma source (h : st.Frame st') : st'.lexer.source = st.lexer.source := h.lexer.source

/-- Coming back puts in place what looking ahead may have changed. -/
lemma restore_save (h : st.Frame st') : (st'.restore st.save).lexer = st.lexer ∧
    (st'.restore st.save).diagnostics = st.diagnostics :=
  ⟨h.lexer.restore_save, h.diagnostics.shrink_eq⟩

end Frame

end ParserState

namespace Parser

open ParserState

variable {α β : Type} {s : Source} {w : Nat} {st st₀ : ParserState}

/-- From every sound state the parser reads the nodes that are found in its result. -/
def Reads (s : Source) (w : Nat) (p : Parser α) (nodes : α → List Node) : Prop :=
  ∀ st : ParserState, st.Sound s w → p.Gives st fun a st' => st.Reads s w st' (nodes a)

/-- From every sound state the parser moves on without giving nodes. -/
def Skips (s : Source) (w : Nat) (p : Parser α) : Prop := p.Reads s w fun _ => []

/-- From every sound state the parser comes back to the same place. -/
def Peeks (s : Source) (w : Nat) (p : Parser α) : Prop :=
  ∀ st : ParserState, st.Sound s w → p.Gives st fun _ st' => st.SamePlace s st'

/-- From every sound state the test comes back to the same place, and it fails at the end of the
file. -/
def Spots (s : Source) (w : Nat) (p : Parser Bool) : Prop :=
  ∀ st : ParserState, st.Sound s w → p.Gives st fun b st' =>
    st.SamePlace s st' ∧ (b = true → st'.kind ≠ .endOfFile)

lemma Peeks.skips {p : Parser α} (h : p.Peeks s w) : p.Skips s w :=
  fun st hs => (h st hs).mono fun _ _ hsame => hsame.reads hs

lemma Reads.skips {p : Parser α} {nodes : α → List Node} (h : p.Reads s w nodes) : p.Skips s w :=
  fun st hs => (h st hs).mono fun _ _ hread => hread.forget

/-- Away from the end of the file every test that comes back does so. -/
lemma Peeks.spots {st : ParserState} {p : Parser Bool} (h : p.Peeks s w) (hs : st.Sound s w)
    (hkind : st.kind ≠ .endOfFile) :
    p.Gives st fun b st' => st.SamePlace s st' ∧ (b = true → st'.kind ≠ .endOfFile) :=
  (h st hs).mono fun b st' hsame => ⟨hsame, fun _ => by rwa [hsame.kind]⟩

/-! ## Asking about the current token -/

namespace Gives

variable {Q : β → ParserState → Prop}

lemma kind {f : TokenKind → Parser β} (h : (f st.kind).Gives st Q) :
    (Parser.kind >>= f).Gives st Q := h

lemma pos {f : Nat → Parser β} (h : (f st.here).Gives st Q) : (Parser.pos >>= f).Gives st Q := h

lemma value {f : List Char → Parser β} (h : (f st.lexer.token.value).Gives st Q) :
    (Parser.value >>= f).Gives st Q := h

lemma afterLineBreak {f : Bool → Parser β} (h : ∀ b, (f b).Gives st Q) :
    (Parser.afterLineBreak >>= f).Gives st Q := h _

lemma isMultiLineFrom {pos : Nat} {f : Bool → Parser β} (h : ∀ b, (f b).Gives st Q) :
    (Parser.isMultiLineFrom pos >>= f).Gives st Q := h _

lemma afterLineBreak_eq {b : Bool} {f : Bool → Parser β}
    (hb : st.lexer.token.afterLineBreak = b) (h : (f b).Gives st Q) :
    (Parser.afterLineBreak >>= f).Gives st Q := by
  rw [← hb] at h
  exact h

lemma get {f : ParserState → Parser β} (h : (f st).Gives st Q) :
    ((MonadState.get : Parser ParserState) >>= f).Gives st Q := h

lemma modify_bind {g : ParserState → ParserState} {f : Unit → Parser β}
    (h : (f ()).Gives (g st) Q) :
    ((modify g : Parser Unit) >>= f).Gives st Q := h

lemma at? {k : TokenKind} {f : Bool → Parser β}
    (h : ∀ b, (b = true → st.kind = k) → (b = false → st.kind ≠ k) → (f b).Gives st Q) :
    (Parser.at? k >>= f).Gives st Q :=
  h (st.kind == k) eq_of_beq (fun hb heq => by simp [heq] at hb)

lemma at?_eq {k : TokenKind} {f : Bool → Parser β} (hkind : st.kind = k)
    (h : (f true).Gives st Q) : (Parser.at? k >>= f).Gives st Q :=
  .at? fun b _ hfalse => by
    cases b with
    | true => exact h
    | false => exact absurd hkind (hfalse rfl)

lemma at?_ne {k : TokenKind} {f : Bool → Parser β} (hkind : st.kind ≠ k)
    (h : (f false).Gives st Q) : (Parser.at? k >>= f).Gives st Q :=
  .at? fun b htrue _ => by
    cases b with
    | true => exact absurd (htrue rfl) hkind
    | false => exact h

lemma advance {f : Unit → Parser β} (h : (f ()).Gives st.advanced Q) :
    (Parser.advance >>= f).Gives st Q := h

/-- A token that is there is taken. -/
lemma optional_taken {k : TokenKind} (hkind : st.kind = k) :
    (Parser.optional k).Gives st fun b st' => b = true ∧ st' = st.advanced :=
  .at?_eq hkind (.advance (.pure ⟨rfl, rfl⟩))

/-- Nothing happens where it is not there. -/
lemma optional_missing {k : TokenKind} (hkind : st.kind ≠ k) :
    (Parser.optional k).Gives st fun b st' => b = false ∧ st' = st :=
  .at?_ne hkind (.pure ⟨rfl, rfl⟩)

lemma optional_eq {k : TokenKind} {f : Bool → Parser β} (hkind : st.kind = k)
    (h : (f true).Gives st.advanced Q) : (Parser.optional k >>= f).Gives st Q := by
  refine (optional_taken hkind).bind fun b st' hst => ?_
  obtain ⟨rfl, rfl⟩ := hst
  exact h

lemma optional_ne {k : TokenKind} {f : Bool → Parser β} (hkind : st.kind ≠ k)
    (h : (f false).Gives st Q) : (Parser.optional k >>= f).Gives st Q := by
  refine (optional_missing hkind).bind fun b st' hst => ?_
  obtain ⟨rfl, rfl⟩ := hst
  exact h

lemma expect_eq {k : TokenKind} {f : Unit → Parser β} (hkind : st.kind = k)
    (h : (f ()).Gives st.advanced Q) : (Parser.expect k >>= f).Gives st Q := by
  have hexpect : (Parser.expect k).Gives st fun _ st' => st' = st.advanced :=
    .optional_eq hkind rfl
  refine hexpect.bind fun _ st' hst => ?_
  rw [hst]
  exact h

lemma pure_bind {a : α} {f : α → Parser β} (h : (f a).Gives st Q) :
    ((Pure.pure a : Parser α) >>= f).Gives st Q := h

/-- The end of a node. -/
lemma finish {pos : Nat} {form : Form Node} {f : Node → Parser β}
    (h : (f (st.node pos form)).Gives (st.closed pos form) Q) :
    (Parser.finish pos form >>= f).Gives st Q := h

/-- A node with a range of its own. -/
lemma nodeAt {pos stop : Nat} {form : Form Node} {f : Node → Parser β}
    (h : (f ⟨⟨pos, st.arena.size⟩, stop, form⟩).Gives
      (st.added pos stop (form.map fun n => n.index)) Q) :
    (Parser.nodeAt pos stop form >>= f).Gives st Q := h

/-- Only the items of a list matter, not its own range. -/
lemma sequenceOf {γ : Type} {items : List γ} {node? : γ → Option Node} {f : Sequence γ → Parser β}
    (h : ∀ q : Sequence γ, q.items = items → (f q).Gives st Q) :
    (Parser.sequenceOf items node? >>= f).Gives st Q := h _ rfl

lemma sequence {items : List Node} {f : Sequence Node → Parser β}
    (h : ∀ q : Sequence Node, q.items = items → (f q).Gives st Q) :
    (Parser.sequence items >>= f).Gives st Q := h _ rfl

lemma sequence? {items : List Node} {f : Option (Sequence Node) → Parser β}
    (h : ∀ q : Option (Sequence Node), itemsOf q = items → (f q).Gives st Q) :
    (Parser.sequence? items >>= f).Gives st Q := by
  cases items with
  | nil => exact h none rfl
  | cons n ns => exact h (some _) rfl

lemma ite {Q : α → ParserState → Prop} {c : Prop} {_ : Decidable c} {p q : Parser α}
    (hp : p.Gives st Q) (hq : q.Gives st Q) : Gives (if c then p else q) st Q := by
  split
  · exact hp
  · exact hq

/-- A branch whose result goes on in one way. -/
lemma ite_bind {P : α → ParserState → Prop} {c : Prop} {_ : Decidable c} {p q : Parser α}
    {f : α → Parser β} (h : (if c then p else q).Gives st P)
    (hf : ∀ a st', P a st' → (f a).Gives st' Q) :
    Gives (if c then p >>= f else q >>= f) st Q := by
  split at h
  · rw [if_pos (by assumption)]
    exact h.bind hf
  · rw [if_neg (by assumption)]
    exact h.bind hf

/-- A step that is left out where its condition fails. -/
lemma when_bind {P : ParserState → Prop} {c : Prop} {_ : Decidable c} {p : Parser Unit}
    {f : Unit → Parser β} (hp : c → p.Gives st fun _ st' => P st') (hskip : ¬c → P st)
    (hf : ∀ st', P st' → (f ()).Gives st' Q) :
    Gives (if c then p >>= f else f ()) st Q := by
  split
  case isTrue hc => exact (hp hc).bind fun _ st' => hf st'
  case isFalse hc => exact hf st (hskip hc)

/-- A branch that is taken where a condition holds and a test then succeeds. -/
lemma ite_test {P : Bool → ParserState → Prop} {c : Prop} {_ : Decidable c} {test : Parser Bool}
    {p q : Parser β} (htest : c → test.Gives st P) (hskip : ¬c → P false st)
    (hp : ∀ st', c → P true st' → p.Gives st' Q) (hq : ∀ st', P false st' → q.Gives st' Q) :
    Gives (if c then test >>= fun b => if b = true then p else q else q) st Q := by
  split
  case isTrue hc =>
    refine (htest hc).bind fun b st' h => ?_
    cases b with
    | true => exact hp st' hc h
    | false => exact hq st' h
  case isFalse hc => exact hq st (hskip hc)

end Gives

lemma gives_finish {pos : Nat} {form : Form Node} {Q : Node → ParserState → Prop}
    (h : Q (st.node pos form) (st.closed pos form)) : (finish pos form).Gives st Q := h

lemma gives_sequence {items : List Node} {Q : Sequence Node → ParserState → Prop}
    (h : ∀ q : Sequence Node, q.items = items → Q q st) : (sequence items).Gives st Q := h _ rfl

lemma gives_sequence? {items : List Node} {Q : Option (Sequence Node) → ParserState → Prop}
    (h : ∀ q : Option (Sequence Node), itemsOf q = items → Q q st) :
    (sequence? items).Gives st Q := by
  cases items with
  | nil => exact h none rfl
  | cons n ns => exact h (some _) rfl

lemma peeks_kind : kind.Peeks s w := fun st _ => .refl st

lemma peeks_at? (k : TokenKind) : (at? k).Peeks s w := fun st _ => .refl st

lemma peeks_afterLineBreak : afterLineBreak.Peeks s w := fun st _ => .refl st

lemma peeks_pure (a : α) : (pure a : Parser α).Peeks s w := fun st _ => .refl st

lemma Peeks.bind {p : Parser α} {f : α → Parser β} (hp : p.Peeks s w)
    (hf : ∀ a, (f a).Peeks s w) :
    (p >>= f).Peeks s w := by
  intro st hs
  refine (hp st hs).bind fun a st₁ h₁ => ?_
  exact (hf a st₁ (h₁.sound hs)).mono fun _ _ h₂ => h₁.trans h₂

lemma Skips.bind {p : Parser α} {f : α → Parser β} (hp : p.Skips s w)
    (hf : ∀ a, (f a).Skips s w) :
    (p >>= f).Skips s w := by
  intro st hs
  refine (hp st hs).bind fun a st₁ h₁ => ?_
  exact (hf a st₁ h₁.sound).mono fun _ _ h₂ => h₁.skip h₂

lemma skips_pure (a : α) : (pure a : Parser α).Skips s w := (peeks_pure a).skips

lemma Peeks.ite {c : Prop} [Decidable c] {p q : Parser α} (hp : p.Peeks s w) (hq : q.Peeks s w) :
    (if c then p else q).Peeks s w := by
  split
  · exact hp
  · exact hq

lemma Skips.ite {c : Prop} [Decidable c] {p q : Parser α} (hp : p.Skips s w) (hq : q.Skips s w) :
    (if c then p else q).Skips s w := by
  split
  · exact hp
  · exact hq

lemma Reads.ite {c : Prop} [Decidable c] {p q : Parser α} {nodes : α → List Node}
    (hp : p.Reads s w nodes) (hq : q.Reads s w nodes) : (if c then p else q).Reads s w nodes := by
  split
  · exact hp
  · exact hq

lemma Reads.map {p : Parser α} {f : α → β} {nodes : β → List Node}
    (h : p.Reads s w fun a => nodes (f a)) : (f <$> p).Reads s w nodes := h

lemma Reads.option {p : Parser Node} (h : p.Reads s w fun n => [n]) :
    (some <$> p).Reads s w Option.toList := h

/-- Nothing is read, and nothing is given. -/
lemma reads_pure {a : α} {nodes : α → List Node} (h : nodes a = []) :
    (pure a : Parser α).Reads s w nodes := by
  intro st hs
  change st.Reads s w st (nodes a)
  rw [h]
  exact hs.reads

lemma reads_none : (pure none : Parser (Option Node)).Reads s w Option.toList := reads_pure rfl

/-! ## Faults -/

/-- One more diagnostic, excessive nesting for the first time only. -/
lemma told_push {d : Diagnostic} {lastFault lastFault' : Option Nat} {refused refused' : Bool}
    {ds : Array Diagnostic} (h : Told ds lastFault refused)
    (hd : d.fault = .excessiveNesting → ∀ d' ∈ ds, d'.fault ≠ .excessiveNesting) :
    Told (ds.push d) lastFault' refused' := by
  have hsize : 0 < (ds.push d).size := by simp
  refine ⟨?_, fun _ => hsize, fun _ => hsize⟩
  have honce := h.once
  rw [Array.countP_push]
  split
  case isTrue hfault =>
    have hzero : ds.countP (fun d => d.fault == .excessiveNesting) = 0 := by
      rw [Array.countP_eq_zero]
      simpa using hd (eq_of_beq hfault)
    omega
  case isFalse => exact honce

/-- The range of the current token lies on the text. -/
lemma on_token (hs : st.lexer.Sound s) (fault : Fault) :
    Diagnostic.On s ⟨st.lexer.token.start, st.lexer.stop - st.lexer.token.start, fault⟩ :=
  Diagnostic.on_between (Cursor.on_cursor hs.start) hs.before

/-- A fault of the current token is reported, excessive nesting for the first time only. -/
lemma gives_report {fault : Fault} (hs : st.lexer.Sound s)
    (hfault : fault = .excessiveNesting → ∀ d ∈ st.diagnostics, d.fault ≠ .excessiveNesting) :
    (report fault).Gives st fun _ st' => st.SamePlace s st' := by
  change SamePlace s st (if st.lastFault == some st.lexer.token.start then st else _)
  split
  · exact .refl st
  · exact ⟨rfl, rfl, rfl, rfl, rfl, rfl, rfl, rfl, id, fun htold => told_push htold hfault,
      ⟨.push (on_token hs fault) _, .refl _ _⟩, .refl s st.arena⟩

lemma peeks_report {fault : Fault} (hfault : fault ≠ .excessiveNesting) :
    (report fault).Peeks s w :=
  fun _ hs => gives_report hs.lexer fun heq => absurd heq hfault

/-! ## Consuming tokens -/

/-- A run without nodes that moved on, unless the text had ended. -/
structure Advances (s : Source) (w : Nat) (st st' : ParserState) : Prop extends
    st.Reads s w st' [] where
  lt : st.kind ≠ .endOfFile → st.here < st'.here
  stop : st'.here = st.lexer.stop
  token : st'.lexer.token = st.lexer.scan.token

lemma gives_advance (hs : st.Sound s w) : advance.Gives st fun _ st' => Advances s w st st' := by
  have hsound : (st.lexer.scan).Sound s := Lexer.sound_scan hs.lexer.source hs.lexer.cursor
  have hhere : st.lexer.scan.token.fullStart = st.lexer.cursor.pos := Lexer.fullStart_scan _
  have hle : st.lexer.token.fullStart ≤ st.lexer.scan.token.fullStart := by
    rw [hhere]
    exact Nat.le_trans hs.lexer.fullStart_le hs.lexer.start_le
  constructor
  case toReads =>
    constructor
    case behind => simp
    constructor
    case sound =>
      refine ⟨hsound, rfl, hhere.symm, Nat.lt_of_le_of_lt ?_ hs.left_lt, hs.moving, hs.told,
        Lexer.noted_scan hs.lexer.cursor⟩
      exact Nat.add_le_add_right (Nat.sub_le_sub_left hle _) _
    case start_cut => exact hs.cut_here
    case fits => exact hle
    case begun =>
      intro _
      change s.tokenStart st.lexer.token.fullStart ≤ st.lexer.scan.token.fullStart
      rw [hs.lexer.trivia, hhere]
      exact hs.lexer.start_le
    case laidOut => simp
    case named => simp
    case tells => exact ⟨.refl _ _, Lexer.adds_scan hs.lexer.source hs.lexer.cursor⟩
    case grown => exact .refl s st.arena
    case recalled => simp
    all_goals rfl
  case lt =>
    intro hkind
    change st.lexer.token.fullStart < st.lexer.scan.token.fullStart
    rw [hhere]
    exact hs.lexer.fullStart_lt (hs.current ▸ hkind)
  case stop => exact hhere
  case token => rfl

lemma skips_advance : advance.Skips s w :=
  fun _ hs => (gives_advance hs).mono fun _ _ h => h.toReads

/-- What is known when a token that may be there was asked for. -/
structure Takes (s : Source) (w : Nat) (k : TokenKind) (st : ParserState) (taken : Bool)
    (st' : ParserState) :
    Prop where
  reads : st.Reads s w st' []
  kind : taken = true → st.kind = k
  lt : taken = true → k ≠ .endOfFile → st.here < st'.here
  same : taken = false → st' = st ∧ st.kind ≠ k

lemma gives_optional (k : TokenKind) (hs : st.Sound s w) :
    (optional k).Gives st fun b st' => Takes s w k st b st' := by
  refine .at? fun b htrue hfalse => ?_
  cases b with
  | true =>
    refine (gives_advance hs).bind fun _ st₁ h₁ => ?_
    exact ⟨h₁.toReads, fun _ => htrue rfl, fun _ hk => h₁.lt (htrue rfl ▸ hk), Bool.noConfusion⟩
  | false => exact ⟨hs.reads, Bool.noConfusion, Bool.noConfusion, fun _ => ⟨rfl, hfalse rfl⟩⟩

lemma skips_optional (k : TokenKind) : (optional k).Skips s w :=
  fun _ hs => (gives_optional k hs).mono fun _ _ h => h.reads

lemma skips_discard_optional (k : TokenKind) : (Functor.discard (optional k)).Skips s w :=
  fun st hs => .discard (skips_optional k st hs)

/-- What is known when a token that has to be there was asked for. -/
structure Expects (s : Source) (w : Nat) (k : TokenKind) (st st' : ParserState) : Prop where
  reads : st.Reads s w st' []
  lt : st.kind = k → k ≠ .endOfFile → st.here < st'.here
  same : st.kind ≠ k → st.SamePlace s st'

lemma gives_expect (k : TokenKind) (hs : st.Sound s w) :
    (expect k).Gives st fun _ st' => Expects s w k st st' := by
  refine (gives_optional k hs).bind fun b st₁ h₁ => ?_
  cases b with
  | true => exact ⟨h₁.reads, fun _ => h₁.lt rfl, fun hk => absurd (h₁.kind rfl) hk⟩
  | false =>
    obtain ⟨rfl, hk⟩ := h₁.same rfl
    refine (peeks_report (by nofun) st₁ hs).mono fun _ st₂ h₂ => ?_
    exact ⟨h₂.reads hs, fun heq => absurd heq hk, fun _ => h₂⟩

lemma skips_expect (k : TokenKind) : (expect k).Skips s w :=
  fun _ hs => (gives_expect k hs).mono fun _ _ h => h.reads

lemma peeks_canEndStatement : canEndStatement.Peeks s w := by
  refine peeks_kind.bind fun k => ?_
  split
  all_goals first | exact peeks_pure _ | exact peeks_afterLineBreak

lemma skips_semicolon : semicolon.Skips s w := by
  refine peeks_canEndStatement.skips.bind fun b => ?_
  exact .ite (skips_discard_optional _) (skips_expect _)

/-! ## What a parser leaves in place -/

/-- The parser leaves the text, the context and the depth in place, and has nothing refused.  This
is found for what reads tokens only, looking ahead or not. -/
class Frames (p : Parser α) : Prop where
  frame : ∀ st : ParserState, p.Gives st fun _ st' => st.Frame st'

namespace Frames

variable {p q : Parser α} {f : α → Parser β}

lemma bind (hp : p.Frames) (hf : ∀ a, (f a).Frames) : (p >>= f).Frames where
  frame st := (hp.frame st).bind fun a st₁ h => ((hf a).frame st₁).mono fun _ _ h' => h.trans h'

instance [p.Frames] [∀ a, (f a).Frames] : (p >>= f).Frames :=
  bind inferInstance fun _ => inferInstance

instance (a : α) : (pure a : Parser α).Frames := ⟨fun st => .refl st⟩

instance [p.Frames] (g : α → β) : (g <$> p).Frames := ⟨fun st => .map (frame (p := p) st)⟩

instance [p.Frames] : (Functor.discard p).Frames := ⟨fun st => .discard (frame (p := p) st)⟩

lemma ite {c : Prop} [Decidable c] (hp : p.Frames) (hq : q.Frames) :
    (if c then p else q).Frames := by
  split
  · exact hp
  · exact hq

instance {c : Prop} [Decidable c] [p.Frames] [q.Frames] : (if c then p else q).Frames :=
  ite inferInstance inferInstance

instance : kind.Frames := ⟨fun st => .refl st⟩

instance (k : TokenKind) : (at? k).Frames := ⟨fun st => .refl st⟩

instance : pos.Frames := ⟨fun st => .refl st⟩

instance : value.Frames := ⟨fun st => .refl st⟩

instance : afterLineBreak.Frames := ⟨fun st => .refl st⟩

instance : (get : Parser ParserState).Frames := ⟨fun st => .refl st⟩

instance : advance.Frames := ⟨fun st => ⟨.scan st.lexer, .refl _ _, rfl, rfl, rfl, rfl, rfl, rfl⟩⟩

instance (k : TokenKind) : (optional k).Frames := by
  unfold Parser.optional
  infer_instance

instance (fault : Fault) : (report fault).Frames where
  frame st := by
    change st.Frame (if st.lastFault == some st.lexer.token.start then st else _)
    split
    · exact .refl st
    · exact ⟨.refl _, .push trivial _, rfl, rfl, rfl, rfl, rfl, rfl⟩

instance (k : TokenKind) : (expect k).Frames := by
  unfold Parser.expect
  infer_instance

instance : canEndStatement.Frames := by
  unfold canEndStatement
  refine bind inferInstance fun k => ?_
  split <;> infer_instance

instance : semicolon.Frames := by
  unfold semicolon
  infer_instance

lemma rescan {g : Lexer → Lexer} (h : ∀ l : Lexer, l.Extends (g l)) :
    (Parser.rescan g).Frames :=
  ⟨fun st => ⟨h st.lexer, .refl _ _, rfl, rfl, rfl, rfl, rfl, rfl⟩⟩

instance : (Parser.rescan Lexer.rescanGreater).Frames := rescan .rescanGreater

instance : (Parser.rescan Lexer.rescanSlash).Frames := rescan .rescanSlash

instance : (Parser.rescan Lexer.rescanTemplate).Frames := rescan .rescanTemplate

instance [p.Frames] : (lookAhead p).Frames where
  frame st := by
    have h : st.Frame (p.run st).2 := frame st
    exact ⟨h.lexer.restore (Nat.le_refl _), h.diagnostics.shrink (Nat.le_refl _), h.context,
      h.depth, h.refused, h.arena, h.known, h.consulted⟩

instance {test : Parser Bool} [test.Frames] : (nextOnSameLine test).Frames := by
  unfold nextOnSameLine
  infer_instance

instance (test : TokenKind → Bool) : (nextIs test).Frames := by
  unfold nextIs
  infer_instance

theorem repeatFrom {step : β → Parser (ForInStep β)} (h : ∀ b, (step b).Frames) (b : β) :
    (Parser.repeatFrom b step).Frames := by
  have stalled {st st' : ParserState} (h : st.Frame st') :
      st.Frame { st' with stalled := true } :=
    ⟨h.lexer, h.diagnostics, h.context, h.depth, h.refused, h.arena, h.known, h.consulted⟩
  have hiterate (fuel : Nat) (b : β) : (iterate step fuel b).Frames := by
    induction fuel generalizing b with
    | zero => exact ⟨fun st => stalled (.refl st)⟩
    | succ fuel ih =>
      refine ⟨fun st => .pos (((h b).frame st).bind fun r st₁ h₁ => ?_)⟩
      cases r with
      | done b => exact h₁
      | yield b =>
        refine .pos (.when_bind (P := fun st' => st.Frame st')
          (fun _ => stalled h₁) (fun _ => h₁) fun st₂ h₂ => ?_)
        exact ((ih b).frame st₂).mono fun _ _ h₃ => h₂.trans h₃
  exact bind inferInstance fun _ => hiterate _ b

instance {step : β → Parser (ForInStep β)} [∀ b, (step b).Frames] (b : β) :
    (Parser.repeatFrom b step).Frames := repeatFrom (fun _ => inferInstance) b

end Frames

/-! ## Reading the current token in another way -/

/-- A way of reading the current token again that does not move its start. -/
lemma gives_rescan {f : Lexer → Lexer} (hs : st.Sound s w) (hsound : (f st.lexer).Sound s)
    (hadds : st.lexer.Adds s (f st.lexer))
    (hstart : (f st.lexer).token.fullStart = st.lexer.token.fullStart) :
    (rescan f).Gives st fun k st' =>
      st.Reads s w st' [] ∧ st'.here = st.here ∧ st'.kind = (f st.lexer).token.kind ∧
        k = st'.kind := by
  refine ⟨?_, hstart, rfl, rfl⟩
  constructor
  case behind => simp
  constructor
  case sound =>
    refine ⟨hsound, rfl, hs.previous.trans hstart.symm, ?_, hs.moving, hs.told,
      hs.noted.adds hadds hstart⟩
    have hleft := hs.left_lt
    rwa [left, here, ← hstart] at hleft
  case start_cut => exact hs.cut_here
  case fits => exact Nat.le_of_eq hstart.symm
  case begun => exact fun hlt => absurd hstart (Nat.ne_of_gt hlt)
  case laidOut => simp
  case named => simp
  case tells => exact ⟨.refl _ _, hadds⟩
  case grown => exact .refl s st.arena
  case recalled => simp
  all_goals rfl

/-! ## Looking ahead -/

/-- Whatever is read ahead, the parser comes back to the same place, and exactly what was reported
on the way is forgotten.  A refusal must not be among it. -/
lemma gives_lookAhead {p : Parser α} [hframe : p.Frames] (hs : st.Sound s w)
    (h : p.Gives st fun _ st' => st.Reads s w st' []) :
    (lookAhead p).Gives st fun _ st' => st.SamePlace s st' := by
  have hdiagnostics := h.tells.diagnostics.shrink_eq
  have hlexer := h.tells.lexer.shrink_eq
  have hrefused : (p.run st).2.refused = st.refused := (hframe.frame st).refused
  refine ⟨h.sound.lexer.source.trans hs.lexer.source.symm, rfl, rfl, rfl, rfl, h.context, h.depth,
    h.known, fun _ => h.sound.moving, fun htold => ?_, ⟨?_, ?_⟩, h.grown⟩
  · change Told ((p.run st).2.diagnostics.shrink st.diagnostics.size) st.lastFault
      (p.run st).2.refused
    rwa [hdiagnostics, hrefused]
  · change AddsTo _ _ ((p.run st).2.diagnostics.shrink st.diagnostics.size)
    rw [hdiagnostics]
    exact .refl _ _
  · change AddsTo _ _ ((p.run st).2.lexer.diagnostics.shrink st.lexer.diagnostics.size)
    rw [hlexer]
    exact .refl _ _

lemma Skips.lookAhead {p : Parser α} [p.Frames] (hp : p.Skips s w) : (lookAhead p).Peeks s w :=
  fun st hs => gives_lookAhead hs (hp st hs)

lemma peeks_nextOnSameLine {test : Parser Bool} [test.Frames] (h : test.Skips s w) :
    (nextOnSameLine test).Peeks s w := by
  refine Skips.lookAhead (skips_advance.bind fun _ => ?_)
  refine peeks_afterLineBreak.skips.bind fun b => ?_
  exact .ite (skips_pure _) h

lemma peeks_nextKindOnSameLine (test : TokenKind → Bool) :
    (nextOnSameLine do return test (← kind)).Peeks s w :=
  peeks_nextOnSameLine (peeks_kind.skips.bind fun _ => skips_pure _)

lemma peeks_nextIs (test : TokenKind → Bool) : (nextIs test).Peeks s w := by
  refine Skips.lookAhead (skips_advance.bind fun _ => ?_)
  exact peeks_kind.skips.bind fun k => skips_pure _

/-! ## Context and depth -/

/-- A parser in another context is run from the state in that context. -/
lemma gives_inContext {p : Parser α} {change : Context → Context} {Q : α → ParserState → Prop}
    (h : p.Gives { st with context := change st.context } fun a st' =>
      Q a { st' with context := st.context }) : (inContext change p).Gives st Q := h

/-- Changing the context and changing it back leaves what was covered. -/
lemma covers_of_context {context : Context} {st' : ParserState} {ns : List Node}
    (h : Covers s w { st with context } st' ns) :
    Covers s w st { st' with context := st.context } ns where
  sound := h.sound.inContext _
  start_cut := h.start_cut
  fits := h.fits
  begun := h.begun
  laidOut := h.laidOut
  named := h.named
  tells := ⟨h.tells.diagnostics, h.tells.lexer⟩
  grown := h.grown
  recalled hquiet := h.recalled ⟨hquiet.diagnostics, hquiet.lexer⟩
  context := rfl
  depth := h.depth
  known := h.known

lemma Reads.inContext {p : Parser α} {nodes : α → List Node} (h : p.Reads s w nodes)
    (change : Context → Context) : (inContext change p).Reads s w nodes := by
  intro st hs
  refine gives_inContext ((h _ (hs.inContext (change st.context))).mono fun _ _ hread => ?_)
  exact ⟨covers_of_context hread.toCovers, hread.behind⟩

/-- A refusal is told by any report. -/
lemma samePlace_refused (hsize : 0 < st.diagnostics.size) :
    st.SamePlace s { st with refused := true } :=
  ⟨rfl, rfl, rfl, rfl, rfl, rfl, rfl, rfl, id,
    fun htold => ⟨htold.once, htold.noted, fun _ => hsize⟩, ⟨.refl _ _, .refl _ _⟩,
    .refl s st.arena⟩

/-- The first refusal is reported, unless another fault was just reported there. -/
lemma gives_refuse (hs : st.Sound s w)
    (hfirst : ∀ d ∈ st.diagnostics, d.fault ≠ .excessiveNesting) :
    (report .excessiveNesting).Gives { st with refused := true } fun _ st' =>
      st.SamePlace s st' ∧ st'.refused = true := by
  change SamePlace s st (if st.lastFault == some st.lexer.token.start then _ else _) ∧
    ParserState.refused (if st.lastFault == some st.lexer.token.start then _ else _) = true
  split
  case isTrue hnoted =>
    exact ⟨samePlace_refused (hs.told.noted (by simp [eq_of_beq hnoted])), rfl⟩
  case isFalse =>
    exact ⟨⟨rfl, rfl, rfl, rfl, rfl, rfl, rfl, rfl, id,
      fun htold => told_push htold fun _ => hfirst, ⟨.push (on_token hs.lexer _) _, .refl _ _⟩,
      .refl s st.arena⟩, rfl⟩

/-- A guarded production is run one level deeper, or it is refused. -/
lemma Gives.nested {p : Parser (Option Node)} {Q : Option Node → ParserState → Prop}
    (h : st.depth < maxParserDepth → p.Gives { st with depth := st.depth + 1 } fun o st' =>
      Q o { st' with depth := st'.depth - 1 })
    (hrefuse : ¬st.depth < maxParserDepth → refuse.Gives st Q) : (Parser.nested p).Gives st Q := by
  rw [Gives, Parser.nested]
  dsimp only
  split
  case isTrue hdepth => exact h hdepth
  case isFalse hdepth => exact hrefuse hdepth

/-- A guarded production reads what it reads without the guard, or nothing at the deepest level,
where it is refused. -/
lemma gives_nested {p : Parser (Option Node)} {Q : Option Node → ParserState → Prop}
    (hs : st.Sound s w)
    (hnone : ∀ st', st.SamePlace s st' → st'.refused = true → Q none st')
    (h : st.depth < maxParserDepth → p.Gives { st with depth := st.depth + 1 } fun o st' =>
      Q o { st' with depth := st'.depth - 1 }) :
    (nested p).Gives st Q := by
  refine .nested h fun _ => ?_
  have hany : st.diagnostics.any (fun d => d.fault == .excessiveNesting) = true ↔
      ∃ d ∈ st.diagnostics, d.fault = .excessiveNesting := by
    simp only [Array.any_eq_true', beq_iff_eq]
  refine Gives.get (.modify_bind (.when_bind
    (P := fun st' => st.SamePlace s st' ∧ st'.refused = true)
    (fun hfirst => ?_) (fun hagain => ⟨?_, rfl⟩) fun st' h => hnone st' h.1 h.2))
  · apply gives_refuse hs
    intro d hd hfault
    simp [hany.mpr ⟨d, hd, hfault⟩] at hfirst
  · apply samePlace_refused
    obtain ⟨d, hd, -⟩ := hany.mp (by simpa only [Bool.not_eq_true', Bool.not_eq_false] using hagain)
    exact Array.size_pos_of_mem hd

/-- Counting the depth up and down again leaves what was covered. -/
lemma covers_of_deeper {st' : ParserState} {ns : List Node} (hdepth : st.depth < maxParserDepth)
    (h : Covers s (w - 1) { st with depth := st.depth + 1 } st' ns) :
    Covers s w st { st' with depth := st'.depth - 1 } ns where
  sound := by
    refine ⟨h.sound.lexer, h.sound.current, h.sound.previous, ?_, h.sound.moving, h.sound.told,
      h.sound.noted⟩
    have hleft := h.sound.left_lt
    have hsame := h.depth
    simp only [left, here] at hleft hsame ⊢
    omega
  start_cut := h.start_cut
  fits := h.fits
  begun := h.begun
  laidOut := h.laidOut
  named := h.named
  tells := ⟨h.tells.diagnostics, h.tells.lexer⟩
  grown := h.grown
  recalled hquiet := h.recalled ⟨hquiet.diagnostics, hquiet.lexer⟩
  context := h.context
  depth := by
    have := h.depth
    simp only at this ⊢
    omega
  known := h.known

lemma Reads.nested {p : Parser (Option Node)} (h : p.Reads s (w - 1) Option.toList) :
    (nested p).Reads s w Option.toList := by
  intro st hs
  refine gives_nested hs (fun st' hsame _ => hsame.reads hs) fun hdepth => ?_
  refine (h _ (hs.deeper hdepth)).mono fun o st' hread => ?_
  exact ⟨covers_of_deeper hdepth hread.toCovers, hread.behind⟩

/-! ## Loops -/

/-- What a round of a loop gives: it keeps `I`, and where another round follows it moves on. -/
structure Round (I : α → ParserState → Prop) (st : ParserState) (r : ForInStep α)
    (st' : ParserState) : Prop where
  keeps : I r.value st'
  lt : ∀ a, r = .yield a → st.here < st'.here

section

variable {I : α → ParserState → Prop} {f : α → Parser (ForInStep α)} {a : α}

lemma Round.yield {st' : ParserState} (h : I a st') (hlt : st.here < st'.here) :
    Round I st (.yield a) st' := ⟨h, fun _ _ => hlt⟩

lemma Round.done {st' : ParserState} (h : I a st') : Round I st (.done a) st' := ⟨h, nofun⟩

/-- What the last round of a loop brings about is found behind the loop, if every other round keeps
what the rounds need.  As these rounds move on, what is left of the text bounds their number. -/
lemma Gives.iterate {J : α → ParserState → Prop} (hsound : ∀ a st, I a st → st.Sound s w)
    (hround : ∀ a st, I a st → (f a).Gives st fun r st' =>
      (∀ a', r = .yield a' → I a' st' ∧ st.here < st'.here) ∧ ∀ a', r = .done a' → J a' st')
    (fuel : Nat) (hfuel : s.size - st.here < fuel) (hinit : I a st) :
    (iterate f fuel a).Gives st J := by
  induction fuel generalizing a st with
  | zero => omega
  | succ fuel ih =>
    refine .pos ((hround a st hinit).bind fun r st' hr => ?_)
    cases r with
    | yield a' =>
      obtain ⟨hkeeps, hlt⟩ := hr.1 a' rfl
      have hle := (hsound a' st' hkeeps).here_le
      refine .pos ?_
      rw [if_neg (Nat.not_le_of_lt hlt)]
      exact ih (by omega) hkeeps
    | done a' => exact hr.2 a' rfl

lemma Gives.repeatTo {J : α → ParserState → Prop} (hsound : ∀ a st, I a st → st.Sound s w)
    (hinit : I a st) (hround : ∀ a st, I a st → (f a).Gives st fun r st' =>
      (∀ a', r = .yield a' → I a' st' ∧ st.here < st'.here) ∧ ∀ a', r = .done a' → J a' st') :
    (repeatFrom a f).Gives st J := by
  have hsource : st.lexer.source.size = s.size := by rw [(hsound a st hinit).lexer.source]
  exact .get (.iterate hsound hround _ (by omega) hinit)

/-- What every round of a loop keeps is kept by the loop, and what the last round brings about is
found behind it. -/
lemma Gives.repeatUntil {J : α → ParserState → Prop} (hsound : ∀ a st, I a st → st.Sound s w)
    (hinit : I a st) (hround : ∀ a st, I a st → (f a).Gives st fun r st' =>
      Round I st r st' ∧ ∀ a', r = .done a' → J a' st') :
    (repeatFrom a f).Gives st fun a' st' => I a' st' ∧ J a' st' := by
  refine .repeatTo hsound hinit fun a st h => (hround a st h).mono fun r st' hr => ?_
  obtain ⟨hr, hdone⟩ := hr
  refine ⟨?_, ?_⟩
  · rintro a' rfl
    exact ⟨hr.keeps, hr.lt a' rfl⟩
  · rintro a' rfl
    exact ⟨hr.keeps, hdone a' rfl⟩

/-- What the first round of a loop brings about and every round keeps is found behind the loop. -/
lemma Gives.repeatFrom' (hsound : ∀ a st, I a st → st.Sound s w) (hs : st.Sound s w)
    (hfirst : (f a).Gives st (Round I st))
    (hround : ∀ a st, I a st → (f a).Gives st (Round I st)) :
    (repeatFrom a f).Gives st I := by
  -- Before the first round nothing is known but the state.
  refine (Gives.repeatUntil (s := s) (w := w)
    (I := fun a' st' => (a' = a ∧ st' = st) ∨ I a' st') (J := I) (fun a' st' h => ?_)
    (.inl ⟨rfl, rfl⟩) fun a' st' h => ?_).mono fun _ _ h => h.2
  · rcases h with ⟨-, rfl⟩ | h
    · exact hs
    · exact hsound a' st' h
  · have hgives : (f a').Gives st' (Round I st') := by
      rcases h with ⟨rfl, rfl⟩ | h
      · exact hfirst
      · exact hround a' st' h
    refine hgives.mono fun r st'' hr => ⟨⟨.inr hr.keeps, hr.lt⟩, fun a'' heq => ?_⟩
    have hkeeps := hr.keeps
    rwa [heq] at hkeeps

/-- What every round of a loop keeps is kept by the loop. -/
theorem Gives.repeatFrom (hsound : ∀ a st, I a st → st.Sound s w) (hinit : I a st)
    (hround : ∀ a st, I a st → (f a).Gives st (Round I st)) :
    (repeatFrom a f).Gives st I :=
  (Gives.repeatUntil (J := fun _ _ => True) hsound hinit fun a st h =>
    (hround a st h).mono fun _ _ hr => ⟨hr, fun _ _ => trivial⟩).mono fun _ _ h => h.1

end

/-- From every sound state a round moves on without giving nodes, strictly unless it is the last
one. -/
def Turns (s : Source) (w : Nat) (p : Parser (ForInStep α)) : Prop :=
  ∀ st : ParserState, st.Sound s w → p.Gives st (Round (fun _ st' => st.Reads s w st' []) st)

theorem Skips.repeatFrom {step : α → Parser (ForInStep α)} (h : ∀ a, (step a).Turns s w) (a : α) :
    (repeatFrom a step).Skips s w := by
  intro st hs
  refine Gives.repeatFrom (I := fun _ st' => st.Reads s w st' []) (fun _ _ h => h.sound) hs.reads
    fun a st₁ h₁ => ?_
  exact (h a st₁ h₁.sound).mono fun _ _ h₂ => ⟨h₁.skip h₂.keeps, h₂.lt⟩

/-- Nodes that are collected one behind the other are found in reverse. -/
lemma gives_collect {f : List Node → Parser (ForInStep (List Node))} (hs : st.Sound s w)
    (hround : ∀ nodes st', st.Reads s w st' nodes.reverse →
      (f nodes).Gives st' (Round (fun nodes st'' => st.Reads s w st'' nodes.reverse) st')) :
    (repeatFrom [] f).Gives st fun nodes st' => st.Reads s w st' nodes.reverse :=
  Gives.repeatFrom (I := fun ns st' => st.Reads s w st' (List.reverse ns)) (fun _ _ h => h.sound)
    hs.reads hround

/-! ## Lists -/

@[simp] lemma reverse_consNode? (node : Option Node) (nodes : List Node) :
    (consNode? node nodes).reverse = nodes.reverse ++ node.toList := by
  cases node <;> simp [consNode?]

/-- The end of a round that gave nodes: it skips a token where it took none.  The round began at
`st₁`, where the text had not ended, so that there is a token to skip. -/
lemma gives_moveOn {st₁ : ParserState} (hs : st₁.Sound s w) (hkind : st₁.kind ≠ .endOfFile)
    (hle : st₁.here ≤ st.here) {nodes : List Node} (h : st₀.Reads s w st nodes.reverse) :
    Gives (do
      if (← pos) == st₁.here then
        report .unexpectedToken
        advance
      return ForInStep.yield nodes) st
      (Round (fun nodes st' => st₀.Reads s w st' nodes.reverse) st₁) := by
  refine .pos ?_
  split
  case isTrue hhere =>
    have hstart := eq_of_beq hhere
    refine (peeks_report (by nofun) st h.sound).bind fun _ st₂ h₂ => ?_
    refine (gives_advance (h₂.sound h.sound)).bind fun _ st₃ h₃ => ?_
    have hnot : st₂.kind ≠ .endOfFile :=
      hs.kind_ne_end (h₂.sound h.sound) (h₂.here.trans hstart) hkind
    have hlt := h₃.lt hnot
    rw [h₂.here, hstart] at hlt
    exact .yield ((h.same h₂).skip h₃.toReads) hlt
  case isFalse hhere =>
    have hne : st.here ≠ st₁.here := fun heq => hhere (by simp [heq])
    exact .yield h (Nat.lt_of_le_of_ne hle hne.symm)

section

variable {round : List Node → Parser (ForInStep (List Node))}

/-- Members up to a closing brace. -/
lemma reads_membersToBrace
    (hround : ∀ {st₀ st : ParserState} {nodes : List Node}, st₀.Reads s w st nodes.reverse →
      (round nodes).Gives st (Round (fun nodes st' => st₀.Reads s w st' nodes.reverse) st)) :
    Parser.Reads s w (do
      let nodes ← repeatFrom [] round
      let list ← sequence nodes.reverse
      expect .closeBrace
      return list) Sequence.items := by
  intro st hs
  refine (gives_collect hs fun _ _ => hround).bind fun nodes st₁ h₁ => .sequence fun q hq => ?_
  refine (skips_expect .closeBrace st₁ h₁.sound).bind fun _ st₂ h₂ => .pure ?_
  rw [hq]
  exact h₁.skip h₂

/-- Members between braces. -/
lemma reads_braced
    (hround : ∀ {st₀ st : ParserState} {nodes : List Node}, st₀.Reads s w st nodes.reverse →
      (round nodes).Gives st (Round (fun nodes st' => st₀.Reads s w st' nodes.reverse) st)) :
    Parser.Reads s w (do
      expect .openBrace
      let nodes ← repeatFrom [] round
      let list ← sequence nodes.reverse
      expect .closeBrace
      return list) Sequence.items := by
  intro st hs
  refine (skips_expect .openBrace st hs).bind fun _ st₁ h₁ => ?_
  exact (reads_membersToBrace hround st₁ h₁.sound).mono fun _ _ => h₁.after

/-- Members behind a brace that is there, of which less has to be known. -/
lemma gives_bracedBehind (hs : st.Sound s w) (hkind : st.kind = .openBrace)
    (hround : ∀ {st₀ st : ParserState} {nodes : List Node}, st₀.Reads s (w - 1) st nodes.reverse →
      (round nodes).Gives st (Round (fun nodes st' => st₀.Reads s (w - 1) st' nodes.reverse) st)) :
    Gives (do
      expect .openBrace
      let nodes ← repeatFrom [] round
      let list ← sequence nodes.reverse
      expect .closeBrace
      return list) st fun q st' => st.Reads s w st' q.items := by
  refine (gives_expect .openBrace hs).bind fun _ st₁ h₁ => ?_
  have hlater := h₁.reads.sound_lt hs (h₁.lt hkind (by simp))
  refine (reads_membersToBrace hround st₁ hlater).mono fun _ _ h₂ => ?_
  exact h₁.reads.after (h₂.mono (Nat.sub_le w 1))

end

/-- What is known of a list between two tokens.  Where the opening token stands, it is no part of an
element. -/
structure Delimits (s : Source) (w : Nat) (opening : TokenKind) (st st' : ParserState)
    (ns : List Node) :
    Prop extends st.Reads s w st' ns where
  opened : st.kind = opening → st.Spends s w st' ns

lemma gives_delimitedStep (close : TokenKind) {element : Parser (Option Node)}
    (h : element.Reads s w Option.toList) (read : List Node × Bool)
    (hread : st₀.Reads s w st read.1.reverse) :
    (delimitedStep close element read).Gives st
      (Round (fun read st' => st₀.Reads s w st' read.1.reverse) st) := by
  refine .at? fun _ _ _ => .at? fun _ _ _ => ?_
  split
  · exact .done hread
  refine .pos ?_
  refine (h st hread.sound).bind fun node st₁ h₁ => ?_
  have hnodes : st₀.Reads s w st₁ (consNode? node read.1).reverse := by
    rw [reverse_consNode?]
    exact hread.trans h₁
  refine (gives_optional .comma h₁.sound).bind fun comma st₂ h₂ => ?_
  have hle : st.here ≤ st₂.here := Nat.le_trans h₁.le h₂.reads.le
  split
  case isTrue hcomma =>
    exact .yield (hnodes.skip h₂.reads) (Nat.lt_of_le_of_lt h₁.le (h₂.lt hcomma (by simp)))
  refine .at? fun _ _ _ => .pos ?_
  split
  · exact .done (hnodes.skip h₂.reads)
  case isFalse hstop =>
    -- The element took a token, or the list would have ended.
    have hne : st.here ≠ st₂.here := fun heq => hstop (by simp [heq])
    refine (skips_expect .comma st₂ h₂.reads.sound).bind fun _ st₃ h₃ => ?_
    exact .yield ((hnodes.skip h₂.reads).skip h₃)
      (Nat.lt_of_lt_of_le (Nat.lt_of_le_of_ne hle hne) h₃.le)

/-- The elements of a list up to its closing token. -/
lemma reads_delimitedRest (close : TokenKind) {element : Parser (Option Node)}
    (h : element.Reads s w Option.toList) : Parser.Reads s w (do
      let (nodes, trailingComma) ← repeatFrom ([], false) (delimitedStep close element)
      let list ← sequence nodes.reverse
      expect close
      return { list with trailingComma } : Parser (Sequence Node)) Sequence.items := by
  intro st hs
  have hinit : st.Reads s w st (([], false) : List Node × Bool).1.reverse := hs.reads
  refine Gives.bind (Gives.repeatFrom (I := fun read st' => st.Reads s w st' read.1.reverse)
    (fun _ _ h => h.sound) hinit
    fun read _ hread => gives_delimitedStep close h read hread) fun read st₁ h₁ => ?_
  refine .sequence fun q hq => ?_
  refine (skips_expect close st₁ h₁.sound).bind fun _ st₂ h₂ => ?_
  change st.Reads s w st₂ q.items
  rw [hq]
  exact h₁.skip h₂

lemma gives_delimited {opening close : TokenKind} {element : Parser (Option Node)}
    (h : element.Reads s w Option.toList) (hs : st.Sound s w)
    (hopening : opening ≠ .endOfFile) :
    (delimited opening close element).Gives st fun q st' =>
      Delimits s w opening st st' q.items := by
  refine (gives_expect opening hs).bind fun _ st₁ h₁ => ?_
  refine (reads_delimitedRest close h st₁ h₁.reads.sound).mono fun q st₂ h₂ => ?_
  refine ⟨h₁.reads.after h₂, fun hkind => ?_⟩
  exact (hs.reads.spend h₁.reads (h₁.lt hkind hopening)).after h₂.toCovers

/-- A list whose opening token is there.  Less has to be known of its elements. -/
lemma gives_delimitedBehind {opening close : TokenKind} {element : Parser (Option Node)}
    (h : element.Reads s (w - 1) Option.toList) (hs : st.Sound s w) (hkind : st.kind = opening)
    (hopening : opening ≠ .endOfFile) :
    (delimited opening close element).Gives st fun q st' => st.Spends s w st' q.items := by
  refine (gives_expect opening hs).bind fun _ st₁ h₁ => ?_
  have hlt := h₁.lt hkind hopening
  refine (reads_delimitedRest close h st₁ (h₁.reads.sound_lt hs hlt)).mono fun q st₂ h₂ => ?_
  exact (h₁.reads.spent hlt).after (h₂.mono (Nat.sub_le w 1)).toCovers

theorem reads_delimited {opening close : TokenKind} {element : Parser (Option Node)}
    (h : element.Reads s w Option.toList) (hopening : opening ≠ .endOfFile) :
    (delimited opening close element).Reads s w Sequence.items :=
  fun _ hs => (gives_delimited h hs hopening).mono fun _ _ hq => hq.toReads

/-- A list between two tokens, in another context. -/
lemma gives_delimitedIn {opening close : TokenKind} {element : Parser (Option Node)}
    (change : Context → Context) (h : element.Reads s w Option.toList) (hs : st.Sound s w)
    (hopening : opening ≠ .endOfFile) :
    (inContext change (delimited opening close element)).Gives st fun q st' =>
      Delimits s w opening st st' q.items := by
  refine gives_inContext ((gives_delimited h (hs.inContext _) hopening).mono fun q st' hq => ?_)
  have hread : st.Reads s w { st' with context := st.context } q.items :=
    ⟨covers_of_context hq.toCovers, hq.behind⟩
  exact ⟨hread, fun hkind => ⟨hread, (hq.opened hkind).gap⟩⟩

/-! ## Nodes with text of their own -/

/-- From every sound state the parser reads a node that can be shown as a value, or none. -/
def Fills (s : Source) (w : Nat) (p : Parser (Option Node)) : Prop :=
  ∀ st : ParserState, st.Sound s w → p.Gives st fun o st' => st.FillsTo s w st' o

lemma Fills.reads {p : Parser (Option Node)} (h : p.Fills s w) : p.Reads s w Option.toList :=
  fun st hs => (h st hs).mono fun _ _ hread => hread.reads

lemma Fills.nested {p : Parser (Option Node)} (h : p.Fills s (w - 1)) :
    (nested p).Fills s w := by
  intro st hs
  refine gives_nested hs (fun st' hsame _ => (hsame.reads hs).fillsNone) fun hdepth => ?_
  refine (h _ (hs.deeper hdepth)).mono fun o st' hread => ?_
  exact ⟨⟨covers_of_deeper hdepth hread.reads.toCovers, hread.reads.behind⟩, hread.proper⟩

/-- What a production of the grammar reads is shown as it was read. -/
lemma Fills.shows {fuel v : Nat} {p : Parser (Option Node)}
    {production : Nat → Parser (Option Node)} (h : p.Fills s w) (hs : st.Sound s v) (hle : v ≤ w)
    (hfuel : 4 * v ≤ fuel) (hproduction : p = production fuel)
    (hrecalled : ∀ n : Node, n.ReadBy s production → n.Recalled s) :
    p.Gives st fun o st' => st.ShowsTo s w st' o := by
  refine ⟨h st (hs.mono hle), fun hquiet n hn _ => hrecalled n ?_⟩
  refine ⟨v, fuel, st, hs, hfuel, ?_⟩
  rw [← hproduction]
  exact ⟨Option.mem_toList.mp hn, hquiet⟩

/-- What is shown may have been read in another context. -/
lemma gives_showsIn {p : Parser (Option Node)} {change : Context → Context}
    (h : p.Gives { st with context := change st.context } fun o st' =>
      ShowsTo s w { st with context := change st.context } st' o) :
    (inContext change p).Gives st fun o st' => st.ShowsTo s w st' o := by
  refine gives_inContext (h.mono fun o st' hread => ?_)
  exact ⟨⟨⟨covers_of_context hread.reads.toCovers, hread.reads.behind⟩, hread.proper⟩,
    fun hquiet => hread.shown ⟨hquiet.diagnostics, hquiet.lexer⟩⟩

/-- From every sound state the parser reads a statement, which starts with a block only where a
brace opens. -/
def ReadsStatement (s : Source) (w : Nat) (p : Parser (Option Node)) : Prop :=
  ∀ st : ParserState, st.Sound s w → p.Gives st fun o st' => st.Runs s w st' o.toList

lemma ReadsStatement.nested {p : Parser (Option Node)} (h : p.ReadsStatement s (w - 1)) :
    (nested p).ReadsStatement s w := by
  intro st hs
  refine gives_nested hs (fun st' hsame _ => (hsame.reads hs).runs) fun hdepth => ?_
  refine (h _ (hs.deeper hdepth)).mono fun o st' hrun => ?_
  exact ⟨covers_of_deeper hdepth hrun.toCovers, hrun.behind⟩

/-! ## Grammars -/

lemma Reads.lower {v : Nat} {p : Parser α} {nodes : α → List Node} (h : p.Reads s w nodes)
    (hle : v ≤ w) : p.Reads s v nodes :=
  fun st hs => (h st (hs.mono hle)).mono fun _ _ hread => hread.lower hs

lemma Fills.lower {v : Nat} {p : Parser (Option Node)} (h : p.Fills s w) (hle : v ≤ w) :
    p.Fills s v :=
  fun st hs => (h st (hs.mono hle)).mono fun _ _ hread => ⟨hread.reads.lower hs, hread.proper⟩

lemma ReadsStatement.lower {v : Nat} {p : Parser (Option Node)} (h : p.ReadsStatement s w)
    (hle : v ≤ w) : p.ReadsStatement s v :=
  fun st hs => (h st (hs.mono hle)).mono fun _ _ hrun => ⟨hrun.toCovers.lower hs, hrun.behind⟩

end Parser

/-- The symbols of expressions and of the names that are bound. -/
def Nonterminal.isProper : Nonterminal → Bool
  | .assignment | .binary _ | .unary | .leftHandSide | .primary | .bindingName => true
  | _ => false

/-- The symbols that a production calls also where it has not taken a token.  The others are called
behind a token, or by a production that has opened a level of its own. -/
def Nonterminal.isFree : Nonterminal → Bool
  | .type | .parameter | .bindingName | .assignment | .unary => true
  | _ => false

/-- A grammar for productions that run with less than `w` left: what its symbols read from where a
production starts, and what they read further on.  It is the whole grammar down to some depth,
perhaps without parameters. -/
structure Rules.Sound (s : Source) (w : Nat) (rules : Rules) : Prop where
  reads : ∀ x, x.isFree = true → (rules x).Reads s w Option.toList
  fills : ∀ x, x.isFree = true → x.isProper = true → (rules x).Fills s w
  statement : (rules .statement).ReadsStatement s w
  readsLater : ∀ x, x ≠ .statement → (rules x).Reads s (w - 1) Option.toList
  fillsLater : ∀ x, x.isProper = true → (rules x).Fills s (w - 1)
  deep : ∃ fuel, 4 * w ≤ fuel + 3 ∧ ∀ x, x ≠ .parameter → rules x = Parser.grammar fuel x

/-- A grammar whose symbols all read what they should wherever less than `w` is left. -/
structure Rules.Complete (s : Source) (w : Nat) (rules : Rules) : Prop
    extends Rules.Sound s w rules where
  readsAll : ∀ x, x ≠ .statement → (rules x).Reads s w Option.toList
  fillsAll : ∀ x, x.isProper = true → (rules x).Fills s w
  deepAll : ∃ fuel, 4 * w ≤ fuel ∧ ∀ x, x ≠ .parameter → rules x = Parser.grammar fuel x

namespace Rules.Sound

open ParserState

variable {s : Source} {w : Nat} {rules : Rules} {st₀ st : ParserState} {ns : List Node}
  {x : Nonterminal}

/-- Behind a token all symbols read what they should. -/
lemma later (hr : rules.Sound s w) : rules.Complete s (w - 1) where
  reads x _ := hr.readsLater x (by rintro rfl; contradiction)
  fills x _ := hr.fillsLater x
  statement := hr.statement.lower (Nat.sub_le w 1)
  readsLater x hx := (hr.readsLater x hx).lower (Nat.sub_le (w - 1) 1)
  fillsLater x hx := (hr.fillsLater x hx).lower (Nat.sub_le (w - 1) 1)
  deep := by
    obtain ⟨fuel, hfuel, hrules⟩ := hr.deep
    exact ⟨fuel, by omega, hrules⟩
  readsAll := hr.readsLater
  fillsAll := hr.fillsLater
  deepAll := by
    obtain ⟨fuel, hfuel, hrules⟩ := hr.deep
    exact ⟨fuel, by omega, hrules⟩

/-- What a symbol reads behind a token. -/
lemma reads_behind (hr : rules.Sound s w) (hx : x ≠ .statement) (hs : st₀.Sound s w)
    (h : st₀.Covers s w st ns) (hlt : st₀.here < st.here) :
    (rules x).Gives st fun o st' => st.Reads s w st' o.toList :=
  (hr.readsLater x hx st (h.sound_lt hs hlt)).mono fun _ _ hread => hread.mono (Nat.sub_le w 1)

lemma fills_behind (hr : rules.Sound s w) (hx : x.isProper = true) (hs : st₀.Sound s w)
    (h : st₀.Covers s w st ns) (hlt : st₀.here < st.here) :
    (rules x).Gives st fun o st' => st.FillsTo s w st' o :=
  (hr.fillsLater x hx st (h.sound_lt hs hlt)).mono fun _ _ hread =>
    ⟨hread.reads.mono (Nat.sub_le w 1), hread.proper⟩

end Rules.Sound

end InlineValues
