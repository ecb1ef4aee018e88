import InlineValues.Proofs.Replay.Chain
import InlineValues.Proofs.Replay.Operand

/-!
# Accesses and calls that are read again

Behind an operand the grammar reads accesses and calls, round by round.  The name of a member is
read again behind its point (`extends_access`), and so are an index and the arguments of a call in
their brackets (`extends_brackets`).  Templates and marks are no evaluable expressions.

Where the rounds ended the first time they end the second time (`rereadsStop_memberStep`).  What may
be behind the object is known from the first text.  Only for `<` this takes an argument: it opens
type arguments or not depending on all that follows.
-/

namespace InlineValues
namespace Parser

open ParserState

variable {s : Source} {w d : Nat} {st st₀ : ParserState} {rules : Rules}

/-- The rounds behind an operand, for every bound on the depth of the grammar. -/
abbrev memberSteps (fuel start : Nat) (object : Node) : Parser (ForInStep Node) :=
  memberStep (grammar fuel) start true object

/-! ## Names of members -/

/-- The leaf that a token becomes behind a point. -/
def nameForm (k : TokenKind) (text : List Char) : Form Node :=
  if k == .privateIdentifier then .privateIdentifier text else .identifier text

lemma nameForm_cases (k : TokenKind) (text : List Char) :
    nameForm k text = .privateIdentifier text ∨ nameForm k text = .identifier text := by
  unfold nameForm
  split
  · exact .inl rfl
  · exact .inr rfl

lemma children_nameForm (k : TokenKind) (text : List Char) : (nameForm k text).children = [] := by
  rcases nameForm_cases k text with h | h <;> rw [h] <;> rfl

lemma gives_memberName_leaf (hkind : st.kind.isName = true) :
    memberName.Gives st (ReadsLeaf (nameForm st.kind st.lexer.token.value) st) := by
  by_cases hprivate : st.kind = .privateIdentifier
  · refine .at?_eq hprivate ⟨⟨_, rfl, ?_, rfl, rfl⟩, rfl, rfl, rfl, rfl, rfl⟩
    rw [nameForm, hprivate]
    rfl
  · have hword : isWord st.kind = true := by
      simpa [TokenKind.isName, isWord, hprivate] using hkind
    refine .at?_ne hprivate (.kind ?_)
    rw [if_pos hword]
    refine ⟨⟨_, rfl, ?_, rfl, rfl⟩, rfl, rfl, rfl, rfl, rfl⟩
    rw [nameForm, if_neg (by simpa using hprivate)]

lemma gives_memberName_none (hkind : st.kind.isName = false) :
    memberName.Gives st fun o _ => o = none := by
  have hprivate : st.kind ≠ .privateIdentifier := fun h => by rw [h] at hkind; cases hkind
  have hword : ¬ isWord st.kind = true := by
    simp only [TokenKind.isName, Bool.or_eq_false_iff] at hkind
    simp [isWord, hkind]
  refine .at?_ne hprivate (.kind ?_)
  rw [if_neg hword]
  exact .after fun _ _ => rfl

/-- The name of a member is printed as the token that it was read from. -/
lemma exists_isLeaf_name {m : Node} (hs : st.Sound s w) (hquiet : st.Quiet)
    (hkind : st.kind.isName = true) (hform : m.form = nameForm st.kind st.lexer.token.value) :
    ∃ t : Lexeme, m.IsLeaf s t ∧ t.kind = st.kind ∧ t.value = st.lexer.token.value := by
  obtain ⟨t, ht, htkind, htvalue, -, htext⟩ :=
    exists_isAtom hs hquiet (TokenKind.isAtom_of_isName hkind)
  have hnumber := TokenKind.isNumber_of_isName hkind
  refine ⟨t, ⟨ht, ?_, fun c emit hc => ?_⟩, htkind, htvalue⟩
  all_goals
    rcases nameForm_cases st.kind st.lexer.token.value with hname | hname
    all_goals rw [hname] at hform
  · rw [hform, htkind, hnumber]
    rfl
  · rw [hform, htkind, hnumber]
    rfl
  · rw [printNode, hform, htext hkind]
  · rw [printNode, hform, htext hkind]

/-! ## Accesses by name -/

/-- Behind `?.`, a name is all that is read. -/
lemma gives_chainRest_name {start : Nat} {object : Node} {Q : Node → ParserState → Prop}
    (hkind : st.kind.isName = true) (h : Gives (do
      let name ← memberName
      finish start (.propertyAccess object true name)) st Q) :
    (chainRest rules start object).Gives st Q := by
  have hother : ∀ k ∈ [TokenKind.openParen, .lessThan, .openBracket], k.isName = false := by decide
  have hne (k : TokenKind) (hk : k ∈ [TokenKind.openParen, .lessThan, .openBracket]) :
      st.kind ≠ k := by
    rintro rfl
    rw [hother _ hk] at hkind
    cases hkind
  refine .kind ?_
  split
  case h_1 hk => exact absurd hk (hne _ (by simp))
  case h_2 hk => exact absurd hk (hne _ (by simp))
  case h_3 => exact .pure_bind (.at?_ne (hne _ (by simp)) h)

section

variable {c : Context} {l : Lexer} {object m n : Node} {optional : Bool} {t : Lexeme}

/-- Behind an object that is read again, the name of a member is. -/
lemma extends_access (hpoint : l.token.kind = .point optional) (hname : l.scan.token.kind = t.kind)
    (hleaf : m.IsLeaf s t) (hkind : t.kind.isName = true) (hm : m.form = nameForm t.kind t.value)
    (hform : n.form = .propertyAccess object optional (some m))
    (hnumber : optional = true ∨ object.form.isNumber = false) :
    Extends s (Stage.operand.within c) 1 d memberSteps object l n l.scan.scan
      [.ofKind (.point optional), t] := by
  have hpoints : TokenKind.point optional ∉ TokenKind.greaterKinds ∧
      TokenKind.point optional ≠ .inKeyword ∧
        Stage.operand.ends (.point optional) = true := by
    cases optional <;> decide
  obtain ⟨hgreater, hin, hends⟩ := hpoints
  have hgreater' := TokenKind.notMem_greaterKinds_of_isAtom hleaf.atom.atom
  have hlevels := Node.levels_propertyAccess hform
  have hpath : l.Path [.ofKind (.point optional)] l.scan := .single hpoint hgreater
  refine ⟨fun ts hts => .access hform hnumber hts hleaf hkind,
    hpath.trans (.single hname hgreater'), ⟨_, _, rfl, Stage.ends_within_of_ne hin hends⟩,
    by omega, fun _ h => by omega, fun rest st fuel d start object' halike htail hfollows _ _ => ?_⟩
  have hkind₁ : st.kind = .point optional := hfollows.kind_eq hgreater
  have hfollows₁ : Follows d (t :: rest) st.advanced := hfollows.advanced hgreater
  have hkind₂ : st.advanced.kind = t.kind := hfollows₁.kind_eq hgreater'
  have hread : memberName.Gives st.advanced fun o st' =>
      ∃ m', o = some m' ∧ m.Alike m' ∧ Follows d rest st' := by
    refine (gives_memberName_leaf (hkind₂ ▸ hkind)).mono fun o st₁ hread => ?_
    obtain ⟨m', ho, hm', -, -⟩ := hread.node
    rw [hkind₂, (hfollows₁.spelled.first_of_kind hgreater').value] at hm'
    exact ⟨m', ho, .of_leaf (by rw [hm, hm']) (by rw [hm, children_nameForm]),
      hread.follows hfollows₁ hgreater'⟩
  have haccess {m' : Node} (origin : Origin) (stop : Nat) (hmember : m.Alike m') :
      n.Alike ⟨origin, stop, .propertyAccess object' optional (some m')⟩ := by
    refine .intro (by rw [hform]; rfl) ?_
    rw [Node.children, hform]
    exact .cons halike (.cons hmember .nil)
  refine .kind ?_
  rw [hkind₁]
  cases optional with
  | true =>
    refine .advance (Gives.bind (P := fun n' st' => n.Alike n' ∧ Follows d rest st') ?_
      fun n' _ h => .pure ⟨n', rfl, h⟩)
    refine gives_chainRest_name (hkind₂ ▸ hkind) (hread.bind fun o st₁ h => gives_finish ?_)
    obtain ⟨m', rfl, hmember, hfollows'⟩ := h
    exact ⟨haccess _ _ hmember, hfollows'.closed _ _⟩
  | false =>
    refine .advance (hread.bind fun o st₁ h => .finish (.pure ?_))
    obtain ⟨m', rfl, hmember, hfollows'⟩ := h
    exact ⟨_, rfl, haccess _ _ hmember, hfollows'.closed _ _⟩

/-- The name of a member makes an object longer. -/
lemma chainRound_name (optional : Bool) (start : Nat) (object : Node) (hs : st.Sound s w)
    (hpoint : st.kind = .point optional) :
    memberName.Gives st.advanced fun name st' =>
      ChainRound s .operand 1 memberSteps object st
        (.yield (st'.node start (.propertyAccess object optional name)))
        (st'.closed start (.propertyAccess object optional name)) := by
  have h₁ : Advances s w st st.advanced := gives_advance hs
  cases hname : st.advanced.kind.isName with
  | false =>
    exact (gives_memberName_none hname).mono fun name _ h => .foreign (.of_form (by rw [h]; rfl))
  | true =>
    refine ((fills_memberName.reads _ h₁.sound).and (gives_memberName_leaf hname)).mono
      fun name st₁ h => ?_
    obtain ⟨h₂, hread⟩ := h
    obtain ⟨m, rfl, hm, -, -⟩ := hread.node
    have htells := h₁.tells.trans h₂.tells
    refine .longer ⟨htells.diagnostics, htells.lexer⟩
      (fun hevaluable => hevaluable.operand (List.mem_singleton_self object))
      fun hquiet hevaluable => ?_
    obtain ⟨t, hleaf, htkind, htvalue⟩ :=
      exists_isLeaf_name h₁.sound (hread.quiet ⟨hquiet.diagnostics, hquiet.lexer⟩) hname hm
    rw [← htkind, ← htvalue] at hm
    have hnumber : (optional || !object.form.isNumber) = true := hevaluable.form
    rw [Bool.or_eq_true, Bool.not_eq_true'] at hnumber
    have hlexer : (st₁.closed start (.propertyAccess object optional (some m))).lexer =
        st.lexer.scan.scan := hread.lexer
    rw [hlexer]
    exact ⟨_, extends_access (hs.current.symm.trans hpoint) htkind.symm hleaf (htkind ▸ hname) hm
      rfl hnumber⟩

end

/-! ## Brackets behind an object -/

/-- What may stand in brackets behind an object: arguments or an index. -/
def inBrackets (opening : TokenKind) (rules : Rules) (start : Nat) (object : Node)
    (chained : Bool) : Parser Node :=
  if opening == .openParen then callRest rules start object chained
  else elementAccess rules start object chained

/-- Wherever the lexemes of a pair of brackets follow, and behind them what was read at `l'`, what
stands in them makes an object like `object` a node like `n`. -/
def RereadsBrackets (opening : TokenKind) (optional : Bool) (object : Node) (l' : Lexer) (n : Node)
    (us : List Lexeme) : Prop :=
  ∀ (rest : List Lexeme) (st : ParserState) (fuel d start : Nat) (object' : Node),
    object.Alike object' → l'.Leads rest → Follows d (us ++ rest) st →
    d + n.levels ≤ maxParserDepth + 2 →
    4 * (us.length + rest.length + (maxParserDepth - d)) ≤ fuel →
    (inBrackets opening (grammar fuel) start object' optional).Gives st fun n' st' =>
      n.Alike n' ∧ Follows d rest st'

section

variable {c c' : Context} {l l₁ l₂ : Lexer} {object e n : Node} {optional : Bool}
  {opening : TokenKind} {us : List Lexeme}

/-- A round finds the brackets, with the mark of an optional chain in front of them or without. -/
lemma gives_memberStep_brackets {start : Nat} {Q : Node → ParserState → Prop}
    (hopening : opening ∈ [TokenKind.openParen, .openBracket])
    (hfollows : Follows d (Lexeme.mark optional ++ .ofKind opening :: us) st)
    (h : ∀ st₁, Follows d (.ofKind opening :: us) st₁ →
      (inBrackets opening rules start object optional).Gives st₁ Q) :
    (memberStep rules start true object).Gives st fun r st' => ∃ n, r = .yield n ∧ Q n st' := by
  have hgreater := notMem_greaterKinds_of_bracket (List.mem_append_left _ hopening)
  refine .kind ?_
  cases optional with
  | false =>
    have hkind : st.kind = opening := hfollows.kind_eq hgreater
    have hinside := h st hfollows
    rw [hkind]
    simp only [List.mem_cons, List.not_mem_nil, or_false] at hopening
    rcases hopening with rfl | rfl
    all_goals exact hinside.bind fun n _ hQ => .pure ⟨n, rfl, hQ⟩
  | true =>
    have hkind : st.kind = .questionDot := hfollows.kind_eq (by decide)
    have hfollows₁ : Follows d (.ofKind opening :: us) st.advanced := hfollows.advanced (by decide)
    have hkind₁ : st.advanced.kind = opening := hfollows₁.kind_eq hgreater
    have hinside := h _ hfollows₁
    rw [hkind]
    refine .advance (Gives.bind (P := Q) (.kind ?_) fun n _ hQ => .pure ⟨n, rfl, hQ⟩)
    rw [hkind₁]
    simp only [List.mem_cons, List.not_mem_nil, or_false] at hopening
    rcases hopening with rfl | rfl
    · exact .pure_bind hinside
    · exact .pure_bind (.at?_eq hkind₁ hinside)

/-- Behind an object that is read again, a pair of brackets is. -/
lemma extends_brackets (hopening : opening ∈ [TokenKind.openParen, .openBracket])
    (hmark : l.Path (Lexeme.mark optional) l₁) (hpath : l₁.Path (.ofKind opening :: us) l₂)
    (hmade : ∀ ts, object.MadeOf s 0 ts →
      n.MadeOf s 0 (ts ++ Lexeme.mark optional ++ .ofKind opening :: us))
    (hle : object.levels ≤ n.levels)
    (hlevels : d ≤ maxParserDepth → d + object.levels ≤ maxParserDepth + 2 →
      d + n.levels ≤ maxParserDepth + 2)
    (hagain : RereadsBrackets opening optional object l₂ n (.ofKind opening :: us)) :
    Extends s (Stage.operand.within c) 1 d memberSteps object l n l₂
      (Lexeme.mark optional ++ .ofKind opening :: us) := by
  have hends : ∀ k ∈ [TokenKind.openParen, .openBracket],
      k ≠ .inKeyword ∧ Stage.operand.ends k = true := by decide
  have hhead : ∃ t us', Lexeme.mark optional ++ .ofKind opening :: us = t :: us' ∧
      (Stage.operand.within c).ends t.kind = true := by
    cases optional with
    | false => exact ⟨_, _, rfl, Stage.ends_within_of_ne (hends _ hopening).1 (hends _ hopening).2⟩
    | true => exact ⟨_, _, rfl, Stage.ends_within_of_ne (by decide) rfl⟩
  refine ⟨fun ts hts => ?_, hmark.trans hpath, hhead, hle, hlevels,
    fun rest st fuel d start object' halike htail hfollows hdepth hfuel => ?_⟩
  · have hmade := hmade ts hts
    rwa [List.append_assoc] at hmade
  rw [List.append_assoc] at hfollows
  rw [List.length_append] at hfuel
  exact gives_memberStep_brackets hopening hfollows fun st₁ hfollows₁ =>
    hagain rest st₁ fuel d start object' halike htail.leads hfollows₁ hdepth (by omega)

/-! ## Accesses by index -/

/-- An index is read again in its brackets. -/
lemma rereadsBrackets_index
    (h : Rereads (Stage.expression.within c') 1 (fun fuel => expression (grammar fuel)) l₁ e us)
    (hclose : l₁.token.kind = .closeBracket)
    (hform : n.form = .elementAccess object optional (some e)) :
    RereadsBrackets .openBracket optional object l₁.scan n
      (.ofKind .openBracket :: us ++ [.ofKind .closeBracket]) := by
  intro rest st fuel d start object' halike hleads hfollows hdepth hfuel
  simp only [List.cons_append, List.append_assoc, List.nil_append, List.length_cons,
    List.length_append, List.length_nil] at hfollows hfuel
  have hlevels := Node.levels_elementAccess hform
  have htail : Lexer.Tail (Stage.expression.within c').ends l₁ (.ofKind .closeBracket :: rest) := by
    refine ⟨hleads.append (.single hclose (by decide)), ?_⟩
    rintro _ ⟨⟩
    exact Stage.ends_within_of_ne (by decide) rfl
  refine .expect_eq (hfollows.kind_eq (by decide)) ?_
  refine (h.inContext bracketed htail (hfollows.advanced (by decide)) rfl ?_ ?_).bind
    fun o st₁ h₁ => ?_
  · simp only [Stage.within, Stage.expression]
    omega
  · rw [List.length_cons]
    omega
  obtain ⟨e', rfl, hindex⟩ := h₁.alike
  refine .expect_eq (h₁.follows.kind_eq (by decide)) (gives_finish ⟨?_, ?_⟩)
  · refine .intro (by rw [hform]; rfl) ?_
    rw [Node.children, hform]
    exact .cons halike (.cons hindex .nil)
  · exact (h₁.follows.advanced (by decide)).closed _ _

/-- Behind an object that is read again, an index in brackets is. -/
lemma extends_index (hmark : l.Path (Lexeme.mark optional) l₁)
    (hopen : l₁.token.kind = .openBracket)
    (h : Replay s (Stage.expression.within c') 1 d (fun fuel => expression (grammar fuel)) l₁.scan
      l₂ e us)
    (hclose : l₂.token.kind = .closeBracket)
    (hform : n.form = .elementAccess object optional (some e)) :
    Extends s (Stage.operand.within c) 1 d memberSteps object l n l₂.scan
      (Lexeme.mark optional ++ (.ofKind .openBracket :: us ++ [.ofKind .closeBracket])) := by
  have hlevels := Node.levels_elementAccess hform
  have hbracket : l₁.Path [.ofKind .openBracket] l₁.scan := .single hopen (by decide)
  refine extends_brackets (by simp) hmark
    ((hbracket.trans h.path).trans (.single hclose (by decide)))
    (fun ts hts => .index hform hts h.madeOf) (by omega) (fun hdepth hobject => ?_)
    (rereadsBrackets_index h.again hclose hform)
  have hindex : d + e.levels ≤ maxParserDepth := h.levels hdepth
  omega

/-- An index makes an object longer.  A round may start with the mark of an optional chain in front
of the bracket. -/
lemma chainRound_index (optional : Bool) {start : Nat} {st₁ : ParserState} (hs : st₁.Sound s w)
    (hinside : RereadsInside s (w - 1) rules) (htells : Tells s st st₁)
    (hdepth : st₁.depth = st.depth) (hmark : st.lexer.Path (Lexeme.mark optional) st₁.lexer)
    (hopen : st₁.kind = .openBracket) :
    (elementAccess rules start object optional).Gives st₁ fun n st' =>
      ChainRound s .operand 1 memberSteps object st (.yield n) st' := by
  have h₁ : Advances s w st₁ st₁.advanced := gives_advance hs
  have hlater := h₁.sound_lt hs (h₁.lt (by simp [hopen]))
  refine .expect_eq hopen ((hinside.expression.inContext bracketed hlater).bind fun o st₂ h => ?_)
  obtain ⟨h₂, hinner⟩ := h
  cases o with
  | none =>
    exact .after fun _ _ => .after fun _ _ => gives_finish (.foreign (.of_form rfl))
  | some e =>
    refine ((gives_expect_quiet .closeBracket h₂.sound).and
      (skips_expect .closeBracket st₂ h₂.sound)).bind fun _ st₃ h => gives_finish ?_
    obtain ⟨hclose, h₃⟩ := h
    have htells₃ := ((htells.trans h₁.tells).trans h₂.tells).trans h₃.tells
    refine .longer ⟨htells₃.diagnostics, htells₃.lexer⟩
      (fun hevaluable => hevaluable.operand List.mem_cons_self) fun hquiet hevaluable => ?_
    have hquiet₃ : st₃.Quiet := ⟨hquiet.diagnostics, hquiet.lexer⟩
    obtain ⟨hcloseKind, rfl⟩ := hclose hquiet₃
    obtain ⟨_, ⟨⟩, hreplay⟩ := hinner (h₃.tells.quiet hquiet₃)
    have hindex : e ∈ (Form.elementAccess object optional (some e)).operands :=
      List.mem_cons_of_mem _ (List.mem_singleton_self e)
    obtain ⟨us, hreplay⟩ := hreplay (hevaluable.operand hindex)
    rw [show st₁.advanced.depth = st.depth from hdepth] at hreplay
    exact ⟨_, extends_index hmark (hs.current.symm.trans hopen) hreplay
      (h₂.sound.current.symm.trans hcloseKind) rfl⟩

/-! ## Calls -/

/-- Arguments are read again behind a callee like the one that they stood behind. -/
lemma rereadsBrackets_call {d' : Nat} {arguments : Sequence Node}
    {parts : List (Node × List Lexeme)}
    (h : ListReplay s .openParen .closeParen d' (fun fuel => spreadable (grammar fuel)) l₁ l₂
      arguments parts)
    (hform : n.form = .call object optional none arguments) :
    RereadsBrackets .openParen optional object l₂ n
      (listLexemes .openParen .closeParen arguments.trailingComma parts) := by
  intro rest st fuel d start object' halike hleads hfollows hdepth hfuel
  have hlevels := Node.levels_call hform
  have hkind : st.kind = .openParen := hfollows.kind_eq (by decide)
  refine Gives.bind (P := fun typeArguments st₁ => typeArguments = none ∧ st₁ = st)
    (.at?_ne (by simp [hkind]) (.pure ⟨rfl, rfl⟩)) ?_
  rintro _ _ ⟨rfl, rfl⟩
  refine .kind ?_
  rw [hkind]
  refine (h.again rest _ fuel d hleads hfollows (by omega) hfuel).bind fun arguments' st₁ h₁ => ?_
  obtain ⟨harguments, hfollows₁⟩ := h₁
  exact gives_finish ⟨harguments.call hform halike _ _, hfollows₁.closed _ _⟩

/-- Arguments make a callee longer, unless a comma stands behind the last one.  A round may start
with the mark of an optional chain in front of the parenthesis. -/
lemma chainRound_call (optional : Bool) {start : Nat} {st₁ : ParserState} (hs : st₁.Sound s w)
    (hinside : RereadsInside s (w - 1) rules) (htells : Tells s st st₁)
    (hdepth : st₁.depth = st.depth) (hmark : st.lexer.Path (Lexeme.mark optional) st₁.lexer)
    (hopen : st₁.kind = .openParen) :
    (callRest rules start object optional).Gives st₁ fun n st' =>
      ChainRound s .operand 1 memberSteps object st (.yield n) st' := by
  refine Gives.bind (P := fun typeArguments st₂ => typeArguments = none ∧ st₂ = st₁)
    (.at?_ne (by simp [hopen]) (.pure ⟨rfl, rfl⟩)) ?_
  rintro _ _ ⟨rfl, rfl⟩
  refine .kind ?_
  rw [hopen]
  refine (gives_delimited_replay (by simp) (by simp) (reads_spreadable hinside.sound)
    (replays_spreadable hinside) hs hopen).bind fun arguments st₂ h => gives_finish ?_
  obtain ⟨h₁, hreplay⟩ := h
  have htells₂ := htells.trans h₁
  refine .longer ⟨htells₂.diagnostics, htells₂.lexer⟩
    (fun hevaluable => hevaluable.operand List.mem_cons_self) fun hquiet hevaluable => ?_
  obtain ⟨parts, hreplay⟩ := hreplay ⟨hquiet.diagnostics, hquiet.lexer⟩ fun e he =>
    hevaluable.operand (List.mem_cons_of_mem _ he)
  have htrailing : arguments.trailingComma = false := by
    have hform : (!arguments.trailingComma) = true := hevaluable.form
    simpa using hform
  have hlevels : (st₂.node start (.call object optional none arguments)).levels =
      max object.levels (Node.levelsWithin arguments.items) := Node.levels_call rfl
  rw [hdepth] at hreplay
  refine ⟨_, extends_brackets (by simp) hmark hreplay.path (fun ts hts => ?_) (by omega)
    (fun hdepth hobject => ?_) (rereadsBrackets_call hreplay rfl)⟩
  · rw [htrailing]
    exact .call rfl hreplay.items hts hreplay.madeOf
  · have harguments := hreplay.levels hdepth
    omega

end

/-! ## Where the rounds end -/

/-- A `<` that opens no type arguments. -/
def Unopened (l : Lexer) : Prop :=
  l.token.kind = .lessThan → ∀ ks, l.Scans ks → AngleBalance.closes {} ks = false

lemma gives_opensTypeArguments_unopened (hs : st.Sound s w) :
    opensTypeArguments.Gives st fun b st' =>
      st.SamePlace s st' ∧ (b = false → Unopened st'.lexer) := by
  have hsame := peeks_opensTypeArguments st hs
  refine ⟨hsame, fun hb _ ks hscans => ?_⟩
  obtain ⟨-, -, hcloses⟩ := gives_opensTypeArguments ⟨hs.current, hsame.agrees.symm.scans hscans⟩
  rw [Bool.eq_false_iff]
  intro h
  have htrue := hcloses (hsame.moving hs.moving) h
  rw [hb] at htrue
  cases htrue

/-- No access, no call and no type arguments stand at the token. -/
structure EndsRounds (l : Lexer) : Prop where
  access : l.token.kind ∉ [TokenKind.dot, .questionDot, .openBracket, .openParen]
  unopened : Unopened l

/-- At the end of a text there is nothing more to read. -/
lemma endsRounds_of_endOfFile {l : Lexer} (h : l.token.kind = .endOfFile) : EndsRounds l :=
  ⟨by rw [h]; decide, fun hless => by rw [h] at hless; cases hless⟩

/-- What follows the second time stood there the first time. -/
lemma Follows.kind_eq_of_tail {c : Context} {l : Lexer} {rest : List Lexeme} {k : TokenKind}
    (h : Follows d rest st) (htail : Lexer.Tail (Stage.operand.within c).ends l rest)
    (hkind : st.kind = k)
    (hk : k ∈ [TokenKind.dot, .questionDot, .openBracket, .openParen, .lessThan]) :
    l.token.kind = k := by
  have hplain : ∀ k ∈ [TokenKind.dot, .questionDot, .openBracket, .openParen, .lessThan],
      k ≠ .closeParen ∧ k ≠ .greaterThan ∧ k ≠ .endOfFile ∧ k ≠ .semicolon ∧
        k ∉ TokenKind.greaterKinds := by
    decide
  obtain ⟨hparen, hgreater, hend, hsemicolon, hplain⟩ := hplain k hk
  cases rest with
  | nil =>
    have hlast := h.spelled.last.kind
    rw [← h.current, ← ParserState.kind, hkind] at hlast
    exact absurd hlast (by simp [hend, hsemicolon])
  | cons t rest =>
    have htkind : t.kind = k := by
      rcases h.kind_or with hkind' | ⟨hkind', -⟩
      · rw [← hkind', hkind]
      · exact absurd (hkind.symm.trans hkind') hgreater
    have hsame := htail.leads.kind_eq (by rw [htkind]; exact hparen)
    rw [htkind] at hsame
    rw [← hsame, Lexer.eq_of_rescanGreater (by rwa [hsame])]

/-- What did not open type arguments the first time does not open them the second time. -/
lemma gives_opensTypeArguments_again {c : Context} {l : Lexer} {rest : List Lexeme}
    (hunopened : Unopened l) (htail : Lexer.Tail (Stage.operand.within c).ends l rest)
    (h : Follows d rest st) (hkind : st.kind = .lessThan) :
    opensTypeArguments.Gives st fun b st' => b = false ∧ Follows d rest st' := by
  have hless := h.kind_eq_of_tail htail hkind (by simp)
  obtain ⟨tail, htails, hscans⟩ := h.spelled.scans (by
    rw [← h.current, ← ParserState.kind, hkind]
    decide)
  refine (gives_opensTypeArguments ⟨h.current, hscans⟩).mono fun b st₁ h₁ => ?_
  obtain ⟨hreturns, hopens, -⟩ := h₁
  refine ⟨Bool.eq_false_iff.mpr fun hb => ?_, h.returns hreturns⟩
  have hlast : (rawKinds rest ++ tail).getLast? = some .endOfFile := by
    have htails' : ∀ tail ∈ closings, tail.getLast? = some .endOfFile ∧ tail ≠ [] := by decide
    rw [List.getLast?_append_of_ne_nil _ (htails' tail htails).2, (htails' tail htails).1]
  obtain ⟨ts, l', ending, hpath, hending, hraws⟩ := htail.leads.exists_ending htails
  have hraw : l.token.kind ∈ TokenKind.greaterKinds → l.token.kind = .greaterThan := by
    rw [hless]
    decide
  obtain ⟨ks, hks, hcloses⟩ := hpath.exists_scans hraw hending (hraws ▸ hopens hlast hb)
  rw [hunopened hless ks hks] at hcloses
  cases hcloses

/-- Where nothing made an operand longer the first time, nothing does the second time. -/
theorem rereadsStop_memberStep {c : Context} {l : Lexer} (hends : EndsRounds l) :
    RereadsStop (Stage.operand.within c) memberSteps l := by
  intro rest st fuel d start object htail h
  have hbehind := h.kind_behind htail.of_within.head
  have hstop : Gives (pure (ForInStep.done object)) st fun r st' => r = .done object ∧
      Follows d rest st' ∧ ((Stage.operand.within c).joined = true →
        st'.lexer.rescanGreater = st'.lexer) := ⟨rfl, h, nofun⟩
  refine .kind ?_
  split
  case h_1 hk | h_2 hk | h_3 hk | h_7 hk =>
    exact absurd (by simp [h.kind_eq_of_tail htail hk (by simp)]) hends.access
  case h_8 hk =>
    refine (gives_opensTypeArguments_again hends.unopened htail h hk).bind fun b st₁ h₁ => ?_
    obtain ⟨rfl, hfollows⟩ := h₁
    exact .pure ⟨rfl, hfollows, nofun⟩
  case h_9 => exact hstop
  all_goals
    rename_i hk
    rw [hk] at hbehind
    exact absurd hbehind (by decide)

/-! ## Operands with accesses and calls behind them -/

/-- What follows `?.` is read again. -/
lemma chainRound_chainRest {start : Nat} {object : Node} (hs : st.Sound s w)
    (hinside : RereadsInside s (w - 1) rules) (hpoint : st.kind = .questionDot) :
    (chainRest rules start object).Gives st.advanced fun n st' =>
      ChainRound s .operand 1 memberSteps object st (.yield n) st' := by
  have h₁ : Advances s w st st.advanced := gives_advance hs
  have hmark : st.lexer.Path (Lexeme.mark true) st.lexer.scan :=
    .single (hs.current.symm.trans hpoint) (by decide)
  refine .kind ?_
  split
  case h_1 hopen =>
    exact .pure_bind (chainRound_call true h₁.sound hinside h₁.tells rfl hmark hopen)
  case h_2 hless =>
    refine (peeks_opensTypeArguments _ h₁.sound).bind fun b st₂ h₂ => ?_
    have hkind : st₂.kind = .lessThan := h₂.kind.trans hless
    refine .ite ((gives_callRest_typed rules start object true hkind).mono
      fun _ _ hn => .foreign hn) (.at?_ne (by simp [hkind]) ?_)
    refine (gives_memberName_none (by rw [hkind]; rfl)).bind fun name _ h => gives_finish ?_
    rw [h]
    exact .foreign (.of_form rfl)
  case h_3 =>
    refine .pure_bind ?_
    by_cases hopen : st.advanced.kind = .openBracket
    · exact .at?_eq hopen (chainRound_index true h₁.sound hinside h₁.tells rfl hmark hopen)
    · exact .at?_ne hopen ((chainRound_name true start object hs hpoint).bind
        fun name st₁ h => gives_finish h)

/-- A round behind an operand is read again. -/
lemma chainRound_memberStep {start : Nat} {object : Node} (hs : st.Sound s w)
    (hinside : RereadsInside s (w - 1) rules) :
    (memberStep rules start true object).Gives st
      (ChainRound s .operand 1 memberSteps object st) := by
  have hlonger {p : Parser Node} {st₁ : ParserState} (h : p.Gives st₁ fun n st' =>
      ChainRound s .operand 1 memberSteps object st (.yield n) st') :
      Gives (do return .yield (← p)) st₁ (ChainRound s .operand 1 memberSteps object st) :=
    h.bind fun _ _ hround => .pure hround
  have hstop (st₁ : ParserState) (hsame : st.SamePlace s st₁)
      (haccess : st.kind ∉ [TokenKind.dot, .questionDot, .openBracket, .openParen])
      (hunopened : Unopened st₁.lexer) :
      Gives (pure (.done object)) st₁ (ChainRound s .operand 1 memberSteps object st) := by
    have hkind : st₁.lexer.token.kind = st.kind := by
      rw [hsame.agrees.token]
      exact hs.current.symm
    exact .pure (.stop hsame.tells ⟨hsame.agrees.symm.rescanGreater,
      rereadsStop_memberStep ⟨by rwa [hkind], hunopened⟩⟩)
  have hclosed (hk : st.kind ≠ .lessThan) : Unopened st.lexer := fun hless =>
    absurd (hs.current.trans hless) hk
  refine .kind ?_
  split
  case h_1 hk =>
    refine .advance ((chainRound_name false start object hs hk).bind fun name st₁ h => ?_)
    exact .finish (.pure h)
  case h_2 hk => exact .advance (hlonger (chainRound_chainRest hs hinside hk))
  case h_3 hk =>
    exact hlonger (chainRound_index false hs hinside (.refl s st) rfl (.refl st.lexer) hk)
  case h_4 hk =>
    refine .afterLineBreak fun b => .ite
      (hstop st (.refl st) (by rw [hk]; decide) (hclosed (by simp [hk]))) ?_
    exact .advance (.finish (.pure (.foreign (.of_form rfl))))
  case h_5 | h_6 =>
    exact hlonger (((yields_taggedTemplate rules start object none false).gives st).mono
      fun _ _ hn => .foreign hn.foreign)
  case h_7 hk =>
    exact hlonger (chainRound_call false hs hinside (.refl s st) rfl (.refl st.lexer) hk)
  case h_8 hk =>
    refine (gives_opensTypeArguments_unopened hs).bind fun b st₁ h => ?_
    obtain ⟨h₁, hunopened⟩ := h
    cases b with
    | true =>
      exact hlonger ((gives_callRest_typed rules start object false (h₁.kind.trans hk)).mono
        fun _ _ hn => .foreign hn)
    | false => exact hstop st₁ h₁ (by rw [hk]; decide) (hunopened rfl)
  case h_9 =>
    exact hstop st (.refl st) (by simp_all) (hclosed (by simp_all))

/-- What the rounds start with: a primary expression, or a keyword that is one only there. -/
def firstOperand (rules : Rules) : Parser (Option Node) := do
  match ← kind with
  | .importKeyword | .superKeyword => some <$> tokenNode
  | _ => rules .primary

/-- What is known behind two steps is known of the second one behind the first one. -/
lemma Gives.of_bind {α β : Type} {p : Parser α} {f : α → Parser β} {Q : β → ParserState → Prop}
    (h : (p >>= f).Gives st Q) : p.Gives st fun a st' => (f a).Gives st' Q := h

lemma Gives.of_pos {β : Type} {f : Nat → Parser β} {Q : β → ParserState → Prop}
    (h : (Parser.pos >>= f).Gives st Q) : (f st.here).Gives st Q := h

/-- The first operand is read, and then the rounds behind it. -/
lemma gives_leftHandSide_of {Q : Option Node → ParserState → Prop}
    (h : (firstOperand rules).Gives st fun o st' => match o with
      | none => Q none st'
      | some first => (memberRest rules st.here true first).Gives st' fun n => Q (some n)) :
    (leftHandSide rules).Gives st Q := by
  have hfirst (k : TokenKind) (hk : st.kind = k) : Gives (match k with
      | .importKeyword | .superKeyword => some <$> tokenNode
      | _ => rules .primary) st fun o st' => match o with
      | none => Q none st'
      | some first => (memberRest rules st.here true first).Gives st' fun n => Q (some n) := by
    subst hk
    exact h
  refine .pos (.kind ?_)
  split
  case h_1 hk | h_2 hk =>
    refine (hfirst _ hk).bind fun o st' ho => ?_
    cases o with
    | none => exact ho
    | some first => exact Gives.bind ho fun _ _ hQ => hQ
  case h_3 himport hsuper =>
    have hprimary := hfirst _ rfl
    split at hprimary
    case h_1 hk => exact absurd hk himport
    case h_2 hk => exact absurd hk hsuper
    case h_3 =>
      refine hprimary.bind fun o st' ho => ?_
      cases o with
      | none => exact ho
      | some first => exact Gives.bind ho fun _ _ hQ => hQ

/-- An operand and the accesses and calls behind it are a chain. -/
lemma gives_leftHandSide {Q : Option Node → ParserState → Prop}
    (h : (chainOf (firstOperand rules) fun start => memberStep rules start true).Gives st Q) :
    (leftHandSide rules).Gives st Q := by
  refine gives_leftHandSide_of ((Gives.of_bind (Gives.of_pos h)).mono fun o st' ho => ?_)
  cases o with
  | none => exact ho
  | some first => exact Gives.of_bind ho

/-- The first token of an expression without signs in front of it. -/
lemma Follows.kind_operand {n : Node} {ts rest : List Lexeme} (h : Follows d (ts ++ rest) st)
    (hmade : n.MadeOf s 0 ts) :
    st.kind.isOperand = true ∨ st.kind ∈ [TokenKind.openParen, .openBracket] := by
  obtain ⟨t, us, rfl, hgreater, hkind⟩ := hmade.starts_kind
  rw [h.kind_eq hgreater]
  rcases hkind with hkind | hkind | ⟨hlevel, -⟩
  · exact .inl hkind
  · exact .inr hkind
  · exact absurd rfl hlevel

lemma Rereads.firstOperand {g : Stage} {l : Lexer} {n : Node} {ts : List Lexeme}
    (h : Rereads g 1 (fun fuel => grammar fuel .primary) l n ts) (hmade : n.MadeOf s 0 ts) :
    Rereads g 1 (fun fuel => Parser.firstOperand (grammar fuel)) l n ts := by
  intro rest st fuel d htail hfollows hlevels hfuel
  have hkind := hfollows.kind_operand hmade
  refine .kind ?_
  split
  case h_1 hk | h_2 hk =>
    rw [hk] at hkind
    exact absurd hkind (by decide)
  case h_3 => exact h rest st fuel d htail hfollows hlevels hfuel

lemma Rereads.leftHandSide_of_chain {g : Stage} {l : Lexer} {n : Node} {ts : List Lexeme}
    (h : Rereads g 1 (fun fuel => chainOf (Parser.firstOperand (grammar fuel)) (memberSteps fuel)) l
      n ts) : Rereads g 1 (fun fuel => leftHandSide (grammar fuel)) l n ts :=
  fun rest st fuel d htail hfollows hlevels hfuel =>
    gives_leftHandSide (h rest st fuel d htail hfollows hlevels hfuel)

/-- An operand is read where nothing follows that makes it longer. -/
lemma Rereads.leftHandSide {c : Context} {l : Lexer} {n : Node} {ts : List Lexeme}
    (h : Rereads (Stage.operand.within c) 1 (fun fuel => grammar fuel .primary) l n ts)
    (hmade : n.MadeOf s 0 ts) (hends : EndsRounds l) :
    Rereads (Stage.operand.within c) 1 (fun fuel => Parser.leftHandSide (grammar fuel)) l n ts := by
  have hrounds : RereadsRounds (Stage.operand.within c) 1
      (fun fuel => Parser.firstOperand (grammar fuel)) memberSteps l n ts :=
    Rereads.rounds (h.firstOperand hmade)
  exact (hrounds.stop (rereadsStop_memberStep hends)).leftHandSide_of_chain

lemma replays_firstOperand
    (hprimary : Replays s w .operand 1 (rules .primary) fun fuel => grammar fuel .primary) :
    Replays s w .operand 1 (firstOperand rules) fun fuel => firstOperand (grammar fuel) := by
  intro st hs
  have hkeyword (hne : st.kind ≠ .endOfFile)
      (hform : (Form.token st.kind : Form Node).isEvaluable = false) :
      (some <$> tokenNode).Gives st fun o st' => st.Reads s w st' [] ∧
        Repeats s .operand 1 (fun fuel => firstOperand (grammar fuel)) st o st' :=
    ⟨(gives_filledToken hs hne).reads.forget, .foreign (.of_form hform)⟩
  refine .kind ?_
  split
  case h_1 hk | h_2 hk => exact hkeyword (by simp [hk]) (by rw [hk]; rfl)
  case h_3 =>
    exact (hprimary st hs).mono fun o st' h =>
      ⟨h.1, h.2.again_of fun _ _ _ hmade hagain => hagain.firstOperand hmade⟩

/-- An operand is read again with the accesses and calls behind it. -/
theorem replays_leftHandSide (hr : rules.Sound s w) (hfills : (rules .primary).Fills s w)
    (hinside : RereadsInside s (w - 1) rules)
    (hprimary : Replays s w .operand 1 (rules .primary) fun fuel => grammar fuel .primary) :
    Replays s w .operand 1 (leftHandSide rules) fun fuel => leftHandSide (grammar fuel) := by
  have hfirst (st : ParserState) (hs : st.Sound s w) : (firstOperand rules).Gives st fun o st' =>
      ∀ n ∈ o, st.FillsTo s w st' (some n) := by
    have hfills' : (firstOperand rules).Gives st fun o st' => st.FillsTo s w st' o := by
      refine .kind ?_
      split
      case h_1 hk | h_2 hk => exact gives_filledToken hs (by simp [hk])
      case h_3 => exact hfills st hs
    refine hfills'.mono fun o st' h => ?_
    rintro n rfl
    exact h
  have hchain := replays_chainOf (I := fun st₀ n st => st₀.FillsTo s w st (some n))
    (fun start => memberStep rules start true) memberSteps (Nat.le_refl 0) id hfirst
    (replays_firstOperand hprimary) fun hleft =>
      (gives_memberStep hr true hleft).and (chainRound_memberStep hleft.reads.sound hinside)
  intro st hs
  exact gives_leftHandSide ((hchain st hs).mono fun o st' h =>
    ⟨h.1, h.2.again_of fun _ _ _ _ hagain => hagain.leftHandSide_of_chain⟩)

end Parser
end InlineValues
