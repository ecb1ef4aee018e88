import InlineValues.Grammar.SourceFile
import InlineValues.Proofs.Grammar.Statement
import InlineValues.Proofs.Token.Trivia

/-!
# The tree of a source file lies on its text

The grammar is a circle of productions, closed by recursion on a bound for its depth.  Before a
production comes back to itself it has consumed a token or opened one of the guarded levels, so that
less is left (`ParserState.left`).  Four levels of the recursion are enough for each step of that
measure, and the bound is never reached (`complete_grammar`).

What the grammar reads from the first token to the end of the file makes the tree of the file, for
every text (`readsFile_parse`, `wellSpanned_of_parse`).
-/

namespace InlineValues
namespace Parser

open ParserState

variable {s : Source} {w : Nat} {st : ParserState} {rules : Rules}

/-! ## The grammar -/

/-- With nothing left there is nothing to ask for. -/
lemma complete_zero (s : Source) (fuel : Nat) : (grammar fuel).Complete s 0 where
  reads _ _ _ hs := absurd hs.left_lt (Nat.not_lt_zero _)
  fills _ _ _ _ hs := absurd hs.left_lt (Nat.not_lt_zero _)
  statement _ hs := absurd hs.left_lt (Nat.not_lt_zero _)
  readsLater _ _ _ hs := absurd hs.left_lt (Nat.not_lt_zero _)
  fillsLater _ _ _ hs := absurd hs.left_lt (Nat.not_lt_zero _)
  deep := ⟨fuel, Nat.zero_le _, fun _ _ => rfl⟩
  readsAll _ _ _ hs := absurd hs.left_lt (Nat.not_lt_zero _)
  fillsAll _ _ _ hs := absurd hs.left_lt (Nat.not_lt_zero _)
  deepAll := ⟨fuel, Nat.zero_le _, fun _ _ => rfl⟩

/-- The grammar without parameters, which is all that the production of a parameter needs. -/
def withoutParameters (rules : Rules) : Rules
  | .parameter => pure none
  | x => rules x

lemma parameter_withoutParameters (rules : Rules) :
    parameter (withoutParameters rules) = parameter rules := by
  simp only [parameter, decorators, typeAnnotation, initializer, withoutParameters]

/-- The first productions open a level of their own, or read on behind a token. -/
lemma sound_withoutParameters (hr : rules.Complete s w)
    (hlater : (production rules).Complete s w)
    (hdeep : ∃ fuel, 4 * w ≤ fuel ∧ production rules = grammar (fuel + 1)) :
    (withoutParameters (production rules)).Sound s (w + 1) where
  reads x hx := by
    cases x with
    | type =>
      simp only [withoutParameters, production]
      exact (reads_anyType hr).nested
    | parameter => exact reads_none
    | bindingName => exact (fills_bindingName hr).reads
    | assignment =>
      simp only [withoutParameters, production]
      exact (fills_assignment hr).nested.reads
    | unary =>
      simp only [withoutParameters, production]
      exact (fills_unary hr).nested.reads
    | _ => exact absurd hx Bool.false_ne_true
  fills x hx hx' := by
    cases x with
    | assignment =>
      simp only [withoutParameters, production]
      exact (fills_assignment hr).nested
    | unary =>
      simp only [withoutParameters, production]
      exact (fills_unary hr).nested
    | bindingName => exact fills_bindingName hr
    | type | parameter => exact absurd hx' (by decide)
    | _ => exact absurd hx Bool.false_ne_true
  statement := by
    simp only [withoutParameters, production]
    exact (readsStatement_statement hr.toSound).nested
  readsLater x hx := by
    cases x with
    | parameter => exact reads_none
    | _ => exact hlater.readsAll _ hx
  fillsLater x hx := by
    cases x with
    | parameter => exact absurd hx Bool.false_ne_true
    | _ => exact hlater.fillsAll _ hx
  deep := by
    obtain ⟨fuel, hfuel, hrules⟩ := hdeep
    refine ⟨fuel + 1, by omega, fun x hx => ?_⟩
    rw [← hrules]
    cases x with
    | parameter => exact absurd rfl hx
    | _ => rfl

/-- Parameters are read over the first productions. -/
lemma sound_production (hr : rules.Complete s w) (hr' : (production rules).Complete s w)
    (hlater : (production (production rules)).Complete s w)
    (hdeep : ∃ fuel, 4 * w ≤ fuel ∧ rules = grammar fuel) :
    (production (production rules)).Sound s (w + 1) where
  reads x hx := by
    obtain ⟨fuel, hfuel, rfl⟩ := hdeep
    cases x with
    | parameter =>
      rw [production, ← parameter_withoutParameters]
      exact reads_parameter (sound_withoutParameters hr hr' ⟨fuel, hfuel, rfl⟩)
    | _ =>
      exact (sound_withoutParameters hr' hlater ⟨fuel + 1, by omega, rfl⟩).reads _ hx
  fills x hx hx' := by
    obtain ⟨fuel, hfuel, rfl⟩ := hdeep
    cases x with
    | parameter => exact absurd hx' Bool.false_ne_true
    | _ =>
      exact (sound_withoutParameters hr' hlater ⟨fuel + 1, by omega, rfl⟩).fills _ hx hx'
  statement := by
    rw [production]
    exact (readsStatement_statement hr'.toSound).nested
  readsLater := hlater.readsAll
  fillsLater := hlater.fillsAll
  deep := by
    obtain ⟨fuel, hfuel, rfl⟩ := hdeep
    exact ⟨fuel + 2, by omega, fun _ _ => rfl⟩

/-- The other productions but one are read over those. -/
lemma reads_production (hr : rules.Sound s w) (hranked : rules.Ranked)
    (h : (production rules).Sound s w) {x : Nonterminal} (hx : x ≠ .statement)
    (hx' : x ≠ .leftHandSide) :
    (production rules x).Reads s w Option.toList := by
  cases x with
  | typeOperator => exact reads_operatorType hr
  | typeMember => exact reads_typeMember hr
  | binary precedence => exact (fills_binary hr hranked precedence).reads
  | primary => exact (fills_primary hr).reads
  | statement => exact absurd rfl hx
  | leftHandSide => exact absurd rfl hx'
  | _ => exact h.reads _ rfl

lemma fills_production (hr : rules.Sound s w) (hranked : rules.Ranked)
    (h : (production rules).Sound s w) {x : Nonterminal} (hx : x.isProper = true)
    (hx' : x ≠ .leftHandSide) :
    (production rules x).Fills s w := by
  cases x with
  | binary precedence => exact fills_binary hr hranked precedence
  | primary => exact fills_primary hr
  | leftHandSide => exact absurd rfl hx'
  | assignment | unary | bindingName => exact h.fills _ rfl rfl
  | _ => nomatch hx

/-- At last what stands on the left of an assignment starts with a primary expression. -/
lemma complete_production (hr : rules.Sound s w) (hr' : (production rules).Sound s w)
    (hranked : rules.Ranked) (h : (production (production rules)).Sound s w)
    (hdeep : ∃ fuel, 4 * w ≤ fuel ∧ production (production rules) = grammar fuel) :
    (production (production rules)).Complete s w where
  toSound := h
  readsAll x hx := by
    by_cases hleft : x = .leftHandSide
    · rw [hleft]
      exact (fills_leftHandSide hr' (fills_production hr hranked hr' rfl (by simp))).reads
    · exact reads_production hr' (ranked_production hranked) h hx hleft
  fillsAll x hx := by
    by_cases hleft : x = .leftHandSide
    · rw [hleft]
      exact fills_leftHandSide hr' (fills_production hr hranked hr' rfl (by simp))
    · exact fills_production hr' (ranked_production hranked) h hx hleft
  deepAll := hdeep.imp fun _ hfuel => ⟨hfuel.1, fun _ _ => by rw [hfuel.2]⟩

/-- Two more levels read on from where a production starts. -/
lemma sound_grammar_of_complete
    (h : ∀ fuel, 4 * w ≤ fuel → (grammar fuel).Complete s w) {n : Nat} (hn : 4 * w ≤ n) :
    (grammar (n + 2)).Sound s (w + 1) :=
  sound_production (h n hn) (h (n + 1) (by omega)) (h (n + 2) (by omega)) ⟨n, hn, rfl⟩

/-- Four levels of the grammar read a token, or open a production one level deeper. -/
theorem complete_grammar (s : Source) (w fuel : Nat) (hfuel : 4 * w ≤ fuel) :
    (grammar fuel).Complete s w := by
  induction w generalizing fuel with
  | zero => exact complete_zero s _
  | succ w ih =>
    obtain ⟨n, rfl⟩ : ∃ n, fuel = n + 4 := ⟨fuel - 4, by omega⟩
    have hsound (k : Nat) : (grammar (n + k + 2)).Sound s (w + 1) :=
      sound_grammar_of_complete ih (by omega)
    exact complete_production (hsound 0) (hsound 1) (ranked_grammar (n + 2)) (hsound 2)
      ⟨n + 4, hfuel, rfl⟩

lemma sound_grammar (s : Source) (w fuel : Nat) (hfuel : 4 * w ≤ fuel + 2) :
    (grammar fuel).Sound s w := by
  cases w with
  | zero => exact (complete_zero s fuel).toSound
  | succ w =>
    obtain ⟨n, rfl⟩ : ∃ n, fuel = n + 2 := ⟨fuel - 2, by omega⟩
    exact sound_grammar_of_complete (complete_grammar s w) (by omega)

/-! ## Files -/

/-- A round of the statements of a file: it ends at the end of the text, drops a brace, or reads a
statement. -/
lemma gives_fileRound (hr : rules.Sound s w) {nodes : List Node} {st₁ : ParserState}
    (h₁ : st.Covers s w st₁ nodes.reverse) :
    Gives (do
      if ← at? .endOfFile then return ForInStep.done nodes
      if ← at? .closeBrace then
        report .declarationOrStatementExpected
        advance
        return .yield nodes
      return .yield (← consStatement rules nodes)) st₁ fun r st₂ =>
      Round (fun nodes st' => st.Covers s w st' (List.reverse nodes)) st₁ r st₂ ∧
        ∀ nodes', r = .done nodes' → st₂.kind = .endOfFile := by
  refine .at? fun atEnd hend hgo => ?_
  split
  case isTrue htrue => exact ⟨.done h₁, fun _ _ => hend htrue⟩
  case isFalse hfalse =>
    have hkind : st₁.kind ≠ .endOfFile := hgo (Bool.eq_false_iff.mpr hfalse)
    refine .at? fun _ _ _ => .ite ?_ ?_
    · refine (peeks_report (by nofun) st₁ h₁.sound).bind fun _ st₂ h₂ => ?_
      refine (gives_advance (h₂.sound h₁.sound)).bind fun _ st₃ h₃ => .pure ⟨.yield ?_ ?_, nofun⟩
      · simpa using h₁.trans ((h₂.reads h₁.sound).skip h₃.toReads).toCovers
      · rw [← h₂.here]
        exact h₃.lt (by rwa [h₂.kind])
    · refine (gives_consStatement hr nodes h₁.sound).bind fun ns st₂ hns => .pure ?_
      obtain ⟨ys, hns, h₂, hlt⟩ := hns
      refine ⟨.yield ?_ (hlt hkind), nofun⟩
      rw [hns]
      exact h₁.trans h₂.toCovers

/-- The statements of a file follow each other up to its end, and braces that close nothing are
dropped. -/
lemma covers_fileStatements (hr : rules.Sound s w) (hs : st.Sound s w) :
    (fileStatements rules).Gives st fun q st' =>
      st.Covers s w st' q.items ∧ st'.kind = .endOfFile := by
  have hinit : st.Covers s w st (List.reverse []) := hs.reads.toCovers
  refine (Gives.repeatUntil (I := fun nodes st' => st.Covers s w st' (List.reverse nodes))
    (J := fun _ st' => st'.kind = .endOfFile) (fun _ _ h => h.sound) hinit
    fun nodes st₁ h₁ => gives_fileRound hr h₁).bind
      fun nodes st₁ h₁ => gives_sequence fun q hq => ?_
  rw [hq]
  exact h₁

/-- Where nothing was reported, nothing went wrong. -/
lemma told_empty : Told #[] none false := ⟨by simp, by simp, by simp⟩

/-- At its first token the parser is sound, with the whole text and all levels left. -/
lemma gives_firstToken (hsource : st.lexer.source = s) (hcursor : st.lexer.cursor.On s)
    (hstalled : st.stalled = false) (htold : Told st.diagnostics st.lastFault st.refused) :
    advance.Gives st fun _ st' =>
      st'.Sound s (s.size + maxParserDepth + 1) ∧ Tells s st st' ∧ st'.arena = st.arena ∧
        st'.knownNames = st.knownNames ∧ st'.here = st.lexer.cursor.pos := by
  refine ⟨⟨Lexer.sound_scan hsource hcursor, rfl, (Lexer.fullStart_scan _).symm, ?_, hstalled,
    htold, Lexer.noted_scan hcursor⟩, ⟨.refl _ _, Lexer.adds_scan hsource hcursor⟩, rfl, rfl,
    Lexer.fullStart_scan _⟩
  simp only [left]
  omega

/-- What is known of the tree of a file that was read with some names at hand. -/
structure ReadsFile (fileName : String) (s : Source) (knownNames : Array (List Char)) (n : Node)
    (st : ParserState) : Prop where
  laidOut : n.LaidOut s
  named : n.Named knownNames
  pos : n.pos = 0
  stop : n.stop = s.size
  form : ∃ statements endOfFile, n.form = .sourceFile fileName statements endOfFile ∧
    endOfFile.form = .token .endOfFile ∧ endOfFile.stop = s.size
  behind : ∀ c ∈ n.children, (passShebang s.chars).2 ≤ c.pos
  grown : Arena.Grown s {} st.arena [n]
  last : n.index + 1 = st.arena.size
  ended : st.kind = .endOfFile
  moving : st.stalled = false
  reported : ∀ d ∈ st.diagnostics, d.On s
  scanned : ∀ d ∈ st.lexer.diagnostics, d.OfLexer s
  told : Told st.diagnostics st.lastFault st.refused
  recalled : st.Quiet → n.Recalls s

/-! ## The tree of a file -/

/-- The node at the end of a file, which takes what is left of the text. -/
def endNode (s : Source) (st : ParserState) : Node :=
  ⟨⟨st.here, st.arena.size⟩, s.size, .token .endOfFile⟩

/-- The node of a file whose statements were read up to some state. -/
def fileNode (fileName : String) (s : Source) (statements : Sequence Node) (st : ParserState) :
    Node :=
  ⟨⟨0, (st.added st.here s.size (.token .endOfFile)).arena.size⟩, s.size,
    .sourceFile fileName statements (endNode s st)⟩

lemma laidOut_endNode (hs : st.Sound s w) (hend : st.kind = .endOfFile) :
    (endNode s st).LaidOut s := by
  have hlast : st.lexer.token.kind = .endOfFile := hs.current.symm.trans hend
  have hstands (kind : TokenKind) (hkind : (endNode s st).kind = .token kind) :
      (endNode s st).StandsOn s kind :=
    ⟨st.lexer, hs.lexer, hlast.trans (Kind.token.inj hkind), rfl,
      (hs.lexer.stop_of_endOfFile hlast).symm⟩
  exact .of_children ⟨hs.cut_here, s.isCut_size, hs.here_le,
    fun _ => Source.tokenStart_le_size hs.cut_here, .of_isPlain rfl,
    fun kind hkind _ => hstands kind hkind⟩ (List.forall_mem_nil _)

section

variable {st₁ : ParserState} {statements : Sequence Node}
variable (h : st.Covers s w st₁ statements.items)

/-- What holds of the statements of a file and of its end holds of all parts of its node. -/
lemma forall_mem_children_fileNode {P : Node → Prop} (fileName : String)
    (hstatements : ∀ n ∈ statements.items, P n) (hend : P (endNode s st₁)) :
    ∀ n ∈ (fileNode fileName s statements st₁).children, P n :=
  List.forall_mem_append.mpr ⟨hstatements, List.forall_mem_singleton.mpr hend⟩

include h

lemma laidOut_fileNode (fileName : String) (hend : st₁.kind = .endOfFile) :
    (fileNode fileName s statements st₁).LaidOut s := by
  have hfitsEnd : Fits st₁.here s.size [endNode s st₁] :=
    ⟨Nat.le_refl _, h.sound.here_le, Nat.le_refl _⟩
  have hfits : Fits 0 s.size (fileNode fileName s statements st₁).children :=
    (h.fits.append hfitsEnd).mono_left (Nat.zero_le _)
  exact .of_children ⟨s.isCut_zero, s.isCut_size, hfits,
    fun _ => Source.tokenStart_le_size s.isCut_zero, .of_isPlain rfl, nofun⟩
    (forall_mem_children_fileNode fileName h.laidOut (laidOut_endNode h.sound hend))

lemma named_fileNode (fileName : String) :
    (fileNode fileName s statements st₁).Named st.knownNames :=
  .of_children nofun (forall_mem_children_fileNode fileName h.named
    (.of_children nofun (List.forall_mem_nil _)))

lemma recalls_fileNode (fileName : String) (hquiet : st₁.Quiet) :
    (fileNode fileName s statements st₁).Recalls s :=
  .of_children (.of_shown rfl) (forall_mem_children_fileNode fileName (h.recalled hquiet)
    (.of_children (.of_shown rfl) (List.forall_mem_nil _)))

/-- No part of a file stands in front of its first token. -/
lemma le_pos_fileNode (fileName : String) :
    ∀ c ∈ (fileNode fileName s statements st₁).children, st.here ≤ c.pos :=
  forall_mem_children_fileNode fileName (fun _ hn => (h.fits.of_mem hn).1) h.le

lemma grown_fileNode (fileName : String) :
    Arena.Grown s st.arena ((st₁.added st₁.here s.size (.token .endOfFile)).added 0 s.size
      ((fileNode fileName s statements st₁).form.map fun n => n.index)).arena
      [fileNode fileName s statements st₁] := by
  have hend : Arena.Grown s st₁.arena (st₁.arena.add st₁.here s.size (.token .endOfFile))
      [endNode s st₁] :=
    Arena.Grown.add (n := endNode s st₁) (.refl s st₁.arena) (.unnamed rfl) rfl
  exact Arena.Grown.add (n := fileNode fileName s statements st₁) (h.grown.trans hend)
    (.unnamed rfl) rfl

end

lemma gives_sourceFile (fileName : String) (s : Source) (knownNames : Array (List Char)) :
    (sourceFile fileName).Gives (.start s knownNames) fun n st =>
      ReadsFile fileName s knownNames n st := by
  obtain ⟨hsource, hcursor⟩ := on_skipShebang s
  refine Gives.modify_bind ((gives_firstToken hsource hcursor rfl told_empty).bind
    fun _ st h => .get ?_)
  obtain ⟨hs, htells, harena, (hknown : st.knownNames = knownNames), hhere⟩ := h
  dsimp only
  rw [hs.lexer.source]
  have hgrammar := complete_grammar s (s.size + maxParserDepth + 1) (depthBound s)
    (by simp only [depthBound]; omega)
  refine (covers_fileStatements hgrammar.toSound hs).bind fun statements st₁ h => .pos ?_
  obtain ⟨h₁, hend⟩ := h
  have hgrown := grown_fileNode h₁ fileName
  rw [harena] at hgrown
  have hfirst : st.here = (passShebang s.chars).2 := by
    rw [hhere]
    exact congrArg Cursor.pos (cursor_skipShebang s)
  replace htells := htells.trans h₁.tells
  refine .nodeAt (.pure (?_ : ReadsFile _ _ _ (fileNode fileName s statements st₁) _))
  exact {
    laidOut := laidOut_fileNode h₁ fileName hend
    named := hknown ▸ named_fileNode h₁ fileName
    pos := rfl
    stop := rfl
    form := ⟨statements, endNode s st₁, rfl, rfl, rfl⟩
    behind := hfirst ▸ le_pos_fileNode h₁ fileName
    grown := hgrown
    last := (Arena.size_add ..).symm
    ended := hend
    moving := h₁.sound.moving
    reported := htells.diagnostics.forall_mem (by simp [ParserState.start])
    scanned := htells.lexer.forall_mem (by simp [ParserState.start, Lexer.start])
    told := h₁.sound.told
    recalled := fun hquiet =>
      recalls_fileNode h₁ fileName ⟨hquiet.diagnostics, hquiet.lexer⟩ }

end Parser

/-- A pass of the parser over a text. -/
lemma readsFile_parseWith (fileName : String) (s : Source) (knownNames : Array (List Char)) :
    Parser.ReadsFile fileName s knownNames (parseWith fileName s knownNames).1
      (parseWith fileName s knownNames).2 :=
  Parser.gives_sourceFile fileName s knownNames

/-- The names that a pass collects stand each on one line. -/
lemma oneLine_names_parseWith (fileName : String) (s : Source)
    (knownNames : Array (List Char)) :
    ∀ name ∈ (parseWith fileName s knownNames).2.arena.names, OneLine name :=
  ((readsFile_parseWith fileName s knownNames).grown.named .empty).oneLine_names

/-- The tree of a text is that of a pass over it, with names at hand that stand each on one line. -/
theorem readsFile_parse (fileName : String) (s : Source) :
    ∃ knownNames st, Parser.ReadsFile fileName s knownNames (parse fileName s).root st ∧
      (parse fileName s).arena = st.arena ∧ ∀ name ∈ knownNames, OneLine name := by
  unfold parse
  dsimp only
  split
  · exact ⟨_, _, readsFile_parseWith fileName s _, rfl, oneLine_names_parseWith fileName s #[]⟩
  · exact ⟨#[], _, readsFile_parseWith fileName s _, rfl, by simp⟩

/-- The tree of every text lies on that text, and takes all of it. -/
lemma laidOut_root_parse (fileName : String) (s : Source) :
    (parse fileName s).root.LaidOut s ∧ (parse fileName s).root.pos = 0 ∧
      (parse fileName s).root.stop = s.size := by
  obtain ⟨_, _, h, -⟩ := readsFile_parse fileName s
  exact ⟨h.laidOut, h.pos, h.stop⟩

/-- In no name of a tree a line ends. -/
lemma oneLine_name_of_parse (fileName : String) (s : Source) {n : Node}
    (h : n.Within (parse fileName s).root) {text : List Char}
    (htext : n.form.name? = some text) : OneLine text := by
  obtain ⟨_, _, hfile, -, hknown⟩ := readsFile_parse fileName s
  exact (hfile.named n h text htext).elim id (hknown text)

/-- **Every node lies on its text.**  In the tree of any text the range of every node lies on the
text and begins and ends between two characters.  Children lie inside their parent, and siblings
stand in the order of the text and do not overlap.  Nothing is asked of the text, which may be no
program at all. -/
theorem wellSpanned_of_parse (fileName : String) (s : Source) {n : Node}
    (h : n.Within (parse fileName s).root) : n.WellSpanned s :=
  ((laidOut_root_parse fileName s).1 n h).wellSpanned

/-- The tree of a call that is cut off. -/
theorem wellSpanned_unclosedCall :
    (parse "a.ts" (.ofString "f(")).root.Within (parse "a.ts" (.ofString "f(")).root ∧
      (parse "a.ts" (.ofString "f(")).root.WellSpanned (.ofString "f(") :=
  ⟨.refl, wellSpanned_of_parse "a.ts" (.ofString "f(") .refl⟩

end InlineValues
