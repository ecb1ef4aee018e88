import InlineValues.Grammar.Name
import InlineValues.Proofs.Grammar.Steps
import InlineValues.Proofs.Token.Trivia

/-!
# Reading names, literals and other leaves

A leaf takes one token, so that it is empty only at the end of the text (`TakesLeaf`).  A name and a
comma expression are never empty: what they start with was seen before it is taken.
-/

namespace InlineValues
namespace Parser

open ParserState

variable {β : Type} {s : Source} {w : Nat} {st st₀ : ParserState} {rules : Rules}

/-! ## Which tokens are names -/

lemma isWord_ne_end {k : TokenKind} (h : isWord k = true) : k ≠ .endOfFile := by
  rintro rfl
  exact absurd h (by decide)

lemma isTemplatePiece_ne_end {k : TokenKind} (h : k.isTemplatePiece = true) :
    k ≠ .endOfFile := by
  rintro rfl
  exact absurd h (by decide)

lemma isName_of_isWord {k : TokenKind} (h : isWord k = true) : k.isName = true := by
  simp only [isWord, TokenKind.isName, Bool.or_eq_true] at h ⊢
  exact h.imp_left .inl

/-- What can name a binding is a word, and asking for it changes nothing. -/
lemma gives_atIdentifier :
    atIdentifier.Gives st fun b st' => st' = st ∧ (b = true → isWord st.kind = true) := by
  refine .get (.kind ?_)
  split
  case h_1 hk => exact ⟨rfl, fun _ => by rw [hk]; rfl⟩
  case h_2 hk => exact ⟨rfl, fun _ => by rw [hk]; rfl⟩
  case h_3 hk => exact ⟨rfl, fun _ => by rw [hk]; rfl⟩
  case h_4 =>
    refine .pure ⟨rfl, fun hb => ?_⟩
    simp only [Bool.and_eq_true] at hb
    simp [isWord, hb.1]

lemma Gives.atIdentifier {f : Bool → Parser β} {Q : β → ParserState → Prop}
    (h : ∀ b, (b = true → isWord st.kind = true) → (f b).Gives st Q) :
    (Parser.atIdentifier >>= f).Gives st Q := by
  refine gives_atIdentifier.bind fun b st' hb => ?_
  obtain ⟨rfl, hb⟩ := hb
  exact h b hb

lemma peeks_atIdentifier : atIdentifier.Peeks s w := by
  intro st _
  apply gives_atIdentifier.mono
  rintro b st' ⟨rfl, -⟩
  exact .refl st'

instance : atIdentifier.Frames where
  frame st := by
    apply gives_atIdentifier.mono
    rintro b st' ⟨rfl, -⟩
    exact .refl st'

lemma peeks_nameOnSameLine : (nextOnSameLine atIdentifier).Peeks s w :=
  peeks_nextOnSameLine peeks_atIdentifier.skips

/-! ## Leaves -/

/-- What is known of a leaf that took the current token. -/
structure TakesToken (s : Source) (w : Nat) (st : ParserState) (n : Node) (st' : ParserState) : Prop
    extends st.Reads s w st' [n] where
  filled : st.kind ≠ .endOfFile → n.pos < n.stop

/-- What is known of a leaf that took the current token and holds no name but its own. -/
structure TakesLeaf (s : Source) (w : Nat) (st : ParserState) (n : Node) (st' : ParserState) : Prop
    extends TakesToken s w st n st' where
  spelled : n.Spelled s

/-- Taking a token as a leaf.  The state may note something before the leaf is made. -/
lemma takesToken {st₁ st₂ : ParserState} {form : Form Node} {payload : Form Nat}
    (hs : st.Sound s w) (h : Advances s w st st₁) (hsame : st₁.SamePlace s st₂)
    (hchildren : form.children = [])
    (hblock : form.isBlock = false)
    (hsolid : (st.kind ≠ .endOfFile → st.here < st₂.here) →
      Node.Solid s ⟨⟨st.here, st₂.arena.size⟩, st₂.here, form⟩)
    (hkind : ∀ kind, form.kind = .token kind → kind.isName = false → st.kind = kind)
    (hnamed : ∀ text, form.name? = some text → OneLine text ∨ text ∈ st₂.knownNames)
    (hpayload : Arena.Payload s (st₂.node st.here form) payload) :
    TakesToken s w st (st₂.node st.here form)
      (st₂.added st.here st₂.previousStop payload) := by
  have hread : st.Reads s w st₂ form.children := by
    rw [hchildren]
    exact h.toReads.same hsame
  have hlt : st.kind ≠ .endOfFile → st.here < st₂.here := by
    rw [hsame.here]
    exact h.lt
  have htoken (kind : TokenKind) (htoken : form.kind = .token kind) (hname : kind.isName = false) :
      Node.StandsOn s ⟨⟨st.here, st₂.arena.size⟩, st₂.here, form⟩ kind :=
    ⟨st.lexer, hs.lexer, hs.current.symm.trans (hkind kind htoken hname), rfl,
      hsame.here.trans h.stop⟩
  have hshown : form.shown = [] :=
    List.eq_nil_of_subset_nil (hchildren ▸ form.shown_subset_children)
  refine ⟨⟨hread.toCovers.added (hsolid hlt) htoken hnamed hpayload fun _ => .of_shown hshown,
    blocksBehind_node hblock hread.behind⟩, fun hkind => ?_⟩
  rw [node, hread.sound.previous]
  exact hlt hkind

lemma TakesLeaf.fills {n : Node} {st' : ParserState} (h : TakesLeaf s w st n st')
    (hkind : st.kind ≠ .endOfFile) : st.FillsTo s w st' (some n) := by
  refine ⟨h.toReads, fun m hm => ?_⟩
  cases hm
  exact ⟨h.filled hkind, h.spelled⟩

lemma gives_tokenNode (hs : st.Sound s w) :
    tokenNode.Gives st fun n st' => TakesLeaf s w st n st' := by
  refine .pos (.kind ?_)
  refine (gives_advance hs).bind fun _ st₁ h₁ => ?_
  exact ⟨takesToken hs h₁ (.refl st₁) rfl rfl (fun _ => .of_isPlain rfl)
    (fun _ hkind _ => Kind.token.inj hkind) nofun (.unnamed rfl), .of_name?_eq_none rfl⟩

lemma reads_tokenNode : tokenNode.Reads s w fun n => [n] :=
  fun _ hs => (gives_tokenNode hs).mono fun _ _ h => h.toReads

lemma gives_filledToken (hs : st.Sound s w) (hkind : st.kind ≠ .endOfFile) :
    (some <$> tokenNode).Gives st fun o st' => st.FillsTo s w st' o :=
  .map ((gives_tokenNode hs).mono fun _ _ h => h.fills hkind)

/-- The text of a leaf that takes a name is the name. -/
lemma gives_nameNode {form : List Char → Form Node} (hs : st.Sound s w)
    (hname : st.kind.isName = true) (hform : ∀ text, (form text).name? = some text)
    (hchildren : ∀ text, (form text).children = []) (hblock : ∀ text, (form text).isBlock = false)
    (hsolid : ∀ pos stop i text, pos < stop → Node.Solid s ⟨⟨pos, i⟩, stop, form text⟩) :
    (nameNode form).Gives st fun n st' => TakesLeaf s w st n st' := by
  refine .pos (.value ?_)
  refine (gives_advance hs).bind fun _ st₁ h₁ => ?_
  have hkind : st.kind ≠ .endOfFile := by
    intro hend
    rw [hend] at hname
    cases hname
  have hword : st.lexer.token.kind.isName = true := by rwa [← hs.current]
  have hspelled : (st₁.node st.here (form st.lexer.token.value)).Spelled s := fun text htext => by
    have hvalue : st.lexer.token.value = text := Option.some_inj.mp ((hform _).symm.trans htext)
    rw [← hvalue]
    exact ⟨hs.lexer.value_eq hword rfl (h₁.sound.previous.trans h₁.stop),
      hs.lexer.oneLine_value hword⟩
  refine ⟨takesToken hs h₁ (.refl st₁) (hchildren _) (hblock _)
    (fun hlt => hsolid _ _ _ _ (hlt hkind)) (fun kind htoken hplain => ?_)
    (fun text htext => .inl (hspelled text htext).2) (.own hspelled), hspelled⟩
  have hnone := Form.name?_eq_none_of_token htoken hplain
  rw [hform] at hnone
  cases hnone

lemma gives_identifierNode (hs : st.Sound s w) (hname : st.kind.isName = true) :
    identifierNode.Gives st fun n st' => TakesLeaf s w st n st' :=
  gives_nameNode hs hname (fun _ => rfl) (fun _ => rfl) (fun _ => rfl) fun _ _ _ _ hlt =>
    .of_isFilled rfl fun _ => hlt

/-- A name where one was seen, and nothing otherwise. -/
lemma gives_identifierIf (b : Bool) (hs : st.Sound s w)
    (hb : b = true → isWord st.kind = true) :
    Gives (if b = true then some <$> identifierNode else pure none) st
      fun o st' => st.FillsTo s w st' o := by
  split
  case isTrue htrue =>
    exact .map ((gives_identifierNode hs (isName_of_isWord (hb htrue))).mono
      fun _ _ h => h.fills (isWord_ne_end (hb htrue)))
  case isFalse => exact .pure hs.reads.fillsNone

lemma gives_privateIdentifierNode (hs : st.Sound s w) (hkind : st.kind = .privateIdentifier) :
    privateIdentifierNode.Gives st fun n st' => TakesLeaf s w st n st' :=
  gives_nameNode hs (by rw [hkind]; rfl) (fun _ => rfl) (fun _ => rfl) (fun _ => rfl)
    fun _ _ _ _ hlt => .of_isFilled rfl fun _ => hlt

lemma fills_identifier : identifier.Fills s w := by
  intro st hs
  refine .atIdentifier fun b hb => ?_
  split
  case isTrue htrue =>
    refine (gives_identifierNode hs (isName_of_isWord (hb htrue))).bind fun n st₁ h₁ => ?_
    exact h₁.fills (isWord_ne_end (hb htrue))
  case isFalse =>
    exact (peeks_report (by nofun) st hs).bind fun _ st₁ h₁ => (h₁.reads hs).fillsNone

lemma fills_identifierName : identifierName.Fills s w := by
  intro st hs
  refine .kind ?_
  split
  case isTrue hword =>
    refine (gives_identifierNode hs (isName_of_isWord hword)).bind fun n st₁ h₁ => ?_
    exact h₁.fills (isWord_ne_end hword)
  case isFalse =>
    exact (peeks_report (by nofun) st hs).bind fun _ st₁ h₁ => (h₁.reads hs).fillsNone

lemma fills_memberName : memberName.Fills s w := by
  intro st hs
  refine .at? fun b hb _ => ?_
  split
  case isTrue htrue =>
    have hkind := hb htrue
    refine (gives_privateIdentifierNode hs hkind).bind fun n st₁ h₁ => ?_
    exact h₁.fills (by simp [hkind])
  case isFalse => exact fills_identifierName st hs

/-! ## Literals -/

/-- A leaf in the place of a literal is a name only where the token is one. -/
lemma solid_literalForm (names : Array (List Char)) (n : Nat) (text : List Char)
    {k : TokenKind} {pos stop i : Nat} (h : k ≠ .endOfFile → pos < stop) :
    Node.Solid s ⟨⟨pos, i⟩, stop, literalForm names n k text⟩ := by
  unfold literalForm
  split
  · exact .of_isPlain rfl
  split
  · exact .of_isFilled rfl fun _ => h (by simp)
  · exact .of_isFilled rfl fun _ => h (by simp)
  · exact .of_isPlain rfl

section

variable (names : Array (List Char)) (n : Nat) (k : TokenKind) (text : List Char)

lemma children_literalForm : (literalForm names n k text).children = [] := by
  unfold literalForm
  split
  · rfl
  split <;> rfl

lemma isBlock_literalForm : (literalForm names n k text).isBlock = false := by
  unfold literalForm
  split
  · rfl
  split <;> rfl

lemma kind_literalForm : (literalForm names n k text).kind = .token k := by
  unfold literalForm
  split
  · rfl
  split <;> rfl

lemma name?_literalForm (h : k.isName = false) : (literalForm names n k text).name? = none := by
  unfold literalForm
  split
  · rfl
  split
  · cases h
  · cases h
  · rfl

/-- A name in the place of a literal is one of the known names. -/
lemma mem_of_name?_literalForm {name : List Char}
    (h : (literalForm names n k text).name? = some name) : name ∈ names := by
  unfold literalForm at h
  split at h
  · cases h
  split at h
  case h_1 | h_2 =>
    cases h
    exact Array.mem_of_getElem? ‹_›
  case h_3 => cases h

/-- The payload of a leaf in the place of a literal is a literal. -/
lemma payload_literalForm {origin : Origin} {stop : Nat} :
    Arena.Payload s ⟨origin, stop, literalForm names n k text⟩ (.literal k text) := by
  by_cases h : (k.isLiteral || k.isTemplatePiece) = true
  · have hform : literalForm names n k text = .literal k text := by
      unfold literalForm
      exact if_pos h
    rw [hform]
    exact .unnamed rfl
  · refine .stray (kind_literalForm names n k text) ?_ (children_literalForm names n k text)
    unfold TokenKind.pool?
    split <;> simp

end

/-- A leaf in the place of a literal, which holds a name only if the token is one. -/
lemma gives_literalNode (hs : st.Sound s w) :
    literalNode.Gives st fun n st' =>
      TakesToken s w st n st' ∧ (st.kind.isName = false → n.Spelled s) := by
  refine .pos (.kind (.value ?_))
  refine (gives_advance hs).bind fun _ st₁ h₁ => .modify_bind (.get ?_)
  have hsame : st₁.SamePlace s { st₁ with
      consulted := st₁.consulted || st.kind == .identifier || st.kind == .privateIdentifier } :=
    ⟨rfl, rfl, rfl, rfl, rfl, rfl, rfl, rfl, id, id, ⟨.refl _ _, .refl _ _⟩,
      .refl s st₁.arena⟩
  refine ⟨takesToken hs h₁ hsame (children_literalForm ..) (isBlock_literalForm ..)
    (solid_literalForm _ _ _) (fun kind htoken _ => ?_)
    (fun text htext => .inr (mem_of_name?_literalForm _ _ _ _ htext)) (payload_literalForm ..),
    fun hname => .of_name?_eq_none (name?_literalForm _ _ _ _ hname)⟩
  rw [kind_literalForm] at htoken
  exact Kind.token.inj htoken

lemma reads_literalNode : literalNode.Reads s w fun n => [n] :=
  fun _ hs => (gives_literalNode hs).mono fun _ _ h => h.1.toReads

/-- A leaf for a token that is no name. -/
lemma gives_literalLeaf (hs : st.Sound s w) (hname : st.kind.isName = false) :
    literalNode.Gives st fun n st' => TakesLeaf s w st n st' :=
  (gives_literalNode hs).mono fun _ _ h => ⟨h.1, h.2 hname⟩

lemma gives_filledLiteral (hs : st.Sound s w) (hkind : st.kind ≠ .endOfFile)
    (hname : st.kind.isName = false) :
    Gives (do return some (← literalNode)) st fun o st' => st.FillsTo s w st' o :=
  (gives_literalLeaf hs hname).bind fun _ _ h => h.fills hkind

lemma gives_emptyNode {form : Form Node} (hchildren : form.children = [])
    (hplain : form.isPlainNode = true) (hs : st.Sound s w) :
    (emptyNode form).Gives st fun n st' => TakesToken s w st n st' := by
  refine .pos ?_
  refine (gives_advance hs).bind fun _ st₁ h₁ => ?_
  obtain ⟨hcomposite, hplain⟩ := (Bool.and_eq_true ..).mp hplain
  have htoken := Form.isToken_of_isComposite hcomposite
  exact takesToken hs h₁ (.refl st₁) hchildren (Form.isBlock_of_isComposite hcomposite)
    (fun _ => .of_isPlain hplain) (fun _ hkind => absurd hkind (Form.ne_token htoken _))
    (fun _ htext => absurd htext (by simp [Form.name?_eq_none htoken]))
    (.unnamed (Form.name?_eq_none htoken))

/-! ## Composite names -/

lemma reads_qualifiedRest {left : Node} (h : st₀.Reads s w st [left]) :
    (qualifiedRest st₀.here left).Gives st fun n st' => st₀.Reads s w st' [n] := by
  refine Gives.repeatFrom (I := fun n st' => st₀.Reads s w st' [n]) (fun _ _ h => h.sound) h
    fun left st hleft => ?_
  refine (gives_optional .dot hleft.sound).bind fun b st₁ h₁ => ?_
  split
  case isTrue hdot =>
    refine (fills_identifierName.reads st₁ h₁.reads.sound).bind fun right st₂ h₂ => ?_
    have hlt : st.here < st₂.here := Nat.lt_of_lt_of_le (h₁.lt hdot (by simp)) h₂.le
    exact .finish (.yield (((hleft.skip h₁.reads).trans h₂).node rfl) hlt)
  case isFalse => exact .done (hleft.skip h₁.reads)

lemma reads_entityName : entityName.Reads s w Option.toList := by
  intro st hs
  refine .pos (.at? fun b _ _ => ?_)
  split
  case' isTrue => refine (reads_tokenNode.option st hs).bind fun first st₁ h₁ => ?_
  case' isFalse => refine (fills_identifierName.reads st hs).bind fun first st₁ h₁ => ?_
  all_goals
    cases first with
    | none => exact h₁
    | some first => exact (reads_qualifiedRest h₁).bind fun n st₂ h₂ => h₂

/-! ## Expressions with commas, property names and initializers -/

/-- One comma with the operand behind it, behind a left operand. -/
def commaStep (rules : Rules) (start : Nat) (left : Node) : Parser (ForInStep Node) := do
  if ← optional .comma then
    let right ← rules .assignment
    return .yield (← finish start (.binary left .comma right))
  return .done left

section

variable (hr : rules.Sound s w)
include hr

lemma gives_commaStep {left : Node} (h : st₀.FillsTo s w st (some left)) :
    (commaStep rules st₀.here left).Gives st
      (Round (fun n st' => st₀.FillsTo s w st' (some n)) st) := by
  refine (gives_optional .comma h.reads.sound).bind fun b st₁ h₁ => ?_
  split
  case isTrue hcomma =>
    refine (hr.reads .assignment rfl st₁ h₁.reads.sound).bind fun right st₂ h₂ => ?_
    have hlt : st.here < st₂.here := Nat.lt_of_lt_of_le (h₁.lt hcomma (by simp)) h₂.le
    have hright := (h.skip h₁.reads).reads.trans h₂
    refine .finish (.yield ?_ hlt)
    exact hright.operationFills (h.proper left rfl) (.of_isLoose rfl) (fun _ => .of_shown rfl)
      (Nat.lt_trans h.lt_here hlt)
  case isFalse => exact .done (h.skip h₁.reads)

lemma fills_expression : (expression rules).Fills s w := by
  intro st hs
  refine .pos ?_
  refine (hr.fills .assignment rfl rfl st hs).bind fun first st₁ h₁ => ?_
  cases first with
  | none => exact h₁.reads.fillsNone
  | some first =>
    exact (Gives.repeatFrom (I := fun n st' => st.FillsTo s w st' (some n))
      (fun _ _ h => h.reads.sound) h₁ fun _ _ => gives_commaStep hr).bind fun n st₂ h₂ => h₂

/-- An expression that is shown as a whole, where less is left. -/
lemma shows_expression (hs : st.Sound s (w - 1)) :
    (expression rules).Gives st fun o st' => st.ShowsTo s w st' o := by
  obtain ⟨fuel, hfuel, hrules⟩ := hr.deep
  have hsame : expression rules = expression (grammar fuel) := by
    unfold expression
    rw [hrules .assignment (by simp)]
  exact (fills_expression hr).shows hs (Nat.sub_le w 1) (by omega) hsame fun _ => .expression

/-- So far as there is no comma. -/
lemma shows_assignment (hs : st.Sound s (w - 1)) :
    (rules .assignment).Gives st fun o st' => st.ShowsTo s w st' o := by
  obtain ⟨fuel, hfuel, hrules⟩ := hr.deep
  have hfills : (rules .assignment).Fills s w := hr.fills .assignment rfl rfl
  exact hfills.shows hs (Nat.sub_le w 1) (by omega) (hrules .assignment (by simp))
    fun _ => .assignment

lemma reads_initializer : (initializer rules).Reads s w Option.toList := by
  intro st hs
  refine (gives_optional .equals hs).bind fun b st₁ h₁ => ?_
  split
  · exact (hr.reads .assignment rfl st₁ h₁.reads.sound).mono fun _ _ h₂ => h₁.reads.after h₂
  · exact h₁.reads

lemma fills_propertyName : (propertyName rules).Fills s w := by
  intro st hs
  refine .kind ?_
  split
  case h_1 hk | h_2 hk | h_3 hk =>
    exact gives_filledLiteral hs (by simp [hk]) (by rw [hk]; rfl)
  case h_4 hk =>
    refine (gives_privateIdentifierNode hs hk).bind fun n st₁ h₁ => ?_
    exact h₁.fills (by simp [hk])
  case h_5 hk =>
    refine .pos ?_
    refine (gives_advance hs).bind fun _ st₁ h₁ => ?_
    refine ((fills_expression hr).reads.inContext allowIn st₁ h₁.sound).bind
      fun inner st₂ h₂ => ?_
    refine (skips_expect .closeBracket st₂ h₂.sound).bind fun _ st₃ h₃ => ?_
    have hlt : st.here < st₁.here := h₁.lt (by simp [hk])
    exact ((h₁.toReads.after h₂).skip h₃).filledNode rfl
      (Nat.lt_of_lt_of_le hlt (Nat.le_trans h₂.le h₃.le))
  case h_6 => exact fills_identifierName st hs

end

/-! ## Templates -/

lemma reads_templateSpans {inner : Parser (Option Node)} (hinner : inner.Reads s w Option.toList)
    {form : Option Node → Node → Form Node}
    (hchildren : ∀ o n, (form o n).children = o.toList ++ [n])
    (hplain : ∀ o n, (form o n).isPlainNode = true) :
    (templateSpans inner form).Reads s w Sequence.items := by
  intro st hs
  refine (gives_collect hs fun spans st₁ h₁ => ?_).bind fun spans st₁ h₁ =>
    gives_sequence fun q hq => by rw [hq]; exact h₁
  refine .pos ?_
  refine (hinner st₁ h₁.sound).bind fun o st₂ h₂ => ?_
  refine .at? fun b hb _ => ?_
  cases b with
  | false =>
    refine (skips_expect .closeBrace st₂ h₂.sound).bind fun _ st₃ h₃ => ?_
    exact .done ((h₁.skip h₂.forget).skip h₃)
  | true =>
    have hclose : st₂.lexer.token.kind = .closeBrace := h₂.sound.current.symm.trans (hb rfl)
    have hbrace := h₂.sound.lexer.rescanTemplate hclose
    refine (gives_rescan h₂.sound hbrace (h₂.sound.lexer.adds_rescanTemplate hclose)
      (Lexer.fullStart_rescanTemplate _)).bind fun piece st₃ h => ?_
    obtain ⟨h₃, -, hkind, -⟩ := h
    refine (gives_literalNode h₃.sound).bind fun n st₄ h => ?_
    obtain ⟨h₄, -⟩ := h
    have hspan : st₁.Reads s w st₄ (form o n).children := by
      rw [hchildren]
      exact (h₂.skip h₃).trans h₄.toReads
    have hspans := h₁.trans (hspan.node (hplain o n))
    have hpiece : st₃.kind.isTemplatePiece = true := by
      rw [hkind, Lexer.rescanTemplate, Lexer.kind_replaceToken]
      exact Scanned.kind_template false _
    have hlt : st₁.here < st₄.here :=
      Nat.lt_of_le_of_lt (Nat.le_trans h₂.le h₃.le)
        (h₄.lt_of_mem (.head _) (h₄.filled (isTemplatePiece_ne_end hpiece)))
    refine .finish (.pure ?_)
    split
    · exact .yield (by simpa using hspans) hlt
    · exact .done (by simpa using hspans)

end Parser
end InlineValues
