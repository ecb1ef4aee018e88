import InlineValues.Grammar.Expression
import InlineValues.Proofs.Grammar.Arrow
import InlineValues.Proofs.Grammar.Member
import InlineValues.Proofs.Token.Reading

/-!
# Reading expressions

A primary expression is never empty: what it starts with was seen before it is taken.  The accesses
and calls behind it only make it longer (`gives_memberRest`).
-/

namespace InlineValues
namespace Parser

open ParserState

variable {s : Source} {w : Nat} {st st₀ : ParserState} {rules : Rules}

/-! ## Which tokens start an expression -/

/-- The end of the file starts no expression. -/
lemma spots_atExpression : atExpression.Spots s w := by
  intro st hs
  refine .kind ?_
  split
  case isTrue hstarts =>
    refine (peeks_pure true).spots hs fun hend => ?_
    rw [hend] at hstarts
    exact absurd hstarts (by decide)
  case isFalse =>
    have hidentifier : (atIdentifier >>= pure).Gives st fun b st' =>
        st.SamePlace s st' ∧ (b = true → st'.kind ≠ .endOfFile) :=
      .atIdentifier fun b hb => ⟨.refl st, fun htrue => isWord_ne_end (hb htrue)⟩
    exact hidentifier

instance : atExpression.Frames := by
  unfold atExpression
  infer_instance

/-- `get` and `set` stand only in front of the end of the file. -/
lemma spots_atObjectAccessor : atObjectAccessor.Spots s w := by
  intro st hs
  refine .kind ?_
  split
  case isTrue hk => exact (peeks_nextIs _).spots hs fun hend => by simp [hend] at hk
  case isFalse => exact ⟨.refl st, Bool.noConfusion⟩

instance : atObjectAccessor.Frames := by
  unfold atObjectAccessor
  infer_instance

lemma peeks_atAsyncMethod : atAsyncMethod.Peeks s w := by
  refine (peeks_at? _).bind fun _ => .ite ?_ (peeks_pure _)
  exact peeks_nextKindOnSameLine fun k => k == .asterisk || startsPropertyName k

instance : atAsyncMethod.Frames := by
  unfold atAsyncMethod
  infer_instance

/-- What a primary expression of one token starts with was seen before. -/
lemma fills_primaryRest (hs : st.Sound s w) :
    (primaryRest st.kind).Gives st fun o st' => st.FillsTo s w st' o := by
  have htoken (hkind : st.kind ≠ .endOfFile) : Gives (do return some (← tokenNode)) st
      fun o st' => st.FillsTo s w st' o :=
    (gives_tokenNode hs).bind fun n st₁ h₁ => h₁.fills hkind
  have hslash (hkind : st.kind ≠ .endOfFile) (hname : st.kind.isName = false) : Gives (do
      discard <| rescan Lexer.rescanSlash
      return some (← literalNode)) st fun o st' => st.FillsTo s w st' o := by
    refine Gives.discard_bind (gives_rescan hs hs.lexer.rescanSlash
      hs.lexer.adds_rescanSlash (Lexer.fullStart_rescanSlash _)) fun _ st₁ h => ?_
    obtain ⟨h₁, _, hk, _⟩ := h
    refine (gives_literalLeaf h₁.sound ?_).bind fun n st₂ h₂ => h₁.after_fills (h₂.fills ?_)
    all_goals rw [hk]
    · exact Lexer.isName_rescanSlash (hs.current ▸ hname)
    · exact Lexer.kind_rescanSlash (hs.current ▸ hkind)
  unfold primaryRest
  split
  case h_1 hk | h_2 hk | h_3 hk | h_4 hk =>
    exact gives_filledLiteral hs (by simp [hk]) (by rw [hk]; rfl)
  case h_5 hk | h_6 hk | h_7 hk | h_8 hk | h_9 hk | h_10 hk =>
    exact htoken (by simp [hk])
  case h_11 hk | h_12 hk => exact hslash (by simp [hk]) (by rw [hk]; rfl)
  case h_13 hk =>
    refine (gives_privateIdentifierNode hs hk).bind fun n st₁ h₁ => ?_
    exact h₁.fills (by simp [hk])
  case h_14 =>
    refine .atIdentifier fun b hb => ?_
    split
    case isTrue htrue =>
      refine (gives_identifierNode hs (isName_of_isWord (hb htrue))).bind fun n st₁ h₁ => ?_
      exact h₁.fills (isWord_ne_end (hb htrue))
    case isFalse =>
      exact (peeks_report (by nofun) st hs).bind fun _ st₁ h₁ => (h₁.reads hs).fillsNone

/-! ## Names that are shown -/

/-- A name that is none of the keywords is a primary expression too. -/
lemma gives_identifierNode_recalled (hs : st.Sound s w) (hword : isWord st.kind = true) :
    identifierNode.Gives st fun n st' => st'.Quiet → n.IsEvaluable → n.Recalled s := by
  intro hquiet hevaluable
  have hkind : st.kind = .identifier := by
    simp only [isWord, Bool.or_eq_true, beq_iff_eq] at hword
    refine hword.resolve_right fun hkeyword => ?_
    have hform := hevaluable.form
    change (TokenKind.ofWord? st.lexer.token.value).isNone = true at hform
    rw [hs.lexer.ofWord?_value (hs.current ▸ hkeyword)] at hform
    cases hform
  have hprimary : (grammar (4 * w + 1) .primary).Gives st fun o st' =>
      o = some (identifierNode.run st).1 ∧ st'.Quiet := by
    rw [grammar, production]
    refine .kind ?_
    rw [hkind]
    have hidentifier : atIdentifier.Gives st fun b st' => b = true ∧ st' = st := by
      refine .get (.kind ?_)
      rw [hkind]
      exact ⟨rfl, rfl⟩
    refine hidentifier.bind fun b st' h => ?_
    obtain ⟨rfl, rfl⟩ := h
    exact ⟨rfl, hquiet⟩
  exact .primary ⟨w, _, st, hs, Nat.le_succ _, hprimary⟩

/-- So is the name of a property, if it is a word. -/
lemma gives_propertyName_recalled (hs : st.Sound s w) (hword : isWord st.kind = true) :
    (propertyName rules).Gives st fun o st' =>
      st'.Quiet → ∀ n ∈ o.toList, n.IsEvaluable → n.Recalled s := by
  refine .kind ?_
  split
  case h_6 =>
    refine .kind ?_
    rw [if_pos hword]
    refine (gives_identifierNode_recalled hs hword).bind fun n st₁ h => .pure fun hquiet m hm => ?_
    rw [Option.toList_some, List.mem_singleton] at hm
    exact hm ▸ h hquiet
  all_goals
    rename_i hk
    rw [hk] at hword
    exact absurd hword (by decide)

section

variable (hr : rules.Sound s w)
include hr

lemma reads_assignment : (rules .assignment).Reads s w Option.toList :=
  hr.reads .assignment rfl

/-! ## Arguments -/

lemma reads_spreadable : (spreadable rules).Reads s w Option.toList := by
  intro st hs
  refine .pos ((skips_optional .dotDotDot st hs).bind fun b st₁ h₁ => .ite ?_ ?_)
  · refine (reads_assignment hr st₁ h₁.sound).bind fun inner st₂ h₂ => ?_
    exact (h₁.after h₂).node rfl
  · exact (reads_assignment hr st₁ h₁.sound).mono fun _ _ => h₁.after

lemma gives_arguments (hs : st.Sound s w) : (arguments rules).Gives st fun q st' =>
    Delimits s w .openParen st st' q.items :=
  gives_delimitedIn bracketed (reads_spreadable hr) hs (by decide)

lemma reads_arguments : (arguments rules).Reads s w Sequence.items :=
  fun _ hs => (gives_arguments hr hs).mono fun _ _ hq => hq.toReads

/-! ## Templates, members and calls -/

lemma gives_template (hs : st.Sound s w) : (template rules).Gives st fun n st' =>
    st.Reads s w st' [n] ∧ (st.kind ≠ .endOfFile → st.FillsTo s w st' (some n)) := by
  refine .pos ((gives_literalNode hs).bind fun head st₁ h => ?_)
  obtain ⟨h₁, -⟩ := h
  have hspan := (fills_expression hr).reads.inContext bracketed
  refine (reads_templateSpans hspan (fun _ _ => rfl) (fun _ _ => rfl) st₁ h₁.sound).bind
    fun spans st₂ h₂ => ?_
  have hread := h₁.toReads.trans h₂
  refine ⟨hread.node rfl, fun hkind => hread.filledNode rfl ?_⟩
  exact Nat.lt_of_lt_of_le (h₁.lt_of_mem (.head _) (h₁.filled hkind)) h₂.le

omit hr in
/-- The template that stands behind a tag. -/
lemma gives_templateBody (hr : rules.Sound s w) (b : Bool) (hs : st.Sound s w) :
    Gives (if b = true then literalNode else template rules) st fun n st' =>
      st.Reads s w st' [n] ∧ (st.kind ≠ .endOfFile → st.here < st'.here) := by
  refine .ite ((gives_literalNode hs).mono fun _ _ h => ⟨h.1.toReads, fun hkind => ?_⟩)
    ((gives_template hr hs).mono fun _ _ h => ⟨h.1, fun hkind => (h.2 hkind).lt_here⟩)
  exact h.1.lt_of_mem (.head _) (h.1.filled hkind)

omit hr in
/-- What is known when an expression that was read from `st₀` to `st` is made longer.  Where one of
some tokens stands behind it, that token is taken. -/
structure Lengthens (s : Source) (w : Nat) (opens : TokenKind → Bool) (st₀ st : ParserState)
    (n : Node) (st' : ParserState) : Prop extends st₀.FillsTo s w st' (some n) where
  le : st.here ≤ st'.here
  moves : opens st.kind = true → st.here < st'.here

lemma gives_taggedTemplate {tag : Node} {typeArguments : Option (Sequence Node)} (chained : Bool)
    (h : st₀.Reads s w st (tag :: itemsOf typeArguments)) (hlt : st₀.here < st.here) :
    (taggedTemplate rules st₀.here tag typeArguments chained).Gives st
      fun n st' => Lengthens s w (· != .endOfFile) st₀ st n st' := by
  refine .at? fun b _ _ => .ite_bind (gives_templateBody hr b h.sound) fun body st₁ h₁ => ?_
  obtain ⟨hbody, hmoves⟩ := h₁
  refine ⟨(h.trans hbody).filledNode rfl (Nat.lt_of_lt_of_le hlt hbody.le), hbody.le, fun hk => ?_⟩
  exact hmoves (by simpa using hk)

lemma gives_elementAccess {object : Node} (chained : Bool)
    (h : st₀.FillsTo s w st (some object)) :
    (elementAccess rules st₀.here object chained).Gives st
      fun n st' => Lengthens s w (· == .openBracket) st₀ st n st' := by
  refine (gives_expect .openBracket h.reads.sound).bind fun _ st₁ h₁ => ?_
  refine ((fills_expression hr).reads.inContext bracketed st₁ h₁.reads.sound).bind
    fun index st₂ h₂ => ?_
  refine .when_bind (P := fun st₃ => st₂.Reads s w st₃ [])
    (fun _ => (peeks_report (by nofun)).skips st₂ h₂.sound) (fun _ => h₂.sound.reads)
    fun st₃ h₃ => ?_
  refine (skips_expect .closeBracket st₃ h₃.sound).bind fun _ st₄ h₄ => ?_
  have hindex := (h₂.skip h₃).skip h₄
  have hrest := h₁.reads.after hindex
  refine ⟨(h.reads.trans hrest).filledNode rfl (Nat.lt_of_lt_of_le h.lt_here hrest.le), hrest.le,
    fun hk => ?_⟩
  exact Nat.lt_of_lt_of_le (h₁.lt (eq_of_beq hk) (by simp)) hindex.le

lemma gives_callRest {callee : Node} (chained : Bool) (h : st₀.FillsTo s w st (some callee)) :
    (callRest rules st₀.here callee chained).Gives st fun n st' =>
      Lengthens s w (fun k => k == .openParen || k == .lessThan) st₀ st n st' := by
  refine (gives_typeArguments? hr h.reads.sound).bind fun typeArguments st₁ h => .kind ?_
  obtain ⟨h₁, hnone⟩ := h
  have hcallee := h.reads.trans h₁.toReads
  have hlt := Nat.lt_of_lt_of_le h.lt_here h₁.le
  have htagged (hkind : st₁.kind ≠ .endOfFile) :
      (taggedTemplate rules st₀.here callee typeArguments chained).Gives st₁ fun n st' =>
        Lengthens s w (fun k => k == .openParen || k == .lessThan) st₀ st n st' := by
    refine (gives_taggedTemplate hr chained hcallee hlt).mono fun n st₂ h₂ => ?_
    have hmoves := Nat.lt_of_le_of_lt h₁.le (h₂.moves (by simpa using hkind))
    exact ⟨h₂.toFillsTo, Nat.le_of_lt hmoves, fun _ => hmoves⟩
  split
  case h_1 hk | h_2 hk => exact htagged (by simp [hk])
  case h_3 =>
    refine (gives_arguments hr h₁.sound).bind fun arguments st₂ h₂ => ?_
    refine ⟨(hcallee.trans h₂.toReads).filledNode rfl (Nat.lt_of_lt_of_le hlt h₂.le),
      Nat.le_trans h₁.le h₂.le, fun hk => ?_⟩
    simp only [Bool.or_eq_true, beq_iff_eq] at hk
    rcases hk with hk | hk
    · obtain ⟨rfl, -⟩ := hnone (by simp [hk])
      exact (h₂.opened hk).lt
    · exact Nat.lt_of_lt_of_le (h₁.opened hk).lt h₂.le

lemma gives_chainRest {object : Node} (h : st₀.FillsTo s w st (some object)) :
    (chainRest rules st₀.here object).Gives st fun n st' =>
      st₀.FillsTo s w st' (some n) ∧ st.here ≤ st'.here := by
  have hrest (isCall : Bool) (st₁ : ParserState) (h₁ : st.SamePlace s st₁) :
      Gives (if isCall then callRest rules st₀.here object true
        else do
          if ← at? .openBracket then elementAccess rules st₀.here object true
          else
            let name ← memberName
            finish st₀.here (.propertyAccess object true name)) st₁
        fun n st' => st₀.FillsTo s w st' (some n) ∧ st.here ≤ st'.here := by
    have hobject := h.same h₁
    rw [← h₁.here]
    refine .ite ?_ (.at? fun _ _ _ => .ite ?_ ?_)
    · exact (gives_callRest hr true hobject).mono fun _ _ h₂ => ⟨h₂.toFillsTo, h₂.le⟩
    · exact (gives_elementAccess hr true hobject).mono fun _ _ h₂ => ⟨h₂.toFillsTo, h₂.le⟩
    · refine (fills_memberName.reads st₁ hobject.reads.sound).bind fun name st₂ h₂ => ?_
      have hname := hobject.reads.trans h₂
      exact ⟨hname.filledNode rfl (Nat.lt_of_lt_of_le hobject.lt_here h₂.le), h₂.le⟩
  refine .kind ?_
  split
  · exact hrest true st (.refl st)
  · exact (peeks_opensTypeArguments st h.reads.sound).bind hrest
  · exact hrest false st (.refl st)

lemma gives_memberStep {object : Node} (calls : Bool) (h : st₀.FillsTo s w st (some object)) :
    (memberStep rules st₀.here calls object).Gives st
      (Round (fun n st' => st₀.FillsTo s w st' (some n)) st) := by
  refine .kind ?_
  split
  case h_1 hk =>
    refine (gives_advance h.reads.sound).bind fun _ st₁ h₁ => ?_
    refine (fills_memberName.reads st₁ h₁.sound).bind fun name st₂ h₂ => .finish ?_
    have hname := (h.skip h₁.toReads).reads.trans h₂
    have hlt := Nat.lt_of_lt_of_le (h₁.lt (by simp [hk])) h₂.le
    exact .yield (hname.filledNode rfl (Nat.lt_trans h.lt_here hlt)) hlt
  case h_2 hk =>
    split
    · exact .done h
    refine (gives_advance h.reads.sound).bind fun _ st₁ h₁ => ?_
    refine (gives_chainRest hr (h.skip h₁.toReads)).bind fun n st₂ h₂ => ?_
    exact .yield h₂.1 (Nat.lt_of_lt_of_le (h₁.lt (by simp [hk])) h₂.2)
  case h_3 hk =>
    refine (gives_elementAccess hr false h).bind fun n st₁ h₁ => ?_
    exact .yield h₁.toFillsTo (h₁.moves (by simp [hk]))
  case h_4 hk =>
    refine .afterLineBreak fun b => ?_
    split
    · exact .done h
    refine (gives_advance h.reads.sound).bind fun _ st₁ h₁ => .finish ?_
    have hoperand := h.skip h₁.toReads
    exact .yield (hoperand.reads.filledNode rfl hoperand.lt_here) (h₁.lt (by simp [hk]))
  case h_5 hk | h_6 hk =>
    refine (gives_taggedTemplate hr false h.reads h.lt_here).bind fun n st₁ h₁ => ?_
    exact .yield h₁.toFillsTo (h₁.moves (by simp [hk]))
  case h_7 hk =>
    split
    · exact .done h
    refine (gives_callRest hr false h).bind fun n st₁ h₁ => ?_
    exact .yield h₁.toFillsTo (h₁.moves (by simp [hk]))
  case h_8 hk =>
    split
    · exact .done h
    refine (peeks_opensTypeArguments st h.reads.sound).bind fun b st₁ h₁ => ?_
    split
    · exact .done (h.same h₁)
    refine (gives_callRest hr false (h.same h₁)).bind fun n st₂ h₂ => .yield h₂.toFillsTo ?_
    rw [← h₁.here]
    exact h₂.moves (by simp [h₁.kind, hk])
  case h_9 => exact .done h

/-- The accesses and calls behind an expression only make it longer. -/
theorem gives_memberRest {object : Node} (calls : Bool) (h : st₀.FillsTo s w st (some object)) :
    (memberRest rules st₀.here calls object).Gives st
      fun n st' => st₀.FillsTo s w st' (some n) :=
  Gives.repeatFrom (I := fun n st' => st₀.FillsTo s w st' (some n)) (fun _ _ h => h.reads.sound) h
    fun _ _ => gives_memberStep hr calls

/-! ## Array and object literals -/

lemma reads_arrayElement : (arrayElement rules).Reads s w Option.toList := by
  intro st hs
  exact .pos (.at? fun _ _ _ => .ite (gives_hole hs) (reads_spreadable hr st hs))

lemma gives_arrayLiteral (hs : st.Sound s w) (hkind : st.kind = .openBracket) :
    (arrayLiteral rules).Gives st fun n st' => st.FillsTo s w st' (some n) := by
  have helement := reads_arrayElement hr
  refine .pos ((gives_delimitedIn _ helement hs (by decide)).bind fun elements st₁ h₁ => ?_)
  exact (h₁.opened hkind).filledNode rfl rfl

lemma reads_objectMemberRest {modifiers : List Node} (h : st₀.Reads s w st modifiers) :
    (objectMemberRest rules st₀.here modifiers).Gives st fun o st' =>
      st₀.Reads s w st' o.toList := by
  refine (skips_optional .asterisk st h.sound).bind fun isGenerator st₁ h₁ => ?_
  refine .atIdentifier fun isPlain hplain => ?_
  have hrecalled : (propertyName rules).Gives st₁ fun o st' => isPlain = true → st'.Quiet →
      ∀ n ∈ o.toList, n.IsEvaluable → n.Recalled s :=
    fun htrue => gives_propertyName_recalled h₁.sound (hplain htrue)
  refine ((fills_propertyName hr st₁ h₁.sound).and hrecalled).bind fun name st₂ h => ?_
  obtain ⟨h₂, hrecalled⟩ := h
  cases name with
  | none => exact ((h.skip h₁).skip h₂.reads).forget
  | some name =>
    have hname := (h.skip h₁).trans h₂.reads
    have hlt := Nat.lt_of_le_of_lt (h.skip h₁).le h₂.lt_here
    refine (peeks_atSignature st₂ h₂.reads.sound).bind fun b st₃ h₃ => ?_
    replace hname := hname.same h₃
    rw [← h₃.here] at hlt
    split
    · refine .sequence? fun modifiers' hmodifiers => ?_
      rw [← hmodifiers] at hname
      exact (reads_methodRest hr isGenerator false hname hlt).bind fun n st₄ h₄ => h₄
    have hbare := ((h.skip h₁).forget.after_fills h₂).same h₃
    refine .kind ?_
    split
    case isTrue hshorthand =>
      rw [Bool.and_eq_true] at hshorthand
      refine (reads_initializer hr st₃ hname.sound).bind fun value st₄ h₄ => .finish (.pure ?_)
      refine (hbare.reads.trans h₄).evaluatedNode rfl rfl rfl (fun c hc => ?_) fun hquiet => ?_
      · exact List.mem_singleton.mp hc ▸ h₂.proper name rfl
      · exact hrecalled hshorthand.1 ((h₃.tells.trans h₄.tells).quiet hquiet)
    case isFalse =>
      refine (skips_expect .colon st₃ hname.sound).bind fun _ st₄ h₄ => ?_
      have hread := (h₂.reads.same h₃).skip h₄
      have hlt := hread.lt_of_mem (List.mem_singleton_self name) (h₂.proper name rfl).lt
      have hlater := hread.sound_lt h₁.sound hlt
      refine (shows_assignment hr hlater).bind fun value st₅ h₅ => .finish (.pure ?_)
      refine ((hbare.reads.skip h₄).trans h₅.reads).evaluatedNode rfl rfl rfl (fun c hc => ?_)
        h₅.shown
      exact h₅.proper c (Option.mem_toList.mp hc)

lemma reads_objectMember : (objectMember rules).Reads s w Option.toList := by
  intro st hs
  refine .pos ((skips_optional .dotDotDot st hs).bind fun b st₁ h₁ => .ite ?_ ?_)
  · refine (reads_assignment hr st₁ h₁.sound).bind fun inner st₂ h₂ => ?_
    exact (h₁.after h₂).node rfl
  refine (peeks_atAsyncMethod st₁ h₁.sound).bind fun b st₂ h₂ => ?_
  have hread := h₁.same h₂
  refine .ite ?_ ?_
  · refine (gives_tokenNode hread.sound).bind fun modifier st₃ h₃ => ?_
    exact reads_objectMemberRest hr (hread.after h₃.toReads)
  refine (spots_atObjectAccessor _ hread.sound).bind fun b st₃ h => ?_
  obtain ⟨h₃, hkind⟩ := h
  replace hread := hread.same h₃
  split
  case isTrue htrue =>
    have hnone : st.Reads s w st₃ (itemsOf none) := hread
    exact (reads_accessor hr hnone (hkind htrue)).bind fun n st₄ h₄ => h₄
  case isFalse => exact reads_objectMemberRest hr hread

lemma gives_objectLiteral (hs : st.Sound s w) (hkind : st.kind = .openBrace) :
    (objectLiteral rules).Gives st fun n st' => st.FillsTo s w st' (some n) := by
  have hmember := reads_objectMember hr
  refine .pos ((gives_delimitedIn _ hmember hs (by decide)).bind fun elements st₁ h₁ => ?_)
  exact (h₁.opened hkind).filledNode rfl rfl

/-! ## Primary expressions -/

lemma gives_parenthesized (hs : st.Sound s w) (hkind : st.kind = .openParen) :
    (parenthesized rules).Gives st fun n st' => st.FillsTo s w st' (some n) := by
  refine .pos ((gives_expect .openParen hs).bind fun _ st₁ h₁ => ?_)
  refine ((fills_expression hr).reads.inContext bracketed st₁ h₁.reads.sound).bind
    fun inner st₂ h₂ => ?_
  refine (skips_expect .closeParen st₂ h₂.sound).bind fun _ st₃ h₃ => ?_
  have hopen := hs.reads.spend h₁.reads (h₁.lt hkind (by simp))
  exact ((hopen.after h₂.toCovers).skip h₃).filledNode rfl rfl

/-- The keyword of a function, or the word in front of it, is no part of what follows. -/
lemma gives_functionExpression (hs : st.Sound s w)
    (hkind : st.kind = .functionKeyword ∨ st.kind = .asyncKeyword) :
    (functionExpression rules).Gives st fun n st' => st.FillsTo s w st' (some n) := by
  refine .pos ((gives_optional .asyncKeyword hs).bind fun isAsync st₁ h₁ => ?_)
  refine (gives_expect .functionKeyword h₁.reads.sound).bind fun _ st₂ h₂ => ?_
  have hword : st.Spends s w st₂ [] := by
    cases isAsync with
    | true => exact (hs.reads.spend h₁.reads (h₁.lt rfl (by simp))).skip h₂.reads
    | false =>
      obtain ⟨rfl, hne⟩ := h₁.same rfl
      exact hs.reads.spend h₂.reads (h₂.lt (hkind.resolve_right hne) (by simp))
  refine (skips_optional .asterisk st₂ h₂.reads.sound).bind fun isGenerator st₃ h₃ => ?_
  refine (peeks_atSignature st₃ h₃.sound).bind fun b st₄ h₄ => ?_
  have hname := reads_none.ite (fills_identifier.reads.inContext
    fun c => { c with async := false, generator := false }) (c := b = true) (s := s) (w := w)
  refine .ite_bind (hname st₄ (h₄.sound h₃.sound)) fun name st₅ h₅ => ?_
  refine (reads_signature hr _ _ st₅ h₅.sound).bind fun signature st₆ h₆ => ?_
  refine (gives_functionBody hr _ _ h₆.sound).bind fun body st₇ h₇ => ?_
  have hparts := ((((hword.skip h₃).skip (h₄.reads h₃.sound)).trans h₅).trans h₆).trans_covers h₇
  have hall : st.Spends s w st₇ (Form.functionExpression
      { modifiers := none, isAsync, isGenerator, name, body
        typeParameters := signature.typeParameters
        parameters := signature.parameters
        returnType := signature.returnType }).children := by
    change st.Spends s w st₇ (FunctionParts.children _)
    rw [FunctionParts.children_ofSignature]
    exact hparts
  exact hall.filledNode rfl rfl

/-- The arguments of `new`, with which the expression is closed. -/
lemma gives_newArguments {st₂ st₃ : ParserState} (callee : Option Node)
    (typeArguments : Option (Sequence Node)) (hkeyword : st.Spends s w st₂ [])
    (h₃ : st₂.Reads s w st₃ (callee.toList ++ itemsOf typeArguments)) :
    Gives (do
        let arguments ← if ← at? .openParen then some <$> arguments rules else pure none
        finish st.here (.new callee typeArguments arguments)) st₃
      fun n st' => st.FillsTo s w st' (some n) := by
  have harguments : Parser.Reads s w (some <$> arguments rules) itemsOf := (reads_arguments hr).map
  refine .at? fun b _ _ => ?_
  refine .ite_bind (harguments.ite (reads_pure rfl) st₃ h₃.sound) fun arguments st₄ h₄ => ?_
  exact ((hkeyword.after h₃.toCovers).trans h₄).filledNode rfl rfl

/-- What stands behind the callee of `new`. -/
lemma gives_newRest {st₂ st₃ : ParserState} {callee : Option Node}
    (hkeyword : st.Spends s w st₂ []) (h₃ : st₂.Reads s w st₃ callee.toList) :
    Gives (do
        let typeArguments ← if ← at? .lessThan then
            if ← opensTypeArguments then some <$> typeArguments rules else pure none
          else pure none
        let arguments ← if ← at? .openParen then some <$> arguments rules else pure none
        finish st.here (.new callee typeArguments arguments)) st₃
      fun n st' => st.FillsTo s w st' (some n) := by
  have hnone {st₄ : ParserState} (h₄ : st₂.Reads s w st₄ callee.toList) :=
    gives_newArguments hr callee none hkeyword (by simpa only [itemsOf, List.append_nil] using h₄)
  refine .at? fun b _ _ => .ite ?_ (.pure_bind (hnone h₃))
  refine (peeks_opensTypeArguments st₃ h₃.sound).bind fun b st₄ h₄ => ?_
  refine .ite ?_ (.pure_bind (hnone (h₃.same h₄)))
  refine Gives.map_bind (reads_typeArguments hr st₄ (h₄.sound h₃.sound))
    fun typeArguments st₅ h₅ => gives_newArguments hr callee typeArguments hkeyword ?_
  exact (h₃.same h₄).trans h₅

lemma gives_newExpression (hs : st.Sound s w) (hkind : st.kind = .newKeyword) :
    (newExpression rules).Gives st fun n st' => st.FillsTo s w st' (some n) := by
  refine .pos ((peeks_nextIs _ st hs).bind fun b st₁ h₁ => .ite ?_ ?_)
  · refine (gives_tokenNode (h₁.sound hs)).bind fun keyword st₂ h₂ => ?_
    have hkeyword := (h₁.reads hs).after_fills (h₂.fills (by simp [h₁.kind, hkind]))
    refine (skips_expect .dot st₂ h₂.sound).bind fun _ st₃ h₃ => ?_
    refine (fills_identifierName.reads st₃ h₃.sound).bind fun name st₄ h₄ => ?_
    have hread := (hkeyword.skip h₃).reads.trans h₄
    exact hread.filledNode rfl (Nat.lt_of_lt_of_le hkeyword.lt_here (Nat.le_trans h₃.le h₄.le))
  refine (gives_expect .newKeyword (h₁.sound hs)).bind fun _ st₂ h₂ => ?_
  have hlt : st₁.here < st₂.here := h₂.lt (by rw [h₁.kind, hkind]) (by simp)
  have hkeyword := (h₁.reads hs).spend h₂.reads hlt
  refine .pos (.kind ?_)
  split
  case' h_1 hk | h_2 hk =>
    refine (gives_filledToken h₂.reads.sound (by simp [hk])).bind fun callee st₃ h₃ => ?_
  case' h_3 =>
    refine (hr.fills_behind (x := .primary) rfl (h₁.sound hs) h₂.reads.toCovers hlt).bind
      fun callee st₃ h₃ => ?_
  all_goals
    cases callee with
    | none => exact .pure_bind (gives_newRest hr hkeyword h₃.reads)
    | some callee =>
      exact Gives.map_bind (gives_memberRest hr false h₃) fun callee st₄ h₄ =>
        gives_newRest hr hkeyword h₄.reads

lemma fills_primary : (primary rules).Fills s w := by
  intro st hs
  refine .kind ?_
  split
  case h_1 hk =>
    refine (gives_template hr hs).bind fun n st₁ h₁ => ?_
    exact h₁.2 (by simp [hk])
  case h_2 hk => exact (gives_newExpression hr hs hk).bind fun n st₁ h₁ => h₁
  case h_3 hk => exact (gives_parenthesized hr hs hk).bind fun n st₁ h₁ => h₁
  case h_4 hk => exact (gives_arrayLiteral hr hs hk).bind fun n st₁ h₁ => h₁
  case h_5 hk => exact (gives_objectLiteral hr hs hk).bind fun n st₁ h₁ => h₁
  case h_6 hk => exact (gives_functionExpression hr hs (.inl hk)).bind fun n st₁ h₁ => h₁
  case h_7 hk =>
    refine (peeks_nextOnSameLine (peeks_at? .functionKeyword).skips st hs).bind fun b st₁ h₁ => ?_
    have hsame := h₁.sound hs
    rw [← h₁.kind] at hk ⊢
    refine .ite ?_ ?_
    · refine (gives_functionExpression hr hsame (.inr hk)).bind fun n st₂ h₂ => ?_
      exact (h₁.reads hs).after_fills h₂
    · exact (fills_primaryRest hsame).mono fun o st₂ h₂ => (h₁.reads hs).after_fills h₂
  case h_8 hk => exact (gives_classExpression hr hs (.inl hk)).bind fun n st₁ h₁ => h₁
  case h_9 hk => exact (gives_classExpression hr hs (.inr hk)).bind fun n st₁ h₁ => h₁
  case h_10 => exact fills_primaryRest hs

lemma fills_leftHandSide (hprimary : (rules .primary).Fills s w) :
    (leftHandSide rules).Fills s w := by
  intro st hs
  refine .pos (.kind ?_)
  split
  case' h_1 hk | h_2 hk =>
    refine (gives_filledToken hs (by simp [hk])).bind fun first st₁ h₁ => ?_
  case' h_3 => refine (hprimary st hs).bind fun first st₁ h₁ => ?_
  all_goals
    cases first with
    | none => exact h₁
    | some first => exact (gives_memberRest hr true h₁).bind fun n st₂ h₂ => h₂

end

end Parser
end InlineValues
