import InlineValues.Grammar.Statement
import InlineValues.Proofs.Grammar.Declaration

/-!
# Reading statements

The first token of a statement was seen before its production was chosen, so that every loop and
every branch has its keyword, behind which its body may be a block.  Conditions are never empty.
-/

namespace InlineValues
namespace Parser

open ParserState

variable {s : Source} {w : Nat} {st st₀ : ParserState} {rules : Rules}

/-! ## Simple statements -/

lemma reads_jump {form : Option Node → Form Node} (hchildren : ∀ o, (form o).children = o.toList)
    (hplain : ∀ o, (form o).isPlainNode = true) :
    (jump form).Reads s w fun n => [n] := by
  intro st hs
  refine .pos ((skips_advance st hs).bind fun _ st₁ h₁ => ?_)
  have hclose (label : Option Node) (st₂ : ParserState) (h₂ : st₁.Reads s w st₂ label.toList) :
      Gives (do
        semicolon
        finish st.here (form label)) st₂ fun n st' => st.Reads s w st' [n] := by
    refine (skips_semicolon st₂ h₂.sound).bind fun _ st₃ h₃ => ?_
    have hread : st.Reads s w st₃ (form label).children := by
      rw [hchildren]
      exact (h₁.after h₂).skip h₃
    exact hread.node (hplain label)
  refine (peeks_canEndStatement st₁ h₁.sound).bind fun b st₂ h₂ => .atIdentifier fun b hb => ?_
  have hread := h₂.reads h₁.sound
  refine .ite (hclose none st₂ hread) (.ite_bind (gives_identifierIf b hread.sound hb)
    fun label st₃ h₃ => hclose label st₃ (hread.after h₃.reads))

lemma reads_debuggerStatement : debuggerStatement.Reads s w fun n => [n] := by
  intro st hs
  refine .pos ((skips_expect .debuggerKeyword st hs).bind fun _ st₁ h₁ => ?_)
  exact (skips_semicolon st₁ h₁.sound).bind fun _ st₂ h₂ => (h₁.skip h₂).node rfl

section

variable (hr : rules.Sound s w)
include hr

lemma reads_expressionStatement : (expressionStatement rules).Reads s w Option.toList := by
  intro st hs
  refine .pos (((fills_expression hr).reads st hs).bind fun inner st₁ h₁ => ?_)
  cases inner with
  | none => exact h₁
  | some inner => exact (skips_semicolon st₁ h₁.sound).bind fun _ st₂ h₂ => (h₁.skip h₂).node rfl

/-- The body of a labelled statement stands behind the label. -/
lemma reads_labeledStatement (hs : st.Sound s w) (hword : isWord st.kind = true) :
    (labeledStatement rules).Gives st fun n st' => st.Reads s w st' [n] := by
  refine .pos ((gives_identifierNode hs (isName_of_isWord hword)).bind fun label st₁ h₁ => ?_)
  refine (skips_expect .colon st₁ h₁.sound).bind fun _ st₂ h₂ => ?_
  refine (hr.statement st₂ h₂.sound).bind fun body st₃ h₃ => ?_
  have hlabel := (h₁.fills (isWord_ne_end hword)).skip h₂
  exact (hlabel.reads.trans_covers h₃.toCovers hlabel.lt_here).node rfl

lemma reads_returnStatement : (returnStatement rules).Reads s w fun n => [n] := by
  intro st hs
  have hvalue (b : Bool) : Parser.Reads s w (if b = true then pure none else expression rules)
      Option.toList := reads_none.ite (fills_expression hr).reads
  refine .pos ((skips_expect .returnKeyword st hs).bind fun _ st₁ h₁ => ?_)
  refine (peeks_canEndStatement st₁ h₁.sound).bind fun b st₂ h₂ => ?_
  refine .ite_bind (hvalue b st₂ (h₂.sound h₁.sound)) fun value st₃ h₃ => ?_
  refine (skips_semicolon st₃ h₃.sound).bind fun _ st₄ h₄ => ?_
  exact (((h₁.same h₂).after h₃).skip h₄).node rfl

lemma reads_throwStatement : (throwStatement rules).Reads s w fun n => [n] := by
  intro st hs
  refine .pos ((skips_expect .throwKeyword st hs).bind fun _ st₁ h₁ => ?_)
  have hclose (value : Option Node) (st₂ : ParserState) (h₂ : st₁.Reads s w st₂ value.toList) :
      Gives (do
        semicolon
        finish st.here (.throwStatement value)) st₂ fun n st' => st.Reads s w st' [n] := by
    refine (skips_semicolon st₂ h₂.sound).bind fun _ st₃ h₃ => ?_
    exact ((h₁.after h₂).skip h₃).node rfl
  refine .afterLineBreak fun b => .ite ?_ ?_
  · exact (peeks_report (by nofun) st₁ h₁.sound).bind fun _ st₂ h₂ =>
      hclose none st₂ (h₂.reads h₁.sound)
  · exact ((fills_expression hr).reads st₁ h₁.sound).bind hclose

/-! ## Conditions and loops -/

/-- A condition stands behind the word of its statement. -/
lemma shows_condition (hs : st.Sound s (w - 1)) :
    (condition rules).Gives st fun o st' => st.ShowsTo s w st' o := by
  refine (skips_expect .openParen st hs).bind fun _ st₁ h₁ => ?_
  refine (gives_showsIn (shows_expression hr (h₁.sound.inContext _))).bind fun inner st₂ h₂ => ?_
  refine (skips_expect .closeParen st₂ h₂.reads.sound).bind fun _ st₃ h₃ => ?_
  exact ((h₁.mono (Nat.sub_le w 1)).after_shows h₂).skip h₃

lemma reads_ifStatement (hs : st.Sound s w) (hkind : st.kind = .ifKeyword) :
    (ifStatement rules).Gives st fun n st' => st.Reads s w st' [n] := by
  refine .pos ((gives_expect .ifKeyword hs).bind fun _ st₁ h₁ => ?_)
  have hword := h₁.reads.spent (h₁.lt hkind (by simp))
  refine (shows_condition hr (hword.sound_lt hs hword.lt)).bind fun test st₂ h₂ => ?_
  refine (hr.statement st₂ h₂.reads.sound).bind fun thenBranch st₃ h₃ => ?_
  refine (skips_optional .elseKeyword st₃ h₃.sound).bind fun b st₄ h₄ => ?_
  have helse : Gives (if b = true then rules .statement else pure none) st₄
      fun o st' => st₄.Covers s w st' (Option.toList o) :=
    .ite ((hr.statement st₄ h₄.sound).mono fun _ _ h => h.toCovers) h₄.sound.reads.toCovers
  refine .ite_bind helse fun elseBranch st₅ h₅ => gives_finish ?_
  have hall := (((hword.after h₂.reads.toCovers).trans_covers h₃.toCovers).skip h₄).trans_covers h₅
  exact hall.evaluatedNode rfl (forall_mem_toList h₂.proper) fun hquiet =>
    h₂.shown (((h₃.tells.trans h₄.tells).trans h₅.tells).quiet hquiet)

lemma reads_doStatement (hs : st.Sound s w) (hkind : st.kind = .doKeyword) :
    (doStatement rules).Gives st fun n st' => st.Reads s w st' [n] := by
  refine .pos ((gives_expect .doKeyword hs).bind fun _ st₁ h₁ => ?_)
  have hword := h₁.reads.spent (h₁.lt hkind (by simp))
  refine (hr.statement st₁ h₁.reads.sound).bind fun body st₂ h₂ => ?_
  refine (skips_expect .whileKeyword st₂ h₂.sound).bind fun _ st₃ h₃ => ?_
  have hbody := (hword.after h₂.toCovers).skip h₃
  refine (shows_condition hr (hbody.sound_lt hs hbody.lt)).bind fun test st₄ h₄ => ?_
  refine (skips_discard_optional .semicolon st₄ h₄.reads.sound).bind fun _ st₅ h₅ => gives_finish ?_
  exact ((hbody.trans h₄.reads).skip h₅).evaluatedNode rfl (forall_mem_toList h₄.proper)
    fun hquiet => h₄.shown (h₅.tells.quiet hquiet)

lemma reads_whileStatement (hs : st.Sound s w) (hkind : st.kind = .whileKeyword) :
    (whileStatement rules).Gives st fun n st' => st.Reads s w st' [n] := by
  refine .pos ((gives_expect .whileKeyword hs).bind fun _ st₁ h₁ => ?_)
  have hword := h₁.reads.spent (h₁.lt hkind (by simp))
  refine (shows_condition hr (hword.sound_lt hs hword.lt)).bind fun test st₂ h₂ => ?_
  refine (hr.statement st₂ h₂.reads.sound).bind fun body st₃ h₃ => gives_finish ?_
  have hall := (hword.after h₂.reads.toCovers).trans_covers h₃.toCovers
  exact hall.evaluatedNode rfl (forall_mem_toList h₂.proper) fun hquiet =>
    h₂.shown (h₃.tells.quiet hquiet)

lemma reads_withStatement (hs : st.Sound s w) (hkind : st.kind = .withKeyword) :
    (withStatement rules).Gives st fun n st' => st.Reads s w st' [n] := by
  refine .pos ((gives_expect .withKeyword hs).bind fun _ st₁ h₁ => ?_)
  have hword := h₁.reads.spent (h₁.lt hkind (by simp))
  refine (shows_condition hr (hword.sound_lt hs hword.lt)).bind fun object st₂ h₂ => ?_
  refine (hr.statement st₂ h₂.reads.sound).bind fun body st₃ h₃ => ?_
  exact ((hword.after h₂.reads.toCovers).trans_covers h₃.toCovers).node rfl rfl

lemma shows_forInitializer (hs : st.Sound s (w - 1)) :
    (forInitializer rules).Gives st fun o st' => st.ShowsTo s w st' o := by
  refine .at? fun b _ _ => .ite (hs.mono (Nat.sub_le w 1)).reads.showsNone ?_
  refine (spots_atVariables st hs).bind fun b st₁ h => ?_
  obtain ⟨h₁, hkind⟩ := h
  have hread := h₁.reads (hs.mono (Nat.sub_le w 1))
  split
  case isTrue htrue =>
    refine .map ((gives_variableListIn hr _ hread.sound (hkind htrue)).mono fun n st₂ h₂ => ?_)
    exact hread.after_shows h₂
  case isFalse =>
    have hexpression := shows_expression hr
      ((h₁.sound hs).inContext { st₁.context with disallowIn := true })
    exact (gives_showsIn hexpression).mono fun o st₂ h₂ => hread.after_shows h₂

/-- A loop behind its head, the evaluated parts of which are not empty. -/
lemma reads_loopRest {head : List Node} {form : Option Node → Form Node}
    (h : st₀.Spends s w st head) (hchildren : ∀ body, (form body).children = head ++ body.toList)
    (hcomposite : ∀ body, (form body).isComposite = true)
    (hevaluated : ∀ body, ∀ c ∈ (form body).evaluated, c.Proper s)
    (hshown : ∀ body, st.Quiet → (form body).Recalls s) :
    Gives (do
      expect .closeParen
      let body ← rules .statement
      finish st₀.here (form body)) st fun n st' => st₀.Reads s w st' [n] := by
  refine (skips_expect .closeParen st h.sound).bind fun _ st₁ h₁ => ?_
  refine (hr.statement st₁ h₁.sound).bind fun body st₂ h₂ => gives_finish ?_
  have hall : st₀.Spends s w st₂ (form body).children := by
    rw [hchildren]
    exact (h.skip h₁).trans_covers h₂.toCovers
  exact hall.evaluatedNode (hcomposite body) (hevaluated body) fun hquiet =>
    hshown body ((h₁.tells.trans h₂.tells).quiet hquiet)

section

variable {binding : Option Node} {st' : ParserState} (hs : st.Sound s (w - 1))
  (h : st₀.Spends s w st binding.toList) (hbinding : st'.ShowsTo s w st binding)
include hs h hbinding

/-- A loop over something, which is evaluated and shown as the binding in front of it is. -/
lemma reads_loopOver {iterated : Parser (Option Node)}
    {form : Option Node → Option Node → Form Node}
    (hiterated : ∀ {st : ParserState}, st.Sound s (w - 1) →
      iterated.Gives st fun o st' => st.ShowsTo s w st' o)
    (hcomposite : ∀ o body, (form o body).isComposite = true)
    (hchildren : ∀ o body, (form o body).children = binding.toList ++ o.toList ++ body.toList)
    (hevaluated : ∀ o body, (form o body).evaluated = binding.toList ++ o.toList)
    (hshown : ∀ o body, (form o body).shown = binding.toList ++ o.toList) :
    Gives (do
      advance
      let o ← inContext allowIn iterated
      expect .closeParen
      let body ← rules .statement
      finish st₀.here (form o body)) st fun n st' => st₀.Reads s w st' [n] := by
  refine (skips_advance st hs).bind fun _ st₁ h₁ => ?_
  refine (gives_showsIn (hiterated (h₁.sound.inContext _))).bind fun o st₂ h₂ => ?_
  have hhead := (h.skip (h₁.mono (Nat.sub_le w 1))).trans h₂.reads
  refine reads_loopRest hr hhead (hchildren o) (hcomposite o) (fun body => ?_) fun body hquiet => ?_
  · rw [hevaluated]
    exact List.forall_mem_append.mpr
      ⟨forall_mem_toList hbinding.proper, forall_mem_toList h₂.proper⟩
  · rw [Form.Recalls, hshown]
    exact List.forall_mem_append.mpr
      ⟨hbinding.shown ((h₁.tells.trans h₂.reads.tells).quiet hquiet), h₂.shown hquiet⟩

lemma reads_forOfRest (isAwait : Bool) :
    (forOfRest rules st₀.here isAwait binding).Gives st fun n st' => st₀.Reads s w st' [n] :=
  reads_loopOver hr hs h hbinding
    (fun hs => shows_assignment hr hs) (fun _ _ => rfl) (fun _ _ => rfl) (fun _ _ => rfl)
    fun _ _ => rfl

lemma reads_forInRest :
    (forInRest rules st₀.here binding).Gives st fun n st' => st₀.Reads s w st' [n] :=
  reads_loopOver hr hs h hbinding
    (fun hs => shows_expression hr hs) (fun _ _ => rfl) (fun _ _ => rfl) (fun _ _ => rfl)
    fun _ _ => rfl

lemma reads_forRest :
    (forRest rules st₀.here binding).Gives st fun n st' => st₀.Reads s w st' [n] := by
  have hpart (b : Bool) {st : ParserState} (hs : st.Sound s (w - 1)) :
      Gives (if b = true then pure none else inContext allowIn (expression rules)) st
        fun o st' => st.ShowsTo s w st' o :=
    .ite (hs.mono (Nat.sub_le w 1)).reads.showsNone
      (gives_showsIn (shows_expression hr (hs.inContext (allowIn st.context))))
  refine (skips_expect .semicolon st hs).bind fun _ st₁ h₁ => .kind ?_
  refine .ite_bind (hpart _ h₁.sound) fun test st₂ h₂ => ?_
  refine (skips_expect .semicolon st₂ (h₂.reads.lower h₁.sound).sound).bind fun _ st₃ h₃ => ?_
  refine .at? fun b _ _ => .ite_bind (hpart b h₃.sound) fun incrementor st₄ h₄ => ?_
  have hhead := (((h.skip (h₁.mono (Nat.sub_le w 1))).trans h₂.reads).skip
    (h₃.mono (Nat.sub_le w 1))).trans h₄.reads
  refine reads_loopRest hr hhead (fun _ => rfl) (fun _ => rfl) (fun _ => ?_) fun _ hquiet => ?_
  · have hfirst := List.forall_mem_append.mpr
      ⟨forall_mem_toList hbinding.proper, forall_mem_toList h₂.proper⟩
    exact List.forall_mem_append.mpr ⟨hfirst, forall_mem_toList h₄.proper⟩
  · have hquiet₂ := (h₃.tells.trans h₄.reads.tells).quiet hquiet
    have hfirst := List.forall_mem_append.mpr
      ⟨hbinding.shown ((h₁.tells.trans h₂.reads.tells).quiet hquiet₂), h₂.shown hquiet₂⟩
    exact List.forall_mem_append.mpr ⟨hfirst, h₄.shown hquiet⟩

end

lemma reads_forStatement (hs : st.Sound s w) (hkind : st.kind = .forKeyword) :
    (forStatement rules).Gives st fun n st' => st.Reads s w st' [n] := by
  refine .pos ((gives_expect .forKeyword hs).bind fun _ st₁ h₁ => ?_)
  have hword := h₁.reads.spent (h₁.lt hkind (by simp))
  refine (skips_optional .awaitKeyword st₁ h₁.reads.sound).bind fun isAwait st₂ h₂ => ?_
  refine (skips_expect .openParen st₂ h₂.sound).bind fun _ st₃ h₃ => ?_
  have hopened := (hword.skip h₂).skip h₃
  refine (shows_forInitializer hr (hopened.sound_lt hs hopened.lt)).bind
    fun binding st₄ h₄ => .kind ?_
  have hhead := hopened.after h₄.reads.toCovers
  have hlater := hhead.sound_lt hs hhead.lt
  refine .ite (reads_forOfRest hr hlater hhead h₄ isAwait) (.ite ?_ ?_)
  · exact reads_forInRest hr hlater hhead h₄
  · exact reads_forRest hr hlater hhead h₄

/-! ## Switches and exceptions -/

lemma gives_switchClause (hs : st.Sound s w)
    (hkind : st.kind = .caseKeyword ∨ st.kind = .defaultKeyword) :
    (switchClause rules).Gives st fun n st' => st.Reads s w st' [n] ∧ st.here < st'.here := by
  refine .pos ((gives_optional .caseKeyword hs).bind fun b st₁ h₁ => ?_)
  cases b with
  | true =>
    have hword := h₁.reads.spent (h₁.lt rfl (by simp))
    refine (shows_expression hr (hword.sound_lt hs hword.lt)).bind fun value st₂ h₂ => ?_
    refine (skips_expect .colon st₂ h₂.reads.sound).bind fun _ st₃ h₃ => ?_
    refine (gives_statementsUntil hr rfl h₃.sound).bind fun statements st₄ h₄ => gives_finish ?_
    have hall := ((hword.after h₂.reads.toCovers).skip h₃).trans_covers h₄.toCovers
    exact ⟨hall.evaluatedNode rfl (forall_mem_toList h₂.proper) fun hquiet =>
      h₂.shown ((h₃.tells.trans h₄.tells).quiet hquiet), hall.lt⟩
  | false =>
    obtain ⟨rfl, hne⟩ := h₁.same rfl
    refine (gives_expect .defaultKeyword hs).bind fun _ st₂ h₂ => ?_
    have hword := h₂.reads.spent (h₂.lt (hkind.resolve_left hne) (by simp))
    refine (skips_expect .colon st₂ h₂.reads.sound).bind fun _ st₃ h₃ => ?_
    refine (gives_statementsUntil hr rfl h₃.sound).bind fun statements st₄ h₄ => gives_finish ?_
    have hall := (hword.skip h₃).after h₄.toCovers
    exact ⟨hall.node rfl rfl, hall.lt⟩

lemma reads_caseBlock : (caseBlock rules).Reads s w fun n => [n] := by
  intro st hs
  refine .pos ((skips_expect .openBrace st hs).bind fun _ st₁ h₁ => ?_)
  refine (gives_collect h₁.sound fun clauses st₂ h₂ => .kind ?_).bind fun clauses st₂ h₂ => ?_
  · split
    case isTrue hclause =>
      have hkind : st₂.kind = .caseKeyword ∨ st₂.kind = .defaultKeyword := by
        simpa using hclause
      refine (gives_switchClause hr h₂.sound hkind).bind fun clause st₃ h₃ => .pure ?_
      exact .yield (by simpa using h₂.trans h₃.1) h₃.2
    case isFalse => exact .done h₂
  · refine .sequence fun list hlist => ?_
    refine (skips_expect .closeBrace st₂ h₂.sound).bind fun _ st₃ h₃ => ?_
    have hall := h₁.after (h₂.skip h₃)
    rw [← hlist] at hall
    exact hall.node rfl

lemma reads_switchStatement (hs : st.Sound s w) (hkind : st.kind = .switchKeyword) :
    (switchStatement rules).Gives st fun n st' => st.Reads s w st' [n] := by
  refine .pos ((gives_expect .switchKeyword hs).bind fun _ st₁ h₁ => ?_)
  have hword := h₁.reads.spent (h₁.lt hkind (by simp))
  refine (shows_condition hr (hword.sound_lt hs hword.lt)).bind fun value st₂ h₂ => ?_
  refine (reads_caseBlock hr st₂ h₂.reads.sound).bind fun cases st₃ h₃ => gives_finish ?_
  have hall := (hword.after h₂.reads.toCovers).trans h₃
  exact hall.evaluatedNode rfl (forall_mem_toList h₂.proper) fun hquiet =>
    h₂.shown (h₃.tells.quiet hquiet)

lemma reads_catchBinding? : (catchBinding? rules).Reads s w Option.toList := by
  intro st hs
  refine (skips_optional .openParen st hs).bind fun b st₁ h₁ => .ite h₁ (.pos ?_)
  refine (hr.fills .bindingName rfl rfl st₁ h₁.sound).bind fun name st₂ hname => ?_
  have h₂ := hname.reads
  refine (reads_annotatedType hr st₂ h₂.sound).bind fun type st₃ h₃ => .finish ?_
  have hparts : st₁.Reads s w st₃ (Form.variableDeclaration name false type none).children := by
    change st₁.Reads s w st₃ (name.toList ++ type.toList ++ [])
    simpa using h₂.trans h₃
  have hbinding := hparts.evaluatedNode rfl rfl rfl (forall_mem_toList hname.proper)
    fun _ => .of_shown rfl
  refine (skips_expect .closeParen _ hbinding.sound).bind fun _ st₄ h₄ => .pure ?_
  exact (h₁.after hbinding).skip h₄

lemma reads_catchClause (hs : st.Sound s w) (hkind : st.kind = .catchKeyword) :
    (catchClause rules).Gives st fun n st' => st.Reads s w st' [n] := by
  refine .pos ((gives_expect .catchKeyword hs).bind fun _ st₁ h₁ => ?_)
  have hword := h₁.reads.spent (h₁.lt hkind (by simp))
  refine (reads_catchBinding? hr st₁ h₁.reads.sound).bind fun binding st₂ h₂ => ?_
  refine (gives_block hr h₂.sound).bind fun body st₃ h₃ => gives_finish ?_
  exact ((hword.after h₂.toCovers).trans_covers h₃).node rfl rfl

lemma reads_tryStatement (hs : st.Sound s w) (hkind : st.kind = .tryKeyword) :
    (tryStatement rules).Gives st fun n st' => st.Reads s w st' [n] := by
  refine .pos ((gives_expect .tryKeyword hs).bind fun _ st₁ h₁ => ?_)
  have hword := h₁.reads.spent (h₁.lt hkind (by simp))
  refine (gives_block hr h₁.reads.sound).bind fun body st₂ h₂ => ?_
  have hclose (catching finalBlock : Option Node) (st₃ st₄ : ParserState)
      (h₃ : st₂.Reads s w st₃ catching.toList) (h₄ : st₃.Covers s w st₄ finalBlock.toList) :
      (finish st.here (.tryStatement body catching finalBlock)).Gives st₄
        fun n st' => st.Reads s w st' [n] := by
    have hall : st.Spends s w st₄ (Form.tryStatement body catching finalBlock).children := by
      change st.Spends s w st₄ (body :: (catching.toList ++ finalBlock.toList))
      simpa using ((hword.after h₂).trans h₃).trans_covers h₄
    exact hall.node rfl rfl
  have hcatch (catching : Option Node) (st₃ : ParserState)
      (h₃ : st₂.Reads s w st₃ catching.toList) :
      Gives (do
        let finalBlock ← if catching.isNone || (← at? .finallyKeyword) then do
            expect .finallyKeyword
            some <$> block rules
          else pure none
        finish st.here (.tryStatement body catching finalBlock)) st₃
      fun n st' => st.Reads s w st' [n] := by
    refine .at? fun b _ _ => .ite ?_
      (.pure_bind (hclose catching none st₃ st₃ h₃ h₃.sound.reads.toCovers))
    refine (skips_expect .finallyKeyword st₃ h₃.sound).bind fun _ st₄ h₄ => ?_
    exact Gives.map_bind (gives_block hr h₄.sound) fun finalBlock st₅ h₅ =>
      hclose catching finalBlock st₄ st₅ (h₃.skip h₄) h₅
  refine .at? fun b hb _ => ?_
  split
  case isTrue htrue =>
    exact Gives.map_bind (reads_catchClause hr h₂.sound (hb htrue)) fun n st₃ h₃ => hcatch n st₃ h₃
  case isFalse => exact .pure_bind (hcatch none st₂ h₂.sound.reads)

/-! ## Any statement -/

omit hr in
lemma peeks_atDeclaration : atDeclaration.Peeks s w := by
  refine peeks_kind.bind fun k => ?_
  split
  · exact peeks_nextOnSameLineIs _
  · exact peeks_nextOnSameLineIs _
  · exact peeks_nameOnSameLine
  · exact peeks_nameOnSameLine
  · exact peeks_moduleDeclares
  · exact peeks_moduleDeclares
  · exact peeks_declareModifies
  · exact peeks_pure _
  · exact peeks_pure _
  · exact peeks_pure _
  · exact peeks_beforeEnum
  · exact peeks_pure _

instance : atDeclaration.Frames := by
  refine .bind inferInstance fun k => ?_
  split <;> infer_instance

lemma reads_otherStatement : (otherStatement rules).Reads s w Option.toList := by
  intro st hs
  refine .atIdentifier fun b hb => ?_
  refine .ite_test (P := fun _ st₁ => st.SamePlace s st₁) (fun _ => peeks_nextIs _ st hs)
    (fun _ => .refl st) (fun st₁ hc h₁ => ?_) fun st₁ h₁ => ?_
  · have hword : isWord st₁.kind = true := by
      rw [h₁.kind]
      exact hb hc
    exact (reads_labeledStatement hr (h₁.sound hs) hword).bind fun n st₂ h₂ =>
      (h₁.reads hs).after h₂
  · refine (spots_atExpression st₁ (h₁.sound hs)).bind fun b st₂ h => ?_
    obtain ⟨h₂, _⟩ := h
    have hread := (h₁.trans h₂).reads hs
    refine .ite ?_ ?_
    · exact (reads_expressionStatement hr st₂ hread.sound).mono fun _ _ => hread.after
    · exact (peeks_report (by nofun) st₂ hread.sound).bind fun _ st₃ h₃ => hread.same h₃

lemma reads_decoratedStatement : (decoratedStatement rules).Reads s w Option.toList := by
  intro st hs
  refine .pos ((reads_decorators hr st hs).bind fun decorators st₁ h₁ => ?_)
  exact .at? fun b _ _ => .ite (reads_exported hr h₁) (reads_declaration hr h₁)

lemma reads_wordStatement : (wordStatement rules).Reads s w Option.toList := by
  intro st hs
  refine (peeks_atDeclaration st hs).bind fun b st₁ h₁ => .ite ?_ ?_
  · refine .pos ?_
    exact (reads_declaration hr (h₁.sound hs).reads).mono fun _ _ => (h₁.reads hs).after
  refine (spots_atVariables st₁ (h₁.sound hs)).bind fun b st₂ h => ?_
  obtain ⟨h₂, hkind⟩ := h
  have hread := (h₁.trans h₂).reads hs
  split
  case isTrue htrue =>
    have hnone : st₂.Reads s w st₂ (itemsOf none) := hread.sound.reads
    refine .pos (.map ((reads_variableStatement hr hnone (hkind htrue)).mono fun n st₃ h₃ => ?_))
    exact hread.after h₃
  case isFalse => exact (reads_otherStatement hr st₂ hread.sound).mono fun _ _ => hread.after

lemma readsStatement_statement : (statement rules).ReadsStatement s w := by
  intro st hs
  have hreads {p : Parser Node} (h : p.Gives st fun n st' => st.Reads s w st' [n]) :
      Gives (do return some (← p)) st fun o st' => st.Runs s w st' (Option.toList o) :=
    h.bind fun n st₁ h₁ => h₁.runs
  refine .kind ?_
  split
  case h_1 hk =>
    refine (gives_block hr hs).bind fun n st₁ h₁ => .pure ⟨h₁, fun hne => ?_⟩
    exact absurd hk hne
  case h_2 => exact hreads ((gives_emptyNode rfl rfl hs).mono fun n st₁ h₁ => h₁.toReads)
  case h_3 => exact (reads_decoratedStatement hr st hs).mono fun _ _ h => h.runs
  case h_4 hk => exact hreads (reads_ifStatement hr hs hk)
  case h_5 hk => exact hreads (reads_doStatement hr hs hk)
  case h_6 hk => exact hreads (reads_whileStatement hr hs hk)
  case h_7 hk => exact hreads (reads_forStatement hr hs hk)
  case h_8 => exact hreads (reads_jump (fun _ => rfl) (fun _ => rfl) st hs)
  case h_9 => exact hreads (reads_jump (fun _ => rfl) (fun _ => rfl) st hs)
  case h_10 => exact hreads (reads_returnStatement hr st hs)
  case h_11 => exact hreads (reads_throwStatement hr st hs)
  case h_12 hk => exact hreads (reads_withStatement hr hs hk)
  case h_13 hk => exact hreads (reads_switchStatement hr hs hk)
  case h_14 hk => exact hreads (reads_tryStatement hr hs hk)
  case h_15 => exact hreads (reads_debuggerStatement st hs)
  case h_16 =>
    refine (peeks_nextIs _ st hs).bind fun b st₁ h₁ => ?_
    have hread := h₁.reads hs
    refine .ite ?_ ?_
    · exact (reads_otherStatement hr st₁ hread.sound).mono fun _ _ h => (hread.after h).runs
    · exact (reads_importDeclaration st₁ hread.sound).bind fun n st₂ h₂ => (hread.after h₂).runs
  case h_17 => exact .pos ((reads_exported hr hs.reads).mono fun _ _ h => h.runs)
  case h_18 => exact (reads_wordStatement hr st hs).mono fun _ _ h => h.runs

end

end Parser
end InlineValues
