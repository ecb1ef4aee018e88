import InlineValues.Grammar.Declaration
import InlineValues.Proofs.Grammar.Variable

/-!
# Reading declarations, imports and exports

Every declaration is told from its first word, so that the keyword of a function or a class is there
(`reads_functionDeclaration`, `reads_declarationRest`).  A module with points in its name is closed
from the inside out over the places where its parts were read (`Points`).
-/

namespace InlineValues
namespace Parser

open ParserState

variable {s : Source} {w : Nat} {st st₀ : ParserState} {rules : Rules}

/-! ## Which words declare -/

lemma peeks_declareModifies : declareModifies.Peeks s w := peeks_nextKindOnSameLine _

instance : declareModifies.Frames := by
  unfold declareModifies
  infer_instance

lemma peeks_nextOnSameLineIs (k : TokenKind) : (nextOnSameLineIs k).Peeks s w :=
  peeks_nextOnSameLine (peeks_at? k).skips

instance (k : TokenKind) : (nextOnSameLineIs k).Frames := by
  unfold nextOnSameLineIs
  infer_instance

lemma peeks_moduleDeclares : moduleDeclares.Peeks s w := by
  refine peeks_nextOnSameLine ((peeks_at? _).skips.bind fun _ => ?_)
  exact .ite (skips_pure _) peeks_atIdentifier.skips

instance : moduleDeclares.Frames := by
  unfold moduleDeclares
  infer_instance

lemma spots_atDeclarationModifier : atDeclarationModifier.Spots s w := by
  intro st hs
  refine .kind ?_
  split
  case h_1 hk => exact peeks_declareModifies.spots hs (by simp [hk])
  case h_2 hk => exact (peeks_nextOnSameLineIs _).spots hs (by simp [hk])
  case h_3 hk => exact peeks_beforeEnum.spots hs (by simp [hk])
  case h_4 => exact ⟨.refl st, nofun⟩

instance : atDeclarationModifier.Frames := by
  refine .bind inferInstance fun k => ?_
  split <;> infer_instance

section

variable (hr : rules.Sound s w)
include hr

/-! ## Declarations -/

/-- The word that a function starts with is no part of what follows. -/
theorem reads_functionDeclaration {modifiers : Option (Sequence Node)} (isAsync : Bool)
    (h : st₀.Reads s w st (itemsOf modifiers))
    (hown : st₀.Spends s w st (itemsOf modifiers) ∨ st.kind = .functionKeyword) :
    (functionDeclaration rules st₀.here modifiers isAsync).Gives st
      fun n st' => st₀.Reads s w st' [n] := by
  refine (gives_expect .functionKeyword h.sound).bind fun _ st₁ h₁ => ?_
  have hword : st₀.Spends s w st₁ (itemsOf modifiers) := by
    rcases hown with hspent | hkind
    · exact hspent.skip h₁.reads
    · exact h.spend h₁.reads (h₁.lt hkind (by simp))
  refine (skips_optional .asterisk st₁ h₁.reads.sound).bind fun isGenerator st₂ h₂ => ?_
  refine .atIdentifier fun b hb => ?_
  refine .ite_bind (gives_identifierIf b h₂.sound hb) fun name st₃ hname => ?_
  have h₃ := hname.reads
  refine (reads_signature hr _ _ st₃ h₃.sound).bind fun signature st₄ h₄ => ?_
  refine (gives_functionBody? hr _ _ h₄.sound).bind fun body st₅ h₅ => ?_
  have hparts := (((hword.skip h₂).trans h₃).trans h₄).trans_covers h₅
  have hall : st₀.Spends s w st₅ (Form.functionDeclaration
      { modifiers, isAsync, isGenerator, name, body
        typeParameters := signature.typeParameters
        parameters := signature.parameters
        returnType := signature.returnType }).children := by
    change st₀.Spends s w st₅ (FunctionParts.children _)
    rw [FunctionParts.children_ofSignature]
    exact hparts
  exact hall.evaluatedNode rfl (forall_mem_toList hname.proper) fun _ => .of_shown rfl

lemma reads_interfaceDeclaration {modifiers : Option (Sequence Node)}
    (h : st₀.Reads s w st (itemsOf modifiers)) (hkind : st.kind = .interfaceKeyword) :
    (interfaceDeclaration rules st₀.here modifiers).Gives st
      fun n st' => st₀.Reads s w st' [n] := by
  refine (gives_expect .interfaceKeyword h.sound).bind fun _ st₁ h₁ => ?_
  refine (fills_identifier.reads st₁ h₁.reads.sound).bind fun name st₂ h₂ => ?_
  refine (reads_typeParameters? hr st₂ h₂.sound).bind fun typeParameters st₃ h₃ => ?_
  refine (reads_heritage hr st₃ h₃.sound).bind fun heritage st₄ h₄ => ?_
  have hhead := (h₁.reads.after h₂).trans (h₃.trans h₄)
  have hlater := hhead.sound_lt h.sound
    (Nat.lt_of_lt_of_le (h₁.lt hkind (by simp)) (h₂.trans (h₃.trans h₄)).le)
  refine (reads_typeMembers (hr.readsLater .typeMember (by simp)) st₄ hlater).bind
    fun members st₅ h₅ => ?_
  have hmembers := h₅.mono (Nat.sub_le w 1)
  exact (((((h.skip h₁.reads).trans h₂).trans h₃).trans h₄).trans hmembers).node rfl

lemma reads_typeAlias {modifiers : Option (Sequence Node)}
    (h : st₀.Reads s w st (itemsOf modifiers)) :
    (typeAlias rules st₀.here modifiers).Gives st fun n st' => st₀.Reads s w st' [n] := by
  refine (skips_expect .typeKeyword st h.sound).bind fun _ st₁ h₁ => ?_
  refine (fills_identifier.reads st₁ h₁.sound).bind fun name st₂ h₂ => ?_
  refine (reads_typeParameters? hr st₂ h₂.sound).bind fun typeParameters st₃ h₃ => ?_
  refine (skips_expect .equals st₃ h₃.sound).bind fun _ st₄ h₄ => ?_
  refine (reads_type hr st₄ h₄.sound).bind fun type st₅ h₅ => ?_
  refine (skips_semicolon st₅ h₅.sound).bind fun _ st₆ h₆ => ?_
  exact ((((((h.skip h₁).trans h₂).trans h₃).skip h₄).trans h₅).skip h₆).node rfl

lemma reads_enumMember : (enumMember rules).Reads s w Option.toList := by
  intro st hs
  refine .pos (((fills_propertyName hr).reads st hs).bind fun name st₁ h₁ => ?_)
  cases name with
  | none => exact h₁
  | some name =>
    refine (reads_initializer hr st₁ h₁.sound).bind fun value st₂ h₂ => ?_
    exact (h₁.trans h₂).node rfl

lemma reads_enumDeclaration {modifiers : Option (Sequence Node)}
    (h : st₀.Reads s w st (itemsOf modifiers)) :
    (enumDeclaration rules st₀.here modifiers).Gives st fun n st' => st₀.Reads s w st' [n] := by
  refine (skips_expect .enumKeyword st h.sound).bind fun _ st₁ h₁ => ?_
  refine (fills_identifier.reads st₁ h₁.sound).bind fun name st₂ h₂ => ?_
  refine (reads_delimited (reads_enumMember hr) (by decide) st₂ h₂.sound).bind
    fun members st₃ h₃ => ?_
  exact (((h.skip h₁).trans h₂).trans h₃).node rfl

/-! ## Modules -/

omit hr in
lemma reads_moduleName : moduleName.Reads s w Option.toList := by
  intro st hs
  refine .at? fun _ _ _ => .ite (fills_identifierName.reads st hs) ?_
  refine (skips_advance st hs).bind fun _ st₁ h₁ => .at? fun _ _ _ => ?_
  exact (reads_literalNode.option.ite fills_identifier.reads st₁ h₁.sound).mono fun _ _ => h₁.after

lemma reads_moduleBody : (moduleBody rules).Reads s w Option.toList := by
  intro st hs
  refine .pos ((gives_optional .openBrace hs).bind fun b st₁ h₁ => ?_)
  cases b with
  | true =>
    refine (gives_statementsUntil hr rfl h₁.reads.sound).bind fun statements st₂ h₂ => ?_
    refine (skips_expect .closeBrace st₂ h₂.sound).bind fun _ st₃ h₃ => ?_
    have hopen := h₁.reads.spent (h₁.lt rfl (by simp))
    exact ((hopen.after h₂.toCovers).skip h₃).node rfl rfl
  | false => exact (skips_semicolon st₁ h₁.reads.sound).bind fun _ st₂ h₂ => h₁.reads.skip h₂

end

/-- The names behind the points in the name of a module, with the places where they were read.  The
last one stands first. -/
inductive Points (s : Source) (w : Nat) (st : ParserState) :
    List (Nat × Option Node) → ParserState → Prop
  | nil {st'} : st.Reads s w st' [] → Points s w st [] st'
  | cons {inner st₁ st₂ name st'} : Points s w st inner st₁ → st₁.Reads s w st₂ [] →
    st₂.Reads s w st' name.toList → Points s w st ((st₂.here, name) :: inner) st'

lemma Points.sound {st' : ParserState} {inner : List (Nat × Option Node)}
    (h : Points s w st inner st') : st'.Sound s w := by
  cases h with
  | nil h => exact h.sound
  | cons _ _ h => exact h.sound

lemma Points.skip {st₁ st' : ParserState} {inner : List (Nat × Option Node)}
    (h : Points s w st inner st₁) (h' : st₁.Reads s w st' []) : Points s w st inner st' := by
  cases h with
  | nil h => exact .nil (h.skip h')
  | cons hinner hpoint hname => exact .cons hinner hpoint (hname.skip h')

/-- Closing the modules of a name from the inside out. -/
lemma Points.gives_fold {st₁ st₂ : ParserState} {inner : List (Nat × Option Node)}
    {body : Option Node} (h : Points s w st inner st₁) (hbody : st₁.Reads s w st₂ body.toList) :
    (inner.foldlM (fun body (start, name) =>
      some <$> finish start (.moduleDeclaration none name body)) body : Parser (Option Node)).Gives
      st₂ fun o st' => st.Reads s w st' o.toList := by
  induction h generalizing body st₂ with
  | nil h => exact h.after hbody
  | @cons _ _ st₃ name _ _ hpoint hname ih =>
    rw [List.foldlM_cons]
    have hparts : st₃.Reads s w st₂ (Form.moduleDeclaration none name body).children :=
      hname.trans hbody
    exact ih (hpoint.after (hparts.node rfl))

section

variable (hr : rules.Sound s w)
include hr

lemma reads_moduleDeclaration {modifiers : Option (Sequence Node)}
    (h : st₀.Reads s w st (itemsOf modifiers)) :
    (moduleDeclaration rules st₀.here modifiers).Gives st fun n st' => st₀.Reads s w st' [n] := by
  refine (reads_moduleName st h.sound).bind fun name st₁ h₁ => ?_
  have hinit : Points s w st₁ [] st₁ := .nil h₁.sound.reads
  refine (Gives.repeatFrom (I := fun inner st' => Points s w st₁ inner st')
    (fun _ _ h => h.sound) hinit fun inner st₂ h₂ => ?_).bind fun inner st₂ h₂ => ?_
  · refine (gives_optional .dot h₂.sound).bind fun b st₃ h₃ => ?_
    split
    case isTrue hdot =>
      refine .pos ((fills_identifier.reads st₃ h₃.reads.sound).bind fun name st₄ h₄ => ?_)
      exact .yield (.cons h₂ h₃.reads h₄) (Nat.lt_of_lt_of_le (h₃.lt hdot (by simp)) h₄.le)
    case isFalse => exact .done (h₂.skip h₃.reads)
  · refine (reads_moduleBody hr st₂ h₂.sound).bind fun body st₃ h₃ => ?_
    refine (h₂.gives_fold h₃).bind fun body st₄ h₄ => ?_
    exact ((h.trans h₁).trans h₄).node rfl

/-! ## Any declaration -/

theorem reads_declarationRest {modifiers : Option (Sequence Node)}
    (h : st₀.Reads s w st (itemsOf modifiers)) :
    (declarationRest rules st₀.here modifiers).Gives st fun o st' =>
      st₀.Reads s w st' o.toList := by
  refine .kind ?_
  split
  case h_1 hk =>
    exact (reads_functionDeclaration hr false h (.inr hk)).bind fun n st₁ h₁ => h₁
  case h_2 hk =>
    refine (gives_advance h.sound).bind fun _ st₁ h₁ => ?_
    have hword := h.spend h₁.toReads (h₁.lt (by simp [hk]))
    exact (reads_functionDeclaration hr true hword.toReads (.inl hword)).bind fun n st₂ h₂ => h₂
  case h_3 hk =>
    refine (gives_classParts hr modifiers h.sound).bind fun parts st₁ h => ?_
    obtain ⟨rest, hparts, -, hclass, hname⟩ := h
    have hall : st₀.Spends s w st₁ (Form.classDeclaration parts).children := by
      change st₀.Spends s w st₁ parts.children
      rw [hparts]
      exact h.trans_spends (hclass hk)
    exact hall.evaluatedNode rfl (forall_mem_toList hname) fun _ => .of_shown rfl
  case h_4 hk => exact (reads_interfaceDeclaration hr h hk).bind fun n st₁ h₁ => h₁
  case h_5 => exact (reads_typeAlias hr h).bind fun n st₁ h₁ => h₁
  case h_6 => exact (reads_enumDeclaration hr h).bind fun n st₁ h₁ => h₁
  case h_7 | h_8 | h_9 => exact (reads_moduleDeclaration hr h).bind fun n st₁ h₁ => h₁
  case h_10 hk | h_11 hk | h_12 hk | h_13 hk =>
    refine (reads_variableStatement hr h ?_).bind fun n st₁ h₁ => h₁
    rw [hk]
    simp
  case h_14 =>
    exact (peeks_report (by nofun) st h.sound).bind fun _ st₁ h₁ => (h.same h₁).forget

lemma reads_declaration {modifiers : List Node} (h : st₀.Reads s w st modifiers) :
    (declaration rules st₀.here modifiers).Gives st fun o st' => st₀.Reads s w st' o.toList := by
  refine (reads_modifiersWhile spots_atDeclarationModifier st h.sound).bind fun more st₁ h₁ => ?_
  refine .sequence? fun modifiers' hmodifiers => ?_
  have hall := h.trans h₁
  rw [id, ← hmodifiers] at hall
  exact reads_declarationRest hr hall

end

/-! ## Imports -/

lemma reads_specifierName : specifierName.Reads s w Option.toList := by
  intro st hs
  exact .at? fun _ _ _ => .ite (reads_literalNode.option st hs) (fills_identifierName.reads st hs)

lemma peeks_atTypeSpecifier : atTypeSpecifier.Peeks s w :=
  (peeks_at? _).bind fun _ => .ite (peeks_nextIs _) (peeks_pure _)

instance : atTypeSpecifier.Frames := by
  unfold atTypeSpecifier
  infer_instance

lemma reads_specifier {form : Bool → Option Node → Option Node → Form Node}
    (hchildren : ∀ b p n, (form b p n).children = p.toList ++ n.toList)
    (hplain : ∀ b p n, (form b p n).isPlainNode = true) :
    (specifier form).Reads s w Option.toList := by
  intro st hs
  refine .pos ((peeks_atTypeSpecifier st hs).bind fun typeOnly st₀ h₀ => ?_)
  have hword : advance.Gives st₀ fun _ st₁ => st.Reads s w st₁ [] :=
    (skips_advance st₀ (h₀.sound hs)).mono fun _ _ h₁ => (h₀.reads hs).skip h₁
  refine .when_bind (P := fun st₁ => st.Reads s w st₁ []) (fun _ => hword) (fun _ => h₀.reads hs)
    fun st₁ h₁ => ?_
  refine (reads_specifierName st₁ h₁.sound).bind fun first st₂ h₂ => ?_
  cases first with
  | none => exact h₁.skip h₂
  | some first =>
    refine (skips_optional .asKeyword st₂ h₂.sound).bind fun b st₃ h₃ => ?_
    have hfirst := (h₁.after h₂).skip h₃
    refine .ite ?_ (.finish (.pure ?_))
    · refine (reads_specifierName st₃ h₃.sound).bind fun name st₄ h₄ => .finish (.pure ?_)
      have hread : st.Reads s w st₄ (form typeOnly first name).children := by
        rw [hchildren]
        exact hfirst.trans h₄
      exact hread.node (hplain ..)
    · have hread : st.Reads s w st₃ (form typeOnly none first).children := by
        rw [hchildren]
        exact hfirst
      exact hread.node (hplain ..)

lemma reads_importSpecifier : (specifier .importSpecifier).Reads s w Option.toList :=
  reads_specifier (fun _ _ _ => rfl) fun _ _ _ => rfl

lemma reads_exportSpecifier : (specifier .exportSpecifier).Reads s w Option.toList :=
  reads_specifier (fun _ _ _ => rfl) fun _ _ _ => rfl

lemma reads_namedBindings : namedBindings.Reads s w fun n => [n] := by
  intro st hs
  refine .pos ((skips_optional .asterisk st hs).bind fun b st₁ h₁ => .ite ?_ ?_)
  · refine (skips_expect .asKeyword st₁ h₁.sound).bind fun _ st₂ h₂ => ?_
    refine (fills_identifier.reads st₂ h₂.sound).bind fun name st₃ h₃ => ?_
    exact ((h₁.skip h₂).after h₃).node rfl
  · refine (reads_delimited reads_importSpecifier (by decide) st₁ h₁.sound).bind
      fun elements st₂ h₂ => ?_
    exact (h₁.after h₂).node rfl

instance frames_behindTypeOfImport : Frames (do
    advance
    match ← kind with
    | .openBrace | .asterisk => return true
    | .fromKeyword => return false
    | _ => atIdentifier) := by
  refine .bind inferInstance fun _ => .bind inferInstance fun k => ?_
  split <;> infer_instance

lemma peeks_typeModifiesImport : typeModifiesImport.Peeks s w := by
  refine Skips.lookAhead (skips_advance.bind fun _ => peeks_kind.skips.bind fun k => ?_)
  split
  · exact skips_pure _
  · exact skips_pure _
  · exact skips_pure _
  · exact peeks_atIdentifier.skips

instance : typeModifiesImport.Frames := by
  unfold typeModifiesImport
  infer_instance

lemma reads_bindingsBehindComma : bindingsBehindComma.Reads s w Option.toList := by
  intro st hs
  refine (skips_optional .comma st hs).bind fun b st₁ h₁ => .ite ?_ h₁
  exact (reads_namedBindings.option st₁ h₁.sound).mono fun _ _ => h₁.after

lemma reads_importClause : importClause.Reads s w fun n => [n] := by
  intro st hs
  have htype (b : Bool) : Parser.Peeks s w (if b = true then typeModifiesImport else pure false) :=
    peeks_typeModifiesImport.ite (peeks_pure _)
  refine .pos (.at? fun b _ _ => ?_)
  refine .ite_bind (htype b st hs) fun typeOnly st₁ h₁ => ?_
  refine .when_bind (P := fun st₂ => st.Reads s w st₂ []) (fun _ => ?_) (fun _ => h₁.reads hs)
    fun st₂ h₂ => ?_
  · exact (skips_advance st₁ (h₁.sound hs)).mono fun _ _ h₂ => (h₁.reads hs).skip h₂
  refine .atIdentifier fun b hb => ?_
  refine .ite_bind (gives_identifierIf b h₂.sound hb) fun name st₃ hname => ?_
  have h₃ := hname.reads
  refine .ite_bind ((reads_namedBindings.option.ite reads_bindingsBehindComma) st₃ h₃.sound)
    fun bindings st₄ h₄ => .finish ?_
  have hparts : st.Reads s w st₄ (Form.importClause typeOnly name bindings).children :=
    h₂.after (h₃.trans h₄)
  have hclause := hparts.node rfl
  refine (skips_expect .fromKeyword _ hclause.sound).bind fun _ st₅ h₅ => .pure ?_
  exact hclause.skip h₅

lemma reads_importDeclaration : importDeclaration.Reads s w fun n => [n] := by
  intro st hs
  have hclause (b : Bool) : Parser.Reads s w (if b = true then pure none else some <$> importClause)
      Option.toList := reads_none.ite reads_importClause.option
  refine .pos ((skips_expect .importKeyword st hs).bind fun _ st₁ h₁ => ?_)
  refine .at? fun b _ _ => .ite_bind (hclause b st₁ h₁.sound) fun clause st₂ h₂ => ?_
  have hread := h₁.after h₂
  have hclose (source : Option Node) (st₃ : ParserState) (h₃ : st₂.Reads s w st₃ source.toList) :
      Gives (do
        semicolon
        finish st.here (.importDeclaration clause source)) st₃ fun n st' =>
          st.Reads s w st' [n] := by
    refine (skips_semicolon st₃ h₃.sound).bind fun _ st₄ h₄ => ?_
    exact ((hread.trans h₃).skip h₄).node rfl
  refine .at? fun b _ _ => .ite ?_ ?_
  · exact Gives.map_bind (reads_literalNode st₂ h₂.sound) fun n st₃ h₃ => hclose n st₃ h₃
  · exact (peeks_report (by nofun) st₂ h₂.sound).bind fun _ st₃ h₃ =>
      hclose none st₃ (h₃.reads h₂.sound)

/-! ## Exports -/

instance frames_behindDefault : Frames (do
    advance
    match ← kind with
    | .functionKeyword | .classKeyword | .interfaceKeyword => return true
    | .asyncKeyword | .abstractKeyword =>
      advance
      if ← afterLineBreak then return false
      let k ← kind
      return k == .functionKeyword || k == .classKeyword
    | _ => return false) := by
  refine .bind inferInstance fun _ => .bind inferInstance fun k => ?_
  split <;> infer_instance

lemma peeks_defaultDeclares : defaultDeclares.Peeks s w := by
  refine Skips.lookAhead (skips_advance.bind fun _ => peeks_kind.skips.bind fun k => ?_)
  split
  case h_4 | h_5 =>
    refine skips_advance.bind fun _ => peeks_afterLineBreak.skips.bind fun _ => ?_
    exact .ite (skips_pure _) (peeks_kind.skips.bind fun _ => skips_pure _)
  all_goals exact skips_pure _

instance : defaultDeclares.Frames := by
  unfold defaultDeclares
  infer_instance

lemma peeks_atTypeExport : atTypeExport.Peeks s w :=
  (peeks_at? _).bind fun _ => .ite (peeks_nextIs _) (peeks_pure _)

instance : atTypeExport.Frames := by
  unfold atTypeExport
  infer_instance

lemma reads_exportClause : exportClause.Reads s w Option.toList := by
  intro st hs
  refine .pos ((skips_optional .asterisk st hs).bind fun b st₁ h₁ => .ite ?_ ?_)
  · refine (skips_optional .asKeyword st₁ h₁.sound).bind fun b st₂ h₂ => .ite ?_ (h₁.skip h₂)
    refine (fills_identifierName.reads st₂ h₂.sound).bind fun name st₃ h₃ => ?_
    exact ((h₁.skip h₂).after h₃).node rfl
  · refine (reads_delimited reads_exportSpecifier (by decide) st₁ h₁.sound).bind
      fun elements st₂ h₂ => ?_
    exact (h₁.after h₂).node rfl

lemma reads_exportList {modifiers : List Node} (typeOnly : Bool)
    (h : st₀.Reads s w st modifiers) :
    (exportList st₀.here modifiers typeOnly).Gives st fun n st' => st₀.Reads s w st' [n] := by
  have hsource (b : Bool) : Parser.Reads s w (if b = true then some <$> literalNode else pure none)
      Option.toList := reads_literalNode.option.ite reads_none
  refine (reads_exportClause st h.sound).bind fun clause st₁ h₁ => ?_
  refine (skips_optional .fromKeyword st₁ h₁.sound).bind fun b st₂ h₂ => ?_
  refine .ite_bind (hsource b st₂ h₂.sound) fun source st₃ h₃ => ?_
  refine (skips_semicolon st₃ h₃.sound).bind fun _ st₄ h₄ => ?_
  refine .sequence? fun modifiers' hmodifiers => ?_
  have hall := (((h.trans h₁).skip h₂).trans h₃).skip h₄
  rw [← hmodifiers] at hall
  exact hall.node rfl

section

variable (hr : rules.Sound s w)
include hr

lemma reads_exportAssignment {modifiers : List Node} (isEquals : Bool)
    (h : st₀.Reads s w st modifiers) :
    (exportAssignment rules st₀.here modifiers isEquals).Gives st
      fun n st' => st₀.Reads s w st' [n] := by
  refine (reads_assignment hr st h.sound).bind fun value st₁ h₁ => ?_
  refine (skips_semicolon st₁ h₁.sound).bind fun _ st₂ h₂ => ?_
  refine .sequence? fun modifiers' hmodifiers => ?_
  have hall := (h.trans h₁).skip h₂
  rw [← hmodifiers] at hall
  exact hall.node rfl

lemma reads_exported {decorators : List Node} (h : st₀.Reads s w st decorators) :
    (exported rules st₀.here decorators).Gives st fun o st' => st₀.Reads s w st' o.toList := by
  refine (gives_tokenNode h.sound).bind fun keyword st₁ h₁ => ?_
  have hexport := h.trans h₁.toReads
  have hbare := h.skip h₁.toReads.forget
  refine (skips_optional .equals st₁ h₁.sound).bind fun b st₂ h₂ => .ite ?_ ?_
  · exact (reads_exportAssignment hr true (hbare.skip h₂)).bind fun n st₃ h₃ => h₃
  replace hexport := hexport.skip h₂
  replace hbare := hbare.skip h₂
  refine .at? fun b _ _ => .ite ?_ ?_
  · refine (peeks_defaultDeclares st₂ h₂.sound).bind fun b st₃ h₃ => .ite ?_ ?_
    · refine (gives_tokenNode (h₃.sound h₂.sound)).bind fun byDefault st₄ h₄ => ?_
      have hall := (hexport.same h₃).trans h₄.toReads
      rw [List.append_assoc] at hall
      exact reads_declaration hr hall
    · refine (skips_advance st₃ (h₃.sound h₂.sound)).bind fun _ st₄ h₄ => ?_
      exact (reads_exportAssignment hr false ((hbare.same h₃).skip h₄)).bind fun n st₅ h₅ => h₅
  refine (peeks_atTypeExport st₂ h₂.sound).bind fun typeOnly st₃ h₃ => ?_
  refine .when_bind (P := fun st₄ => st₂.Reads s w st₄ []) (fun _ => ?_)
    (fun _ => h₃.reads h₂.sound)
    fun st₄ h₄ => ?_
  · exact (skips_advance st₃ (h₃.sound h₂.sound)).mono fun _ _ h₄ => (h₃.reads h₂.sound).skip h₄
  refine .kind (.ite ?_ ?_)
  · exact (reads_exportList typeOnly (hbare.skip h₄)).bind fun n st₅ h₅ => h₅
  · exact reads_declaration hr (hexport.skip h₄)

end

end Parser
end InlineValues
