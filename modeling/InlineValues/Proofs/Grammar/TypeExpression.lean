import InlineValues.Grammar.TypeExpression
import InlineValues.Proofs.Grammar.Name

/-!
# Reading types

Every production of types reads its nodes in the order in which its form lists them.  The lists
between brackets also tell that the bracket is no part of them, from which functions know their own
tokens later (`gives_typeParameters?`).
-/

namespace InlineValues
namespace Parser

open ParserState

variable {s : Source} {w : Nat} {st st₀ : ParserState} {rules : Rules}

/-! ## Lists of types, type parameters and parameters -/

/-- A list between angle brackets, where one opens. -/
lemma gives_angled {element : Parser (Option Node)} (h : element.Reads s w Option.toList)
    (hs : st.Sound s w) : Gives (do
      if ← at? .lessThan then some <$> delimited .lessThan .greaterThan element
      else return none) st fun q st' =>
    Delimits s w .lessThan st st' (itemsOf q) ∧ (st.kind ≠ .lessThan → st' = st ∧ q = none) := by
  refine .at? fun b hb hb' => ?_
  split
  case isTrue htrue =>
    refine .map ((gives_delimited h hs (by decide)).mono fun q st' hq => ?_)
    exact ⟨hq, fun hne => absurd (hb htrue) hne⟩
  case isFalse hfalse =>
    have hne := hb' (Bool.eq_false_iff.mpr hfalse)
    exact ⟨⟨hs.reads, fun heq => absurd heq hne⟩, fun _ => ⟨rfl, rfl⟩⟩

section

variable (hr : rules.Sound s w)
include hr

lemma reads_type : (rules .type).Reads s w Option.toList := hr.reads .type rfl

/-- A type behind a token that may be there. -/
lemma reads_typeIf (b : Bool) :
    (if b = true then rules .type else pure none).Reads s w Option.toList :=
  (reads_type hr).ite reads_none

lemma reads_annotatedType : ( typeAnnotation rules).Reads s w Option.toList := by
  intro st hs
  refine (gives_optional .colon hs).bind fun b st₁ h₁ => ?_
  exact (reads_typeIf hr b st₁ h₁.reads.sound).mono fun _ _ => h₁.reads.after

lemma reads_typeArguments : (typeArguments rules).Reads s w Sequence.items :=
  reads_delimited (reads_type hr) (by simp)

/-- Behind the bracket that opens type arguments, they follow each other. -/
lemma gives_typeArguments? (hs : st.Sound s w) : (typeArguments? rules).Gives st fun q st' =>
    Delimits s w .lessThan st st' (itemsOf q) ∧ (st.kind ≠ .lessThan → st' = st ∧ q = none) :=
  gives_angled (reads_type hr) hs

lemma reads_typeArguments? : (typeArguments? rules).Reads s w itemsOf :=
  fun _ hs => (gives_typeArguments? hr hs).mono fun _ _ hq => hq.1.toReads

lemma reads_typeArgumentsOnLine? : (typeArgumentsOnLine? rules).Reads s w itemsOf := by
  intro st hs
  refine .afterLineBreak fun b => ?_
  have hnone : (pure none : Parser (Option (Sequence Node))).Reads s w itemsOf := reads_pure rfl
  exact hnone.ite (reads_typeArguments? hr) st hs

end

lemma spots_atVariance : atVariance.Spots s w := by
  intro st hs
  refine .kind (.value ?_)
  split
  case isTrue hk =>
    have hne : st.kind ≠ .endOfFile := fun heq => by simp [heq] at hk
    exact peeks_nameOnSameLine.spots hs hne
  case isFalse => exact ⟨.refl st, nofun⟩

instance : atVariance.Frames := by
  unfold atVariance
  infer_instance

lemma reads_modifiersWhile {test : Parser Bool} (h : test.Spots s w) :
    (modifiersWhile test).Reads s w id := by
  intro st hs
  refine (gives_collect hs fun nodes st₁ h₁ => ?_).bind fun nodes st₁ h₁ => h₁
  refine (h st₁ h₁.sound).bind fun b st₂ h₂ => ?_
  obtain ⟨hsame, hkind⟩ := h₂
  have hnodes := h₁.same hsame
  split
  case isTrue htrue =>
    refine (gives_tokenNode hnodes.sound).bind fun n st₃ h₃ => .pure (.yield ?_ ?_)
    · simpa using hnodes.trans h₃.toReads
    · rw [← hsame.here]
      exact (h₃.fills (hkind htrue)).lt_here
  case isFalse => exact .done hnodes

section

variable (hr : rules.Sound s w)
include hr

lemma reads_typeParameter : (typeParameter rules).Reads s w Option.toList := by
  intro st hs
  refine .pos ?_
  refine (reads_modifiersWhile spots_atVariance st hs).bind fun modifiers st₁ h₁ => ?_
  refine (fills_identifier.reads st₁ h₁.sound).bind fun name st₂ h₂ => ?_
  cases name with
  | none => exact (h₁.skip h₂).forget
  | some name =>
    refine (gives_optional .extendsKeyword h₂.sound).bind fun b st₃ h₃ => ?_
    refine .ite_bind (reads_typeIf hr b st₃ h₃.reads.sound) fun bound st₄ h₄ => ?_
    refine (gives_optional .equals h₄.sound).bind fun b st₅ h₅ => ?_
    refine .ite_bind (reads_typeIf hr b st₅ h₅.reads.sound) fun byDefault st₆ h₆ => ?_
    refine .sequence? fun modifiers' hmodifiers => ?_
    have hread := ((((h₁.trans h₂).skip h₃.reads).trans h₄).skip h₅.reads).trans h₆
    rw [id, ← hmodifiers] at hread
    exact hread.node rfl

/-- Behind the bracket that opens type parameters, they follow each other. -/
theorem gives_typeParameters? (hs : st.Sound s w) : (typeParameters? rules).Gives st fun q st' =>
    Delimits s w .lessThan st st' (itemsOf q) ∧ (st.kind ≠ .lessThan → st' = st ∧ q = none) :=
  gives_angled (reads_typeParameter hr) hs

lemma reads_typeParameters? : (typeParameters? rules).Reads s w itemsOf :=
  fun _ hs => (gives_typeParameters? hr hs).mono fun _ _ hq => hq.1.toReads

lemma reads_parameters : (parameters rules).Reads s w Sequence.items :=
  reads_delimited (hr.reads .parameter rfl) (by simp)

end

/-! ## Function types -/

lemma skips_skipBracketed (opening close : TokenKind) :
    (skipBracketed opening close).Skips s w := by
  refine Skips.bind (Skips.repeatFrom (fun state st hs => ?_) _) fun _ => skips_pure _
  refine .kind ?_
  split
  · exact .done hs.reads
  case isFalse hkind =>
    have hne : st.kind ≠ .endOfFile := fun heq => hkind (by simp [heq])
    split
    · exact (gives_advance hs).bind fun _ _ h => .done h.toReads
    · exact (gives_advance hs).bind fun _ _ h => .yield h.toReads (h.lt hne)

instance (opening close : TokenKind) : (skipBracketed opening close).Frames := by
  unfold skipBracketed
  infer_instance

lemma skips_skipParameterStart : skipParameterStart.Skips s w := by
  refine peeks_atIdentifier.skips.bind fun _ => (peeks_at? _).skips.bind fun _ => ?_
  refine .ite (skips_advance.bind fun _ => skips_pure _) ?_
  refine peeks_kind.skips.bind fun k => ?_
  split
  · exact skips_skipBracketed _ _
  · exact skips_skipBracketed _ _
  · exact skips_pure _

instance : skipParameterStart.Frames := by
  refine .bind inferInstance fun _ => .bind inferInstance fun _ => ?_
  refine .ite inferInstance (.bind inferInstance fun k => ?_)
  split <;> infer_instance

lemma skips_opensFunctionType : opensFunctionType.Skips s w := by
  refine skips_advance.bind fun _ => ?_
  refine (peeks_at? _).skips.bind fun _ => (peeks_at? _).skips.bind fun _ => ?_
  refine .ite (skips_pure _) (skips_skipParameterStart.bind fun _ => .ite (skips_pure _) ?_)
  refine peeks_kind.skips.bind fun k => ?_
  split
  case h_5 => exact skips_advance.bind fun _ => (peeks_at? _).skips
  all_goals exact skips_pure _

instance : opensFunctionType.Frames := by
  refine .bind inferInstance fun _ => .bind inferInstance fun _ => .bind inferInstance fun _ => ?_
  refine .ite inferInstance (.bind inferInstance fun _ => .ite inferInstance ?_)
  refine .bind inferInstance fun k => ?_
  split <;> infer_instance

lemma peeks_atFunctionType : atFunctionType.Peeks s w := by
  refine peeks_kind.bind fun k => ?_
  split
  · exact peeks_pure _
  · exact peeks_pure _
  · exact peeks_nextIs _
  · exact skips_opensFunctionType.lookAhead
  · exact peeks_pure _

instance : atFunctionType.Frames := by
  refine .bind inferInstance fun k => ?_
  split <;> infer_instance

lemma reads_predicateName : predicateName.Reads s w Option.toList := by
  intro st hs
  refine .at? fun b _ _ => ?_
  split
  · exact (gives_emptyNode rfl rfl hs).bind fun n st₁ h₁ => h₁.toReads
  · exact fills_identifier.reads st hs

section

variable (hr : rules.Sound s w)
include hr

lemma reads_returnType : (returnType rules).Reads s w Option.toList := by
  intro st hs
  refine .pos (.atIdentifier fun _ _ => .at? fun _ _ _ => .pure_bind ?_)
  refine (peeks_nextOnSameLine (peeks_at? .isKeyword).skips st hs).bind fun _ st₁ h₁ => ?_
  have hread := hs.reads.same h₁
  split
  · refine (reads_predicateName st₁ hread.sound).bind fun name st₂ h₂ => ?_
    refine (skips_expect .isKeyword st₂ h₂.sound).bind fun _ st₃ h₃ => ?_
    refine (reads_type hr st₃ h₃.sound).bind fun type st₄ h₄ => ?_
    exact (((hread.after h₂).skip h₃).trans h₄).node rfl
  refine .at? fun _ _ _ => ?_
  have htest : (do return (← atIdentifier) || (← at? .thisKeyword) : Parser Bool).Skips s w :=
    peeks_atIdentifier.skips.bind fun _ => (peeks_at? _).skips.bind fun _ => skips_pure _
  refine (peeks_nextOnSameLine htest st₁ hread.sound).bind fun _ st₂ h₂ => ?_
  replace hread := hread.same h₂
  split
  · refine (gives_advance hread.sound).bind fun _ st₃ h₃ => ?_
    refine (reads_predicateName st₃ h₃.sound).bind fun name st₄ h₄ => ?_
    refine (gives_optional .isKeyword h₄.sound).bind fun b st₅ h₅ => ?_
    refine .ite_bind (reads_typeIf hr b st₅ h₅.reads.sound) fun type st₆ h₆ => ?_
    exact ((((hread.skip h₃.toReads).after h₄).skip h₅.reads).trans h₆).node rfl
  · exact (reads_type hr st₂ hread.sound).mono fun _ _ => hread.after

lemma reads_functionType : (functionType rules).Reads s w fun n => [n] := by
  intro st hs
  refine .pos ?_
  refine (skips_optional .abstractKeyword st hs).bind fun isAbstract st₁ h₁ => ?_
  refine (skips_optional .newKeyword st₁ h₁.sound).bind fun isConstructor st₂ h₂ => ?_
  refine (reads_typeParameters? hr st₂ h₂.sound).bind fun typeParameters st₃ h₃ => ?_
  refine (reads_parameters hr st₃ h₃.sound).bind fun parameters st₄ h₄ => ?_
  refine (skips_expect .equalsGreaterThan st₄ h₄.sound).bind fun _ st₅ h₅ => ?_
  refine (reads_returnType hr st₅ h₅.sound).bind fun returnType st₆ h₆ => ?_
  have hread := (((((h₁.skip h₂).after h₃).trans h₄).skip h₅).trans h₆)
  cases isConstructor
  · exact hread.node rfl
  · exact hread.node rfl

end

/-! ## Basic types -/

lemma reads_literalType {n : Node} (h : st₀.Reads s w st [n]) :
    (literalType st₀.here n).Gives st fun o st' => st₀.Reads s w st' o.toList := h.node rfl

lemma skips_opensMappedType : opensMappedType.Skips s w := by
  refine skips_advance.bind fun _ => ?_
  refine (peeks_at? _).skips.bind fun _ => (peeks_at? _).skips.bind fun _ => ?_
  refine .ite ?_ ?rest
  · refine skips_advance.bind fun _ => (peeks_at? _).skips.bind fun _ => ?_
    exact .ite (skips_pure _) ?rest
  refine (skips_discard_optional _).bind fun _ => ?_
  refine (skips_optional _).bind fun _ => .ite (skips_pure _) ?_
  refine peeks_atIdentifier.skips.bind fun _ => .ite (skips_pure _) ?_
  exact skips_advance.bind fun _ => (peeks_at? _).skips

instance : opensMappedType.Frames := by
  refine .bind inferInstance fun _ => .bind inferInstance fun _ => .bind inferInstance fun _ => ?_
  refine .ite ?_ ?rest
  · exact .bind inferInstance fun _ => .bind inferInstance fun _ => .ite inferInstance ?rest
  infer_instance

lemma skips_mappedTypeMark (mark : TokenKind) : (mappedTypeMark mark).Skips s w := by
  refine peeks_kind.skips.bind fun k => ?_
  refine .ite ?_ ?_
  · exact skips_advance.bind fun _ => (skips_expect _).bind fun _ => skips_pure _
  · exact (skips_optional _).bind fun _ => .ite (skips_pure _) (skips_pure _)

instance (mark : TokenKind) : (mappedTypeMark mark).Frames := by
  unfold mappedTypeMark
  infer_instance

section

variable (hr : rules.Sound s w)
include hr

lemma reads_tupleElement : (tupleElement rules).Reads s w Option.toList := by
  intro st hs
  have hnamed : (do
      discard <| Parser.optional .dotDotDot
      if !isWord (← kind) then return false
      advance
      discard <| Parser.optional .question
      at? .colon : Parser Bool).Skips s w := by
    refine (skips_discard_optional _).bind fun _ => ?_
    refine peeks_kind.skips.bind fun k => .ite (skips_pure _) ?_
    refine skips_advance.bind fun _ => ?_
    refine (skips_discard_optional _).bind fun _ => ?_
    exact (peeks_at? _).skips
  refine .pos ?_
  refine (hnamed.lookAhead st hs).bind fun isNamed st₁ h₁ => ?_
  have hread := hs.reads.same h₁
  split
  · refine (skips_optional .dotDotDot st₁ hread.sound).bind fun isRest st₂ h₂ => ?_
    refine (fills_identifierName.reads st₂ h₂.sound).bind fun name st₃ h₃ => ?_
    refine (skips_optional .question st₃ h₃.sound).bind fun isOptional st₄ h₄ => ?_
    refine (skips_expect .colon st₄ h₄.sound).bind fun _ st₅ h₅ => ?_
    refine (reads_type hr st₅ h₅.sound).bind fun type st₆ h₆ => ?_
    exact (((((hread.skip h₂).after h₃).skip h₄).skip h₅).trans h₆).node rfl
  refine (skips_optional .dotDotDot st₁ hread.sound).bind fun isRest st₂ h₂ => ?_
  refine Gives.ite ?_ ?_
  · refine (reads_type hr st₂ h₂.sound).bind fun type st₃ h₃ => ?_
    exact ((hread.skip h₂).after h₃).node rfl
  refine (reads_type hr st₂ h₂.sound).bind fun type st₃ h₃ => ?_
  have htype := (hread.skip h₂).after h₃
  cases type with
  | none => exact htype
  | some type =>
    refine (skips_optional .question st₃ h₃.sound).bind fun isOptional st₄ h₄ => ?_
    split
    · exact (htype.skip h₄).node rfl
    · exact htype.skip h₄

lemma reads_mappedType : (mappedType rules).Reads s w fun n => [n] := by
  intro st hs
  refine .pos ?_
  refine (skips_expect .openBrace st hs).bind fun _ st₁ h₁ => ?_
  refine (skips_mappedTypeMark _ st₁ h₁.sound).bind fun readonlyMark st₂ h₂ => ?_
  refine (skips_expect .openBracket st₂ h₂.sound).bind fun _ st₃ h₃ => .pos ?_
  refine (fills_identifier.reads st₃ h₃.sound).bind fun name st₄ h₄ => ?_
  refine (skips_expect .inKeyword st₄ h₄.sound).bind fun _ st₅ h₅ => ?_
  refine (reads_type hr st₅ h₅.sound).bind fun bound st₆ h₆ => .finish ?_
  have hparts : st₃.Reads s w st₆ (Form.typeParameter none name bound none).children := by
    change st₃.Reads s w st₆ ([] ++ name.toList ++ bound.toList ++ [])
    simpa using (h₄.skip h₅).trans h₆
  have hparameter := hparts.node rfl
  have hread := ((h₁.skip h₂).skip h₃).after hparameter
  refine (gives_optional .asKeyword hparameter.sound).bind fun b st₇ h₇ => ?_
  refine .ite_bind (reads_typeIf hr b st₇ h₇.reads.sound) fun nameType st₈ h₈ => ?_
  refine (skips_expect .closeBracket st₈ h₈.sound).bind fun _ st₉ h₉ => ?_
  refine (skips_mappedTypeMark _ st₉ h₉.sound).bind fun optionalMark st₁₀ h₁₀ => ?_
  refine (reads_annotatedType hr st₁₀ h₁₀.sound).bind fun valueType st₁₁ h₁₁ => ?_
  refine (skips_discard_optional .semicolon st₁₁ h₁₁.sound).bind fun _ st₁₂ h₁₂ => ?_
  refine (skips_expect .closeBrace st₁₂ h₁₂.sound).bind fun _ st₁₃ h₁₃ => ?_
  have hname := (hread.skip h₇.reads).trans h₈
  exact (((((hname.skip h₉).skip h₁₀).trans h₁₁).skip h₁₂).skip h₁₃).node rfl

omit hr in
lemma gives_typeMemberStep (hmember : (rules .typeMember).Reads s w Option.toList)
    {members : List Node} (hread : st₀.Reads s w st members.reverse) :
    (typeMemberStep rules members).Gives st
      (Round (fun members st' => st₀.Reads s w st' members.reverse) st) := by
  refine .at? fun _ _ _ => .at? fun _ _ hend => ?_
  split
  · exact .done hread
  case isFalse hgo =>
    simp only [Bool.or_eq_true, not_or, Bool.not_eq_true] at hgo
    refine .pos ((hmember st hread.sound).bind fun member st₁ h₁ => ?_)
    have hmembers : st₀.Reads s w st₁ (consNode? member members).reverse := by
      rw [reverse_consNode?]
      exact hread.trans h₁
    refine (skips_optional .semicolon st₁ h₁.sound).bind fun b st₂ h₂ => ?_
    refine .when_bind (P := fun st₃ => st₂.Reads s w st₃ [])
      (fun _ => skips_discard_optional .comma st₂ h₂.sound) (fun _ => h₂.sound.reads)
      fun st₃ h₃ => ?_
    have hle : st.here ≤ st₃.here := Nat.le_trans h₁.le (Nat.le_trans h₂.le h₃.le)
    exact gives_moveOn hread.sound (hend hgo.2) hle ((hmembers.skip h₂).skip h₃)

omit hr in
lemma reads_typeMembers (hmember : (rules .typeMember).Reads s w Option.toList) :
    (typeMembers rules).Reads s w Sequence.items :=
  reads_braced fun hread => gives_typeMemberStep hmember hread

/-- Members behind a brace that is there. -/
lemma gives_typeMembers (hs : st.Sound s w) (hkind : st.kind = .openBrace) :
    (typeMembers rules).Gives st fun q st' => st.Reads s w st' q.items :=
  gives_bracedBehind hs hkind fun hread =>
    gives_typeMemberStep (hr.readsLater .typeMember (by simp)) hread

lemma reads_templateType : (templateType rules).Reads s w fun n => [n] := by
  intro st hs
  refine .pos ?_
  refine (reads_literalNode st hs).bind fun head st₁ h₁ => ?_
  refine (reads_templateSpans (reads_type hr) (fun _ _ => rfl) (fun _ _ => rfl) st₁ h₁.sound).bind
    fun spans st₂ h₂ => ?_
  exact (h₁.trans h₂).node rfl

lemma reads_typeReference : (typeReference rules).Reads s w fun n => [n] := by
  intro st hs
  refine .pos ?_
  refine (reads_entityName st hs).bind fun name st₁ h₁ => ?_
  refine (reads_typeArgumentsOnLine? hr st₁ h₁.sound).bind fun arguments st₂ h₂ => ?_
  exact (h₁.trans h₂).node rfl

lemma reads_wordType : (wordType rules).Reads s w Option.toList := by
  intro st hs
  refine .kind (.ite ?_ ?_)
  · exact (reads_typeReference hr st hs).bind fun n st₁ h₁ => h₁
  · exact (peeks_report (by nofun) st hs).bind fun _ st₁ h₁ => h₁.reads hs

lemma reads_basicType : (basicType rules).Reads s w Option.toList := by
  intro st hs
  have htoken : Gives (do literalType st.here (← tokenNode)) st fun o st' =>
      st.Reads s w st' (Option.toList o) :=
    (gives_tokenNode hs).bind fun n st₁ h₁ => reads_literalType h₁.toReads
  have hliteral : Gives (do literalType st.here (← literalNode)) st fun o st' =>
      st.Reads s w st' (Option.toList o) :=
    (reads_literalNode st hs).bind fun n st₁ h₁ => reads_literalType h₁
  refine .pos (.kind ?_)
  split
  case h_1 => exact (gives_tokenNode hs).bind fun n st₁ h₁ => h₁.toReads
  case h_2 | h_3 | h_4 => exact htoken
  case h_5 | h_6 | h_7 | h_8 => exact hliteral
  case h_9 =>
    refine (gives_advance hs).bind fun _ st₁ h₁ => ?_
    refine (reads_literalNode st₁ h₁.sound).bind fun n st₂ h₂ => .finish ?_
    have hoperand := h₁.toReads.after h₂
    exact reads_literalType (hoperand.node rfl)
  case h_10 => exact (reads_templateType hr st hs).bind fun n st₁ h₁ => h₁
  case h_11 => exact (gives_emptyNode rfl rfl hs).bind fun n st₁ h₁ => h₁.toReads
  case h_12 =>
    refine (gives_advance hs).bind fun _ st₁ h₁ => ?_
    refine (reads_entityName st₁ h₁.sound).bind fun name st₂ h₂ => ?_
    refine (reads_typeArgumentsOnLine? hr st₂ h₂.sound).bind fun arguments st₃ h₃ => ?_
    exact ((h₁.toReads.after h₂).trans h₃).node rfl
  case h_13 hk =>
    refine (skips_opensMappedType.lookAhead st hs).bind fun isMapped st₁ h₁ => ?_
    have hread := hs.reads.same h₁
    refine .ite ?_ ?_
    · exact (reads_mappedType hr st₁ hread.sound).bind fun n st₂ h₂ => hread.after h₂
    · refine (gives_typeMembers hr hread.sound (h₁.kind.trans hk)).bind fun members st₂ h₂ => ?_
      exact (hread.after h₂).node rfl
  case h_14 =>
    refine (reads_delimited (reads_tupleElement hr) (by decide) st hs).bind
      fun elements st₁ h₁ => ?_
    exact h₁.node rfl
  case h_15 =>
    refine (gives_advance hs).bind fun _ st₁ h₁ => ?_
    refine (reads_type hr st₁ h₁.sound).bind fun type st₂ h₂ => ?_
    refine (skips_expect .closeParen st₂ h₂.sound).bind fun _ st₃ h₃ => ?_
    exact ((h₁.toReads.after h₂).skip h₃).node rfl
  case h_16 =>
    refine .ite ?_ (reads_wordType hr st hs)
    refine (peeks_nextIs _ st hs).bind fun b st₁ h₁ => ?_
    have hread := hs.reads.same h₁
    refine .ite ?_ ?_
    · exact (gives_tokenNode hread.sound).bind fun n st₂ h₂ => hread.after h₂.toReads
    · exact (reads_wordType hr st₁ hread.sound).mono fun _ _ => hread.after

/-! ## Composite types -/

lemma reads_bracketedType : (bracketedType rules).Reads s w Option.toList := by
  intro st hs
  refine .pos ?_
  refine (reads_basicType hr st hs).bind fun first st₁ h₁ => ?_
  cases first with
  | none => exact h₁
  | some first =>
    refine Gives.bind (Gives.repeatFrom (I := fun n st' => st.Reads s w st' [n])
      (fun _ _ h => h.sound) h₁ fun type st₂ h₂ => ?_) fun n st₂ h₂ => h₂
    refine .afterLineBreak fun line => .at? fun bracket hbracket _ => ?_
    split
    · exact .done h₂
    case isFalse hopens =>
      simp only [Bool.or_eq_true, not_or, Bool.not_eq_true', Bool.not_eq_false] at hopens
      refine (gives_advance h₂.sound).bind fun _ st₃ h₃ => ?_
      have hlt := h₃.lt (by simp [hbracket hopens.2])
      refine (skips_optional .closeBracket st₃ h₃.sound).bind fun b st₄ h₄ => ?_
      have hopened := (h₂.skip h₃.toReads).skip h₄
      replace hlt := Nat.lt_of_lt_of_le hlt h₄.le
      split
      · exact .finish (.yield (hopened.node rfl) hlt)
      refine (reads_type hr st₄ h₄.sound).bind fun index st₅ h₅ => ?_
      refine (skips_expect .closeBracket st₅ h₅.sound).bind fun _ st₆ h₆ => ?_
      exact .finish (.yield (((hopened.trans h₅).skip h₆).node rfl)
        (Nat.lt_of_lt_of_le hlt (Nat.le_trans h₅.le h₆.le)))

lemma reads_operatorType : (operatorType rules).Reads s w Option.toList := by
  intro st hs
  refine .pos (.kind ?_)
  have hoperator (k : TokenKind) (hne : st.kind ≠ .endOfFile) : Gives (do
      advance
      let type ← rules .typeOperator
      return some (← finish st.here (.typeOperator k type))) st fun o st' =>
        st.Reads s w st' (Option.toList o) := by
    refine (gives_advance hs).bind fun _ st₁ h₁ => ?_
    refine (hr.reads_behind (x := .typeOperator) (by simp) hs h₁.toCovers (h₁.lt hne)).bind
      fun type st₂ h₂ => ?_
    exact (h₁.toReads.after h₂).node rfl
  split
  case h_1 hk | h_2 hk | h_3 hk => exact hoperator _ (by simp [hk])
  case h_4 =>
    refine (gives_advance hs).bind fun _ st₁ h₁ => .pos ?_
    refine (fills_identifier.reads st₁ h₁.sound).bind fun name st₂ h₂ => .finish ?_
    have hparameter : st₁.Reads s w st₂ (Form.typeParameter none name none none).children := by
      change st₁.Reads s w st₂ ([] ++ name.toList ++ [] ++ [])
      simpa using h₂
    exact (h₁.toReads.after (hparameter.node rfl)).node rfl
  case h_5 => exact reads_bracketedType hr st hs

lemma reads_compositeType {operator : TokenKind} (hoperator : operator ≠ .endOfFile)
    {form : Sequence (Option Node) → Form Node} {constituent : Parser (Option Node)}
    (hconstituent : constituent.Reads s w Option.toList)
    (hchildren : ∀ q, (form q).children = q.items.filterMap id)
    (hplain : ∀ q, (form q).isPlainNode = true) :
    (compositeType rules operator form constituent).Reads s w Option.toList := by
  intro st hs
  refine .pos ?_
  refine (skips_optional operator st hs).bind fun leading st₁ h₁ => ?_
  refine (peeks_atFunctionType st₁ h₁.sound).bind fun isFunction st₂ h₂ => ?_
  have hread := h₁.same h₂
  have hfirst := (reads_functionType hr).option.ite hconstituent (c := isFunction = true)
  refine .ite_bind (hfirst st₂ hread.sound) fun first st₃ h₃ => ?_
  refine .at? fun _ _ _ => ?_
  split
  · exact hread.after h₃
  have hinit : st.Reads s w st₃ ([first].reverse.filterMap id) := by
    cases first
    · exact hread.after h₃
    · exact hread.after h₃
  refine (Gives.repeatFrom
    (I := fun types st' => st.Reads s w st' (List.filterMap id (List.reverse types)))
    (fun _ _ h => h.sound) hinit fun types st₄ h₄ => ?_).bind fun types st₄ h₄ => ?_
  · refine (gives_optional operator h₄.sound).bind fun b st₅ h₅ => ?_
    have hskipped := h₄.skip h₅.reads
    cases b with
    | true =>
      refine (hconstituent st₅ h₅.reads.sound).bind fun type st₆ h₆ => ?_
      have htypes := hskipped.trans h₆
      have hreverse : (type :: types).reverse.filterMap id =
          types.reverse.filterMap id ++ type.toList := by
        cases type <;> simp
      rw [← hreverse] at htypes
      exact .yield htypes (Nat.lt_of_lt_of_le (h₅.lt rfl hoperator) h₆.le)
    | false => exact .done hskipped
  · refine .sequenceOf fun q hq => ?_
    have hnode : st.Reads s w st₄ (form q).children := by
      rw [hchildren, hq]
      exact h₄
    exact hnode.node (hplain q)

end

/-! ## Any type -/

section

variable (hr : rules.Complete s w)
include hr

lemma reads_intersectionType : (intersectionType rules).Reads s w Option.toList :=
  reads_compositeType hr.toSound (by simp) (hr.readsAll .typeOperator (by simp)) (fun _ => rfl)
    fun _ => rfl

lemma reads_unionType : (unionType rules).Reads s w Option.toList :=
  reads_compositeType hr.toSound (by simp) (reads_intersectionType hr) (fun _ => rfl)
    fun _ => rfl

lemma reads_anyType : (anyType rules).Reads s w Option.toList := by
  intro st hs
  refine (peeks_atFunctionType st hs).bind fun isFunction st₁ h₁ => ?_
  have hread := hs.reads.same h₁
  refine .ite ?_ (.pos ?_)
  · exact (reads_functionType hr.toSound st₁ hread.sound).bind fun n st₂ h₂ => hread.after h₂
  refine (reads_unionType hr st₁ hread.sound).bind fun check st₂ h₂ => ?_
  cases check with
  | none => exact hread.after h₂
  | some check =>
    refine .afterLineBreak fun _ => .ite (hread.after h₂) ?_
    refine (skips_optional .extendsKeyword st₂ h₂.sound).bind fun b st₃ h₃ => ?_
    refine .ite (hread.after (h₂.skip h₃)) ?_
    refine (reads_unionType hr st₃ h₃.sound).bind fun bound st₄ h₄ => ?_
    refine (skips_expect .question st₄ h₄.sound).bind fun _ st₅ h₅ => ?_
    refine (reads_type hr.toSound st₅ h₅.sound).bind fun whenTrue st₆ h₆ => ?_
    refine (skips_expect .colon st₆ h₆.sound).bind fun _ st₇ h₇ => ?_
    refine (reads_type hr.toSound st₇ h₇.sound).bind fun whenFalse st₈ h₈ => ?_
    have htypes := (((((h₂.skip h₃).trans h₄).skip h₅).trans h₆).skip h₇).trans h₈
    have hchildren : st₁.Reads s w st₈
        (Form.conditionalType check bound whenTrue whenFalse).children := by
      change st₁.Reads s w st₈ (check :: (bound.toList ++ whenTrue.toList ++ whenFalse.toList))
      simpa using htypes
    exact hread.after (hchildren.node rfl)

end

end Parser
end InlineValues
