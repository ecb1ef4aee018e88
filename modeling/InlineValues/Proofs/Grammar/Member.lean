import InlineValues.Grammar.Member
import InlineValues.Proofs.Grammar.Binding

/-!
# Reading members and classes

The bodies of methods and accessors are blocks, which stand behind a name or a keyword.  A class has
its keyword (`gives_classParts`), and one in the place of an expression that lacks it has decorators
in front (`gives_classExpression`).
-/

namespace InlineValues
namespace Parser

open ParserState

variable {s : Source} {w : Nat} {st st₀ : ParserState} {rules : Rules}

/-! ## Which members start here -/

lemma spots_atAccessor : atAccessor.Spots s w := by
  intro st hs
  refine .kind ?_
  split
  case isTrue hk =>
    exact (peeks_nextKindOnSameLine startsPropertyName).spots hs fun hend => by simp [hend] at hk
  case isFalse => exact ⟨.refl st, Bool.noConfusion⟩

instance : atAccessor.Frames := by
  unfold atAccessor
  infer_instance

lemma peeks_atSignature : atSignature.Peeks s w :=
  peeks_kind.bind fun _ => peeks_kind.bind fun _ => peeks_pure _

instance : atSignature.Frames := by
  unfold atSignature
  infer_instance

lemma skips_opensIndexSignature : opensIndexSignature.Skips s w := by
  refine skips_advance.bind fun _ => (peeks_at? _).skips.bind fun _ => ?_
  refine (peeks_at? _).skips.bind fun _ => .ite (skips_pure _) ?_
  refine peeks_kind.skips.bind fun k => .ite (skips_pure _) (skips_advance.bind fun _ => ?_)
  refine peeks_kind.skips.bind fun k => ?_
  split
  all_goals exact skips_pure _

instance : beforeSignature.Frames := by
  unfold beforeSignature
  infer_instance

instance : opensIndexSignature.Frames := by
  refine .bind inferInstance fun _ => .bind inferInstance fun _ => .bind inferInstance fun _ => ?_
  refine .ite inferInstance (.bind inferInstance fun k => .ite inferInstance ?_)
  refine .bind inferInstance fun _ => .bind inferInstance fun k => ?_
  split <;> infer_instance

lemma peeks_atIndexSignature : atIndexSignature.Peeks s w :=
  (peeks_at? _).bind fun _ => .ite skips_opensIndexSignature.lookAhead (peeks_pure _)

instance : atIndexSignature.Frames := by
  unfold atIndexSignature
  infer_instance

lemma peeks_atReadonly : atReadonly.Peeks s w := by
  refine (peeks_at? _).bind fun _ => .ite ?_ (peeks_pure _)
  exact peeks_nextKindOnSameLine startsPropertyName

instance : atReadonly.Frames := by
  unfold atReadonly
  infer_instance

instance frames_behindMemberModifier : Frames (do
    match ← kind with
    | .asterisk | .openBrace | .dotDotDot | .atSign => return true
    | k => return startsPropertyName k) := by
  refine .bind inferInstance fun k => ?_
  split <;> infer_instance

lemma spots_atMemberModifier : atMemberModifier.Spots s w := by
  intro st hs
  refine .kind ?_
  split
  · exact ⟨.refl st, nofun⟩
  case isFalse hmodifier =>
    have hne : st.kind ≠ .endOfFile := fun heq => hmodifier (by rw [heq]; rfl)
    refine (peeks_nextOnSameLine (peeks_kind.skips.bind fun k => ?_)).spots hs hne
    split
    all_goals exact skips_pure _

instance : atMemberModifier.Frames := by
  unfold atMemberModifier
  infer_instance

lemma fills_className : className.Fills s w := by
  intro st hs
  exact .at? fun _ _ _ =>
    .ite hs.reads.fillsNone (.atIdentifier fun b hb => gives_identifierIf b hs hb)

/-! ## Members of several kinds of bodies -/

section

variable (hr : rules.Sound s w)
include hr

lemma reads_accessor {modifiers : Option (Sequence Node)}
    (h : st₀.Reads s w st (itemsOf modifiers)) (hkind : st.kind ≠ .endOfFile) :
    (accessor rules st₀.here modifiers).Gives st fun n st' => st₀.Reads s w st' [n] := by
  refine .at? fun isGetter _ _ => ?_
  refine (gives_advance h.sound).bind fun _ st₁ h₁ => ?_
  refine ((fills_propertyName hr).reads st₁ h₁.sound).bind fun name st₂ h₂ => ?_
  refine (reads_signature hr _ _ st₂ h₂.sound).bind fun signature st₃ h₃ => ?_
  have hword := ((h.spend h₁.toReads (h₁.lt hkind)).trans h₂).trans h₃
  have hbody (b : Bool) : Gives (if b = true then some <$> functionBody rules false false
      else pure none) st₃ fun o st' => st₃.Covers s w st' (Option.toList o) :=
    .ite (.map (gives_functionBody hr _ _ h₃.sound)) h₃.sound.reads.toCovers
  refine .at? fun b _ _ => .ite_bind (hbody b) fun body st₄ h₄ => ?_
  have hread := hword.trans_covers h₄
  split
  · exact hread.node rfl rfl
  · exact hread.node rfl rfl

lemma reads_methodRest {modifiers : Option (Sequence Node)} {name : Node}
    (isGenerator isOptional : Bool) (h : st₀.Reads s w st (itemsOf modifiers ++ [name]))
    (hlt : st₀.here < st.here) :
    (methodRest rules st₀.here modifiers isGenerator name isOptional).Gives st
      fun n st' => st₀.Reads s w st' [n] := by
  refine (reads_signature hr _ _ st h.sound).bind fun signature st₁ h₁ => ?_
  refine (gives_functionBody? hr _ _ h₁.sound).bind fun body st₂ h₂ => ?_
  have hparts := (h.trans h₁).trans_covers h₂ (Nat.lt_of_lt_of_le hlt h₁.le)
  have hread : st₀.Reads s w st₂ (Form.methodDeclaration
      ⟨modifiers, isGenerator, name, isOptional, signature, body⟩).children := by
    change st₀.Reads s w st₂ (itemsOf modifiers ++ name :: signature.children ++ body.toList)
    simpa using hparts
  exact hread.node rfl

lemma reads_indexSignature {modifiers : Option (Sequence Node)}
    (h : st₀.Reads s w st (itemsOf modifiers)) :
    (indexSignature rules st₀.here modifiers).Gives st fun n st' => st₀.Reads s w st' [n] := by
  refine (reads_delimited (hr.reads .parameter rfl) (by decide) st h.sound).bind
    fun parameters st₁ h₁ => ?_
  refine (reads_annotatedType hr st₁ h₁.sound).bind fun type st₂ h₂ => ?_
  exact ((h.trans h₁).trans h₂).node rfl

/-! ## Members of interfaces and type literals -/

lemma reads_namedTypeMember {modifiers : Option (Sequence Node)}
    (h : st₀.Reads s w st (itemsOf modifiers)) :
    (namedTypeMember rules st₀.here modifiers).Gives st fun o st' =>
      st₀.Reads s w st' o.toList := by
  refine ((fills_propertyName hr).reads st h.sound).bind fun name st₁ h₁ => ?_
  cases name with
  | none => exact (h.skip h₁).forget
  | some name =>
    refine (skips_optional .question st₁ h₁.sound).bind fun isOptional st₂ h₂ => ?_
    have hname := (h.trans h₁).skip h₂
    refine (peeks_atSignature st₂ h₂.sound).bind fun b st₃ h₃ => ?_
    replace hname := hname.same h₃
    split
    · refine (reads_signature hr _ _ st₃ hname.sound).bind fun signature st₄ h₄ => ?_
      have hread : st₀.Reads s w st₄ (Form.methodSignature modifiers name isOptional
          signature).children := by
        change st₀.Reads s w st₄ (itemsOf modifiers ++ name :: signature.children)
        simpa using hname.trans h₄
      exact hread.node rfl
    · refine (reads_annotatedType hr st₃ hname.sound).bind fun type st₄ h₄ => ?_
      have hinitializer : (Functor.discard (initializer rules)).Skips s w :=
        fun st hs => .discard ((reads_initializer hr).skips st hs)
      refine (hinitializer st₄ h₄.sound).bind fun _ st₅ h₅ => ?_
      have hread : st₀.Reads s w st₅ (Form.propertySignature modifiers name isOptional
          type).children := by
        change st₀.Reads s w st₅ (itemsOf modifiers ++ name :: type.toList)
        simpa using (hname.trans h₄).skip h₅
      exact hread.node rfl

lemma reads_typeMember : (typeMember rules).Reads s w Option.toList := by
  intro st hs
  refine .pos ((peeks_atSignature st hs).bind fun b st₁ h₁ => ?_)
  have hstart := hs.reads.same h₁
  split
  · refine (reads_signature hr _ _ st₁ hstart.sound).bind fun signature st₂ h₂ => ?_
    exact (hstart.after h₂).node rfl
  refine .at? fun atNew hnew _ => ?_
  refine .ite_test (P := fun _ st₂ => st₁.SamePlace s st₂)
    (fun _ => peeks_nextIs _ st₁ hstart.sound) (fun _ => .refl st₁) (fun st₂ hc h₂ => ?_)
    fun st₂ h₂ => ?_
  · replace hstart := hstart.same h₂
    refine (skips_advance st₂ hstart.sound).bind fun _ st₃ h₃ => ?_
    refine (reads_signature hr _ _ st₃ h₃.sound).bind fun signature st₄ h₄ => ?_
    exact ((hstart.skip h₃).after h₄).node rfl
  replace hstart := hstart.same h₂
  have hmodifier (b : Bool) : Parser.Reads s w (if b = true then some <$> tokenNode else pure none)
      Option.toList := reads_tokenNode.option.ite reads_none
  refine (peeks_atReadonly st₂ hstart.sound).bind fun b st₃ h₃ => ?_
  replace hstart := hstart.same h₃
  refine .ite_bind (hmodifier b st₃ hstart.sound) fun modifier st₄ h₄ => ?_
  refine .sequence? fun modifiers hmodifiers => ?_
  have hread := hstart.after h₄
  rw [← hmodifiers] at hread
  refine (peeks_atIndexSignature st₄ hread.sound).bind fun b st₅ h₅ => ?_
  replace hread := hread.same h₅
  split
  · exact (reads_indexSignature hr hread).bind fun n st₆ h₆ => h₆
  refine (spots_atAccessor _ hread.sound).bind fun b st₆ h => ?_
  obtain ⟨h₆, hkind⟩ := h
  replace hread := hread.same h₆
  split
  case isTrue htrue => exact (reads_accessor hr hread (hkind htrue)).bind fun n st₇ h₇ => h₇
  case isFalse => exact reads_namedTypeMember hr hread

/-! ## Members of classes -/

lemma reads_namedClassMember {modifiers : Option (Sequence Node)}
    (h : st₀.Reads s w st (itemsOf modifiers)) :
    (namedClassMember rules st₀.here modifiers).Gives st fun o st' =>
      st₀.Reads s w st' o.toList := by
  refine (skips_optional .asterisk st h.sound).bind fun isGenerator st₁ h₁ => ?_
  refine (fills_propertyName hr st₁ h₁.sound).bind fun name st₂ h₂ => ?_
  cases name with
  | none => exact ((h.skip h₁).skip h₂.reads).forget
  | some name =>
    have hname := (h.skip h₁).trans h₂.reads
    have hlt := Nat.lt_of_le_of_lt (h.skip h₁).le h₂.lt_here
    refine (skips_optional .question st₂ h₂.reads.sound).bind fun isOptional st₃ h₃ => ?_
    refine (peeks_atSignature st₃ h₃.sound).bind fun b st₄ h₄ => ?_
    replace hname := (hname.skip h₃).same h₄
    split
    · have hmoved : st₀.here < st₄.here := by
        rw [h₄.here]
        exact Nat.lt_of_lt_of_le hlt h₃.le
      exact (reads_methodRest hr isGenerator isOptional hname hmoved).bind fun n st₅ h₅ => h₅
    · have hmark : Parser.Skips s w (if isOptional = true then pure false
          else Parser.optional .exclamation) := (skips_pure _).ite (skips_optional _)
      refine .ite_bind (hmark st₄ hname.sound) fun definite st₅ h₅ => ?_
      refine (reads_annotatedType hr st₅ h₅.sound).bind fun declaredType st₆ h₆ => ?_
      refine ((reads_initializer hr).inContext allowIn st₆ h₆.sound).bind fun value st₇ h₇ => ?_
      refine (skips_semicolon st₇ h₇.sound).bind fun _ st₈ h₈ => ?_
      have hread : st₀.Reads s w st₈ (Form.propertyDeclaration
          ⟨modifiers, name, isOptional, definite, declaredType, value⟩).children := by
        change st₀.Reads s w st₈ (itemsOf modifiers ++ name :: declaredType.toList ++ value.toList)
        simpa using (((hname.skip h₅).trans h₆).trans h₇).skip h₈
      exact hread.node rfl

lemma reads_classMemberRest {modifiers : Option (Sequence Node)}
    (h : st₀.Reads s w st (itemsOf modifiers)) :
    (classMemberRest rules st₀.here modifiers).Gives st fun o st' =>
      st₀.Reads s w st' o.toList := by
  refine .at? fun atConstructor hconstructor _ => ?_
  refine .ite_test (P := fun _ st₁ => st.SamePlace s st₁)
    (fun _ => peeks_nextIs _ st h.sound) (fun _ => .refl st) (fun st₁ hc h₁ => ?_)
    fun st₁ h₁ => ?_
  · replace h := h.same h₁
    refine (gives_advance h.sound).bind fun _ st₂ h₂ => ?_
    have hlt : st₁.here < st₂.here := h₂.lt (by simp [h₁.kind, hconstructor hc])
    refine (reads_signature hr _ _ st₂ h₂.sound).bind fun signature st₃ h₃ => ?_
    refine (gives_functionBody? hr _ _ h₃.sound).bind fun body st₄ h₄ => ?_
    have hparts := ((h.spend h₂.toReads hlt).trans h₃).trans_covers h₄
    -- The type of a result is read, but it is no part of a constructor.
    have hread : st₀.Reads s w st₄ (Form.constructorDeclaration modifiers signature.typeParameters
        signature.parameters body).children := by
      refine hparts.sublist (.append ?_ (List.Sublist.refl _))
      simp [SignatureParts.children]
    exact hread.node rfl
  replace h := h.same h₁
  refine (spots_atAccessor _ h.sound).bind fun b st₂ h => ?_
  obtain ⟨h₂, hkind⟩ := h
  replace h := h.same h₂
  split
  case isTrue htrue => exact (reads_accessor hr h (hkind htrue)).bind fun n st₃ h₃ => h₃
  refine (peeks_atIndexSignature st₂ h.sound).bind fun b st₃ h₃ => ?_
  replace h := h.same h₃
  split
  · refine (reads_indexSignature hr h).bind fun member st₄ h₄ => ?_
    exact (skips_semicolon st₄ h₄.sound).bind fun _ st₅ h₅ => h₄.skip h₅
  · exact reads_namedClassMember hr h

lemma reads_classMember : (classMember rules).Reads s w Option.toList := by
  intro st hs
  refine .pos (.at? fun atSemicolon _ _ => .ite ?_ ?_)
  · exact (gives_emptyNode rfl rfl hs).bind fun n st₁ h₁ => h₁.toReads
  refine .at? fun atStatic hstatic _ => ?_
  refine .ite_test (P := fun _ st₁ => st.SamePlace s st₁)
    (fun _ => peeks_nextIs _ st hs) (fun _ => .refl st) (fun st₁ hc h₁ => ?_) fun st₁ h₁ => ?_
  · refine (gives_advance (h₁.sound hs)).bind fun _ st₂ h₂ => ?_
    have hlt : st₁.here < st₂.here := h₂.lt (by simp [h₁.kind, hstatic hc])
    refine (gives_functionBody hr _ _ h₂.sound).bind fun body st₃ h₃ => ?_
    exact (((h₁.reads hs).spend h₂.toReads hlt).after h₃).node rfl rfl
  have hread := hs.reads.same h₁
  refine (reads_decorators hr st₁ hread.sound).bind fun decorators st₂ h₂ => ?_
  refine (reads_modifiersWhile spots_atMemberModifier st₂ h₂.sound).bind fun modifiers st₃ h₃ => ?_
  refine .sequence? fun modifiers' hmodifiers => ?_
  replace hread := hread.after (h₂.trans h₃)
  rw [id, id, ← hmodifiers] at hread
  exact reads_classMemberRest hr hread

/-! ## Classes -/

omit hr in
lemma reads_heritageTypes (hr : rules.Complete s w) :
    (heritageTypes rules).Reads s w Sequence.items := by
  intro st hs
  refine (gives_collect hs fun types st₁ h₁ => .pos ?_).bind fun types st₁ h₁ =>
    gives_sequence fun q hq => by rw [hq]; exact h₁
  refine (hr.readsAll .leftHandSide (by simp) st₁ h₁.sound).bind fun base st₂ h₂ => ?_
  cases base with
  | none => exact .done (h₁.skip h₂)
  | some base =>
    refine (reads_typeArguments? hr.toSound st₂ h₂.sound).bind fun arguments st₃ h₃ => .finish ?_
    have hparts : st₁.Reads s w st₃ (Form.expressionWithTypeArguments base arguments).children :=
      h₂.trans h₃
    have hbase := hparts.node rfl
    refine (gives_optional .comma hbase.sound).bind fun b st₄ h₄ => .pure ?_
    have htypes := (h₁.trans hbase).skip h₄.reads
    rw [← List.reverse_cons] at htypes
    split
    case isTrue hcomma =>
      exact .yield htypes (Nat.lt_of_le_of_lt hbase.le (h₄.lt hcomma (by simp)))
    case isFalse => exact .done htypes

lemma reads_heritage : (heritage rules).Reads s w itemsOf := by
  intro st hs
  refine (gives_collect hs fun clauses st₁ h₁ => .pos (.kind ?_)).bind fun clauses st₁ h₁ =>
    gives_sequence? fun q hq => by rw [hq]; exact h₁
  split
  case isTrue hword =>
    have hne : st₁.kind ≠ .endOfFile := fun heq => by simp [heq] at hword
    refine (gives_advance h₁.sound).bind fun _ st₂ h₂ => ?_
    have hlater := h₂.sound_lt h₁.sound (h₂.lt hne)
    refine (reads_heritageTypes hr.later st₂ hlater).bind fun types st₃ h₃ => .finish ?_
    have hclause : st₁.Reads s w st₃ (Form.heritageClause st₁.kind types).children :=
      h₂.toReads.after (h₃.mono (Nat.sub_le w 1))
    have hclauses := h₁.trans (hclause.node rfl)
    rw [← List.reverse_cons] at hclauses
    exact .yield hclauses (Nat.lt_of_lt_of_le (h₂.lt hne) h₃.le)
  case isFalse => exact .done h₁

lemma reads_classMembers : (classMembers rules).Reads s w Sequence.items := by
  refine reads_braced fun {st₀ st members} h => ?_
  refine .at? fun _ _ _ => .at? fun _ _ hend => ?_
  split
  · exact .done h
  case isFalse hgo =>
    simp only [Bool.or_eq_true, not_or, Bool.not_eq_true] at hgo
    refine .pos ((reads_classMember hr st h.sound).bind fun member st₁ h₁ => ?_)
    have hmembers : st₀.Reads s w st₁ (consNode? member members).reverse := by
      rw [reverse_consNode?]
      exact h.trans h₁
    exact gives_moveOn h.sound (hend hgo.2) h₁.le hmembers

/-- The parts of a class behind its modifiers.  The keyword of the class is none of them. -/
theorem gives_classParts (modifiers : Option (Sequence Node)) (hs : st.Sound s w) :
    (classParts rules modifiers).Gives st fun parts st' => ∃ rest,
      parts.children = itemsOf modifiers ++ rest ∧ st.Reads s w st' rest ∧
        (st.kind = .classKeyword → st.Spends s w st' rest) ∧ ∀ n ∈ parts.name, n.Proper s := by
  refine (gives_expect .classKeyword hs).bind fun _ st₁ h₁ => ?_
  refine (fills_className st₁ h₁.reads.sound).bind fun name st₂ hname => ?_
  have h₂ := hname.reads
  refine (reads_typeParameters? hr st₂ h₂.sound).bind fun typeParameters st₃ h₃ => ?_
  refine (reads_heritage hr st₃ h₃.sound).bind fun heritage st₄ h₄ => ?_
  refine (reads_classMembers hr st₄ h₄.sound).bind fun members st₅ h₅ => ?_
  have hrest := ((h₂.trans h₃).trans h₄).trans h₅
  refine .pure ⟨_, ?_, h₁.reads.after hrest, fun hkind => ?_, hname.proper⟩
  · simp [ClassParts.children]
  · exact (hs.reads.spend h₁.reads (h₁.lt hkind (by simp))).after hrest.toCovers

/-- A class in the place of an expression starts with its keyword or with decorators. -/
theorem gives_classExpression (hs : st.Sound s w)
    (hkind : st.kind = .classKeyword ∨ st.kind = .atSign) :
    (classExpression rules).Gives st fun n st' => st.FillsTo s w st' (some n) := by
  refine .pos ((gives_decorators hr hs).bind fun decorators st₁ h₁ => ?_)
  refine .sequence? fun modifiers hmodifiers => ?_
  refine (gives_classParts hr modifiers h₁.sound).bind fun parts st₂ h => ?_
  obtain ⟨rest, hparts, h₂, hclass, -⟩ := h
  have hchildren : st.Reads s w st₂ (Form.classExpression parts).children := by
    change st.Reads s w st₂ parts.children
    rw [hparts, hmodifiers]
    exact h₁.trans h₂
  by_cases hnil : decorators = []
  case pos =>
    rw [h₁.nil hnil] at hclass
    have hspent := hclass (hkind.resolve_right fun hsign => h₁.ne_nil hsign hnil)
    have hall : st.Spends s w st₂ (Form.classExpression parts).children := by
      change st.Spends s w st₂ parts.children
      rw [hparts, hmodifiers, hnil]
      exact hspent
    exact hall.filledNode rfl rfl
  case neg =>
    have hlt := h₁.lt hnil
    have hlt' := Nat.lt_of_lt_of_le hlt h₂.le
    have hown : ∀ c ∈ (Form.classExpression parts).children, c.pos = st.here →
        c.stop = st₂.here → ∃ inner, c.form = .decorator inner := fun c hc hpos hstop => ?_
    refine (hchildren.solidNode rfl rfl ⟨fun _ => ⟨hlt', hown⟩, Bool.noConfusion,
      List.forall_mem_nil _, Bool.noConfusion, .of_isBinary rfl⟩
      fun _ => .of_shown rfl).fillsNode rfl (hchildren.lt_previousStop hlt')
    -- Behind the decorators nothing starts where the class does.
    change c ∈ parts.children at hc
    rw [hparts, hmodifiers] at hc
    rcases List.mem_append.mp hc with hc | hc
    · exact h₁.decorator c hc
    · have := (h₂.fits.of_mem hc).1
      omega

end

end Parser
end InlineValues
