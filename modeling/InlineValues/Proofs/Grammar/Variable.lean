import InlineValues.Grammar.Variable
import InlineValues.Proofs.Grammar.Assignment

/-!
# Reading variables

A declaration of variables has its keyword, which was seen before it is taken.
-/

namespace InlineValues
namespace Parser

open ParserState

variable {s : Source} {w : Nat} {st st₀ : ParserState} {rules : Rules}

/-! ## Keywords of declarations -/

lemma peeks_letDeclares : letDeclares.Peeks s w := by
  refine Skips.lookAhead (skips_advance.bind fun _ => peeks_kind.skips.bind fun k => ?_)
  exact .ite (skips_pure _) peeks_atIdentifier.skips

instance : letDeclares.Frames := by
  unfold letDeclares
  infer_instance

lemma peeks_usingDeclares : usingDeclares.Peeks s w := peeks_nameOnSameLine

instance : usingDeclares.Frames := by
  unfold usingDeclares
  infer_instance

lemma peeks_awaitUsingDeclares : awaitUsingDeclares.Peeks s w := by
  refine peeks_nextOnSameLine ((skips_optional _).bind fun _ => .ite (skips_pure _) ?_)
  exact peeks_afterLineBreak.skips.bind fun _ => .ite (skips_pure _) peeks_atIdentifier.skips

instance : awaitUsingDeclares.Frames := by
  unfold awaitUsingDeclares
  infer_instance

lemma peeks_beforeEnum : beforeEnum.Peeks s w := peeks_nextIs _

instance : beforeEnum.Frames := by
  unfold beforeEnum
  infer_instance

/-- The end of the file declares nothing. -/
lemma spots_atVariables : atVariables.Spots s w := by
  intro st hs
  refine .kind ?_
  split
  case h_1 hk | h_2 hk => exact (peeks_pure true).spots hs (by simp [hk])
  case h_3 hk => exact peeks_letDeclares.spots hs (by simp [hk])
  case h_4 hk => exact peeks_usingDeclares.spots hs (by simp [hk])
  case h_5 hk => exact peeks_awaitUsingDeclares.spots hs (by simp [hk])
  case h_6 => exact ⟨.refl st, Bool.noConfusion⟩

instance : atVariables.Frames := by
  refine .bind inferInstance fun k => ?_
  split <;> infer_instance

instance : variableKeyword.Frames := by
  refine .bind inferInstance fun k => .bind inferInstance fun _ => ?_
  split <;> infer_instance

lemma gives_variableKeyword (hs : st.Sound s w) (hkind : st.kind ≠ .endOfFile) :
    variableKeyword.Gives st fun _ st' => st.Spends s w st' [] := by
  refine .kind ((gives_advance hs).bind fun _ st₁ h₁ => ?_)
  have hword := h₁.toReads.spent (h₁.lt hkind)
  split
  case h_4 => exact (skips_advance st₁ h₁.sound).bind fun _ st₂ h₂ => hword.skip h₂
  all_goals exact hword

section

variable (hr : rules.Sound s w)
include hr

/-! ## Variables -/

lemma reads_variableDeclaration : (variableDeclaration rules).Reads s w Option.toList := by
  intro st hs
  refine .pos ((hr.fills .bindingName rfl rfl st hs).bind fun name st₁ h => ?_)
  have h₁ := h.reads
  cases name with
  | none => exact h₁
  | some name =>
    have hmark (b : Bool) : Parser.Skips s w (if b = true then pure false
        else Parser.optional .exclamation) := (skips_pure _).ite (skips_optional _)
    refine .afterLineBreak fun b => .ite_bind (hmark b st₁ h₁.sound) fun definite st₂ h₂ => ?_
    refine (reads_annotatedType hr st₂ h₂.sound).bind fun type st₃ h₃ => ?_
    refine (reads_initializer hr st₃ h₃.sound).bind fun value st₄ h₄ => ?_
    exact (((h₁.skip h₂).trans h₃).trans h₄).evaluatedNode rfl rfl rfl
      (forall_mem_toList h.proper) fun _ => .of_shown rfl

lemma gives_variableList (hs : st.Sound s w) (hkind : st.kind ≠ .endOfFile) :
    (variableList rules).Gives st fun n st' => st.FillsTo s w st' (some n) := by
  refine .pos ((gives_variableKeyword hs hkind).bind fun keyword st₁ h₁ => ?_)
  refine (gives_collect h₁.sound fun declarations st₂ h₂ => ?_).bind fun declarations st₂ h₂ => ?_
  · refine (reads_variableDeclaration hr st₂ h₂.sound).bind fun declaration st₃ h₃ => ?_
    have hdeclarations : st₁.Reads s w st₃ (consNode? declaration declarations).reverse := by
      rw [reverse_consNode?]
      exact h₂.trans h₃
    refine (gives_optional .comma h₃.sound).bind fun b st₄ h₄ => .pure ?_
    split
    case isTrue hcomma =>
      exact .yield (hdeclarations.skip h₄.reads) (Nat.lt_of_le_of_lt h₃.le (h₄.lt hcomma (by simp)))
    case isFalse => exact .done (hdeclarations.skip h₄.reads)
  · refine .sequence fun list hlist => ?_
    have hread := h₁.after h₂.toCovers
    rw [← hlist] at hread
    exact hread.filledNode rfl rfl

/-- Variables in the head of a loop, where `in` is no operator.  They are no expression. -/
lemma gives_variableListIn (change : Context → Context) (hs : st.Sound s w)
    (hkind : st.kind ≠ .endOfFile) :
    (inContext change (variableList rules)).Gives st fun n st' => st.ShowsTo s w st' (some n) := by
  have hforeign (st : ParserState) : (variableList rules).Gives st fun n _ => n.IsForeign :=
    Node.IsForeign.of_form rfl
  have hrun := gives_variableList hr (hs.inContext (change st.context)) hkind
  refine gives_inContext ((hrun.and (hforeign _)).mono fun n st₁ h => ?_)
  obtain ⟨h₁, hn⟩ := h
  refine ⟨⟨⟨covers_of_context h₁.reads.toCovers, h₁.reads.behind⟩, h₁.proper⟩, fun _ m hm hm' => ?_⟩
  rw [Option.toList_some, List.mem_singleton] at hm
  exact absurd (hm ▸ hm') hn

lemma reads_variableStatement {modifiers : Option (Sequence Node)}
    (h : st₀.Reads s w st (itemsOf modifiers)) (hkind : st.kind ≠ .endOfFile) :
    (variableStatement rules st₀.here modifiers).Gives st fun n st' => st₀.Reads s w st' [n] := by
  refine (gives_variableList hr h.sound hkind).bind fun list st₁ h₁ => ?_
  refine (skips_semicolon st₁ h₁.reads.sound).bind fun _ st₂ h₂ => ?_
  exact ((h.trans h₁.reads).skip h₂).node rfl

end

end Parser
end InlineValues
