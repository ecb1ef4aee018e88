import InlineValues.Grammar.Binding
import InlineValues.Proofs.Grammar.Block
import InlineValues.Proofs.Grammar.TypeExpression

/-!
# Reading bindings, parameters and signatures

A decorator has its sign, and a signature that starts with a bracket has that bracket
(`gives_signature`).  The body of a function is a block, and may be read behind any token.
-/

namespace InlineValues
namespace Parser

open ParserState

variable {s : Source} {w : Nat} {st st₀ : ParserState} {rules : Rules}

/-- A hole in a list, in front of the comma behind it. -/
lemma gives_hole (hs : st.Sound s w) :
    (nodeAt st.here st.here .omittedExpression).Gives st fun n st' => st.Reads s w st' [n] := by
  have hnode : st.Reads s w (st.closed st.here .omittedExpression)
      [st.node st.here .omittedExpression] := hs.reads.node rfl
  rw [closed, node, hs.previous] at hnode
  exact hnode

instance frames_behindParameterModifier : Frames (do
    match ← kind with
    | .openBrace | .openBracket | .dotDotDot | .thisKeyword => return true
    | _ => atIdentifier) := by
  refine .bind inferInstance fun k => ?_
  split <;> infer_instance

lemma spots_atParameterModifier : atParameterModifier.Spots s w := by
  intro st hs
  refine .kind ?_
  split
  · exact ⟨.refl st, nofun⟩
  case isFalse hmodifier =>
    have hne : st.kind ≠ .endOfFile := fun heq => hmodifier (by rw [heq]; rfl)
    refine (peeks_nextOnSameLine (peeks_kind.skips.bind fun k => ?_)).spots hs hne
    split
    all_goals first | exact skips_pure _ | exact peeks_atIdentifier.skips

instance : atParameterModifier.Frames := by
  unfold atParameterModifier
  infer_instance

section

variable (hr : rules.Sound s w)
include hr

/-! ## Patterns -/

lemma reads_objectBindingElement : (objectBindingElement rules).Reads s w Option.toList := by
  intro st hs
  have hfinish (isRest : Bool) (property name : Option Node) (st₁ : ParserState)
      (h₁ : st.Reads s w st₁ (property.toList ++ name.toList)) (hname : ∀ n ∈ name, n.Proper s) :
      Gives (if property.isNone && name.isNone then pure none else do
        let value ← initializer rules
        return some (← finish st.here (.bindingElement isRest property name value))) st₁
        fun o st' => st.Reads s w st' (Option.toList o) := by
    split
    · exact h₁.forget
    · refine (reads_initializer hr st₁ h₁.sound).bind fun value st₂ h₂ => ?_
      exact (h₁.trans h₂).evaluatedNode rfl rfl rfl (forall_mem_toList hname)
        fun _ => .of_shown rfl
  refine .pos ((skips_optional .dotDotDot st hs).bind fun isRest st₁ h₁ => ?_)
  refine .ite ?_ ?_
  · refine (fills_identifier st₁ h₁.sound).bind fun name st₂ h₂ => ?_
    exact hfinish isRest none name st₂ (h₁.after h₂.reads) h₂.proper
  refine .atIdentifier fun isPlain _ => ?_
  refine (fills_propertyName hr st₁ h₁.sound).bind fun property st₂ h => ?_
  have h₂ := h.reads
  have hproperty := h₁.after h₂
  refine (skips_optional .colon st₂ h₂.sound).bind fun b st₃ h₃ => ?_
  refine .ite ?_ ?_
  · refine (hr.fills .bindingName rfl rfl st₃ h₃.sound).bind fun name st₄ h₄ => ?_
    exact hfinish isRest property name st₄ ((hproperty.skip h₃).trans h₄.reads) h₄.proper
  · refine .when_bind (P := fun st₄ => st₃.Reads s w st₄ [])
      (fun _ => skips_expect .colon st₃ h₃.sound) (fun _ => h₃.sound.reads) fun st₄ h₄ => ?_
    exact hfinish isRest none property st₄ ((hproperty.skip h₃).skip h₄) h.proper

lemma reads_arrayBindingElement : (arrayBindingElement rules).Reads s w Option.toList := by
  intro st hs
  refine .pos (.at? fun _ _ _ => .ite (gives_hole hs) ?_)
  refine (skips_optional .dotDotDot st hs).bind fun isRest st₁ h₁ => ?_
  refine (hr.fills .bindingName rfl rfl st₁ h₁.sound).bind fun name st₂ h₂ => ?_
  cases name with
  | none => exact h₁.skip h₂.reads
  | some name =>
    refine (reads_initializer hr st₂ h₂.reads.sound).bind fun value st₃ h₃ => ?_
    exact ((h₁.after h₂.reads).trans h₃).evaluatedNode rfl rfl rfl (forall_mem_toList h₂.proper)
      fun _ => .of_shown rfl

omit hr in
/-- Names inside a pattern stand behind its bracket. -/
lemma fills_bindingName (hr : rules.Complete s (w - 1)) : (bindingName rules).Fills s w := by
  intro st hs
  refine .pos (.kind ?_)
  split
  case h_1 hk =>
    refine (gives_delimitedBehind (reads_objectBindingElement hr.toSound) hs hk (by decide)).bind
      fun elements st₁ h₁ => ?_
    exact h₁.filledNode rfl rfl
  case h_2 hk =>
    refine (gives_delimitedBehind (reads_arrayBindingElement hr.toSound) hs hk (by decide)).bind
      fun elements st₁ h₁ => ?_
    exact h₁.filledNode rfl rfl
  case h_3 => exact fills_identifier st hs

/-! ## Parameters -/

/-- What is known of the decorators in front of a declaration: some where a sign stands. -/
structure Decorates (s : Source) (w : Nat) (st st' : ParserState) (ns : List Node) : Prop
    extends st.Reads s w st' ns where
  decorator : ∀ n ∈ ns, ∃ inner, n.form = .decorator inner
  ne_nil : st.kind = .atSign → ns ≠ []
  nil : ns = [] → st' = st

lemma gives_decorators (hs : st.Sound s w) :
    (decorators rules).Gives st fun ns st' => Decorates s w st st' ns := by
  -- One round, from a place that earlier rounds have reached.
  have hround (nodes : List Node) (st₁ : ParserState) (h₁ : st.Reads s w st₁ nodes.reverse)
      (hdecorator : ∀ n ∈ nodes, ∃ inner, n.form = .decorator inner)
      (hkind : nodes = [] → st₁ = st) : Gives (do
        let start ← pos
        if !(← optional .atSign) then return .done nodes
        let inner ← rules .leftHandSide
        return .yield ((← finish start (.decorator inner)) :: nodes) :
          Parser (ForInStep (List Node))) st₁
        (Round (fun nodes st' => Decorates s w st st' nodes.reverse) st₁) := by
    refine .pos ((gives_optional .atSign h₁.sound).bind fun b st₂ h₂ => ?_)
    cases b with
    | false =>
      obtain ⟨rfl, hne⟩ := h₂.same rfl
      refine .done ⟨h₁, fun n hn => hdecorator n (List.mem_reverse.mp hn), fun hsign hnil => ?_,
        fun hnil => hkind (List.reverse_eq_nil_iff.mp hnil)⟩
      rw [hkind (List.reverse_eq_nil_iff.mp hnil)] at hne
      exact hne hsign
    | true =>
      have hlt : st₁.here < st₂.here := h₂.lt rfl (by simp)
      refine (hr.reads_behind (x := .leftHandSide) (by simp) h₁.sound h₂.reads.toCovers hlt).bind
        fun inner st₃ h₃ => .finish ?_
      have hsign := h₁.sound.reads.spend h₂.reads hlt
      have hnode : st₁.Reads s w (st₃.closed st₁.here (.decorator inner))
          [st₃.node st₁.here (.decorator inner)] := (hsign.after h₃.toCovers).node rfl rfl
      have hnodes := h₁.trans hnode
      rw [← List.reverse_cons] at hnodes
      refine .yield ⟨hnodes, fun n hn => ?_, fun _ hnil => ?_, fun hnil => ?_⟩
        (Nat.lt_of_lt_of_le hlt h₃.le)
      · rcases List.mem_cons.mp (List.mem_reverse.mp hn) with rfl | hn
        · exact ⟨inner, rfl⟩
        · exact hdecorator n hn
      all_goals simp at hnil
  refine (Gives.repeatFrom' (I := fun ns st' => Decorates s w st st' (List.reverse ns))
    (fun _ _ h => h.sound) hs (hround [] st hs.reads (by simp) fun _ => rfl)
    fun nodes st₁ h₁ => ?_).bind fun nodes st₁ h₁ => h₁
  exact hround nodes st₁ h₁.toReads (fun n hn => h₁.decorator n (List.mem_reverse.mpr hn))
    fun hnil => h₁.nil (List.reverse_eq_nil_iff.mpr hnil)

omit hr in
/-- A decorator has its sign. -/
lemma Decorates.lt {st' : ParserState} {ns : List Node} (h : Decorates s w st st' ns)
    (hne : ns ≠ []) : st.here < st'.here := by
  obtain ⟨n, hn⟩ := List.exists_mem_of_ne_nil ns hne
  obtain ⟨inner, hinner⟩ := h.decorator n hn
  have hown := (h.laidOut n hn).placed.solid.own (by rw [hinner]; rfl)
  exact h.lt_of_mem hn hown.1

lemma reads_decorators : (decorators rules).Reads s w id :=
  fun _ hs => (gives_decorators hr hs).mono fun _ _ h => h.toReads

lemma reads_parameter : (parameter rules).Reads s w Option.toList := by
  intro st hs
  refine .pos ?_
  refine (reads_decorators hr st hs).bind fun decorators st₁ h₁ => ?_
  refine (reads_modifiersWhile spots_atParameterModifier st₁ h₁.sound).bind
    fun modifiers st₂ h₂ => ?_
  refine (skips_optional .dotDotDot st₂ h₂.sound).bind fun isRest st₃ h₃ => ?_
  refine .at? fun atThis hthis _ => ?_
  have hbinding : Gives (if atThis = true then some <$> tokenNode else rules .bindingName) st₃
      fun o st' => st₃.FillsTo s w st' o := by
    split
    case isTrue htrue => exact gives_filledToken h₃.sound (by simp [hthis htrue])
    case isFalse => exact hr.fills .bindingName rfl rfl st₃ h₃.sound
  refine .ite_bind hbinding fun name st₄ h => ?_
  have h₄ := h.reads
  have hname := ((h₁.trans h₂).skip h₃).trans h₄
  refine .ite hname.forget ?_
  refine (skips_optional .question st₄ h₄.sound).bind fun isOptional st₅ h₅ => ?_
  refine (reads_annotatedType hr st₅ h₅.sound).bind fun declaredType st₆ h₆ => ?_
  refine (reads_initializer hr st₆ h₆.sound).bind fun value st₇ h₇ => ?_
  refine .sequence? fun modifiers' hmodifiers => ?_
  have hread := ((hname.skip h₅).trans h₆).trans h₇
  rw [id, id, ← hmodifiers] at hread
  exact hread.evaluatedNode rfl rfl rfl (forall_mem_toList h.proper) fun _ => .of_shown rfl

/-! ## Signatures and bodies -/

/-- What is known of a signature.  A bracket at its start is no part of what it lists. -/
structure Signs (s : Source) (w : Nat) (st : ParserState) (p : SignatureParts Node)
    (st' : ParserState) :
    Prop extends st.Reads s w st' p.children where
  opened : st.kind = .lessThan ∨ st.kind = .openParen → st.Spends s w st' p.children

theorem gives_signature (isAsync isGenerator : Bool) (hs : st.Sound s w) :
    (signature rules isAsync isGenerator).Gives st fun p st' => Signs s w st p st' := by
  refine (gives_typeParameters? hr hs).bind fun typeParameters st₁ h => ?_
  obtain ⟨h₁, hnone⟩ := h
  have hparameter := hr.reads .parameter rfl
  refine (gives_delimitedIn _ hparameter h₁.sound (by decide)).bind fun parameters st₂ h₂ => ?_
  refine (gives_optional .colon h₂.sound).bind fun b st₃ h₃ => ?_
  have hreturn := (reads_returnType hr).ite reads_none (c := b = true)
  refine .ite_bind (hreturn st₃ h₃.reads.sound) fun returnType st₄ h₄ => ?_
  refine ⟨((h₁.trans h₂.toReads).skip h₃.reads).trans h₄, fun hkind => ?_⟩
  rcases hkind with hkind | hkind
  · exact (((h₁.opened hkind).trans h₂.toReads).skip h₃.reads).trans h₄
  · obtain ⟨rfl, rfl⟩ := hnone (by simp [hkind])
    exact ((h₂.opened hkind).skip h₃.reads).trans h₄

lemma reads_signature (isAsync isGenerator : Bool) :
    (signature rules isAsync isGenerator).Reads s w SignatureParts.children :=
  fun _ hs => (gives_signature hr _ _ hs).mono fun _ _ h => h.toReads

lemma gives_functionBody (isAsync isGenerator : Bool) (hs : st.Sound s w) :
    (functionBody rules isAsync isGenerator).Gives st fun n st' => st.Covers s w st' [n] :=
  gives_inContext ((gives_block hr (hs.inContext _)).mono fun _ _ h => covers_of_context h)

lemma gives_functionBody? (isAsync isGenerator : Bool) (hs : st.Sound s w) :
    (functionBody? rules isAsync isGenerator).Gives st fun o st' => st.Covers s w st' o.toList := by
  refine .at? fun b _ _ => .ite ?_ ?_
  · exact .map (gives_functionBody hr _ _ hs)
  · exact (skips_semicolon st hs).bind fun _ st₁ h₁ => h₁.toCovers

end

end Parser
end InlineValues
