import InlineValues.Grammar.Block
import InlineValues.Proofs.Grammar.Name

/-!
# Reading blocks

A list of statements starts with a block only where a brace opens (`gives_statementsUntil`).  The
loop drops a token where a statement takes none, so that it never comes back to the same brace.

A block opens with its brace.  Where the brace is missing, no brace opens its first statement
either, and in both cases every other block inside it starts later (`gives_block`).
-/

namespace InlineValues
namespace Parser

open ParserState

variable {s : Source} {w : Nat} {st : ParserState} {rules : Rules}

instance (start : Nat) : (isMultiLineFrom start).Frames := by
  unfold isMultiLineFrom
  infer_instance

/-- A list of statements was read on the way from `st` to `st'`, which stands at another token
unless the list is at its end. -/
structure Lists (s : Source) (w : Nat) (st st' : ParserState) (ns : List Node) : Prop
    extends st.Runs s w st' ns where
  moves : st.kind ≠ .openBrace → st'.here = st.here → st'.kind ≠ .openBrace

lemma Lists.trans {st₀ st st' : ParserState} {xs ys : List Node} (h : Lists s w st₀ st xs)
    (h' : Lists s w st st' ys) : Lists s w st₀ st' (xs ++ ys) where
  toRuns := h.toRuns.trans h'.toRuns h.moves
  moves hkind hhere := by
    have hle := h.le
    have hle' := h'.le
    exact h'.moves (h.moves hkind (by omega)) (by omega)

section

variable (hr : rules.Sound s w)
include hr

/-- A statement was read, or a token was dropped, or the text has ended. -/
lemma gives_consStatement (statements : List Node) (hs : st.Sound s w) :
    (consStatement rules statements).Gives st fun ns st' =>
      ∃ ys, ns.reverse = statements.reverse ++ ys ∧ Lists s w st st' ys ∧
        (st.kind ≠ .endOfFile → st.here < st'.here) := by
  refine .pos ((hr.statement st hs).bind fun statement st₁ h₁ => ?_)
  have hreverse := reverse_consNode? statement statements
  have hle := h₁.le
  refine .pos (.at? fun atEnd htrue hfalse => ?_)
  split
  case isTrue hdrop =>
    simp only [Bool.and_eq_true, Bool.not_eq_true'] at hdrop
    refine (gives_advance h₁.sound).bind fun _ st₂ h₂ => .pure ⟨_, hreverse, ?_, fun _ => ?_⟩
    all_goals have hlt := h₂.lt (hfalse hdrop.2)
    · exact ⟨h₁.skip h₂.toReads, fun _ hhere => by omega⟩
    · exact Nat.lt_of_le_of_lt hle hlt
  case isFalse hdrop =>
    have hend (hhere : st₁.here = st.here) : st₁.kind = .endOfFile := by
      simp only [hhere, beq_self_eq_true, Bool.true_and, Bool.not_eq_true', Bool.not_eq_false]
        at hdrop
      exact htrue hdrop
    refine .pure ⟨_, hreverse, ⟨h₁, fun _ hhere => ?_⟩, fun hkind => ?_⟩
    · rw [hend hhere]
      simp
    · refine Nat.lt_of_le_of_ne hle fun hhere => ?_
      exact hs.kind_ne_end h₁.sound hhere.symm hkind (hend hhere.symm)

theorem gives_statementsUntil {isEnd : TokenKind → Bool} (hisEnd : isEnd .endOfFile = true)
    (hs : st.Sound s w) :
    (statementsUntil rules isEnd).Gives st fun q st' => Lists s w st st' q.items := by
  have hinit : Lists s w st st (List.reverse []) := ⟨hs.reads.runs, fun hkind _ => hkind⟩
  refine (Gives.repeatFrom (I := fun nodes st' => Lists s w st st' (List.reverse nodes))
    (fun _ _ h => h.sound) hinit fun nodes st₁ h₁ => .kind ?_).bind fun nodes st₁ h₁ =>
      gives_sequence fun q hq => ?_
  · split
    · exact .done h₁
    case isFalse hgo =>
      have hkind : st₁.kind ≠ .endOfFile := fun heq => hgo (by rw [heq, hisEnd])
      refine (gives_consStatement hr nodes h₁.sound).bind fun ns st₂ hns => .pure ?_
      obtain ⟨ys, hns, h₂, hlt⟩ := hns
      refine .yield ?_ (hlt hkind)
      rw [hns]
      exact h₁.trans h₂
  · rw [hq]
    exact h₁

/-! ## Blocks -/

/-- The braces of a block, or what stands in their place, keep other blocks off its start. -/
theorem gives_block (hs : st.Sound s w) :
    (block rules).Gives st fun n st' => st.Covers s w st' [n] := by
  refine .pos (.get ?_)
  refine (gives_expect .openBrace hs).bind fun _ st₁ h₁ => ?_
  have hlist : Gives (inContext (fun c => { c with whenTrue := false })
      (statementsUntil rules endsBlock)) st₁ fun q st' => st₁.Runs s w st' q.items := by
    refine gives_inContext ((gives_statementsUntil hr rfl (h₁.reads.sound.inContext _)).mono
      fun q st' hq => ?_)
    exact ⟨covers_of_context hq.toCovers, hq.behind⟩
  refine hlist.bind fun q st₂ h₂ => .get ?_
  refine (skips_expect .closeBrace st₂ h₂.sound).bind fun _ st₃ h₃ => .get ?_
  have hitems : BlocksBehind st.here q.items := by
    intro n hn m hm hblock
    by_cases hkind : st.kind = .openBrace
    · have hlt := h₁.lt hkind (by simp)
      have hstart := (h₂.fits.of_mem hn).1
      have hpos := ((h₂.laidOut n hn).range_within hm).1
      omega
    · have hsame := h₁.same hkind
      rw [← hsame.here]
      rw [← hsame.kind] at hkind
      exact h₂.behind hkind n hn m hm hblock
  have hread := h₁.reads.toCovers.trans (h₂.skip h₃).toCovers
  refine Covers.node hread
    ⟨Bool.noConfusion, fun _ m hm hblock => ?_, List.forall_mem_nil _, Bool.noConfusion,
      .of_isBinary rfl⟩ rfl fun _ => .of_shown rfl
  obtain ⟨c, hc, hm⟩ := hm
  exact hitems c hc m hm hblock

end

end Parser
end InlineValues
