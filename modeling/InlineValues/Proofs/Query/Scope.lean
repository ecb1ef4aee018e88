import InlineValues.Query.Scope
import InlineValues.Proofs.Tree.Occurrence

/-!
# The scopes around a token are nodes of the tree

The lookup of a token goes down from the root, so that everything on the way belongs to the tree
(`within_of_mem_chain`), and the scopes are taken from there (`within_of_mem_findScopes`).
-/

namespace InlineValues

variable {s : Source} {root n : Node} {offset : Nat}

theorem Node.within_of_mem_chain {outer : List Node} (hn : n.Within root)
    (houter : ∀ m ∈ outer, m.Within root) :
    ∀ m ∈ (n.tokenWithin s offset outer).chain, m.Within root := by
  fun_induction Node.tokenWithin s offset outer n with
  | case1 outer n h =>
    intro m hm
    rcases List.mem_cons.mp hm with rfl | hm
    · exact hn
    · exact houter m hm
  | case2 outer n c h kind hkind =>
    intro m hm
    rcases List.mem_cons.mp hm with rfl | hm
    · exact Node.Within.trans (.child (childAt?_mem h) .refl) hn
    rcases List.mem_cons.mp hm with rfl | hm
    · exact hn
    · exact houter m hm
  | case3 outer n c h kind hkind ih =>
    refine ih (Node.Within.trans (.child (childAt?_mem h) .refl) hn) fun m hm => ?_
    rcases List.mem_cons.mp hm with rfl | hm
    · exact hn
    · exact houter m hm

lemma mem_of_mem_takeScopes {strong all : Nat} {chain : List Node}
    (h : n ∈ takeScopes strong all chain) : n ∈ chain := by
  fun_induction takeScopes strong all chain with
  | case1 | case2 | case3 => simp at h
  | case4 strong all m outer hscope ih => exact .tail _ (ih h)
  | case5 strong all m outer hscope ih =>
    rcases List.mem_cons.mp h with rfl | h
    · exact .head _
    · exact .tail _ (ih h)

theorem within_of_mem_findScopes {limits : ScopeLimits}
    (h : n ∈ findScopes limits (root.tokenAt s offset)) : n.Within root :=
  Node.within_of_mem_chain .refl (by simp) n (mem_of_mem_takeScopes h)

end InlineValues
