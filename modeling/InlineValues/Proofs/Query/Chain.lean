import InlineValues.Proofs.Query.Scope
import InlineValues.Proofs.Query.TokenAt
import Mathlib.Data.List.Chain

/-!
# The nodes around a token

The chain of a token leads up the tree, one parent at a time (`TokenAt.Correct.isChain`), and all
of it starts in front of the token (`pos_le_of_mem_chain`).

The scopes that are taken from it are all that open one, up to a last one
(`exists_front_takeScopes`), and with wider limits they are the same and perhaps more
(`takeScopes_mono`).  So the chain leads from the last scope with some limits to the last one with
wider limits (`exists_way`).
-/

namespace InlineValues

/-! ## Ways out -/

section

variable {n m : Node} {way : List Node}
variable (h : (n :: way).IsChain fun inner outer => inner ∈ outer.children)
include h

/-- On a way out every node stands around the first one. -/
lemma within_of_mem_way (hm : m ∈ n :: way) : n.Within m := by
  induction way generalizing n with
  | nil =>
    rw [List.mem_singleton.mp hm]
    exact .refl
  | cons k way ih =>
    rcases List.mem_cons.mp hm with rfl | hm
    · exact .refl
    · obtain ⟨hchild, hway⟩ := List.isChain_cons_cons.mp h
      exact .trans (.child hchild .refl) (ih hway hm)

/-- On a way out every node stands inside the last one. -/
lemma within_getLast_way (hm : m ∈ n :: way) :
    m.Within ((n :: way).getLast (List.cons_ne_nil n way)) := by
  induction way generalizing n m with
  | nil =>
    rw [List.mem_singleton.mp hm]
    exact .refl
  | cons k way ih =>
    obtain ⟨hchild, hway⟩ := List.isChain_cons_cons.mp h
    rcases List.mem_cons.mp hm with rfl | hm
    · exact .trans (.child hchild .refl) (ih hway List.mem_cons_self)
    · exact ih hway hm

end

/-! ## The nodes around a token -/

section

variable {s : Source} {root n c : Node} {p : Nat} {t : TokenAt}

namespace Node

theorem Leads.isChain {outer : List Node} (h : Leads p root outer n) :
    (n :: outer).IsChain fun inner outer => inner ∈ outer.children := by
  induction h with
  | root => exact .singleton _
  | down _ hc _ ih => exact .cons_cons hc ih

lemma le_gapStart (hn : n.LaidOut s) : n.pos ≤ n.gapStart p := by
  rcases n.gapStart_eq p with heq | ⟨c, hc, heq⟩
  · exact Nat.le_of_eq heq.symm
  · have := hn.placed.children.of_mem ((List.takeWhile_sublist _).subset hc)
    omega

/-- The token of a gap starts in it. -/
lemma gapStart_le_pos (hn : n.LaidOut s) (hpos : n.pos ≤ p) (h : n.childAt? p = none)
    (outer : List Node) : n.gapStart p ≤ (n.gapToken s p outer).pos := by
  obtain ⟨hcursor, hgap⟩ := Lexer.on_setPosition (gapStart_cut (p := p) hn)
  obtain ⟨-, -, -, hle⟩ := Lexer.sound_scanPast (p := p) (n.is .binaryExpression) (s.size + 1) rfl
    hcursor (Nat.le_trans (Nat.le_of_eq hgap) (gapStart_le hpos h))
    (Nat.lt_succ_of_le (Nat.sub_le ..))
  exact hgap ▸ hle

/-- The node around a token starts at the trivia of the token or in front of it. -/
lemma pos_parent_tokenWithin (hn : n.LaidOut s) (hpos : n.pos ≤ p) (outer : List Node) :
    (n.tokenWithin s p outer).parent.pos ≤ (n.tokenWithin s p outer).pos := by
  fun_induction Node.tokenWithin s p outer n with
  | case1 outer n h => exact Nat.le_trans (le_gapStart hn) (gapStart_le_pos hn hpos h outer)
  | case2 outer n c h kind hkind => exact (hn.placed.children.of_mem (childAt?_mem h)).1
  | case3 outer n c h kind hkind ih =>
    exact ih (hn.child (childAt?_mem h)) (contains_of_childAt? h hkind).1

end Node

theorem TokenAt.Correct.isChain (h : t.Correct s root p) :
    t.chain.IsChain fun inner outer => inner ∈ outer.children := by
  have hleads := h.leads.isChain
  rw [chain]
  cases hleaf : t.leaf with
  | none => exact hleads
  | some c => exact .cons_cons (h.leaf c hleaf).1 hleads

/-- Any part of the chain of a token is a way out. -/
lemma isChain_way (hroot : root.LaidOut s) (hpos : root.pos ≤ p) {front way behind : List Node}
    (hchain : (root.tokenWithin s p []).chain = front ++ way ++ behind) :
    way.IsChain fun inner outer => inner ∈ outer.children := by
  have hcorrect : (root.tokenWithin s p []).Correct s root p :=
    TokenAt.correct_tokenWithin hroot hpos .root
  have hlinked := hcorrect.isChain
  rw [hchain] at hlinked
  exact hlinked.left_of_append.right_of_append

/-- The nodes around a token start at the trivia of the token or in front of it. -/
theorem pos_le_of_mem_chain (hroot : root.LaidOut s) (hpos : root.pos ≤ p)
    (hn : n ∈ (root.tokenWithin s p []).chain) : n.pos ≤ (root.tokenWithin s p []).pos := by
  have hcorrect : (root.tokenWithin s p []).Correct s root p :=
    TokenAt.correct_tokenWithin hroot hpos .root
  rcases List.mem_append.mp hn with hleaf | houter
  · exact Nat.le_of_eq (hcorrect.leaf n (Option.mem_toList.mp hleaf)).2.2.1
  · have hwithin := within_of_mem_way hcorrect.leads.isChain houter
    have hlaid := hroot.within (Node.within_of_mem_chain .refl (by simp) n hn)
    exact Nat.le_trans (hlaid.range_within hwithin).1 (Node.pos_parent_tokenWithin hroot hpos [])

end

/-! ## Wider limits -/

section

variable {n : Node}

lemma opensScope_of_mem_takeScopes {strong all : Nat} {chain : List Node}
    (h : n ∈ takeScopes strong all chain) : n.opensScope = true := by
  fun_induction takeScopes strong all chain with
  | case1 | case2 | case3 => simp at h
  | case4 strong all m outer hscope ih => exact ih h
  | case5 strong all m outer hscope ih =>
    rcases List.mem_cons.mp h with rfl | h
    · simpa using hscope
    · exact ih h

/-- The scopes that are taken from a chain are all the scopes up to the last one that is taken. -/
theorem exists_front_takeScopes {strong all : Nat} {chain : List Node}
    (hn : n ∈ (takeScopes strong all chain).getLast?) :
    ∃ front behind, chain = front ++ [n] ++ behind ∧
      takeScopes strong all chain = (front ++ [n]).filter (·.opensScope) := by
  fun_induction takeScopes strong all chain with
  | case1 | case2 | case3 => simp at hn
  | case4 strong all m outer hscope ih =>
    obtain ⟨front, behind, rfl, hscopes⟩ := ih hn
    refine ⟨m :: front, behind, rfl, ?_⟩
    rw [hscopes, List.cons_append, List.filter_cons_of_neg (by simpa using hscope)]
  | case5 strong all m outer hscope ih =>
    generalize takeScopes (if m.is .block then strong + 1 else strong) all outer = rest at hn ih ⊢
    have hopens : m.opensScope = true := by simpa using hscope
    cases rest with
    | nil =>
      cases hn
      exact ⟨[], outer, rfl, by simp [hopens]⟩
    | cons k rest =>
      rw [List.getLast?_cons_cons] at hn
      obtain ⟨front, behind, rfl, hscopes⟩ := ih hn
      exact ⟨m :: front, behind, rfl, by simpa [hopens] using hscopes⟩

lemma takeScopes_cons {strong all : Nat} (hstrong : 0 < strong) (hall : 0 < all)
    (outer : List Node) :
    takeScopes strong all (n :: outer) =
      if !n.opensScope then takeScopes strong all outer
      else n :: takeScopes (if n.is .block then strong else strong - 1) (all - 1) outer := by
  obtain ⟨strong, rfl⟩ := Nat.exists_eq_succ_of_ne_zero (Nat.ne_of_gt hstrong)
  obtain ⟨all, rfl⟩ := Nat.exists_eq_succ_of_ne_zero (Nat.ne_of_gt hall)
  rfl

/-- Wider limits take the same scopes and perhaps more. -/
theorem takeScopes_mono {strong all strong' all' : Nat} (hstrong : strong ≤ strong')
    (hall : all ≤ all') (chain : List Node) :
    takeScopes strong all chain <+: takeScopes strong' all' chain := by
  fun_induction takeScopes strong all chain generalizing strong' all' with
  | case1 | case2 | case3 => exact List.nil_prefix
  | case4 strong all m outer hscope ih =>
    rw [takeScopes_cons (by omega) (by omega), if_pos hscope]
    exact ih hstrong hall
  | case5 strong all m outer hscope ih =>
    rw [takeScopes_cons (by omega) (by omega), if_neg hscope]
    refine List.cons_prefix_cons.mpr ⟨rfl, ih ?_ (by omega)⟩
    split <;> omega

/-- From the last scope that is taken with some limits the chain leads to the last one that is taken
with wider limits, and all scopes on this way are taken with these. -/
theorem exists_way {strong all strong' all' : Nat} (hstrong : strong ≤ strong') (hall : all ≤ all')
    {chain : List Node} (hn : n ∈ (takeScopes strong all chain).getLast?) :
    ∃ front way behind, chain = front ++ (n :: way) ++ behind ∧
      (takeScopes strong' all' chain).getLast? = (n :: way).getLast? ∧
      ∀ m ∈ n :: way, m.opensScope = true → m ∈ takeScopes strong' all' chain := by
  fun_induction takeScopes strong all chain generalizing strong' all' with
  | case1 | case2 | case3 => simp at hn
  | case4 strong all m outer hscope ih =>
    rw [takeScopes_cons (by omega) (by omega), if_pos hscope]
    obtain ⟨front, way, behind, rfl, hlast, htaken⟩ := ih hstrong hall hn
    exact ⟨m :: front, way, behind, rfl, hlast, htaken⟩
  | case5 strong all m outer hscope ih =>
    rw [takeScopes_cons (by omega) (by omega), if_neg hscope]
    have hstrong' : (if m.is .block then strong + 1 else strong) ≤
        if m.is .block then strong' else strong' - 1 := by
      split <;> omega
    replace ih := @ih _ (all' - 1) hstrong' (by omega)
    generalize takeScopes (if m.is .block then strong + 1 else strong) all outer = rest at hn ih
    generalize hmore : takeScopes (if m.is .block then strong' else strong' - 1) (all' - 1) outer =
      more at ih ⊢
    cases rest with
    | nil =>
      -- The way starts here, and whatever is taken further out lies on it.
      obtain rfl : m = n := by simpa using hn
      cases hlast : more.getLast? with
      | none =>
        refine ⟨[], [], outer, rfl, ?_, fun k hk _ => List.mem_cons.mpr (.inl (by simpa using hk))⟩
        rw [List.getLast?_eq_none_iff.mp hlast]
      | some k =>
        subst hmore
        obtain ⟨front, behind, rfl, hscopes⟩ := exists_front_takeScopes hlast
        refine ⟨[], front ++ [k], behind, rfl, ?_, fun c hc hopens => ?_⟩
        · rw [List.getLast?_cons, hlast, List.getLast?_cons, List.getLast?_concat]
        · rw [hscopes]
          exact List.mem_cons.mpr
            ((List.mem_cons.mp hc).imp_right (List.mem_filter.mpr ⟨·, hopens⟩))
    | cons k rest =>
      rw [List.getLast?_cons_cons] at hn
      obtain ⟨front, way, behind, rfl, hlast, htaken⟩ := ih hn
      refine ⟨m :: front, way, behind, rfl, ?_, fun c hc hopens =>
        List.mem_cons_of_mem m (htaken c hc hopens)⟩
      rw [List.getLast?_cons, hlast, List.getLast?_cons]
      rfl

end

end InlineValues
