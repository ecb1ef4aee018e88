import InlineValues.Proofs.Query.Chain
import InlineValues.Proofs.Grammar.ParsedFile

/-!
# Which scopes are taken

A token has a chain of nodes around it, and the nodes in the chain that open a scope are a list.
The scopes that are taken are the longest front of this list that keeps to the limits
(`takes_takeScopes`), where the limits look at what was taken before each scope and not at the scope
itself (`ScopeLimits.Admits`).  Both limits are bounds for the result (`Admits.length_le`,
`Admits.strongScopes_le`).

For a parsed text the chain is read off the arena: it is the walk from the token to the outside
(`TokenAt.Correct.ancestors`).  It goes from a node to one that stands strictly around it, and every
node of it holds the offset.
-/

namespace InlineValues

/-! ## The limits -/

/-- How many of the scopes are no blocks. -/
def strongScopes (scopes : List Node) : Nat := scopes.countP fun n => !n.is .block

namespace ScopeLimits

/-- No limit is used up in front of any of the scopes. -/
def Admits (limits : ScopeLimits) (scopes : List Node) : Prop :=
  ∀ taken, taken <+: scopes → taken ≠ scopes →
    taken.length < limits.all ∧ strongScopes taken < limits.strong

/-- The scopes are the longest front of a list that the limits admit. -/
structure Takes (limits : ScopeLimits) (opened scopes : List Node) : Prop where
  front : scopes <+: opened
  admitted : limits.Admits scopes
  longest : ∀ more, more <+: opened → limits.Admits more → more <+: scopes

variable {limits : ScopeLimits} {scopes opened : List Node} {n : Node} {strong all : Nat}

@[simp]
lemma admits_nil : limits.Admits [] := by
  intro taken hfront hne
  exact absurd (List.prefix_nil.mp hfront) hne

/-- The first scope uses up one of all and, unless it is a block, one of the strong ones. -/
lemma admits_cons :
    (ScopeLimits.mk (strong + 1) (all + 1)).Admits (n :: scopes) ↔
      (ScopeLimits.mk (if n.is .block then strong + 1 else strong) all).Admits scopes := by
  have hcount (taken : List Node) : strongScopes (n :: taken) < strong + 1 ↔
      strongScopes taken < if n.is .block then strong + 1 else strong := by
    unfold strongScopes
    rw [List.countP_cons]
    cases n.is .block <;> simp
  constructor
  · intro h taken hfront hne
    have hlonger : n :: taken <+: n :: scopes := List.cons_prefix_cons.mpr ⟨rfl, hfront⟩
    obtain ⟨hall, hstrong⟩ := h (n :: taken) hlonger (by simp [hne])
    exact ⟨Nat.lt_of_succ_lt_succ hall, (hcount taken).mp hstrong⟩
  · intro h taken hfront hne
    cases taken with
    | nil => exact ⟨Nat.succ_pos all, Nat.succ_pos strong⟩
    | cons m taken =>
      obtain ⟨rfl, htail⟩ := List.cons_prefix_cons.mp hfront
      obtain ⟨hall, hstrong⟩ := h taken htail (by simpa using hne)
      exact ⟨Nat.succ_lt_succ hall, (hcount taken).mpr hstrong⟩

/-- Where a limit is nothing, nothing is admitted. -/
lemma Admits.eq_nil (h : limits.Admits scopes) (hnone : limits.strong = 0 ∨ limits.all = 0) :
    scopes = [] := by
  by_contra hne
  obtain ⟨hall, hstrong⟩ := h [] List.nil_prefix (Ne.symm hne)
  omega

/-- What stands in front of the last scope is in the limits. -/
lemma Admits.dropLast (h : limits.Admits scopes) (hne : scopes ≠ []) :
    scopes.dropLast.length < limits.all ∧ strongScopes scopes.dropLast < limits.strong := by
  apply h scopes.dropLast (List.dropLast_prefix scopes)
  intro heq
  have hlength := congrArg List.length heq
  rw [List.length_dropLast] at hlength
  have := List.length_pos_of_ne_nil hne
  omega

theorem Admits.length_le (h : limits.Admits scopes) : scopes.length ≤ limits.all := by
  by_cases hne : scopes = []
  · rw [hne]
    exact Nat.zero_le _
  · have hfront := (h.dropLast hne).1
    rw [List.length_dropLast] at hfront
    omega

theorem Admits.strongScopes_le (h : limits.Admits scopes) :
    strongScopes scopes ≤ limits.strong := by
  by_cases hne : scopes = []
  · rw [hne]
    exact Nat.zero_le _
  · have hfront : strongScopes scopes.dropLast + 1 ≤ limits.strong := (h.dropLast hne).2
    calc strongScopes scopes
        = strongScopes (scopes.dropLast ++ [scopes.getLast hne]) := by
          rw [List.dropLast_append_getLast hne]
      _ = strongScopes scopes.dropLast + strongScopes [scopes.getLast hne] :=
          List.countP_append
      _ ≤ strongScopes scopes.dropLast + 1 := Nat.add_le_add_left List.countP_le_length _
      _ ≤ limits.strong := hfront

/-! ## The longest front -/

lemma Takes.nil (hnone : limits.strong = 0 ∨ limits.all = 0 ∨ opened = []) :
    limits.Takes opened [] where
  front := List.nil_prefix
  admitted := admits_nil
  longest more hfront hmore := by
    rcases hnone with hstrong | hall | rfl
    · exact hmore.eq_nil (.inl hstrong) ▸ List.nil_prefix
    · exact hmore.eq_nil (.inr hall) ▸ List.nil_prefix
    · exact hfront

lemma Takes.cons
    (h : (ScopeLimits.mk (if n.is .block then strong + 1 else strong) all).Takes opened scopes) :
    (ScopeLimits.mk (strong + 1) (all + 1)).Takes (n :: opened) (n :: scopes) where
  front := List.cons_prefix_cons.mpr ⟨rfl, h.front⟩
  admitted := admits_cons.mpr h.admitted
  longest more hfront hmore := by
    cases more with
    | nil => exact List.nil_prefix
    | cons m more =>
      obtain ⟨rfl, htail⟩ := List.cons_prefix_cons.mp hfront
      exact List.cons_prefix_cons.mpr ⟨rfl, h.longest more htail (admits_cons.mp hmore)⟩

end ScopeLimits

/-- From a chain the longest front of its scopes is taken. -/
theorem takes_takeScopes (strong all : Nat) (chain : List Node) :
    (ScopeLimits.mk strong all).Takes (chain.filter (·.opensScope))
      (takeScopes strong all chain) := by
  fun_induction takeScopes strong all chain with
  | case1 all chain => exact .nil (.inl rfl)
  | case2 strong chain => exact .nil (.inr (.inl rfl))
  | case3 strong all => exact .nil (.inr (.inr rfl))
  | case4 strong all n outer hscope ih =>
    rwa [List.filter_cons_of_neg (by simpa using hscope)]
  | case5 strong all n outer hscope ih =>
    rw [List.filter_cons_of_pos (by simpa using hscope)]
    exact ih.cons

/-! ## The chain of a token -/

/-- The innermost node around a token, which is the token itself if it is a leaf. -/
def TokenAt.containing (t : TokenAt) : Node := t.leaf.getD t.parent

lemma TokenAt.exists_chain (t : TokenAt) : ∃ around, t.chain = t.containing :: around := by
  unfold chain containing
  cases t.leaf with
  | none => exact ⟨t.outer, rfl⟩
  | some c => exact ⟨t.parent :: t.outer, rfl⟩

lemma Node.below_of_child {n k m : Node} (hchild : n ∈ k.children) (h : k.Within m) :
    n.Below m := by
  rcases h.eq_or_below with rfl | ⟨c, hc, hk⟩
  · exact ⟨n, hchild, .refl⟩
  · exact ⟨c, hc, .trans (.child hchild .refl) hk⟩

/-- A way out through children goes from each node to nodes strictly around it. -/
lemma pairwise_below_way {way : List Node}
    (h : way.IsChain fun inner outer => inner ∈ outer.children) :
    way.Pairwise fun inner outer => inner.Below outer := by
  induction way with
  | nil => exact .nil
  | cons n way ih =>
    refine .cons (fun m hm => ?_) (ih h.tail)
    cases way with
    | nil => cases hm
    | cons k way =>
      obtain ⟨hchild, hway⟩ := List.isChain_cons_cons.mp h
      exact Node.below_of_child hchild (within_of_mem_way hway hm)

namespace Arena

variable {s : Source} {a : Arena} {root n : Node}

lemma Stores.index_le {m : Node} (h : a.Stores s n) (hm : m.Within n) : m.index ≤ n.index := by
  induction hm with
  | refl => exact Nat.le_refl _
  | child hc _ ih =>
    apply Nat.le_trans (ih fun k hk => h k (hk.trans (.child hc .refl)))
    exact Nat.le_of_lt ((h _ .refl).below _ hc)

/-- A node has a smaller number than the nodes around it. -/
lemma Stores.index_lt {m : Node} (h : a.Stores s n) (hm : m.Below n) : m.index < n.index := by
  obtain ⟨c, hc, hmc⟩ := hm
  have hstores : a.Stores s c := fun k hk => h k (hk.trans (.child hc .refl))
  exact Nat.lt_of_le_of_lt (hstores.index_le hmc) ((h n .refl).below c hc)

/-- Where a way out leads through the links of an arena to a node without a parent, the walk to the
outside goes along it. -/
lemma eq_map_of_ancestorsWithin {way : List Node}
    (hlinked : (n :: way).IsChain fun inner outer => a.parent? inner.index = some outer.index)
    (hlast : (n :: way).getLast? = some root) (htop : a.parent? root.index = none) {fuel : Nat}
    {found : List Nat} (h : a.ancestorsWithin fuel n.index = some found) :
    found = (n :: way).map (·.index) := by
  induction way generalizing n fuel found with
  | nil =>
    obtain rfl : n = root := Option.some.inj hlast
    cases fuel with
    | zero => cases h
    | succ fuel =>
      rw [ancestorsWithin_of_none fuel htop] at h
      cases h
      rfl
  | cons k way ih =>
    obtain ⟨hlink, hway⟩ := List.isChain_cons_cons.mp hlinked
    cases fuel with
    | zero => cases h
    | succ fuel =>
      rw [ancestorsWithin_of_some fuel hlink] at h
      obtain ⟨outer, houter, rfl⟩ := Option.map_eq_some_iff.mp h
      rw [ih hway hlast houter]
      rfl

end Arena

section

variable {s : Source} {root n : Node} {p : Nat} {t : TokenAt} {a : Arena}

lemma Node.Leads.getLast? {outer : List Node} (h : Leads p root outer n) :
    (n :: outer).getLast? = some root := by
  induction h with
  | root => rfl
  | down _ _ _ ih => rwa [List.getLast?_cons_cons]

lemma TokenAt.Correct.getLast?_chain (h : t.Correct s root p) : t.chain.getLast? = some root := by
  unfold chain
  cases t.leaf with
  | none => exact h.leads.getLast?
  | some c => exact h.leads.getLast?

/-- Each node on the way down has a way down to it. -/
lemma Node.Leads.of_mem {outer : List Node} (h : Leads p root outer n) {m : Node}
    (hm : m ∈ n :: outer) : ∃ outer', Leads p root outer' m := by
  induction h with
  | root =>
    rw [List.mem_singleton.mp hm]
    exact ⟨[], .root⟩
  | down hleads hc hp ih =>
    rcases List.mem_cons.mp hm with rfl | hm
    · exact ⟨_, .down hleads hc hp⟩
    · exact ih hm

lemma TokenAt.Correct.within_of_mem_chain (h : t.Correct s root p) (hn : n ∈ t.chain) :
    n.Within root := by
  rcases List.mem_append.mp hn with hleaf | houter
  · have hchild := (h.leaf n (Option.mem_toList.mp hleaf)).1
    exact .trans (.child hchild .refl) h.leads.within
  · obtain ⟨_, hleads⟩ := h.leads.of_mem houter
    exact hleads.within

/-- The nodes around a token that are no tokens themselves hold the offset. -/
lemma TokenAt.Correct.holds_of_mem_chain (h : t.Correct s root p) (hpos : root.pos ≤ p)
    (hstop : p ≤ root.stop) (hn : n ∈ t.chain) (hopens : n.opensScope = true) :
    n.pos ≤ p ∧ p ≤ n.stop := by
  rcases List.mem_append.mp hn with hleaf | houter
  · have hkind := (h.leaf n (Option.mem_toList.mp hleaf)).2.1
    rw [Node.opensScope, hkind] at hopens
    cases hopens
  · obtain ⟨_, hleads⟩ := h.leads.of_mem houter
    rcases hleads.root_or_contains with rfl | hcontains
    · exact ⟨hpos, hstop⟩
    · exact ⟨hcontains.1, Nat.le_of_lt hcontains.2⟩

/-- The walk from a token to the outside passes the nodes of its chain. -/
theorem TokenAt.Correct.ancestors (h : t.Correct s root p) (hstores : a.Stores s root)
    (htree : a.IsTree root.index) :
    a.ancestors t.containing.index = some (t.chain.map (·.index)) := by
  have hlinked : t.chain.IsChain fun inner outer => a.parent? inner.index = some outer.index :=
    h.isChain.imp_of_mem_imp fun inner outer _ houter hchild =>
      (hstores outer (h.within_of_mem_chain houter)).linked inner hchild
  have hlast := h.getLast?_chain
  obtain ⟨found, hfound⟩ := htree.walks t.containing.index
  obtain ⟨around, hchain⟩ := t.exists_chain
  rw [hchain] at hlinked hlast ⊢
  rw [hfound]
  exact congrArg some (Arena.eq_map_of_ancestorsWithin hlinked hlast htree.top.1 hfound)

end

/-! ## The scopes of a parsed text -/

/-- **The scopes around a token.**  The walk through the arena from the token at an offset to the
outside passes the nodes of the chain of the token, and the scopes are the longest front of those
that open a scope which the limits admit.  So neither limit is passed, no scope comes twice, each
one stands strictly around the one before and holds the offset, and wider limits give these scopes
first. -/
theorem takes_findScopes (fileName : String) (s : Source) (offset : Nat) (limits : ScopeLimits) :
    let t := (parse fileName s).root.tokenAt s offset
    let scopes := findScopes limits t
    (parse fileName s).arena.ancestors t.containing.index = some (t.chain.map (·.index)) ∧
      (∀ n ∈ t.chain, (parse fileName s).arena.slots[n.index]?.map Slot.kind = some n.kind) ∧
      limits.Takes (t.chain.filter (·.opensScope)) scopes ∧
      scopes.length ≤ limits.all ∧ strongScopes scopes ≤ limits.strong ∧
      (scopes.map (·.index)).Nodup ∧
      (scopes.Pairwise fun inner outer => inner.Below outer) ∧
      (∀ n ∈ scopes, n.pos ≤ min offset s.size ∧ min offset s.size ≤ n.stop) ∧
      ∀ wider : ScopeLimits, limits.strong ≤ wider.strong → limits.all ≤ wider.all →
        scopes <+: findScopes wider t := by
  intro t scopes
  obtain ⟨_, st, hfile, harena, -⟩ := readsFile_parse fileName s
  have hcorrect : t.Correct s (parse fileName s).root (min offset s.size) :=
    (tokenAt_parse fileName s offset).1
  have hstores : (parse fileName s).arena.Stores s (parse fileName s).root :=
    harena ▸ hfile.grown.stores _ (List.mem_singleton_self _)
  have htakes : limits.Takes (t.chain.filter (·.opensScope)) scopes :=
    takes_takeScopes limits.strong limits.all t.chain
  have hopened {n : Node} (hn : n ∈ scopes) : n ∈ t.chain ∧ n.opensScope = true :=
    List.mem_filter.mp (htakes.front.subset hn)
  have hbelow : scopes.Pairwise fun inner outer => inner.Below outer :=
    (pairwise_below_way hcorrect.isChain).sublist
      (htakes.front.sublist.trans List.filter_sublist)
  refine ⟨hcorrect.ancestors hstores (isTree_parse fileName s), ?kinds, htakes,
    htakes.admitted.length_le, htakes.admitted.strongScopes_le, ?nodup, hbelow, ?holds, ?wider⟩
  case kinds =>
    intro n hn
    obtain ⟨slot, hslot, hshows⟩ := (hstores n (hcorrect.within_of_mem_chain hn)).records
    rw [hslot, Option.map_some, hshows.kind]
  case nodup =>
    refine List.pairwise_map.mpr (hbelow.imp_of_mem fun _ houter hlt => ?_)
    have hwithin := hcorrect.within_of_mem_chain (hopened houter).1
    have houter : (parse fileName s).arena.Stores s _ := fun m hm => hstores m (hm.trans hwithin)
    exact Nat.ne_of_lt (houter.index_lt hlt)
  case holds =>
    intro n hn
    obtain ⟨hmem, hopens⟩ := hopened hn
    apply hcorrect.holds_of_mem_chain _ _ hmem hopens
    · exact hfile.pos ▸ Nat.zero_le _
    · exact hfile.stop ▸ Nat.min_le_right _ _
  case wider =>
    intro wider hstrong hall
    exact takeScopes_mono hstrong hall t.chain

end InlineValues
