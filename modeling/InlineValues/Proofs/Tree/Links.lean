import InlineValues.Proofs.Tree.Payload

/-!
# The links of an arena are those of a tree

`Arena.IsTree` says that the nodes of an arena that are reached from its last one are a tree, with
`Arena.parent?` for the way back.  Nodes that were made and dropped again are not reached.  They
keep links of their own, but these go upward as all links do, so that the walk to the outside
(`Arena.ancestors`) comes to an end from every node.

An arena that has grown from nothing to one node is such a tree (`Arena.Grown.isTree`): it stores
the tree of that node, and the parts of each payload are the children of the node that it was made
for (`Arena.Embeds.children_eq`).
-/

namespace InlineValues
namespace Arena

variable {s : Source} {a : Arena} {root : Node} {i p : Nat}

/-- The node `j` is reached from `i` by going down through the payloads. -/
inductive Reaches (a : Arena) (i : Nat) : Nat → Prop
  | refl : Reaches a i i
  | down {j k : Nat} : Reaches a i j → k ∈ a.children j → Reaches a i k

/-- The nodes that are reached from `root`, the last node of the arena, are a tree. -/
structure IsTree (a : Arena) (root : Nat) : Prop where
  last : root + 1 = a.size
  upward : ∀ i p, a.parent? i = some p → i < p ∧ p < a.size
  top : a.parent? root = none ∧ ∀ p, a.Reaches root p → root ∉ a.children p
  parent : ∀ i, a.Reaches root i → i ≠ root → ∃ p, a.Reaches root p ∧ a.parent? i = some p ∧
    (a.children p).count i = 1 ∧ ∀ q, a.Reaches root q → i ∈ a.children q → q = p
  walks : ∀ i, ∃ chain, a.ancestors i = some (i :: chain)
  toRoot : ∀ i chain, a.Reaches root i → a.ancestors i = some chain → chain.getLast? = some root

/-! ## Walking up -/

lemma ancestorsWithin_of_none (fuel : Nat) (h : a.parent? i = none) :
    a.ancestorsWithin (fuel + 1) i = some [i] := by
  rw [ancestorsWithin, h]

lemma ancestorsWithin_of_some (fuel : Nat) (h : a.parent? i = some p) :
    a.ancestorsWithin (fuel + 1) i = (a.ancestorsWithin fuel p).map fun outer => i :: outer := by
  rw [ancestorsWithin, h]

/-- Links that go upward are followed to an end, through no more nodes than there are above. -/
lemma exists_ancestorsWithin (hup : ∀ i p, a.parent? i = some p → i < p ∧ p < a.size)
    {fuel : Nat} (hfuel : a.size - i < fuel) :
    ∃ outer, a.ancestorsWithin fuel i = some (i :: outer) := by
  induction fuel generalizing i with
  | zero => exact absurd hfuel (Nat.not_lt_zero _)
  | succ fuel ih =>
    cases hparent : a.parent? i with
    | none => exact ⟨[], ancestorsWithin_of_none fuel hparent⟩
    | some p =>
      have hbounds := hup i p hparent
      obtain ⟨outer, houter⟩ := ih (i := p) (by omega)
      exact ⟨p :: outer, by rw [ancestorsWithin_of_some fuel hparent, houter]; rfl⟩

/-- Where every node below the root has a parent there, the walk ends at the root. -/
lemma getLast?_ancestorsWithin {root : Nat} (htop : a.parent? root = none)
    (hparent : ∀ i, a.Reaches root i → i ≠ root → ∃ p, a.Reaches root p ∧ a.parent? i = some p)
    (hi : a.Reaches root i) {fuel : Nat} {chain : List Nat}
    (h : a.ancestorsWithin fuel i = some chain) : chain.getLast? = some root := by
  induction fuel generalizing i chain with
  | zero => cases h
  | succ fuel ih =>
    by_cases hroot : i = root
    · rw [hroot, ancestorsWithin_of_none fuel htop] at h
      cases h
      rfl
    · obtain ⟨p, hp, hlink⟩ := hparent i hi hroot
      rw [ancestorsWithin_of_some fuel hlink] at h
      obtain ⟨outer, houter, hcons⟩ := Option.map_eq_some_iff.mp h
      cases hcons
      rw [List.getLast?_cons, ih hp houter]
      rfl

/-! ## The tree of the last node -/

section

variable (hstores : a.Stores s root) (ha : a.Tidy)
include hstores ha

/-- What is reached in the arena of a tree is a node of the tree. -/
lemma Reaches.exists_within (h : a.Reaches root.index i) :
    ∃ n : Node, n.Within root ∧ n.index = i := by
  induction h with
  | refl => exact ⟨root, .refl, rfl⟩
  | down _ hk ih =>
    obtain ⟨n, hn, rfl⟩ := ih
    rw [(hstores n hn).children_eq ha] at hk
    obtain ⟨c, hc, rfl⟩ := List.mem_map.mp hk
    exact ⟨c, Node.Within.trans (.child hc .refl) hn, rfl⟩

/-- A payload lists no node twice, and all its parts are linked to the node. -/
lemma Reaches.links (h : a.Reaches root.index p) :
    (a.children p).Nodup ∧ ∀ i ∈ a.children p, a.parent? i = some p := by
  obtain ⟨n, hn, rfl⟩ := h.exists_within hstores ha
  have hembeds := hstores n hn
  rw [hembeds.children_eq ha]
  refine ⟨List.Pairwise.map _ (fun c d hlt => Nat.ne_of_lt hlt) hembeds.ordered, fun i hi => ?_⟩
  obtain ⟨c, hc, rfl⟩ := List.mem_map.mp hi
  exact hembeds.linked c hc

/-- A node that is reached and is not the root stands in one list, that of its parent. -/
lemma Reaches.exists_parent (h : a.Reaches root.index i) (hi : i ≠ root.index) :
    ∃ p, a.Reaches root.index p ∧ a.parent? i = some p ∧ (a.children p).count i = 1 ∧
      ∀ q, a.Reaches root.index q → i ∈ a.children q → q = p := by
  cases h with
  | refl => exact absurd rfl hi
  | @down p _ hp hmem =>
    obtain ⟨hnodup, hlinks⟩ := hp.links hstores ha
    have hlink := hlinks i hmem
    refine ⟨p, hp, hlink, ?_, fun q hq hmem' => ?_⟩
    · rw [hnodup.count, if_pos hmem]
    · have hlink' := (hq.links hstores ha).2 i hmem'
      exact Option.some.inj (hlink'.symm.trans hlink)

end

/-- Nothing is out of place where nothing is. -/
lemma tidy_empty : Tidy {} := by
  intro p j form h
  simp [pool] at h

/-- What has grown from nothing to one node, which was made last, is a tree. -/
theorem Grown.isTree (h : Grown s {} a [root]) (hlast : root.index + 1 = a.size) :
    a.IsTree root.index := by
  have hroot : root ∈ [root] := List.mem_singleton_self root
  have hstores : a.Stores s root := h.stores root hroot
  have htop : a.parent? root.index = none := h.loose root hroot
  have ha : a.Tidy := h.tidy tidy_empty
  have hup (i p : Nat) : a.parent? i = some p → i < p ∧ p < a.size :=
    h.upward i p (Nat.zero_le i)
  constructor
  case last => exact hlast
  case upward => exact hup
  case top =>
    refine ⟨htop, fun p hp hmem => ?_⟩
    have hlink := (hp.links hstores ha).2 _ hmem
    rw [htop] at hlink
    cases hlink
  case parent => exact fun i hi hne => hi.exists_parent hstores ha hne
  case walks => exact fun i => exists_ancestorsWithin hup (Nat.lt_succ_of_le (Nat.sub_le ..))
  case toRoot =>
    intro i chain hi hchain
    refine getLast?_ancestorsWithin htop (fun j hj hne => ?_) hi hchain
    obtain ⟨p, hp, hlink, -⟩ := hj.exists_parent hstores ha hne
    exact ⟨p, hp, hlink⟩

end Arena
end InlineValues
