import InlineValues.Proofs.Tree.Layout
import InlineValues.Proofs.Tree.Map

/-!
# Trees in an arena

`Arena.Stores` says that an arena holds a tree: for every node of it there is a slot that shows what
the node is (`Arena.Records`), and the children of a node are linked to it and have smaller numbers.

A parser adds nodes and drops some of them again.  `Arena.Grown` is what is left invariant by both:
the nodes that were there before are untouched, and the nodes that are given as a result are stored,
have no parent yet, and are made of nothing but new nodes.  Two runs in a row give two rows
(`Grown.trans`), and a node that is added over a row takes the place of the row (`Grown.add`).  That
the parts of a new node were loose is what keeps a node out of two payloads.
-/

namespace InlineValues
namespace Arena

variable {s : Source} {a b c : Arena}

/-! ## What is found after a node was added -/

lemma getElem?_link (parent : Nat) (slots : Array Slot) (children : List Nat) (i : Nat) :
    (link parent slots children)[i]? =
      slots[i]?.map fun slot => if i ∈ children then { slot with parent } else slot := by
  induction children generalizing slots with
  | nil => simp [link]
  | cons c cs ih =>
    have hstep : link parent slots (c :: cs) =
        link parent (slots.modify c fun slot => { slot with parent }) cs := rfl
    rw [hstep, ih, Array.getElem?_modify]
    by_cases hc : c = i
    · subst hc
      cases slots[c]? <;> simp
    · have hic : i ≠ c := fun h => hc h.symm
      simp [hc, hic]

@[simp] lemma size_link (parent : Nat) (slots : Array Slot) (children : List Nat) :
    (link parent slots children).size = slots.size := by
  induction children generalizing slots with
  | nil => rfl
  | cons c cs ih => exact (ih _).trans Array.size_modify

section

variable (a : Arena) (pos stop : Nat) (payload : Form Nat)

@[simp] lemma size_add : (a.add pos stop payload).size = a.size + 1 := by
  simp [add, size]

/-- A slot that was there before is the same but for its parent. -/
lemma getElem?_add_of_lt {i : Nat} (h : i < a.size) :
    (a.add pos stop payload).slots[i]? =
      a.slots[i]?.map fun slot =>
        if i ∈ payload.children then { slot with parent := some a.size } else slot := by
  have hne : i ≠ a.slots.size := Nat.ne_of_lt h
  rw [add, getElem?_link, Array.getElem?_push, if_neg hne]
  rfl

lemma getElem?_add_size (h : a.size ∉ payload.children) :
    (a.add pos stop payload).slots[a.size]? = some
      { kind := payload.kind, pos, stop, data := payload.pool?.map fun p => (p, (a.pool p).size)
        parent := none } := by
  have hpush : ∀ slot : Slot, (a.slots.push slot)[a.size]? = some slot := fun slot => by
    simp [size]
  rw [add, getElem?_link, hpush]
  simp [h]

lemma getElem?_putPayload (pools : Array (Array (Form Nat))) (p : Pool) :
    (putPayload pools payload)[p.ctorIdx]? =
      pools[p.ctorIdx]?.map fun pool =>
        if payload.pool? = some p then pool.push payload else pool := by
  unfold putPayload
  cases hq : payload.pool? with
  | none => simp
  | some q =>
    have hidx : q.ctorIdx = p.ctorIdx ↔ q = p :=
      ⟨fun heq => by rw [← Pool.ofNat_ctorIdx q, heq, Pool.ofNat_ctorIdx], fun heq => by rw [heq]⟩
    by_cases h : q = p <;> simp [Array.getElem?_modify, hidx, h]

lemma getElem?_pools (p : Pool) : a.pools[p.ctorIdx]? = some (a.pool p) :=
  Array.getElem?_eq_getElem (a.pools_size ▸ p.ctorIdx_lt)

lemma pool_add (p : Pool) :
    (a.add pos stop payload).pool p =
      if payload.pool? = some p then (a.pool p).push payload else a.pool p := by
  have h : (a.add pos stop payload).pools = putPayload a.pools payload := rfl
  rw [← Option.some_inj, ← getElem?_pools, h, getElem?_putPayload, getElem?_pools]
  rfl

end

lemma parent?_eq_of_slots {i : Nat} (h : b.slots[i]? = a.slots[i]?) :
    b.parent? i = a.parent? i := by
  rw [parent?, parent?, h]

/-- A node that was there before has the parent it had, unless the payload lists it. -/
lemma parent?_add_of_notMem {pos stop i : Nat} {payload : Form Nat} (h : i < a.size)
    (hi : i ∉ payload.children) : (a.add pos stop payload).parent? i = a.parent? i := by
  apply parent?_eq_of_slots
  rw [getElem?_add_of_lt a pos stop payload h]
  simp [hi]

lemma parent?_add_of_mem {pos stop i : Nat} {payload : Form Nat} (h : i < a.size)
    (hi : i ∈ payload.children) : (a.add pos stop payload).parent? i = some a.size := by
  have hslot : a.slots[i]? = some a.slots[i] := Array.getElem?_eq_getElem h
  rw [parent?, getElem?_add_of_lt a pos stop payload h, hslot]
  simp [hi]

/-! ## Nodes that are recorded -/

/-- The payload with which a node was made.  Where a literal is asked for, any token is taken, and
then the payload is a literal whatever the node is. -/
inductive Payload (s : Source) (n : Node) : Form Nat → Prop
  | own (spelled : n.Spelled s) : Payload s n (n.form.map fun c => c.index)
  | stray {kind : TokenKind} {text : List Char} (hkind : n.kind = .token kind)
    (hpool : kind.pool? ≠ some .literals) (hleaf : n.children = []) :
    Payload s n (.literal kind text)

/-- A node that holds no name has its form for a payload. -/
lemma Payload.unnamed {n : Node} (h : n.form.name? = none) :
    Payload s n (n.form.map fun c => c.index) := .own (.of_name?_eq_none h)

lemma Payload.children_eq {n : Node} {payload : Form Nat} (h : Payload s n payload) :
    payload.children = n.children.map fun c => c.index := by
  cases h with
  | own => exact Form.children_map _ _
  | stray _ _ hleaf => rw [hleaf]; rfl

lemma Payload.kind_eq {n : Node} {payload : Form Nat} (h : Payload s n payload) :
    payload.kind = n.kind := by
  cases h with
  | own => exact Form.kind_map _ _
  | stray hkind => exact hkind.symm

/-- In the name that a payload holds no line ends. -/
lemma Payload.name?_oneLine {n : Node} {payload : Form Nat} (h : Payload s n payload) :
    ∀ text, payload.name? = some text → OneLine text := by
  intro text htext
  cases h with
  | own hspelled =>
    rw [Form.name?_map] at htext
    exact (hspelled text htext).2
  | stray => cases htext

/-- What a slot says about the place of a payload. -/
def Holds (a : Arena) (data : Option (Pool × Nat)) (payload : Form Nat) : Prop :=
  match payload.pool? with
  | some p => ∃ j, data = some (p, j) ∧ (a.pool p)[j]? = some payload
  | none => data = none

/-- A slot shows what a node is, and the payload of the node is in its table. -/
structure Shows (s : Source) (a : Arena) (n : Node) (slot : Slot) : Prop where
  kind : slot.kind = n.kind
  pos : slot.pos = n.pos
  stop : slot.stop = n.stop
  holds : ∃ payload, Payload s n payload ∧ a.Holds slot.data payload

/-- The parent of a node is no part of what it is. -/
lemma Shows.of_parent {n : Node} {slot : Slot} (h : a.Shows s n slot) (parent : Option Nat) :
    a.Shows s n { slot with parent } := ⟨h.kind, h.pos, h.stop, h.holds⟩

/-- The arena has a slot for a node. -/
def Records (s : Source) (a : Arena) (n : Node) : Prop :=
  ∃ slot, a.slots[n.index]? = some slot ∧ a.Shows s n slot

/-- The arena records a node with its links to the children. -/
structure Embeds (s : Source) (a : Arena) (n : Node) : Prop where
  records : a.Records s n
  linked : ∀ c ∈ n.children, a.parent? c.index = some n.index
  below : ∀ c ∈ n.children, c.index < n.index
  ordered : n.children.Pairwise fun c d => c.index < d.index

/-- The arena records a whole tree. -/
def Stores (s : Source) (a : Arena) (n : Node) : Prop := ∀ m : Node, m.Within n → a.Embeds s m

/-- Every payload is in the table that is meant for it. -/
def Tidy (a : Arena) : Prop :=
  ∀ (p : Pool) (j : Nat) (form : Form Nat), (a.pool p)[j]? = some form → form.pool? = some p

/-- No line ends in a name. -/
def Named (a : Arena) : Prop :=
  ∀ (j : Nat) (form : Form Nat), (a.pool .identifiers)[j]? = some form →
    ∀ text, form.name? = some text → OneLine text

/-- The payloads of one arena are found in another one under the same numbers. -/
def Prefix (a b : Arena) : Prop :=
  ∀ (p : Pool) (j : Nat) (form : Form Nat), (a.pool p)[j]? = some form → (b.pool p)[j]? = some form

/-! ## Growth -/

/-- From `a` to `b` nodes were added, and the nodes `ns` are the result. -/
structure Grown (s : Source) (a b : Arena) (ns : List Node) : Prop where
  size_le : a.size ≤ b.size
  slots : ∀ i < a.size, b.slots[i]? = a.slots[i]?
  pools : a.Prefix b
  tidy : a.Tidy → b.Tidy
  named : a.Named → b.Named
  upward : ∀ i p, a.size ≤ i → b.parent? i = some p → i < p ∧ p < b.size
  stores : ∀ n ∈ ns, b.Stores s n
  loose : ∀ n ∈ ns, b.parent? n.index = none
  new : ∀ n ∈ ns, ∀ m : Node, m.Within n → a.size ≤ m.index ∧ m.index < b.size
  ordered : ns.Pairwise fun m n => m.index < n.index

lemma prefix_add (b : Arena) (pos stop : Nat) (payload : Form Nat) :
    b.Prefix (b.add pos stop payload) := by
  intro p j form hform
  rw [pool_add]
  split
  · obtain ⟨hj, -⟩ := Array.getElem?_eq_some_iff.mp hform
    rw [Array.getElem?_push_lt hj, ← hform, Array.getElem?_eq_getElem hj]
  · exact hform

/-- A payload is put into the table that is meant for it. -/
theorem Tidy.add (ha : a.Tidy) (pos stop : Nat) (payload : Form Nat) :
    (a.add pos stop payload).Tidy := by
  intro p j form hform
  rw [pool_add] at hform
  split at hform
  case isTrue hp =>
    rw [Array.getElem?_push] at hform
    split at hform
    · cases hform
      exact hp
    · exact ha p j form hform
  case isFalse => exact ha p j form hform

lemma Named.empty : Named {} := fun j form hform => by simp [pool] at hform

theorem Named.add (ha : a.Named) {pos stop : Nat} {payload : Form Nat}
    (hpayload : ∀ text, payload.name? = some text → OneLine text) :
    (a.add pos stop payload).Named := by
  intro j form hform
  rw [pool_add] at hform
  split at hform
  case isTrue =>
    rw [Array.getElem?_push] at hform
    split at hform
    · cases hform
      exact hpayload
    · exact ha j form hform
  case isFalse => exact ha j form hform

/-- The names of the nodes in an arena. -/
lemma Named.oneLine_names (ha : a.Named) : ∀ name ∈ a.names, OneLine name := by
  intro name hname
  obtain ⟨form, hform, rfl⟩ := Array.mem_map.mp hname
  obtain ⟨j, hj⟩ := Array.getElem?_of_mem hform
  cases htext : form.name? with
  | none => exact oneLine_nil
  | some text => exact ha j form hj text htext

lemma parent?_eq_none {i : Nat} (h : a.size ≤ i) : a.parent? i = none := by
  have hslot : a.slots[i]? = none := Array.getElem?_eq_none h
  rw [parent?, hslot]
  rfl

lemma Holds.mono {data : Option (Pool × Nat)} {payload : Form Nat} (h : a.Holds data payload)
    (hpools : a.Prefix b) : b.Holds data payload := by
  unfold Holds at h ⊢
  split
  case h_1 p hp =>
    rw [hp] at h
    obtain ⟨j, hdata, hform⟩ := h
    exact ⟨j, hdata, hpools p j payload hform⟩
  case h_2 hnone => rwa [hnone] at h

lemma Shows.mono {n : Node} {slot : Slot} (h : a.Shows s n slot) (hpools : a.Prefix b) :
    b.Shows s n slot := by
  obtain ⟨payload, hpayload, hholds⟩ := h.holds
  exact ⟨h.kind, h.pos, h.stop, payload, hpayload, hholds.mono hpools⟩

namespace Grown

variable {xs ys ns : List Node}

lemma refl (s : Source) (a : Arena) : Grown s a a [] where
  size_le := Nat.le_refl _
  slots _ _ := rfl
  pools _ _ _ h := h
  tidy h := h
  named h := h
  upward i p hi hp := by simp [parent?_eq_none hi] at hp
  stores := by simp
  loose := by simp
  new := by simp
  ordered := .nil

lemma sublist (h : Grown s a b xs) (hsub : ys.Sublist xs) : Grown s a b ys where
  size_le := h.size_le
  slots := h.slots
  pools := h.pools
  tidy := h.tidy
  named := h.named
  upward := h.upward
  stores n hn := h.stores n (hsub.subset hn)
  loose n hn := h.loose n (hsub.subset hn)
  new n hn := h.new n (hsub.subset hn)
  ordered := h.ordered.sublist hsub

/-- Nodes that were made may be dropped. -/
lemma forget (h : Grown s a b xs) : Grown s a b [] := h.sublist (List.nil_sublist xs)

/-- A tree of old nodes is still stored. -/
lemma keeps_stores {n : Node} (h : Grown s b c ys) (hn : b.Stores s n)
    (hold : ∀ m : Node, m.Within n → m.index < b.size) : c.Stores s n := by
  intro m hm
  obtain ⟨slot, hslot, hshows⟩ := (hn m hm).records
  constructor
  case records =>
    refine ⟨slot, ?_, hshows.mono h.pools⟩
    rw [h.slots _ (hold m hm), hslot]
  case linked =>
    intro d hd
    have hlt := hold d ((Node.Within.child hd .refl).trans hm)
    rw [parent?_eq_of_slots (h.slots _ hlt)]
    exact (hn m hm).linked d hd
  case below => exact (hn m hm).below
  case ordered => exact (hn m hm).ordered

/-- One row is made after another one. -/
theorem trans (h : Grown s a b xs) (h' : Grown s b c ys) : Grown s a c (xs ++ ys) where
  size_le := Nat.le_trans h.size_le h'.size_le
  slots i hi := by rw [h'.slots i (Nat.lt_of_lt_of_le hi h.size_le), h.slots i hi]
  pools p j form hform := h'.pools p j form (h.pools p j form hform)
  tidy ha := h'.tidy (h.tidy ha)
  named ha := h'.named (h.named ha)
  upward i p hi hp := by
    rcases Nat.lt_or_ge i b.size with hlt | hge
    · rw [parent?_eq_of_slots (h'.slots i hlt)] at hp
      obtain ⟨hip, hpb⟩ := h.upward i p hi hp
      exact ⟨hip, Nat.lt_of_lt_of_le hpb h'.size_le⟩
    · exact h'.upward i p hge hp
  stores n hn := by
    rcases List.mem_append.mp hn with hn | hn
    · exact h'.keeps_stores (h.stores n hn) fun m hm => (h.new n hn m hm).2
    · exact h'.stores n hn
  loose n hn := by
    rcases List.mem_append.mp hn with hn | hn
    · rw [parent?_eq_of_slots (h'.slots _ (h.new n hn n .refl).2)]
      exact h.loose n hn
    · exact h'.loose n hn
  new n hn m hm := by
    rcases List.mem_append.mp hn with hn | hn
    · obtain ⟨hle, hlt⟩ := h.new n hn m hm
      exact ⟨hle, Nat.lt_of_lt_of_le hlt h'.size_le⟩
    · obtain ⟨hle, hlt⟩ := h'.new n hn m hm
      exact ⟨Nat.le_trans h.size_le hle, hlt⟩
  ordered := by
    refine List.pairwise_append.mpr ⟨h.ordered, h'.ordered, fun m hm n hn => ?_⟩
    exact Nat.lt_of_lt_of_le (h.new m hm m .refl).2 (h'.new n hn n .refl).1

/-! ## Adding a node over a row -/

section

variable {n : Node} {payload : Form Nat} (h : Grown s a b n.children)
  (hpayload : Payload s n payload)
include h hpayload

/-- The parts of the payload are new nodes. -/
lemma child_index {i : Nat} (hi : i ∈ payload.children) : a.size ≤ i ∧ i < b.size := by
  rw [hpayload.children_eq] at hi
  obtain ⟨c, hc, rfl⟩ := List.mem_map.mp hi
  exact h.new c hc c .refl

/-- No payload lists the node that it is made for. -/
lemma size_notMem : b.size ∉ payload.children := fun hi =>
  Nat.lt_irrefl _ (child_index h hpayload hi).2

/-- A new node has no parent. -/
lemma parent?_new : (b.add n.pos n.stop payload).parent? b.size = none := by
  rw [parent?, getElem?_add_size b _ _ _ (size_notMem h hpayload)]
  rfl

/-- The links upward stay upward: the parts are linked to the last node. -/
lemma upward_add {i p : Nat} (hi : a.size ≤ i)
    (hp : (b.add n.pos n.stop payload).parent? i = some p) :
    i < p ∧ p < (b.add n.pos n.stop payload).size := by
  rw [size_add]
  rcases Nat.lt_trichotomy i b.size with hlt | rfl | hgt
  · by_cases hmem : i ∈ payload.children
    · rw [parent?_add_of_mem hlt hmem] at hp
      cases hp
      exact ⟨hlt, Nat.lt_succ_self _⟩
    · rw [parent?_add_of_notMem hlt hmem] at hp
      have hbounds := h.upward i p hi hp
      exact ⟨hbounds.1, Nat.lt_succ_of_lt hbounds.2⟩
  · rw [parent?_new h hpayload] at hp
    cases hp
  · have hsize : (b.add n.pos n.stop payload).size ≤ i := by
      rw [size_add]
      exact hgt
    rw [parent?_eq_none hsize] at hp
    cases hp

/-- What stands inside a part of the new node is stored as before: only loose nodes get a new
parent, and no part of a part is loose. -/
lemma embeds_below {m : Node} (hm : m.Below n) : (b.add n.pos n.stop payload).Embeds s m := by
  obtain ⟨c, hc, hm⟩ := hm
  have hold := h.stores c hc m hm
  have hlt := (h.new c hc m hm).2
  obtain ⟨slot, hslot, hshows⟩ := hold.records
  have hmono := hshows.mono (prefix_add b n.pos n.stop payload)
  constructor
  case records =>
    have hnew := getElem?_add_of_lt b n.pos n.stop payload hlt
    rw [hslot] at hnew
    refine ⟨_, hnew, ?_⟩
    split
    · exact hmono.of_parent _
    · exact hmono
  case linked =>
    intro d hd
    have hparent := hold.linked d hd
    have hdlt := (h.new c hc d ((Node.Within.child hd .refl).trans hm)).2
    rw [parent?_add_of_notMem hdlt]
    · exact hparent
    · intro hmem
      rw [hpayload.children_eq] at hmem
      obtain ⟨e, he, heq⟩ := List.mem_map.mp hmem
      have hloose := h.loose e he
      rw [heq, hparent] at hloose
      cases hloose
  case below => exact hold.below
  case ordered => exact hold.ordered

variable (hindex : n.index = b.size)
include hindex

/-- The new node is recorded with its links. -/
lemma embeds_add : (b.add n.pos n.stop payload).Embeds s n where
  records := by
    have hslot := getElem?_add_size b n.pos n.stop payload (size_notMem h hpayload)
    rw [← hindex] at hslot
    refine ⟨_, hslot, hpayload.kind_eq, rfl, rfl, payload, hpayload, ?_⟩
    unfold Holds
    split
    case h_1 p hp =>
      refine ⟨(b.pool p).size, by simp [hp], ?_⟩
      rw [pool_add, if_pos hp]
      exact Array.getElem?_push_size
    case h_2 hnone => simp [hnone]
  linked c hc := by
    have hmem : c.index ∈ payload.children := by
      rw [hpayload.children_eq]
      exact List.mem_map.mpr ⟨c, hc, rfl⟩
    rw [hindex]
    exact parent?_add_of_mem (h.new c hc c .refl).2 hmem
  below c hc := by
    rw [hindex]
    exact (h.new c hc c .refl).2
  ordered := h.ordered

/-- A node that is added over a row takes the place of the row. -/
theorem add : Grown s a (b.add n.pos n.stop payload) [n] where
  size_le := by
    have := h.size_le
    simp only [size_add]
    omega
  slots i hi := by
    have hmem : i ∉ payload.children := fun hmem =>
      Nat.not_le_of_lt hi (child_index h hpayload hmem).1
    rw [getElem?_add_of_lt b _ _ _ (Nat.lt_of_lt_of_le hi h.size_le), ← h.slots i hi]
    simp [hmem]
  pools p j form hform := prefix_add b _ _ _ p j form (h.pools p j form hform)
  tidy ha := (h.tidy ha).add n.pos n.stop payload
  named ha := (h.named ha).add hpayload.name?_oneLine
  upward i p hi hp := upward_add h hpayload hi hp
  stores m hm := by
    obtain rfl := List.mem_singleton.mp hm
    intro k hk
    rcases hk.eq_or_below with rfl | hk
    · exact embeds_add h hpayload hindex
    · exact embeds_below h hpayload hk
  loose m hm := by
    obtain rfl := List.mem_singleton.mp hm
    rw [hindex]
    exact parent?_new h hpayload
  new m hm k hk := by
    obtain rfl := List.mem_singleton.mp hm
    rw [size_add]
    rcases hk.eq_or_below with rfl | ⟨c, hc, hk⟩
    · have := h.size_le
      omega
    · have := h.new c hc k hk
      omega
  ordered := List.pairwise_singleton _ _

end

end Grown

end Arena
end InlineValues
