import InlineValues.Proofs.Tree.Arena

/-!
# What is read back from an arena

The payload of a node is looked up in the table of its kind, under the number that it got in the
table it was put into.  Where these are one table, the node's own payload is found
(`Arena.Embeds.payload?_eq`); only a leaf that was taken for a literal and is none has them apart.
A leaf has no parts, whichever payload is found for it, so that the children of a node are the ones
it was made of in every case (`Arena.Embeds.children_eq`).
-/

namespace InlineValues
namespace Arena

variable {s : Source} {a : Arena} {n : Node} {i : Nat} {slot : Slot}

/-- Where the payload of a node was put: its table and its number there. -/
def place? (a : Arena) (i : Nat) : Option (Pool × Nat) := a.slots[i]?.bind Slot.data

/-! ## Looking up -/

/-- The lookup asks the table of the kind. -/
lemma payload?_eq_bind (hslot : a.slots[i]? = some slot) :
    a.payload? i = slot.data.bind fun place =>
      slot.kind.pool?.bind fun p => (a.pool p)[place.2]? := by
  rw [payload?, hslot]
  rfl

/-- A node that was put into the table of its kind is found there. -/
lemma payload?_of_place {p : Pool} {j : Nat} (hslot : a.slots[i]? = some slot)
    (hdata : slot.data = some (p, j)) (hkind : slot.kind.pool? = some p) :
    a.payload? i = (a.pool p)[j]? := by
  rw [payload?_eq_bind hslot, hdata, hkind]
  rfl

/-- For a leaf only names and literals are found. -/
lemma children_eq_nil_of_token {kind : TokenKind} (ha : a.Tidy) (hslot : a.slots[i]? = some slot)
    (hkind : slot.kind = .token kind) : a.children i = [] := by
  unfold children
  cases hpayload : a.payload? i with
  | none => rfl
  | some form =>
    rw [payload?_eq_bind hslot, hkind] at hpayload
    obtain ⟨place, -, hpayload⟩ := Option.bind_eq_some_iff.mp hpayload
    obtain ⟨p, hp, hform⟩ := Option.bind_eq_some_iff.mp hpayload
    exact Form.children_eq_nil_of_leaf (ha p _ form hform) hp

/-! ## Recorded nodes -/

namespace Embeds

section

variable {p : Pool} {j : Nat} (h : a.Embeds s n) (hplace : a.place? n.index = some (p, j))
  (hliteral : p = .literals → n.kind.pool? = some .literals)
include h hplace hliteral

/-- A node that was put into the table of its kind was put there with its own form. -/
lemma own : n.form.pool? = some p ∧ n.kind.pool? = some p ∧
    (a.pool p)[j]? = some (n.form.map fun c => c.index) ∧
    ∀ text, n.form.name? = some text → text = s.slice (n.start s) n.stop := by
  obtain ⟨slot, hslot, hshows⟩ := h.records
  obtain ⟨payload, hpayload, hholds⟩ := hshows.holds
  rw [place?, hslot, Option.bind_some] at hplace
  unfold Holds at hholds
  split at hholds
  case h_1 q hq =>
    obtain ⟨k, hdata, hform⟩ := hholds
    rw [hplace] at hdata
    cases hdata
    cases hpayload with
    | own hspelled =>
      rw [Form.pool?_map] at hq
      refine ⟨hq, ?_, hform, fun text htext => (hspelled text htext).1⟩
      by_cases hp : p = .literals
      · exact hp ▸ hliteral hp
      · exact Form.pool?_kind hq hp
    | stray hkind hpool =>
      -- A stray literal is among the literals, where its kind does not look.
      cases hq
      have hlookup := hliteral rfl
      rw [hkind] at hlookup
      exact absurd hlookup hpool
  case h_2 =>
    rw [hplace] at hholds
    cases hholds

/-- The payload that is found for such a node is its own. -/
theorem payload?_eq : a.payload? n.index = (a.pool p)[j]? ∧
    a.payload? n.index = some (n.form.map fun c => c.index) := by
  obtain ⟨slot, hslot, hshows⟩ := h.records
  obtain ⟨-, hkind, hform, -⟩ := h.own hplace hliteral
  have hdata : slot.data = some (p, j) := by rwa [place?, hslot, Option.bind_some] at hplace
  have hpayload := payload?_of_place hslot hdata (hshows.kind ▸ hkind)
  exact ⟨hpayload, hpayload.trans hform⟩

/-- A name is found as it stands in the text. -/
lemma identifierText?_eq (hkind : n.kind.pool? = some .identifiers) :
    a.identifierText? n.index = some (s.slice (n.start s) n.stop) := by
  obtain ⟨hpool, hkind', -, hspelled⟩ := h.own hplace hliteral
  have hp : p = .identifiers := Option.some.inj (hkind'.symm.trans hkind)
  obtain ⟨text, htext⟩ := Form.exists_name? (hp ▸ hpool)
  rw [identifierText?, (h.payload?_eq hplace hliteral).2, Option.bind_some, Form.name?_map, htext,
    hspelled text htext]

end

/-- The children of a node are those that it was made of. -/
theorem children_eq (h : a.Embeds s n) (ha : a.Tidy) :
    a.children n.index = n.children.map fun c => c.index := by
  obtain ⟨slot, hslot, hshows⟩ := h.records
  cases hkind : n.kind with
  | token kind =>
    have hnil : n.children = [] := Form.children_eq_nil_of_token (by rw [← Node.kind, hkind]; rfl)
    rw [hnil, children_eq_nil_of_token ha hslot (hshows.kind.trans hkind)]
    rfl
  | node kind =>
    obtain ⟨payload, hpayload, hholds⟩ := hshows.holds
    cases hpayload with
    | stray htoken => cases hkind.symm.trans htoken
    | own =>
      unfold Holds at hholds
      rw [Form.pool?_map] at hholds
      split at hholds
      case h_1 p hp =>
        obtain ⟨j, hdata, hform⟩ := hholds
        have hplace : a.place? n.index = some (p, j) := by
          rw [place?, hslot, Option.bind_some, hdata]
        have hliteral : p = .literals → n.kind.pool? = some .literals := by
          rintro rfl
          have := Form.isToken_of_literals hp
          rw [← Node.kind, hkind] at this
          cases this
        rw [children, (h.payload?_eq hplace hliteral).2]
        exact Form.children_map _ _
      case h_2 hnone =>
        rw [children, payload?_eq_bind hslot, hholds]
        rw [Node.children, Form.children_eq_nil hnone]
        rfl

end Embeds

end Arena
end InlineValues
