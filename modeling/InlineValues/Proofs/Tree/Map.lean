import InlineValues.Tree.Arena
import Mathlib.Tactic.Lemma

/-!
# What is kept when the parts of a form are replaced

The parts of the new form are the images of the old ones, in the same order (`Form.children_map`).
The form stays of its kind, and its payload belongs into the same table.
-/

namespace InlineValues

variable {α β : Type}

@[simp] lemma Sequence.items_map (f : α → β) (s : Sequence α) :
    (s.map f).items = s.items.map f := rfl

@[simp] lemma itemsOf_mapItems (f : α → β) (o : Option (Sequence α)) :
    itemsOf (mapItems f o) = (itemsOf o).map f := by
  cases o <;> rfl

@[simp] lemma toList_mapPart (f : α → β) (o : Option α) :
    (mapPart f o).toList = o.toList.map f := by
  cases o <;> rfl

lemma filterMap_mapPart (f : α → β) (l : List (Option α)) :
    l.filterMap (mapPart f) = (l.filterMap id).map f := by
  rw [List.map_filterMap]
  rfl

section

variable (f : α → β)

@[simp] theorem FunctionParts.children_map (p : FunctionParts α) :
    (p.map f).children = p.children.map f := by
  simp [children, FunctionParts.map]

@[simp] theorem ClassParts.children_map (p : ClassParts α) :
    (p.map f).children = p.children.map f := by
  simp [children, ClassParts.map]

@[simp] theorem SignatureParts.children_map (p : SignatureParts α) :
    (p.map f).children = p.children.map f := by
  simp [children, SignatureParts.map]

@[simp] theorem PropertyParts.children_map (p : PropertyParts α) :
    (p.map f).children = p.children.map f := by
  simp [children, PropertyParts.map]

@[simp] theorem MethodParts.children_map (p : MethodParts α) :
    (p.map f).children = p.children.map f := by
  simp [children, MethodParts.map]

@[simp] theorem AccessorParts.children_map (p : AccessorParts α) :
    (p.map f).children = p.children.map f := by
  simp [children, AccessorParts.map]

@[simp] theorem ParameterParts.children_map (p : ParameterParts α) :
    (p.map f).children = p.children.map f := by
  simp [children, ParameterParts.map]

@[simp] theorem MappedTypeParts.children_map (p : MappedTypeParts α) :
    (p.map f).children = p.children.map f := by
  simp [children, MappedTypeParts.map]

/-- The parts of the new form are the images of the parts of the old one. -/
@[simp] theorem Form.children_map (form : Form α) :
    (form.map f).children = form.children.map f := by
  rw [children.eq_def, children.eq_def]
  cases form <;> simp [Form.map, filterMap_mapPart]

@[simp] lemma Form.kind_map (form : Form α) : (form.map f).kind = form.kind := by
  cases form <;> rfl

@[simp] lemma Form.pool?_map (form : Form α) : (form.map f).pool? = form.pool? := by
  cases form <;> rfl

@[simp] lemma Form.name?_map (form : Form α) : (form.map f).name? = form.name? := by
  cases form <;> rfl

end

/-- A composite node holds no name. -/
lemma Form.name?_eq_none {form : Form α} (h : form.kind.isToken = false) : form.name? = none := by
  cases form <;> first | rfl | cases h

/-! ## Tables -/

/-- Outside the table of literals, the payload of a form is looked up where it was put. -/
lemma Form.pool?_kind {form : Form α} {p : Pool} (h : form.pool? = some p) (hp : p ≠ .literals) :
    form.kind.pool? = some p := by
  cases form <;> first
    | exact h
    | (rename_i operator _; cases operator <;> exact h)
    | (cases h <;> first | rfl | exact absurd rfl hp)

/-- A form without a payload has no parts. -/
lemma Form.children_eq_nil {form : Form α} (h : form.pool? = none) : form.children = [] := by
  cases form <;> first | rfl | cases h

/-- The payload of a leaf is looked up among the names or the literals. -/
lemma TokenKind.pool?_eq {kind : TokenKind} {p : Pool} (h : kind.pool? = some p) :
    p = .identifiers ∨ p = .literals := by
  unfold pool? at h
  split at h
  · exact .inl (Option.some.inj h).symm
  · split at h
    · exact .inr (Option.some.inj h).symm
    · cases h

/-- Names and literals have no parts. -/
lemma Form.children_eq_nil_of_leaf {form : Form α} {kind : TokenKind} {p : Pool}
    (h : form.pool? = some p) (hkind : kind.pool? = some p) : form.children = [] := by
  rcases TokenKind.pool?_eq hkind with rfl | rfl
  all_goals cases form <;> first | rfl | cases h

/-- A leaf has no parts. -/
lemma Form.children_eq_nil_of_token {form : Form α} (h : form.kind.isToken = true) :
    form.children = [] := by
  cases form <;> first | rfl | cases h

/-- What stands among the names is one. -/
lemma Form.exists_name? {form : Form α} (h : form.pool? = some .identifiers) :
    ∃ text, form.name? = some text := by
  cases form <;> first | exact ⟨_, rfl⟩ | cases h

/-- What stands among the literals is a leaf. -/
lemma Form.isToken_of_literals {form : Form α} (h : form.pool? = some .literals) :
    form.kind.isToken = true := by
  cases form <;> first | rfl | cases h

end InlineValues
