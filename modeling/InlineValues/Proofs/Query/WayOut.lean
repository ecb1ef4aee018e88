import InlineValues.Proofs.Query.MoreScopes
import InlineValues.Proofs.Query.Chain
import InlineValues.Proofs.Query.Report

/-!
# The way out of a scope

With wider limits the walk starts further out, and what it reports of the inner scope depends on
what lies between.  Every construct decides on its own which of its parts a walk goes into:
`Node.walkedParts` lists them, and `Walk.sublist_form` says once, by the forms of a node, that what
is reported from such a part is reported from the node.  A declaration, a list of declarations and
the clauses of a `switch` may be walked without being entered as nodes of their own; `Walk.Shows`
is strong enough to go through them.

`Walk.Reaches.step` goes one node out and `Walk.Reaches.getLast` all the way.  The way is the part
of the token's chain between the two outermost scopes (`exists_way`).  `inlineValues_sublist` is the
result for the limits, and `not_sublist_inlineValues` shows that a way through the initial value of
a property does lose values.
-/

namespace InlineValues

/-! ## Where a walk goes on -/

namespace Node

/-- Whether a node is walked as a declaration, also where the node around it is not walked through
all its children. -/
def isDeclaration (n : Node) : Bool :=
  match n.form with
  | .variableDeclaration .. | .parameter .. | .bindingElement .. => true
  | _ => false

/-- Whether a node is a clause of a `switch`. -/
def isClause (n : Node) : Bool :=
  match n.form with
  | .caseClause .. | .defaultClause .. => true
  | _ => false

/-- The parts of a declaration with a name: a pattern, and the initial value. -/
def boundParts : (name initializer : Option Node) → List Node
  | none, _ => []
  | some n, initializer => (if n.kind == .token .identifier then [] else [n]) ++ initializer.toList

/-- The declarations of a loop. -/
def loopDeclarations : (initializer : Option Node) → List Node
  | some list@⟨_, _, .variableDeclarationList ..⟩ => [list]
  | _ => []

/-- The clauses of a `switch`, together. -/
def switchBlock : Node → List Node
  | cases@⟨_, _, .caseBlock _⟩ => [cases]
  | _ => []

/-- The parts of a node that a walk goes into if the node is a scope around the token or opens none.
Of the other parts, some are shown as a whole at most: initial values of properties, conditions,
labels, what a loop runs over and what an assignment changes.  Some are passed over: decorators,
heritage, type parameters and names. -/
def walkedParts (n : Node) : List Node :=
  match n.form with
  | .variableDeclaration name _ _ initializer | .bindingElement _ _ name initializer =>
    boundParts name initializer
  | .parameter parts => boundParts parts.name parts.initializer
  | .propertyAssignment .. | .shorthandPropertyAssignment .. => []
  | .functionDeclaration parts | .functionExpression parts | .arrowFunction parts =>
    parts.parameters.items.filter isDeclaration ++ parts.body.toList
  | .classDeclaration parts | .classExpression parts => parts.members.items
  | .ifStatement condition thenBranch elseBranch =>
    (if Walk.isParenthesizedAssignment condition then condition.toList else []) ++
      thenBranch.toList ++ elseBranch.toList
  | .forStatement initializer _ incrementor body =>
    loopDeclarations initializer ++
      (incrementor.toList.filter fun n => Walk.isAssignment n || Walk.isCommaExpression n) ++
      body.toList
  | .forInStatement initializer _ body | .forOfStatement _ initializer _ body =>
    loopDeclarations initializer ++ body.toList
  | .whileStatement _ body | .doStatement body _ => body.toList
  | .switchStatement _ cases => switchBlock cases
  | .caseBlock clauses => clauses.items.filter isClause
  | .caseClause _ statements | .defaultClause statements => statements.items
  | .catchClause binding block => binding.toList.filter isDeclaration ++ [block]
  | .variableDeclarationList _ declarations => declarations.items.filter isDeclaration
  | .binary _ _ right => if Walk.isAssignment n then right.toList else n.children
  | .prefixUnary .. | .postfixUnary .. => if Walk.isAssignment n then [] else n.children
  | _ => n.children

/-- A walk goes from one node on into another one, as far as it depends on the two. -/
def GoesInto (outer inner : Node) : Prop :=
  outer.kind.isType = false ∧ inner ∈ outer.walkedParts

variable {n c : Node}

lemma boundParts_subset {name initializer : Option Node} :
    boundParts name initializer ⊆ name.toList ++ initializer.toList := by
  cases name with
  | none => exact List.nil_subset _
  | some n =>
    intro c hc
    rw [boundParts] at hc
    split at hc <;> simp_all

lemma loopDeclarations_subset {initializer : Option Node} :
    loopDeclarations initializer ⊆ initializer.toList := by
  unfold loopDeclarations
  split
  · exact List.Subset.refl _
  · exact List.nil_subset _

lemma switchBlock_subset {cases : Node} : switchBlock cases ⊆ [cases] := by
  unfold switchBlock
  split
  · exact List.Subset.refl _
  · exact List.nil_subset _

lemma mem_children_of_mem_walkedParts (h : c ∈ n.walkedParts) : c ∈ n.children := by
  have hassignment {ns : List Node} (hns : ns ⊆ n.children)
      (h : c ∈ if Walk.isAssignment n then ns else n.children) : c ∈ n.children := by
    split at h
    · exact hns h
    · exact h
  unfold walkedParts at h
  split at h
  case h_1 name definite type initializer hform | h_2 isRest type name initializer hform =>
    have hparts := boundParts_subset h
    rw [children, hform]
    grind [Form.children]
  case h_3 parts hform =>
    have hparts := boundParts_subset h
    rw [children, hform]
    grind [Form.children, ParameterParts.children]
  case h_4 | h_5 => cases h
  case h_6 parts hform | h_7 parts hform | h_8 parts hform =>
    rw [children, hform]
    grind [Form.children, FunctionParts.children]
  case h_9 parts hform | h_10 parts hform =>
    rw [children, hform]
    exact List.mem_append_right _ h
  case h_11 condition thenBranch elseBranch hform =>
    rw [children, hform]
    grind [Form.children]
  case h_12 initializer condition incrementor body hform =>
    have hparts := @loopDeclarations_subset initializer c
    rw [children, hform]
    grind [Form.children]
  case h_13 initializer expression body hform | h_14 isAwait initializer expression body hform =>
    have hparts := @loopDeclarations_subset initializer c
    rw [children, hform]
    grind [Form.children]
  case h_15 hform =>
    rw [children, hform]
    exact List.mem_append_right _ h
  case h_16 hform =>
    rw [children, hform]
    exact List.mem_append_left _ h
  case h_17 expression cases hform =>
    rw [children, hform]
    exact List.mem_append_right _ (switchBlock_subset h)
  case h_18 clauses hform | h_22 declarations hform =>
    rw [children, hform]
    exact (List.mem_filter.mp h).1
  case h_19 hform =>
    rw [children, hform]
    exact List.mem_append_right _ h
  case h_20 hform =>
    rwa [children, hform]
  case h_21 binding block hform =>
    rw [children, hform]
    grind [Form.children]
  case h_23 left operator right hform =>
    refine hassignment (fun c hc => ?_) h
    rw [children, hform]
    exact List.mem_cons_of_mem left hc
  case h_24 | h_25 => exact hassignment (List.nil_subset _) h
  case h_26 => exact h

/-- Whether a walk goes into every part of the nodes of a kind. -/
def isOpen (kind : Kind) : Bool :=
  kind == .node .block || kind == .node .expressionStatement || kind == .node .sourceFile

lemma goesInto_of_isOpen (hopen : isOpen n.kind = true) (hc : c ∈ n.children) : n.GoesInto c := by
  have htype : n.kind.isType = false := by
    simp only [isOpen, Bool.or_eq_true, beq_iff_eq] at hopen
    rcases hopen with (hkind | hkind) | hkind <;> (rw [hkind]; rfl)
  refine ⟨htype, ?_⟩
  unfold walkedParts
  split
  case h_26 => exact hc
  all_goals next hform =>
    rw [kind, hform] at hopen
    cases hopen

end Node

/-! ## One step out -/

namespace Walk

/-- What is reported from a node holds some reports, also where the node is no part of its own but
walked with the node around it. -/
structure Shows (w : Walk) (rs : List Reported) (visit : Visit) (n : Node) : Prop where
  form : rs.Sublist (w.form visit n)
  declarations : ∀ keyword list, n.form = .variableDeclarationList keyword list →
    rs.Sublist (list.items.flatMap (w.declaration visit))
  clauses : ∀ list, n.form = .caseBlock list → rs.Sublist (list.items.flatMap (w.clause visit))

section

variable {w : Walk} {visit : Visit} {rs : List Reported} {n c : Node} {o : Option Node}

lemma form_of_isDeclaration (h : n.isDeclaration = true) :
    w.form visit n = w.declaration visit n := by
  unfold Node.isDeclaration at h
  split at h
  case h_1 hform | h_2 hform | h_3 hform => simp only [form, hform]
  case h_4 => cases h

lemma form_of_isClause (h : n.isClause = true) : w.form visit n = w.clause visit n := by
  unfold Node.isClause at h
  split at h
  case h_1 hform | h_2 hform => simp only [form, hform]
  case h_3 => cases h

lemma sublist_flatMap {f : Node → List Reported} {ns : List Node} (hc : c ∈ ns)
    (h : rs.Sublist (f c)) : rs.Sublist (ns.flatMap f) :=
  h.trans (List.sublist_flatten_of_mem (List.mem_map_of_mem hc))

lemma sublist_declarations {ns : List Node} (hc : c ∈ ns.filter Node.isDeclaration)
    (h : w.Shows rs visit c) : rs.Sublist (ns.flatMap (w.declaration visit)) := by
  obtain ⟨hmem, hdeclaration⟩ := List.mem_filter.mp hc
  exact sublist_flatMap hmem (form_of_isDeclaration hdeclaration ▸ h.form)

lemma sublist_loopInitializer (hc : c ∈ Node.loopDeclarations o) (h : w.Shows rs visit c) :
    rs.Sublist (w.loopInitializer visit o) := by
  unfold Node.loopDeclarations at hc
  split at hc
  case h_1 keyword list =>
    rw [List.mem_singleton.mp hc] at h
    exact h.declarations keyword list rfl
  case h_2 => cases hc

variable (hvisit : rs.Sublist (visit (some c)))
include hvisit

lemma sublist_visit (hc : c ∈ o.toList) : rs.Sublist (visit o) := by
  rwa [Option.mem_toList.mp hc]

lemma sublist_visits {ns : List Node} (hc : c ∈ ns) :
    rs.Sublist (ns.flatMap fun n => visit (some n)) :=
  sublist_flatMap hc hvisit

lemma sublist_binding {name initializer : Option Node}
    (hc : c ∈ Node.boundParts name initializer) :
    rs.Sublist (w.binding visit name initializer) := by
  cases name with
  | none => cases hc
  | some n =>
    rw [binding]
    rcases List.mem_append.mp hc with hc | hc
    · split at hc
      case isTrue => cases hc
      case isFalse hpattern =>
        rw [if_neg hpattern]
        exact (sublist_visits hvisit hc).trans (by simp)
    · exact (sublist_visit hvisit hc).trans (List.sublist_append_right _ _)

lemma sublist_incrementor
    (hc : c ∈ o.toList.filter fun n => isAssignment n || isCommaExpression n) :
    rs.Sublist (w.incrementor visit o) := by
  obtain ⟨hmem, hvisited⟩ := List.mem_filter.mp hc
  rw [Option.mem_toList.mp hmem, incrementor, if_pos hvisited]
  exact hvisit

lemma sublist_target_right {left right : Option Node} (hc : c ∈ right.toList) :
    rs.Sublist (w.target left ++ visit right) :=
  List.sublist_append_of_sublist_right (sublist_visit hvisit hc)

lemma sublist_function {parts : FunctionParts Node} (hshows : w.Shows rs visit c)
    (hlocated : w.isLocated n = true)
    (hc : c ∈ parts.parameters.items.filter Node.isDeclaration ++ parts.body.toList) :
    rs.Sublist (w.function visit n parts) := by
  rw [function, if_pos hlocated]
  rcases List.mem_append.mp hc with hc | hc
  · exact List.sublist_append_of_sublist_left (sublist_declarations hc hshows)
  · exact List.sublist_append_of_sublist_right (sublist_visit hvisit hc)

lemma sublist_classMembers {parts : ClassParts Node} (hlocated : w.isLocated n = true)
    (hc : c ∈ parts.members.items) : rs.Sublist (w.classMembers visit n parts) := by
  rw [classMembers, if_pos hlocated]
  exact sublist_visits hvisit hc

omit hvisit in
lemma sublist_within {xs : List Reported} (hlocated : w.isLocated n = true)
    (h : rs.Sublist xs) : rs.Sublist (w.within n xs) := by
  rwa [within, if_pos hlocated]

omit hvisit in
lemma sublist_clauses (hshows : w.Shows rs visit c) (hc : c ∈ n.switchBlock) :
    rs.Sublist (w.clauses visit n) := by
  unfold Node.switchBlock at hc
  split at hc
  case h_1 list =>
    rw [List.mem_singleton.mp hc] at hshows
    exact hshows.clauses list rfl
  case h_2 => cases hc

/-! ### One construct each -/

lemma sublist_ifStatement {condition thenBranch elseBranch : Option Node}
    (hlocated : w.isLocated n = true)
    (hc : c ∈ (if isParenthesizedAssignment condition then condition.toList else []) ++
      thenBranch.toList ++ elseBranch.toList) :
    rs.Sublist ((if isParenthesizedAssignment condition then visit condition
      else w.condition n condition) ++ w.within n (visit thenBranch ++ visit elseBranch)) := by
  rw [List.append_assoc] at hc
  rcases List.mem_append.mp hc with hc | hc
  · refine List.sublist_append_of_sublist_left ?_
    split at hc
    case isTrue hparenthesized =>
      rw [if_pos hparenthesized]
      exact sublist_visit hvisit hc
    case isFalse => cases hc
  · refine List.sublist_append_of_sublist_right (sublist_within hlocated ?_)
    rcases List.mem_append.mp hc with hc | hc
    · exact List.sublist_append_of_sublist_left (sublist_visit hvisit hc)
    · exact List.sublist_append_of_sublist_right (sublist_visit hvisit hc)

lemma sublist_forStatement {initializer condition incrementor body : Option Node}
    (hshows : w.Shows rs visit c) (hlocated : w.isLocated n = true)
    (hc : c ∈ Node.loopDeclarations initializer ++
      (incrementor.toList.filter fun n => isAssignment n || isCommaExpression n) ++ body.toList) :
    rs.Sublist (w.within n (w.loopInitializer visit initializer ++ w.expression condition ++
      w.incrementor visit incrementor ++ visit body)) := by
  refine sublist_within hlocated ?_
  rcases List.mem_append.mp hc with hc | hc
  · refine List.sublist_append_of_sublist_left ?_
    rcases List.mem_append.mp hc with hc | hc
    · exact List.sublist_append_of_sublist_left
        (List.sublist_append_of_sublist_left (sublist_loopInitializer hc hshows))
    · exact List.sublist_append_of_sublist_right (sublist_incrementor hvisit hc)
  · exact List.sublist_append_of_sublist_right (sublist_visit hvisit hc)

lemma sublist_loopOver {initializer expression body : Option Node}
    (hshows : w.Shows rs visit c) (hlocated : w.isLocated n = true)
    (hc : c ∈ Node.loopDeclarations initializer ++ body.toList) :
    rs.Sublist (w.within n
      (w.loopInitializer visit initializer ++ w.expression expression ++ visit body)) := by
  refine sublist_within hlocated ?_
  rcases List.mem_append.mp hc with hc | hc
  · exact List.sublist_append_of_sublist_left
      (List.sublist_append_of_sublist_left (sublist_loopInitializer hc hshows))
  · exact List.sublist_append_of_sublist_right (sublist_visit hvisit hc)

lemma sublist_catchClause {binding : Option Node} {block : Node}
    (hshows : w.Shows rs visit c) (hlocated : w.isLocated n = true)
    (hc : c ∈ binding.toList.filter Node.isDeclaration ++ [block]) :
    rs.Sublist
      (w.within n (binding.toList.flatMap (w.declaration visit) ++ visit block)) := by
  refine sublist_within hlocated ?_
  rcases List.mem_append.mp hc with hc | hc
  · exact List.sublist_append_of_sublist_left (sublist_declarations hc hshows)
  · exact List.sublist_append_of_sublist_right
      (sublist_visit hvisit (by simpa using List.mem_singleton.mp hc))

/-- An expression that changes a variable is walked in part, and any other one whole. -/
lemma sublist_unlessAssignment {ns : List Node} {xs : List Reported}
    (hc : c ∈ if isAssignment n then ns else n.children) (hns : c ∈ ns → rs.Sublist xs) :
    rs.Sublist (if isAssignment n then xs else children visit n) := by
  split at hc
  case isTrue hassigns =>
    rw [if_pos hassigns]
    exact hns hc
  case isFalse hno =>
    rw [if_neg hno]
    exact sublist_visits hvisit hc

/-- What is reported from a part that a walk goes into is reported from the node around it. -/
theorem sublist_form (hc : c ∈ n.walkedParts) (hshows : w.Shows rs visit c)
    (hlocated : n.opensScope = true → w.isLocated n = true) : rs.Sublist (w.form visit n) := by
  have hscope {form : Form Node} (hform : n.form = form)
      (hopens : (⟨n.toOrigin, n.stop, form⟩ : Node).opensScope = true) : w.isLocated n = true :=
    hlocated (by subst hform; exact hopens)
  unfold form
  split
  case h_1 hform | h_2 hform | h_3 hform =>
    rw [Node.walkedParts, hform] at hc
    simp only [declaration, hform]
    exact sublist_binding hvisit hc
  case h_4 hform | h_5 hform =>
    rw [Node.walkedParts, hform] at hc
    cases hc
  case h_6 hform =>
    rw [Node.walkedParts, hform] at hc
    exact List.sublist_append_of_sublist_right
      (sublist_function hvisit hshows (hscope hform rfl) hc)
  case h_7 hform | h_8 hform =>
    rw [Node.walkedParts, hform] at hc
    exact sublist_function hvisit hshows (hscope hform rfl) hc
  case h_9 hform =>
    rw [Node.walkedParts, hform] at hc
    exact List.sublist_append_of_sublist_right
      (sublist_classMembers hvisit (hscope hform rfl) hc)
  case h_10 hform =>
    rw [Node.walkedParts, hform] at hc
    exact sublist_classMembers hvisit (hscope hform rfl) hc
  case h_11 hform =>
    rw [Node.walkedParts, hform] at hc
    exact sublist_ifStatement hvisit (hscope hform rfl) hc
  case h_12 hform =>
    rw [Node.walkedParts, hform] at hc
    exact sublist_forStatement hvisit hshows (hscope hform rfl) hc
  case h_13 hform | h_14 hform =>
    rw [Node.walkedParts, hform] at hc
    exact sublist_loopOver hvisit hshows (hscope hform rfl) hc
  case h_15 hform | h_16 hform =>
    rw [Node.walkedParts, hform] at hc
    exact List.sublist_append_of_sublist_right
      (sublist_within (hscope hform rfl) (sublist_visit hvisit hc))
  case h_17 hform =>
    rw [Node.walkedParts, hform] at hc
    exact List.sublist_append_of_sublist_right
      (sublist_within (hscope hform rfl) (sublist_clauses hshows hc))
  case h_18 hform =>
    rw [Node.walkedParts, hform] at hc
    simp only [clause, hform]
    exact List.sublist_append_of_sublist_right (sublist_visits hvisit hc)
  case h_19 hform =>
    rw [Node.walkedParts, hform] at hc
    simp only [clause, hform]
    exact sublist_visits hvisit hc
  case h_20 hform =>
    rw [Node.walkedParts, hform] at hc
    exact sublist_catchClause hvisit hshows (hscope hform rfl) hc
  case h_21 hform =>
    simp only [Node.walkedParts, hform] at hc
    exact sublist_unlessAssignment hvisit hc (sublist_target_right hvisit)
  case h_22 hform | h_23 hform =>
    simp only [Node.walkedParts, hform] at hc
    exact sublist_unlessAssignment hvisit hc fun h => absurd h List.not_mem_nil
  case h_24 => exact sublist_visits hvisit (Node.mem_children_of_mem_walkedParts hc)

end

/-! ## The way out -/

/-- What a node around an inner one has to have for a walk to enter it, apart from not being a
type. -/
structure Surrounds (w : Walk) (n : Node) : Prop where
  lt : n.pos < n.stop
  pos_le : n.pos ≤ w.tokenPos
  visible : w.visible.touches (.ofBounds n.pos n.stop) = true
  scope : n.opensScope = true → n ∈ w.scopes

/-- A walk that goes below a node as deep as the tree does reports `rs` from it. -/
structure Reaches (w : Walk) (rs : List Reported) (n : Node) : Prop where
  notType : n.kind.isType = false
  shows : ∀ depth, n.isShallow (depth + 1) = true → w.Shows rs (w.values depth) n

section

variable {w : Walk} {rs : List Reported} {n c : Node}

lemma isLocated_of_mem (h : n ∈ w.scopes) : w.isLocated n = true :=
  List.any_eq_true.mpr ⟨n, h, by simp⟩

lemma Surrounds.enters (h : w.Surrounds n) (htype : n.kind.isType = false) :
    w.enters n = true := by
  have hrun : (w.isLocated n || (decide (n.pos ≤ w.tokenPos) && !n.is .block)) = true := by
    cases hblock : n.is .block with
    | false => simp [h.pos_le]
    | true =>
      have hopens : n.opensScope = true := by
        rw [Node.is, beq_iff_eq] at hblock
        rw [Node.opensScope, hblock]
        rfl
      simp [isLocated_of_mem (h.scope hopens)]
  rw [Walk.enters, hrun, h.visible, htype]
  simp [h.lt]

/-- What a walk reports from a node it reports from the node around it, if it goes from there into
the node. -/
theorem Reaches.step (h : w.Reaches rs c) (hc : w.Surrounds c) (hn : w.Surrounds n)
    (hinto : n.GoesInto c) : w.Reaches rs n := by
  refine ⟨hinto.1, fun depth hshallow => ?_⟩
  have hchild : c.isShallow depth = true :=
    Node.isShallow_succ_iff.mp hshallow c (Node.mem_children_of_mem_walkedParts hinto.2)
  have hshows : w.Shows rs (w.values depth) c := h.shows depth (Node.isShallow_succ hchild)
  have hvisit : rs.Sublist (w.values depth (some c)) := by
    cases depth with
    | zero => simp [Node.isShallow] at hchild
    | succ depth =>
      rw [values, if_pos (hc.enters h.notType)]
      exact (h.shows depth hchild).form
  refine ⟨?_, fun keyword list hform => ?_, fun list hform => ?_⟩
  · exact sublist_form hvisit hinto.2 hshows fun hopens => isLocated_of_mem (hn.scope hopens)
  · have hpart := hinto.2
    simp only [Node.walkedParts, hform] at hpart
    exact sublist_declarations hpart hshows
  · have hpart := hinto.2
    simp only [Node.walkedParts, hform] at hpart
    obtain ⟨hmem, hclause⟩ := List.mem_filter.mp hpart
    exact sublist_flatMap hmem (form_of_isClause hclause ▸ hshows.form)

/-- What a walk reports from a node it reports from the last node of a way out. -/
theorem Reaches.getLast {way : List Node} (h : w.Reaches rs n)
    (hway : (n :: way).IsChain fun inner outer => outer.GoesInto inner)
    (hsurrounds : ∀ m ∈ n :: way, w.Surrounds m) :
    w.Reaches rs ((n :: way).getLast (List.cons_ne_nil n way)) := by
  induction way generalizing n with
  | nil => exact h
  | cons m way ih =>
    obtain ⟨hinto, hway⟩ := List.isChain_cons_cons.mp hway
    obtain ⟨hn, hsurrounds⟩ := List.forall_mem_cons.mp hsurrounds
    exact ih (h.step hn (hsurrounds m List.mem_cons_self) hinto) hway hsurrounds

/-- A walk with more scopes reports from a node what a walk reports that starts there. -/
lemma reaches_values {scopes : List Node} (hscopes : w.scopes ⊆ scopes)
    (hopens : n.opensScope = true) (henters : w.enters n = true) (depth : Nat) :
    ({ w with scopes } : Walk).Reaches (w.values (depth + 1) (some n)) n := by
  have htype : n.kind.isType = false := by
    simp only [enters, Bool.and_eq_true, Bool.not_eq_true'] at henters
    exact henters.2
  refine ⟨htype, fun deeper hshallow => ⟨?_, fun keyword list hform => ?_, fun list hform => ?_⟩⟩
  · rw [values, if_pos henters]
    refine form_mono hscopes fun o ho => ?_
    cases o with
    | none => cases depth <;> exact List.nil_sublist _
    | some c => exact values_mono hscopes depth (Node.isShallow_of_below hshallow (ho c (.head _)))
  all_goals
    rw [Node.opensScope, Node.kind, hform] at hopens
    cases hopens

end

end Walk

/-! ## Wider limits -/

/-- From the outermost scope around a token with some limits to the one with wider limits, every
node goes into the one before it. -/
def TokenAt.WalksOut (t : TokenAt) (limits wider : ScopeLimits) : Prop :=
  ∀ n ∈ (findScopes limits t).getLast?, ∀ m ∈ (findScopes wider t).getLast?,
    t.chain.IsChain fun inner outer => n.Within inner → outer.Within m → outer.GoesInto inner

section

variable {s : Source} {root n m : Node} {offset depth : Nat} {w : Walk} {scopes : List Node}

/-- A node around one that a walk enters surrounds it. -/
lemma Walk.Surrounds.of_within (hm : m.LaidOut s) (henters : w.enters n = true)
    (hwithin : n.Within m) (hpos : m.pos ≤ w.tokenPos)
    (hscope : m.opensScope = true → m ∈ scopes) : ({ w with scopes } : Walk).Surrounds m := by
  have hrange := hm.range_within hwithin
  simp only [Walk.enters, Span.touches, Bool.and_eq_true, decide_eq_true_eq] at henters
  obtain ⟨⟨⟨hlt, -⟩, htouches⟩, -⟩ := henters
  refine ⟨by omega, hpos, ?_, hscope⟩
  simp only [Span.touches, Bool.and_eq_true, decide_eq_true_eq]
  simp only [Span.ofBounds, Span.stop] at htouches ⊢
  omega

/-- What a walk reports from a scope, a walk with more scopes reports from further out, if it goes
on into this scope. -/
lemma values_sublist (hroot : root.LaidOut s) (hpos : root.pos ≤ min offset s.size)
    (hshallow : root.isShallow (depth + 1) = true) (hscopes : w.scopes ⊆ scopes)
    (htoken : (root.tokenAt s offset).pos = w.tokenPos) (hopens : n.opensScope = true)
    (henters : w.enters n = true) {front way behind : List Node}
    (hchain : (root.tokenAt s offset).chain = front ++ (n :: way) ++ behind)
    (hway : (n :: way).IsChain fun inner outer => outer.GoesInto inner)
    (htaken : ∀ m ∈ n :: way, m.opensScope = true → m ∈ scopes) :
    (w.values (depth + 1) (some n)).Sublist
      (({ w with scopes } : Walk).values (depth + 1) (n :: way).getLast?) := by
  have hmem (m : Node) (hm : m ∈ n :: way) : m ∈ (root.tokenAt s offset).chain := by
    rw [hchain]
    exact List.mem_append_left behind (List.mem_append_right front hm)
  have hwithin (m : Node) (hm : m ∈ n :: way) : m.Within root :=
    Node.within_of_mem_chain .refl (by simp) m (hmem m hm)
  have hlinked := isChain_way hroot hpos hchain
  have hsurrounds (m : Node) (hm : m ∈ n :: way) : ({ w with scopes } : Walk).Surrounds m :=
    .of_within (hroot.within (hwithin m hm)) henters (within_of_mem_way hlinked hm)
      (htoken ▸ pos_le_of_mem_chain hroot hpos (hmem m hm)) (htaken m hm)
  have hreaches := (Walk.reaches_values hscopes hopens henters depth).getLast hway hsurrounds
  have hlast := List.getLast_mem (List.cons_ne_nil n way)
  have hvalues : ({ w with scopes } : Walk).values (depth + 1) (n :: way).getLast? =
      ({ w with scopes } : Walk).form (({ w with scopes } : Walk).values depth)
        ((n :: way).getLast (List.cons_ne_nil n way)) := by
    rw [List.getLast?_eq_some_getLast (List.cons_ne_nil n way), Walk.values,
      if_pos ((hsurrounds _ hlast).enters hreaches.notType)]
  rw [hvalues]
  exact (hreaches.shows depth (Node.isShallow_of_within hshallow (hwithin _ hlast))).form

end

/-- Out of blocks in blocks a walk always goes. -/
lemma walksOut_of_isOpen (fileName : String) (s : Source) (offset : Nat)
    (limits wider : ScopeLimits) (h : ∀ m ∈ ((parse fileName s).root.tokenAt s offset).chain.tail,
      Node.isOpen m.kind = true) :
    ((parse fileName s).root.tokenAt s offset).WalksOut limits wider := fun n _ m _ => by
  obtain ⟨hroot, hpos, -⟩ := laidOut_root_parse fileName s
  have hcorrect : ((parse fileName s).root.tokenAt s offset).Correct s (parse fileName s).root
      (min offset s.size) :=
    TokenAt.correct_tokenWithin hroot (hpos ▸ Nat.zero_le _) .root
  exact hcorrect.isChain.imp_of_mem_tail_imp fun inner outer _ houter hchild _ _ =>
    Node.goesInto_of_isOpen (h outer houter) hchild

/-- **Wider limits keep the values** of the scopes that the walk goes on into.  In a tree that is
not too deep to be walked, nothing is lost and the order stays the same. -/
theorem inlineValues_sublist (fileName : String) (s : Source) (offset : Nat) (visible : Span)
    {limits wider : ScopeLimits} (hstrong : limits.strong ≤ wider.strong)
    (hall : limits.all ≤ wider.all)
    (hshallow : (parse fileName s).root.isShallow maxWalkDepth = true)
    (hway : ((parse fileName s).root.tokenAt s offset).WalksOut limits wider) :
    (inlineValues limits (parse fileName s) offset visible).Sublist
      (inlineValues wider (parse fileName s) offset visible) := by
  obtain ⟨hroot, hpos, -⟩ := laidOut_root_parse fileName s
  have hwalk (limits : ScopeLimits) : walkAt limits (parse fileName s) offset visible =
      { source := s, scopes := findScopes limits ((parse fileName s).root.tokenAt s offset),
        tokenPos := ((parse fileName s).root.tokenAt s offset).pos, visible } := by
    rw [walkAt, source_parse]
  have hle : (parse fileName s).root.pos ≤ min offset s.size := hpos ▸ Nat.zero_le _
  refine List.Sublist.map _ ?_
  simp only [reportedNodes, hwalk]
  generalize (parse fileName s).root = root at hroot hle hshallow hway ⊢
  cases hn : (findScopes limits (root.tokenAt s offset)).getLast? with
  | none => exact List.nil_sublist _
  | some n =>
    obtain ⟨front, way, behind, hchain, hlast, htaken⟩ := exists_way hstrong hall hn
    have hlast' : (findScopes wider (root.tokenAt s offset)).getLast? = (n :: way).getLast? := hlast
    have hlinked := isChain_way hroot hle hchain
    have hinto : (n :: way).IsChain fun inner outer => outer.GoesInto inner := by
      have hm := hlast'.trans (List.getLast?_eq_some_getLast (List.cons_ne_nil n way))
      have hwalked := hway n hn _ hm
      rw [hchain] at hwalked
      exact hwalked.left_of_append.right_of_append.imp_of_mem_imp fun inner outer hinner houter h =>
        h (within_of_mem_way hlinked hinner) (within_getLast_way hlinked houter)
    have hopens := opensScope_of_mem_takeScopes (List.mem_of_getLast? hn)
    rw [hlast']
    cases henters : ({ source := s, scopes := findScopes limits (root.tokenAt s offset)
                       tokenPos := (root.tokenAt s offset).pos, visible } : Walk).enters n with
    | false =>
      rw [maxWalkDepth, Walk.values, henters]
      exact List.nil_sublist _
    | true =>
      exact values_sublist hroot hle hshallow (takeScopes_mono hstrong hall _).subset rfl hopens
        henters hchain hinto htaken

/-- A block around a block. -/
theorem inlineValues_sublist_blocks :
    (ScopeLimits.mk 1 1).strong ≤ (ScopeLimits.mk 2 4).strong ∧
      (ScopeLimits.mk 1 1).all ≤ (ScopeLimits.mk 2 4).all ∧
      (parse "a.ts" (.ofString "\x7ba=1;\x7bb=2;c\x7d\x7d")).root.isShallow maxWalkDepth = true ∧
      ((parse "a.ts" (.ofString "\x7ba=1;\x7bb=2;c\x7d\x7d")).root.tokenAt
        (.ofString "\x7ba=1;\x7bb=2;c\x7d\x7d") 10).WalksOut ⟨1, 1⟩ ⟨2, 4⟩ ∧
      (inlineValues ⟨1, 1⟩ (parse "a.ts" (.ofString "\x7ba=1;\x7bb=2;c\x7d\x7d")) 10
        .everything).Sublist
        (inlineValues ⟨2, 4⟩ (parse "a.ts" (.ofString "\x7ba=1;\x7bb=2;c\x7d\x7d")) 10
          .everything) := by
  have hshallow : (parse "a.ts" (.ofString "\x7ba=1;\x7bb=2;c\x7d\x7d")).root.isShallow
      maxWalkDepth = true := by decide +kernel
  have hopen : ∀ m ∈ ((parse "a.ts" (.ofString "\x7ba=1;\x7bb=2;c\x7d\x7d")).root.tokenAt
      (.ofString "\x7ba=1;\x7bb=2;c\x7d\x7d") 10).chain.tail, Node.isOpen m.kind = true := by
    decide +kernel
  have hway := walksOut_of_isOpen "a.ts" (.ofString "\x7ba=1;\x7bb=2;c\x7d\x7d") 10 ⟨1, 1⟩
    ⟨2, 4⟩ hopen
  exact ⟨by decide, by decide, hshallow, hway, inlineValues_sublist "a.ts"
    (.ofString "\x7ba=1;\x7bb=2;c\x7d\x7d") 10 .everything (by decide) (by decide) hshallow hway⟩

/-- The initial value of a property is shown as a whole or not at all.  So a walk that starts around
the object does not go on into a function that is such a value. -/
theorem not_sublist_inlineValues :
    (ScopeLimits.mk 1 1).strong ≤ (ScopeLimits.mk 2 4).strong ∧
      (ScopeLimits.mk 1 1).all ≤ (ScopeLimits.mk 2 4).all ∧
      (parse "a.ts" (.ofString "o=\x7bf:()=>\x7bx=1;y\x7d\x7d")).root.isShallow
        maxWalkDepth = true ∧
      ¬(inlineValues ⟨1, 1⟩ (parse "a.ts" (.ofString "o=\x7bf:()=>\x7bx=1;y\x7d\x7d")) 14
        .everything).Sublist
        (inlineValues ⟨2, 4⟩ (parse "a.ts" (.ofString "o=\x7bf:()=>\x7bx=1;y\x7d\x7d")) 14
          .everything) := by
  decide +kernel

end InlineValues
