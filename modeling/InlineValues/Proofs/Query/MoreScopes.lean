import InlineValues.Query.Collect
import InlineValues.Proofs.Tree.Layout
import Mathlib.Data.List.Flatten

/-!
# More scopes, and more depth

A walk that knows more scopes reports no less: everything that depends on whether a node is a scope
around the token is there if it is one (`Walk.form_mono`).  What the editor shows plays no part in
it but for the nodes that are walked at all (`Walk.enters_mono`).  How deep a walk goes makes no
difference to a tree that is shallower than that (`Walk.values_mono`).  What is reported keeps its
order, so that both are said with sublists.
-/

namespace InlineValues

/-! ## Depth -/

namespace Node

/-- Whether no way down from a node has more than `depth` nodes. -/
def isShallow : (depth : Nat) → Node → Bool
  | 0, _ => false
  | depth + 1, n => n.children.all (isShallow depth)

variable {m n c : Node} {depth : Nat}

lemma isShallow_succ_iff :
    n.isShallow (depth + 1) = true ↔ ∀ c ∈ n.children, c.isShallow depth = true := by
  rw [isShallow, List.all_eq_true]

lemma isShallow_succ (h : n.isShallow depth = true) : n.isShallow (depth + 1) = true := by
  induction depth generalizing n with
  | zero => simp [isShallow] at h
  | succ depth ih =>
    rw [isShallow_succ_iff] at h ⊢
    exact fun c hc => ih (h c hc)

lemma isShallow_of_within (h : n.isShallow depth = true) (hm : m.Within n) :
    m.isShallow depth = true := by
  induction hm generalizing depth with
  | refl => exact h
  | child hc _ ih =>
    cases depth with
    | zero => simp [isShallow] at h
    | succ depth => exact isShallow_succ (ih (isShallow_succ_iff.mp h _ hc))

lemma isShallow_of_below (h : n.isShallow (depth + 1) = true) (hm : m.Below n) :
    m.isShallow depth = true := by
  obtain ⟨c, hc, hm⟩ := hm
  exact isShallow_of_within (isShallow_succ_iff.mp h c hc) hm

lemma Below.of_child (hc : c ∈ n.children) : c.Below n := ⟨c, hc, .refl⟩

lemma Below.child (hc : c ∈ n.children) (h : m.Below c) : m.Below n := ⟨c, hc, h.within⟩

end Node

namespace Walk

open List (Sublist)

/-! ## Parts of a walk -/

/-- What a walk is told about the parts inside a node, it is also told by another visit. -/
def VisitsMore (visit more : Visit) (n : Node) : Prop :=
  ∀ o : Option Node, (∀ c ∈ o.toList, c.Below n) → Sublist (visit o) (more o)

lemma ite_sublist {b b' : Bool} {xs ys : List Reported} (h : b = true → b' = true)
    (hxs : xs.Sublist ys) : (if b then xs else []).Sublist (if b' then ys else []) := by
  cases b with
  | false => exact List.nil_sublist _
  | true => rwa [h rfl]

section

variable {w : Walk} {scopes : List Node} {visible : Span} {visit more : Visit} {n : Node}
variable {o : Option Node}

lemma VisitsMore.child {c : Node} (h : VisitsMore visit more n) (hc : c ∈ n.children) :
    VisitsMore visit more c :=
  fun o ho => h o fun d hd => .child hc (ho d hd)

lemma VisitsMore.at (h : VisitsMore visit more n) (ho : ∀ c ∈ o.toList, c ∈ n.children) :
    Sublist (visit o) (more o) :=
  h o fun c hc => .of_child (ho c hc)

lemma VisitsMore.flatMap {ns : List Node} (h : VisitsMore visit more n)
    (hns : ∀ c ∈ ns, c ∈ n.children) :
    Sublist (ns.flatMap fun c => visit (some c)) (ns.flatMap fun c => more (some c)) :=
  List.Sublist.flatMap_right ns fun c hc => h.at (by simpa using hns c hc)

lemma isLocated_mono (h : w.scopes ⊆ scopes) (hn : w.isLocated n = true) :
    ({ w with scopes, visible } : Walk).isLocated n = true := by
  obtain ⟨scope, hscope, hsame⟩ := List.any_eq_true.mp hn
  exact List.any_eq_true.mpr ⟨scope, h hscope, hsame⟩

theorem enters_mono (h : w.scopes ⊆ scopes)
    (hvisible : ∀ span, w.visible.touches span = true → visible.touches span = true)
    (hn : w.enters n = true) : ({ w with scopes, visible } : Walk).enters n = true := by
  simp only [enters, Bool.and_eq_true, Bool.or_eq_true] at hn ⊢
  exact ⟨⟨⟨hn.1.1.1, hn.1.1.2.imp_left (isLocated_mono h)⟩, hvisible _ hn.1.2⟩, hn.2⟩

lemma pastExpression_sublist (w : Walk) (o : Option Node) :
    Sublist (w.pastExpression o) (w.expression o) := by
  cases o with
  | none => exact .slnil
  | some n =>
    rw [pastExpression, expression]
    split
    · exact .refl _
    · exact List.nil_sublist _

lemma condition_mono (h : w.scopes ⊆ scopes) :
    Sublist (w.condition n o) (({ w with scopes, visible } : Walk).condition n o) := by
  unfold condition
  cases hn : w.isLocated n with
  | true =>
    rw [if_pos rfl, if_pos (isLocated_mono h hn)]
    exact .refl _
  | false =>
    rw [if_neg Bool.false_ne_true]
    split
    · exact w.pastExpression_sublist o
    · exact .refl _

lemma within_mono (h : w.scopes ⊆ scopes) {xs ys : List Reported} (hxs : xs.Sublist ys) :
    Sublist (w.within n xs) (({ w with scopes, visible } : Walk).within n ys) :=
  ite_sublist (isLocated_mono h) hxs

end

/-! ## Declarations and statements -/

section

variable {w : Walk} {visit more : Visit} {n : Node} {o : Option Node}
variable (hvisit : VisitsMore visit more n)
include hvisit

lemma binding_mono {name initializer : Option Node} (hname : ∀ c ∈ name.toList, c ∈ n.children)
    (hinitializer : ∀ c ∈ initializer.toList, c ∈ n.children) :
    Sublist (w.binding visit name initializer) (w.binding more name initializer) := by
  cases name with
  | none => exact .slnil
  | some name =>
    refine .append ?_ (hvisit.at hinitializer)
    split
    · exact .refl _
    · exact hvisit.at hname

lemma declaration_mono : Sublist (w.declaration visit n) (w.declaration more n) := by
  unfold declaration
  split
  case h_1 hform | h_3 hform =>
    refine binding_mono hvisit ?_ ?_
    all_goals
      intro c hc
      rw [Node.children, hform]
      simp_all [Form.children]
  case h_2 hform =>
    refine binding_mono hvisit ?_ ?_
    all_goals
      intro c hc
      rw [Node.children, hform]
      simp_all [Form.children, ParameterParts.children]
  case h_4 => exact .slnil

lemma declarations_mono {ns : List Node} (hns : ∀ c ∈ ns, c ∈ n.children) :
    Sublist (ns.flatMap (w.declaration visit)) (ns.flatMap (w.declaration more)) :=
  List.Sublist.flatMap_right ns fun c hc => declaration_mono (hvisit.child (hns c hc))

lemma loopInitializer_mono (ho : ∀ c ∈ o.toList, c ∈ n.children) :
    Sublist (w.loopInitializer visit o) (w.loopInitializer more o) := by
  unfold loopInitializer
  split
  case h_1 declarations => exact declarations_mono (hvisit.child (ho _ (.head _))) fun c hc => hc
  case h_2 => exact .refl _

lemma incrementor_mono (ho : ∀ c ∈ o.toList, c ∈ n.children) :
    Sublist (w.incrementor visit o) (w.incrementor more o) := by
  cases o with
  | none => exact .slnil
  | some n =>
    rw [incrementor, incrementor]
    split
    · exact hvisit.at ho
    · exact .refl _

lemma clause_mono : Sublist (w.clause visit n) (w.clause more n) := by
  unfold clause
  split
  case h_1 hform =>
    refine .append (.refl _) (hvisit.flatMap fun c hc => ?_)
    rw [Node.children, hform]
    exact List.mem_append_right _ hc
  case h_2 hform =>
    refine hvisit.flatMap fun c hc => ?_
    rwa [Node.children, hform]
  case h_3 => exact .slnil

lemma clauses_mono : Sublist (w.clauses visit n) (w.clauses more n) := by
  unfold clauses
  split
  case h_1 clauses hform =>
    refine List.Sublist.flatMap_right _ fun c hc => clause_mono (hvisit.child ?_)
    rwa [Node.children, hform]
  case h_2 => exact .slnil

lemma children_mono : Sublist (children visit n) (children more n) :=
  hvisit.flatMap fun _ hc => hc

end

section

variable {w : Walk} {scopes : List Node} {visible : Span} {visit more : Visit} {n : Node}
variable (hscopes : w.scopes ⊆ scopes) (hvisit : VisitsMore visit more n)
include hscopes hvisit

lemma function_mono {parts : FunctionParts Node} (hparts : n.children = parts.children) :
    Sublist (w.function visit n parts)
      (({ w with scopes, visible } : Walk).function more n parts) := by
  refine ite_sublist (isLocated_mono hscopes) (.append (declarations_mono hvisit ?_) (hvisit.at ?_))
  all_goals
    intro c hc
    simp_all [FunctionParts.children]

lemma classMembers_mono {parts : ClassParts Node} (hparts : n.children = parts.children) :
    Sublist (w.classMembers visit n parts)
      (({ w with scopes, visible } : Walk).classMembers more n parts) := by
  refine ite_sublist (isLocated_mono hscopes) (hvisit.flatMap fun c hc => ?_)
  simp_all [ClassParts.children]

/-- A node reports no less to a walk that knows more scopes and is told more about its parts. -/
theorem form_mono : Sublist (w.form visit n) (({ w with scopes, visible } : Walk).form more n) := by
  unfold form
  split
  case h_1 | h_2 | h_3 => exact declaration_mono hvisit
  case h_4 | h_5 => exact .refl _
  case h_6 parts hform =>
    exact .append (.refl _) (function_mono hscopes hvisit (by rw [Node.children, hform]; rfl))
  case h_7 parts hform | h_8 parts hform =>
    exact function_mono hscopes hvisit (by rw [Node.children, hform]; rfl)
  case h_9 parts hform =>
    exact .append (.refl _) (classMembers_mono hscopes hvisit (by rw [Node.children, hform]; rfl))
  case h_10 parts hform =>
    exact classMembers_mono hscopes hvisit (by rw [Node.children, hform]; rfl)
  case h_11 condition thenBranch elseBranch hform =>
    have hparts : n.children = (condition.toList ++ thenBranch.toList) ++ elseBranch.toList := by
      rw [Node.children, hform]; rfl
    refine .append ?_ (within_mono hscopes (.append (hvisit.at ?_) (hvisit.at ?_)))
    · split
      · exact hvisit.at fun c hc => by simp [hparts, hc]
      · exact condition_mono hscopes
    all_goals
      intro c hc
      simp [hparts, hc]
  case h_12 initializer condition incrementor body hform =>
    have hparts : n.children = initializer.toList ++ condition.toList ++ incrementor.toList ++
        body.toList := by
      rw [Node.children, hform]; rfl
    refine within_mono hscopes (.append (.append (.append (loopInitializer_mono hvisit ?_)
      (.refl _)) (incrementor_mono hvisit ?_)) (hvisit.at ?_))
    all_goals
      intro c hc
      simp [hparts, hc]
  case h_13 initializer expression body hform | h_14 isAwait initializer expression body hform =>
    have hparts : n.children = initializer.toList ++ expression.toList ++ body.toList := by
      rw [Node.children, hform]; rfl
    refine within_mono hscopes (.append (.append (loopInitializer_mono hvisit ?_) (.refl _))
      (hvisit.at ?_))
    all_goals
      intro c hc
      simp [hparts, hc]
  case h_15 condition body hform =>
    have hparts : n.children = condition.toList ++ body.toList := by rw [Node.children, hform]; rfl
    exact .append (condition_mono hscopes)
      (within_mono hscopes (hvisit.at fun c hc => by simp [hparts, hc]))
  case h_16 body condition hform =>
    have hparts : n.children = body.toList ++ condition.toList := by rw [Node.children, hform]; rfl
    exact .append (condition_mono hscopes)
      (within_mono hscopes (hvisit.at fun c hc => by simp [hparts, hc]))
  case h_17 expression cases hform =>
    have hparts : n.children = expression.toList ++ [cases] := by rw [Node.children, hform]; rfl
    exact .append (condition_mono hscopes)
      (within_mono hscopes (clauses_mono (hvisit.child (by simp [hparts]))))
  case h_18 | h_19 => exact clause_mono hvisit
  case h_20 binding block hform =>
    have hparts : n.children = binding.toList ++ [block] := by rw [Node.children, hform]; rfl
    refine within_mono hscopes (.append (declarations_mono hvisit ?_) (hvisit.at ?_))
    all_goals
      intro c hc
      simp_all
  case h_21 left operator right hform =>
    have hparts : n.children = left :: right.toList := by rw [Node.children, hform]; rfl
    split
    · exact .append (.refl _) (hvisit.at fun c hc => by simp [hparts, hc])
    · exact children_mono hvisit
  case h_22 | h_23 =>
    split
    · exact .refl _
    · exact children_mono hvisit
  case h_24 => exact children_mono hvisit

end

/-- A walk that knows more scopes reports no less, from however deep down, if it goes as deep as
the tree. -/
theorem values_mono {w : Walk} {scopes : List Node} (hscopes : w.scopes ⊆ scopes)
    (depth : Nat) {deeper : Nat} {n : Node} (hn : n.isShallow deeper = true) :
    Sublist (w.values depth (some n)) (({ w with scopes } : Walk).values deeper (some n)) := by
  induction deeper generalizing depth n with
  | zero => simp [Node.isShallow] at hn
  | succ deeper ih =>
    cases depth with
    | zero => exact List.nil_sublist _
    | succ depth =>
      have hvisit : VisitsMore (w.values depth) (({ w with scopes } : Walk).values deeper) n := by
        intro o ho
        cases o with
        | none => cases depth <;> exact List.nil_sublist _
        | some c => exact ih depth (Node.isShallow_of_below hn (ho c (.head _)))
      exact ite_sublist (enters_mono hscopes fun _ h => h) (form_mono hscopes hvisit)

end Walk

end InlineValues
