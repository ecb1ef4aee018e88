import InlineValues.Proofs.Grammar.Lookahead
import InlineValues.Proofs.Tree.Nesting

/-!
# What a production carries over from its symbols

The nodes that a production gives are made of what the symbols in it have given.  So a property
that a node of an open form inherits from its children (`Node.Inherited`) is carried over from the
symbols to the production, wherever the production runs: `Parser.Carries` says so for one depth, to
which the production comes back.  What reads tokens only gives no nodes and does not change the
depth (`Parser.Frames`); a proof passes over it with `Carries.skip`.

Brackets and signs are no open forms.  What a production needs of its brackets is part of
`Rules.Carries`.
-/

namespace InlineValues

/-- A property that a node of an open form has if its children have it. -/
class Node.Inherited (P : Node → Prop) : Prop where
  of_children : ∀ n : Node, n.form.isOpen = true → (∀ c ∈ n.children, P c) → P n

instance (brackets signs : Nat) : Node.Inherited (Node.Shallow brackets signs) :=
  ⟨fun _ => Node.Shallow.of_children⟩

/-- Each of the nodes has a property. -/
def Node.Each (P : Node → Prop) (ns : List Node) : Prop := ∀ n ∈ ns, P n

namespace Node.Each

variable {P : Node → Prop} {xs ys : List Node}

lemma nil : Each P [] := List.forall_mem_nil _

lemma append (h : Each P xs) (h' : Each P ys) : Each P (xs ++ ys) :=
  List.forall_mem_append.mpr ⟨h, h'⟩

lemma left (h : Each P (xs ++ ys)) : Each P xs := fun n hn => h n (List.mem_append_left ys hn)

lemma right (h : Each P (xs ++ ys)) : Each P ys := fun n hn => h n (List.mem_append_right xs hn)

lemma reverse (h : Each P xs) : Each P xs.reverse := fun n hn => h n (List.mem_reverse.mp hn)

lemma mono {Q : Node → Prop} (h : Each P xs) (hPQ : ∀ n, P n → Q n) : Each Q xs :=
  fun n hn => hPQ n (h n hn)

lemma consNode? {o : Option Node} (h : Each P o.toList) (h' : Each P xs) :
    Each P (Parser.consNode? o xs) := by
  cases o with
  | none => exact h'
  | some n => exact h.append h'

end Node.Each

namespace Parser

open ParserState Node

variable {α β : Type}

/-- Run at the depth `d`, the parser comes back to that depth, and each of the nodes that are found
in its result has a property. -/
def Carries (d : Nat) (P : Node → Prop) (p : Parser α) (nodes : α → List Node) : Prop :=
  ∀ st : ParserState, st.depth = d → p.Gives st fun a st' => st'.depth = d ∧ Each P (nodes a)

namespace Carries

variable {d : Nat} {P : Node → Prop} {p q : Parser α} {f : α → Parser β} {nodes : α → List Node}
  {nodes' : β → List Node}

lemma mono {Q : Node → Prop} (h : p.Carries d P nodes) (hPQ : ∀ n, P n → Q n) :
    p.Carries d Q nodes :=
  fun st hst => (h st hst).mono fun _ _ h => ⟨h.1, h.2.mono hPQ⟩

lemma pure {a : α} (h : Each P (nodes a)) : (Pure.pure a : Parser α).Carries d P nodes :=
  fun _ hst => ⟨hst, h⟩

lemma none : (Pure.pure Option.none : Parser (Option Node)).Carries d P Option.toList := pure .nil

/-- The nodes of the first parser may have another property than those of the second. -/
lemma bind_of {Q : Node → Prop} (hp : p.Carries d Q nodes)
    (hf : ∀ a, Each Q (nodes a) → (f a).Carries d P nodes') : (p >>= f).Carries d P nodes' :=
  fun st hst => (hp st hst).bind fun a st₁ h => hf a h.2 st₁ h.1

lemma bind (hp : p.Carries d P nodes) (hf : ∀ a, Each P (nodes a) → (f a).Carries d P nodes') :
    (p >>= f).Carries d P nodes' := hp.bind_of hf

lemma frame [p.Frames] : p.Carries d P fun _ => [] :=
  fun st hst => (Frames.frame st).mono fun _ _ h => ⟨h.depth.trans hst, .nil⟩

/-- Tokens are passed. -/
theorem skip [p.Frames] (hf : ∀ a, (f a).Carries d P nodes') : (p >>= f).Carries d P nodes' :=
  fun st hst => (Frames.frame st).bind fun a st₁ h => hf a st₁ (h.depth.trans hst)

lemma ite {c : Prop} {_ : Decidable c} (hp : p.Carries d P nodes) (hq : q.Carries d P nodes) :
    Carries d P (if c then p else q) nodes := by
  split
  · exact hp
  · exact hq

/-- A part that is left out where its condition fails. -/
lemma orNone {c : Prop} {_ : Decidable c} {p : Parser (Option Node)}
    (h : p.Carries d P Option.toList) :
    Carries d P (if c then p else Pure.pure Option.none) Option.toList := .ite h .none

/-- Tokens are passed where a condition holds. -/
lemma skip_if {c : Prop} {_ : Decidable c} {f : PUnit → Parser β} {p : Parser PUnit} [p.Frames]
    (h : ∀ u, (f u).Carries d P nodes') : Carries d P (if c then p >>= f else f ⟨⟩) nodes' :=
  .ite (.skip h) (h ⟨⟩)

/-- A branch that is taken where a condition holds and a test then succeeds. -/
lemma ite_test {c : Prop} {_ : Decidable c} {test : Parser Bool} [test.Frames]
    (hp : p.Carries d P nodes) (hq : q.Carries d P nodes) :
    Carries d P (if c then test >>= fun b => if b = true then p else q else q) nodes :=
  .ite (.skip fun _ => .ite hp hq) hq

lemma pure_bind {a : α} (h : (f a).Carries d P nodes') :
    ((Pure.pure a : Parser α) >>= f).Carries d P nodes' := h

/-- A branch whose result goes on in one way. -/
lemma ite_bind {c : Prop} {_ : Decidable c} (h : Carries d P (if c then p else q) nodes)
    (hf : ∀ a, Each P (nodes a) → (f a).Carries d P nodes') :
    Carries d P (if c then p >>= f else q >>= f) nodes' := by
  split at h
  · rw [if_pos (by assumption)]
    exact h.bind hf
  · rw [if_neg (by assumption)]
    exact h.bind hf

lemma map {g : α → β} (h : p.Carries d P fun a => nodes' (g a)) :
    (g <$> p).Carries d P nodes' := h

/-- What is left out of the tree. -/
lemma forget (h : p.Carries d P nodes) : p.Carries d P fun _ => [] :=
  fun st hst => (h st hst).mono fun _ _ h => ⟨h.1, .nil⟩

lemma option {p : Parser Node} (h : p.Carries d P fun n => [n]) :
    Carries d P (do return some (← p)) Option.toList := h

lemma map_some {p : Parser Node} (h : p.Carries d P fun n => [n]) :
    (some <$> p).Carries d P Option.toList := h

lemma someList {p : Parser (Sequence Node)} (h : p.Carries d P Sequence.items) :
    (some <$> p).Carries d P itemsOf := h

/-- A list that is left out where its condition fails. -/
lemma listOrNone {c : Prop} {_ : Decidable c} {p : Parser (Sequence Node)}
    (h : p.Carries d P Sequence.items) :
    Carries d P (if c then some <$> p else Pure.pure Option.none) itemsOf :=
  .ite h.someList (.pure .nil)

/-- A round of a loop that goes on with a node. -/
lemma again {p : Parser Node} (h : p.Carries d P fun n => [n]) :
    Carries d P (do return ForInStep.yield (← p)) fun r => [r.value] := h

lemma inContext (h : p.Carries d P nodes) (change : Context → Context) :
    (inContext change p).Carries d P nodes := fun st hst => h { st with context := _ } hst

/-- A guarded production runs one level deeper, unless none is left. -/
lemma nested {p : Parser (Option Node)}
    (h : d < maxParserDepth → p.Carries (d + 1) P Option.toList) :
    (nested p).Carries d P Option.toList := by
  intro st hst
  refine .nested (fun hlt => ?_) fun _ => ?_
  · rw [hst] at hlt
    refine (h hlt _ (congrArg (· + 1) hst)).mono fun o st₁ h₁ => ⟨?_, h₁.2⟩
    change st₁.depth - 1 = d
    rw [h₁.1, Nat.add_sub_cancel]
  · have hreport (c : Bool) : Carries d P (do
        if c then report .excessiveNesting
        Pure.pure Option.none) Option.toList := .skip_if fun _ => .none
    exact .get (.modify_bind (hreport _ _ hst))

/-- A node that inherits the property. -/
lemma node [Inherited P] {pos : Nat} {form : Form Node} (hopen : form.isOpen = true)
    (h : Each P form.children) : (finish pos form).Carries d P fun n => [n] :=
  fun _ hst => ⟨hst, List.forall_mem_singleton.mpr (Inherited.of_children _ hopen h)⟩

lemma someNode [Inherited P] {pos : Nat} {form : Form Node} (hopen : form.isOpen = true)
    (h : Each P form.children) :
    Carries d P (do return some (← finish pos form)) Option.toList := option (node hopen h)

lemma nodeAt [Inherited P] {pos stop : Nat} {form : Form Node} (hopen : form.isOpen = true)
    (h : Each P form.children) : (nodeAt pos stop form).Carries d P fun n => [n] :=
  fun _ hst => ⟨hst, List.forall_mem_singleton.mpr (Inherited.of_children _ hopen h)⟩

/-- A bracket that is no sign adds one bracket. -/
lemma bracket {brackets signs pos : Nat} {form : Form Node}
    (hsign : ∀ origin stop, Node.isSign ⟨origin, stop, form⟩ = false)
    (h : Each (Shallow brackets signs) form.children) :
    (finish pos form).Carries d (Shallow (brackets + 1) signs) fun n => [n] :=
  fun _ hst => ⟨hst, List.forall_mem_singleton.mpr (.of_bracket (hsign _ _) h)⟩

/-- An operand with a sign in front of it adds one sign. -/
lemma sign {brackets signs pos : Nat} {operator : TokenKind} {operand : Option Node}
    (h : Each (Shallow brackets signs) operand.toList) :
    (finish pos (.prefixUnary operator operand)).Carries d (Shallow brackets (signs + 1))
      fun n => [n] :=
  fun _ hst => ⟨hst, List.forall_mem_singleton.mpr (.of_sign rfl h)⟩

/-- What every round of a loop carries over is carried over by the loop. -/
lemma repeatFrom {step : α → Parser (ForInStep α)} {a : α} (h : Each P (nodes a))
    (hstep : ∀ a, Each P (nodes a) → (step a).Carries d P fun r => nodes r.value) :
    (repeatFrom a step).Carries d P nodes :=
  fun _ hst => .get (gives_iterate_keeping (I := fun a st' => st'.depth = d ∧ Each P (nodes a))
    (fun _ _ h => h) (fun a st h => hstep a h.2 st h.1) _ _ ⟨hst, h⟩)

lemma sequenceOf {items : List (Option Node)} (h : Each P (items.filterMap id)) :
    (sequenceOf items id).Carries d P fun q => q.items.filterMap id := fun _ hst => ⟨hst, h⟩

lemma sequence {items : List Node} (h : Each P items) :
    (sequence items).Carries d P Sequence.items := fun _ hst => ⟨hst, h⟩

lemma sequence? {items : List Node} (h : Each P items) :
    (sequence? items).Carries d P itemsOf := by
  cases items with
  | nil => exact pure .nil
  | cons n ns => exact (sequence h).bind fun q hq => pure hq

/-- The same for a loop that gathers nodes. -/
lemma collect {step : List Node → Parser (ForInStep (List Node))}
    (hstep : ∀ ns, Each P ns → (step ns).Carries d P ForInStep.value) :
    (Parser.repeatFrom [] step).Carries d P id := .repeatFrom .nil hstep

/-- A round that may be the last one gives the same nodes in both cases. -/
lemma yieldIf {c : Prop} {_ : Decidable c} {ns : List Node} (h : Each P ns) :
    (Pure.pure (if c then .yield ns else .done ns) : Parser (ForInStep (List Node))).Carries d P
      ForInStep.value := by
  refine .pure ?_
  split
  · exact h
  · exact h

/-- What each element of a list carries over is carried over by the list. -/
lemma delimited {element : Parser (Option Node)} (h : element.Carries d P Option.toList)
    (opening close : TokenKind) : (delimited opening close element).Carries d P Sequence.items := by
  have hloop : (Parser.repeatFrom ([], false) (delimitedStep close element)).Carries d P
      Prod.fst := by
    refine .repeatFrom .nil fun read hread => ?_
    refine .skip fun _ => .skip fun _ => .ite (.pure hread) (.skip fun _ => ?_)
    refine h.bind fun o ho => .skip fun _ => ?_
    have hnodes := ho.consNode? hread
    exact .ite (.pure hnodes) (.skip fun _ => .skip fun _ =>
      .ite (.pure hnodes) (.skip fun _ => .pure hnodes))
  exact .skip fun _ => hloop.bind fun read hread =>
    .bind (.sequence hread.reverse) fun q hq => .skip fun _ => .pure hq

end Carries

end Parser

/-- What the symbols of a grammar give at the depth `d` has a property, and so have the brackets
that are made there. -/
structure Rules.Carries (d : Nat) (P : Node → Prop) (rules : Rules) : Prop where
  symbol : ∀ x, x ≠ .typeOperator → (rules x).Carries d P Option.toList
  block : (Parser.block rules).Carries d P fun n => [n]
  parenthesized : (Parser.parenthesized rules).Carries d P fun n => [n]
  arrayLiteral : (Parser.arrayLiteral rules).Carries d P fun n => [n]

end InlineValues
