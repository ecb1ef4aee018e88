import InlineValues.Query.Collect
import InlineValues.Proofs.Query.Scope

/-!
# Rows of reported nodes

`Walk.Inside` is all that is claimed of one reported node in the part of the tree where it was
found: it is not empty, a node of the tree shows it as a whole if it is an expression
(`Walk.Expressed`), it is `Timely`, its text is the one that it should have (`Walk.Renders`), and
everything around it inside that part lets it out (`Walk.Allows`).  `Walk.Row` says in addition
that what is reported from nodes in a row comes in the order of the text.

Rows are put together as the walk puts together what it reports: side by side (`Row.append`), and
inside a node that lets them out (`Row.close`).  They start from single values, each of which gives
a row for the name or the expression that it is about.
-/

namespace InlineValues

/-! ## What may be reported -/

/-- The part of a form that is shown even where it has not run yet, if the form is a scope around
the token. -/
def Form.shownAhead : Form Node → Option Node
  | .ifStatement condition _ _ | .whileStatement condition _ | .doStatement _ condition
  | .switchStatement condition _ | .forStatement _ condition _ _ => condition
  | .forInStatement _ expression _ | .forOfStatement _ _ expression _ => expression
  | _ => none

/-- Whether a form lets out a node inside it even though it is no scope around the token.  Blocks,
loops over something and handlers let out nothing, functions and classes their name at most, and
statements with a condition what is in the condition. -/
def Form.LetsOut (m : Node) : Form Node → Prop
  | .block .. | .forStatement .. | .forInStatement .. | .forOfStatement .. | .catchClause ..
  | .functionExpression _ | .arrowFunction _ | .classExpression _ => False
  | .functionDeclaration parts => parts.name = some m
  | .classDeclaration parts => parts.name = some m
  | .ifStatement condition _ _ | .whileStatement condition _ | .doStatement _ condition
  | .switchStatement condition _ => ∃ c ∈ condition, m.Within c
  | _ => True

namespace Walk

/-- Whether a node may stand around a node that is reported. -/
def Allows (w : Walk) (m a : Node) : Prop :=
  a.kind.isType = false ∧ (a ∈ w.scopes ∨ a.form.LetsOut m)

lemma Allows.of_form {w : Walk} {m a : Node} {form : Form Node} (hform : a.form = form)
    (htype : form.kind.isType = false) (hlets : form.LetsOut m) : w.Allows m a := by
  subst hform
  exact ⟨htype, .inr hlets⟩

/-- An expression that is shown wherever it stands: the label of a case, or what a scope around the
token shows ahead. -/
def IsShownAhead (w : Walk) (root n : Node) : Prop :=
  (∃ c : Node, c.Within root ∧ ∃ statements, c.form = .caseClause (some n) statements) ∨
    ∃ scope ∈ w.scopes, scope.form.shownAhead = some n

/-- A reported node ends before the token, or it is an expression that is shown ahead. -/
def Timely (w : Walk) (root : Node) (r : Reported) : Prop :=
  r.node.stop ≤ w.tokenPos ∨ ∃ n text, r = .expression n text ∧ w.IsShownAhead root n

/-- One reported node stands before another one in the text, or it is the condition of a loop whose
body the other one stands in. -/
def Follows (w : Walk) (x y : Reported) : Prop :=
  x.node.stop ≤ y.node.pos ∨ ∃ scope ∈ w.scopes, ∃ body,
    scope.form = .doStatement (some body) (some x.node) ∧ y.node.Within body

/-- The text of a reported node: that of a name is the one that the node stands on, and that of an
expression the one that is printed for it, with nothing left out. -/
def Renders (w : Walk) : Reported → Prop
  | .lookup n name =>
    name ≠ [] ∧ name = w.source.slice (n.start w.source) n.stop ∧ OneLine name
  | .expression n text =>
    text = (print w.source {} n).text ∧ (print w.source {} n).truncated = false

/-- What is claimed of an expression that is reported: it is not empty, and a node of the tree shows
it as a whole. -/
structure Expressed (root n : Node) : Prop where
  filled : n.pos < n.stop
  shown : ∃ m : Node, m.Within root ∧ n ∈ m.form.shown

/-- What is claimed of a node that is reported from inside `c`. -/
structure Inside (w : Walk) (root c : Node) (r : Reported) : Prop where
  within : r.node.Within c
  pos_le : c.pos ≤ r.node.pos
  stop_le : r.node.stop ≤ c.stop
  filled : r.node.pos < r.node.stop
  expressed : ∀ n text, r = .expression n text → Expressed root n
  timely : w.Timely root r
  renders : w.Renders r
  allowed : ∀ a : Node, a.Within c → r.node.Below a → w.Allows r.node a

/-- What is claimed of the nodes that are reported from inside the nodes of a row. -/
structure Row (w : Walk) (root : Node) (cs : List Node) (rs : List Reported) : Prop where
  inside : ∀ r ∈ rs, ∃ c ∈ cs, w.Inside root c r
  ordered : ∀ {a b}, Fits a b cs → rs.Pairwise w.Follows

/-- A walk over the tree of a text. -/
structure On (w : Walk) (root : Node) : Prop where
  laidOut : root.LaidOut w.source
  scopes : ∀ n ∈ w.scopes, n.Within root

lemma On.expressed {w : Walk} {root n : Node} (hw : w.On root) (hn : n.Within root) :
    ∀ c ∈ n.form.shown, Expressed root c := fun c hc =>
  ⟨(hw.laidOut.within hn).lt_of_mem_evaluated c (n.form.shown_subset_evaluated hc),
    ⟨n, hn, hc⟩⟩

/-! ## Rows -/

namespace Row

variable {w : Walk} {root n : Node} {cs ds : List Node} {rs ts : List Reported}

lemma none : w.Row root cs [] := ⟨by simp, fun _ => .nil⟩

/-- What is reported side by side comes in the order of the text. -/
theorem append (h : w.Row root cs rs) (h' : w.Row root ds ts) :
    w.Row root (cs ++ ds) (rs ++ ts) where
  inside r hr := by
    rcases List.mem_append.mp hr with hr | hr
    · obtain ⟨c, hc, hin⟩ := h.inside r hr
      exact ⟨c, List.mem_append_left ds hc, hin⟩
    · obtain ⟨c, hc, hin⟩ := h'.inside r hr
      exact ⟨c, List.mem_append_right cs hc, hin⟩
  ordered hfits := by
    obtain ⟨p, hcs, hds⟩ := hfits.split
    refine List.pairwise_append.mpr ⟨h.ordered hcs, h'.ordered hds, fun x hx y hy => .inl ?_⟩
    obtain ⟨c, hc, hxin⟩ := h.inside x hx
    obtain ⟨d, hd, hyin⟩ := h'.inside y hy
    have := (hcs.of_mem hc).2.2
    have := (hds.of_mem hd).1
    have := hxin.stop_le
    have := hyin.pos_le
    omega

/-- Nothing is reported from the nodes behind. -/
lemma skip (h : w.Row root cs rs) (ds : List Node) : w.Row root (cs ++ ds) rs := by
  have hds : w.Row root ds [] := .none
  simpa using h.append hds

/-- Nothing is reported from the nodes in front. -/
lemma behind (h : w.Row root ds rs) (cs : List Node) : w.Row root (cs ++ ds) rs :=
  Row.none.append h

lemma flatMap {f : Node → List Reported} (h : ∀ c ∈ cs, w.Row root [c] (f c)) :
    w.Row root cs (cs.flatMap f) := by
  induction cs with
  | nil => exact .none
  | cons c cs ih =>
    rw [List.flatMap_cons]
    exact (h c (.head cs)).append (ih fun d hd => h d (.tail c hd))

/-- A node that is reported itself. -/
lemma leaf {r : Reported} (hr : r.node = n) (hlt : n.pos < n.stop)
    (hshown : ∀ n text, r = .expression n text → Expressed root n) (htimely : w.Timely root r)
    (hrenders : w.Renders r) : w.Row root [n] [r] where
  inside r' hr' := by
    rw [List.mem_singleton.mp hr']
    subst hr
    refine ⟨r.node, .head _, .refl, Nat.le_refl _, Nat.le_refl _, hlt, hshown, htimely, hrenders,
      fun a ha hbelow => ?_⟩
    exact (hbelow.not_within ha).elim
  ordered _ := List.pairwise_singleton _ _

/-- What is reported from the children of a node is reported from the node, if it lets that out. -/
theorem close {form : Form Node} (hn : n.LaidOut w.source) (hform : n.form = form)
    (h : w.Row root form.children rs) (hallows : ∀ r ∈ rs, w.Allows r.node n) :
    w.Row root [n] rs := by
  subst hform
  refine ⟨fun r hr => ?_, fun _ => h.ordered hn.placed.children⟩
  · obtain ⟨c, hc, hin⟩ := h.inside r hr
    have hchild := hn.placed.children.of_mem hc
    refine ⟨n, .head _, .child hc hin.within, ?_, ?_, hin.filled, hin.expressed, hin.timely,
      hin.renders, fun a ha hbelow => ?_⟩
    · exact Nat.le_trans hchild.1 hin.pos_le
    · exact Nat.le_trans hin.stop_le hchild.2.2
    · rcases hn.within_child hc hin.within hin.filled ha hbelow with rfl | ha
      · exact hallows r hr
      · exact hin.allowed a ha hbelow

end Row

/-! ## Values -/

section

variable {w : Walk} {root n : Node} {o : Option Node}

lemma isPast_iff : w.isPast n = true ↔ n.stop ≤ w.tokenPos := by simp [isPast]

lemma row_expressionOf (hshown : Expressed root n)
    (htimely : n.stop ≤ w.tokenPos ∨ w.IsShownAhead root n) :
    w.Row root [n] (w.expressionOf n) := by
  unfold expressionOf
  dsimp only
  split
  case isTrue => exact .none
  case isFalse hfull =>
    simp only [Bool.or_eq_true, not_or, Bool.not_eq_true] at hfull
    refine .leaf rfl hshown.filled (fun m text heq => ?_)
      (htimely.imp_right fun h => ⟨n, _, rfl, h⟩) ⟨rfl, hfull.2⟩
    cases heq
    exact hshown

lemma row_expression (hshown : ∀ c ∈ o.toList, Expressed root c)
    (hahead : ∀ c, o = some c → w.IsShownAhead root c) :
    w.Row root o.toList (w.expression o) := by
  cases o with
  | none => exact .none
  | some n => exact row_expressionOf (hshown n (.head _)) (.inr (hahead n rfl))

lemma row_pastExpression (hshown : ∀ c ∈ o.toList, Expressed root c) :
    w.Row root o.toList (w.pastExpression o) := by
  cases o with
  | none => exact .none
  | some n =>
    change w.Row root [n] (if w.isPast n then w.expressionOf n else [])
    split
    case isTrue hpast => exact row_expressionOf (hshown n (.head _)) (.inl (isPast_iff.mp hpast))
    case isFalse => exact .none

/-- A name that is looked up is the text that it stands on. -/
lemma row_lookup (ho : ∀ c ∈ o.toList, c.Proper w.source) :
    w.Row root o.toList (w.lookup o) := by
  have hname (n : Node) (text : List Char) (hn : n.Proper w.source)
      (htext : n.form.name? = some text) :
      w.Row root [n] (if w.isPast n && !text.isEmpty then [.lookup n text] else []) := by
    split
    case isTrue h =>
      simp only [Bool.and_eq_true, Bool.not_eq_true', List.isEmpty_eq_false_iff] at h
      exact .leaf rfl hn.lt (fun _ _ heq => absurd heq (by simp)) (.inl (isPast_iff.mp h.1))
        ⟨h.2, hn.spelled _ htext⟩
    case isFalse => exact .none
  unfold lookup
  split
  · exact hname _ _ (ho _ (.head _)) rfl
  · exact hname _ _ (ho _ (.head _)) rfl
  · exact .none

/-- What is inside a statement counts if the statement is a scope around the token. -/
lemma row_within {cs : List Node} {rs : List Reported} (h : w.Row root cs rs) :
    w.Row root cs (w.within n rs) := by
  unfold within
  split
  case isTrue => exact h
  case isFalse => exact .none

end

end Walk

end InlineValues
