import InlineValues.Proofs.Grammar.SourceFile
import InlineValues.Proofs.Query.Walk
import InlineValues.Proofs.Token.Trivia

/-!
# Which values are shown

The tree of every text lies on that text, so that the walk over it gives a row
(`row_reportedNodes`).  From this follow the properties of the values that are shown while a program
is paused.

* What they are about ends before the token, or it is shown ahead.
* They are about nodes apart from each other, in the order of the text but for one exception.
* Nothing around them that is not a scope around the token hides them.
* They stand between two characters, and a variable that is looked up is named by the text there.
-/

namespace InlineValues

/-! ## Nodes and their spans -/

lemma Node.pos_le_start (n : Node) (s : Source) : n.pos ≤ n.start s := by
  unfold start skipTrivia
  dsimp only
  split <;> omega

lemma Node.start_le_stop {n : Node} (s : Source) (h : n.pos ≤ n.stop) : n.start s ≤ n.stop := by
  unfold start
  split <;> omega

lemma Node.stop_span_le {n : Node} (s : Source) (h : n.pos ≤ n.stop) :
    (n.span s).stop ≤ n.stop := by
  have hstart := Node.start_le_stop s h
  simp only [span, Span.ofBounds, Span.stop]
  omega

/-- The first token of a node starts between two characters. -/
lemma Node.isCut_start {s : Source} {n : Node} (hpos : s.IsCut n.pos) (hstop : s.IsCut n.stop) :
    s.IsCut (n.start s) := by
  have hmax : s.IsCut (max n.stop n.pos) := by
    rcases Nat.le_total n.stop n.pos with h | h
    · rwa [Nat.max_eq_right h]
    · rwa [Nat.max_eq_left h]
  unfold start
  split
  case isTrue =>
    rcases Nat.le_total (skipTrivia s n.pos) (max n.stop n.pos) with h | h
    · rw [Nat.min_eq_left h]
      exact isCut_skipTrivia hpos
    · rwa [Nat.min_eq_right h]
  case isFalse => exact hpos

/-- A span that begins and ends between two characters of a text. -/
structure Span.Cuts (s : Source) (span : Span) : Prop where
  start : s.IsCut span.start
  stop : s.IsCut (span.start + span.length)

/-- In a text of 32-bit size a span ends where its length says. -/
lemma Span.Cuts.stop_eq {s : Source} {span : Span} (h : span.Cuts s)
    (hsize : s.size ≤ maxOffset) : span.stop = span.start + span.length := by
  have hstop := h.stop.le_size
  simp only [Span.stop]
  omega

lemma Node.LaidOut.cuts_span {s : Source} {n : Node} (h : n.LaidOut s) : (n.span s).Cuts s where
  start := Node.isCut_start h.placed.pos_cut h.placed.stop_cut
  stop := by
    have hle := Node.start_le_stop s h.pos_le_stop
    simp only [Node.span, Span.ofBounds, Nat.add_sub_cancel' hle]
    exact h.placed.stop_cut

/-- Nodes beside each other are not inside each other. -/
lemma Node.LaidOut.not_within {s : Source} {m n : Node} (hn : n.LaidOut s) (hm : m.pos < m.stop)
    (h : m.stop ≤ n.pos ∨ n.stop ≤ m.pos) : ¬m.Within n := by
  intro hwithin
  have := hn.range_within hwithin
  omega

/-! ## The order of what is reported -/

/-- What is claimed of two reported nodes, the first of which is reported first: neither stands
inside the other, and it stands before the other in the text, unless it is the condition of a loop
around the token whose body the other stands in.  That condition is reported first and stands
behind. -/
structure Walk.Apart (w : Walk) (x y : Reported) : Prop where
  not_within : ¬x.node.Within y.node
  not_around : ¬y.node.Within x.node
  ordered : (x.value w.source).span.stop ≤ (y.value w.source).span.start ∨
    (y.value w.source).span.stop ≤ (x.value w.source).span.start ∧ ∃ scope ∈ w.scopes, ∃ body,
      scope.form = .doStatement (some body) (some x.node) ∧ y.node.Within body

namespace Walk

variable {w : Walk} {root c : Node} {x y : Reported}

lemma span_stop_le (hx : x.node.pos ≤ x.node.stop) (h : x.node.stop ≤ y.node.pos) :
    (x.value w.source).span.stop ≤ (y.value w.source).span.start := by
  rw [Reported.span_value, Reported.span_value]
  calc
    (x.node.span w.source).stop ≤ x.node.stop := Node.stop_span_le w.source hx
    _ ≤ y.node.pos := h
    _ ≤ y.node.start w.source := y.node.pos_le_start w.source

/-- The condition of a loop stands behind everything that is in its body. -/
lemma On.stop_le_condition (hw : w.On root) {scope body condition m : Node}
    (hscope : scope ∈ w.scopes) (hform : scope.form = .doStatement (some body) (some condition))
    (hm : m.Within body) : m.stop ≤ condition.pos := by
  have hlaid := hw.laidOut.within (hw.scopes scope hscope)
  have hchildren := hlaid.placed.children
  rw [Node.children, hform] at hchildren
  obtain ⟨-, -, hcondition, -⟩ := hchildren
  have hbody : body ∈ scope.children := by
    rw [Node.children, hform]
    exact .head _
  exact Nat.le_trans ((hlaid.child hbody).range_within hm).2 hcondition

lemma On.apart (hw : w.On root) (hc : c.Within root) (hx : w.Inside root c x)
    (hy : w.Inside root c y) (h : w.Follows x y) : w.Apart x y := by
  have hxlaid := hw.laidOut.within (hx.within.trans hc)
  have hylaid := hw.laidOut.within (hy.within.trans hc)
  rcases h with h | ⟨scope, hscope, body, hform, hbody⟩
  · exact ⟨hylaid.not_within hx.filled (.inl h), hxlaid.not_within hy.filled (.inr h),
      .inl (span_stop_le hxlaid.pos_le_stop h)⟩
  · have hstop := hw.stop_le_condition hscope hform hbody
    exact ⟨hylaid.not_within hx.filled (.inr hstop), hxlaid.not_within hy.filled (.inl hstop),
      .inr ⟨span_stop_le hylaid.pos_le_stop hstop, scope, hscope, body, hform, hbody⟩⟩

end Walk

/-! ## The walk over a parsed text -/

section

variable (fileName : String) (s : Source) (limits : ScopeLimits) (offset : Nat) (visible : Span)

lemma on_walkAt :
    (walkAt limits (parse fileName s) offset visible).On (parse fileName s).root where
  laidOut := by
    change Node.LaidOut (parse fileName s).source (parse fileName s).root
    rw [source_parse]
    exact (laidOut_root_parse fileName s).1
  scopes _ := within_of_mem_findScopes

/-- The walk reports what is inside the outermost scope around the token. -/
theorem row_reportedNodes :
    (walkAt limits (parse fileName s) offset visible).Row (parse fileName s).root
      (walkAt limits (parse fileName s) offset visible).scopes.getLast?.toList
      (reportedNodes limits (parse fileName s) offset visible) := by
  have hw := on_walkAt fileName s limits offset visible
  refine Walk.visits_values hw maxWalkDepth _ fun c hc => hw.scopes c ?_
  rw [Option.mem_toList] at hc
  exact List.mem_of_getLast? hc

lemma inside_reportedNodes {r : Reported}
    (hr : r ∈ reportedNodes limits (parse fileName s) offset visible) :
    ∃ outermost,
      (walkAt limits (parse fileName s) offset visible).scopes.getLast? = some outermost ∧
      (walkAt limits (parse fileName s) offset visible).Inside
        (parse fileName s).root outermost r := by
  obtain ⟨c, hc, hin⟩ := (row_reportedNodes fileName s limits offset visible).inside r hr
  exact ⟨c, Option.mem_toList.mp hc, hin⟩

/-- **Values belong to code that has run.**  Every value belongs to code in front of the token, or
it is an expression that is shown ahead: the label of a case, or what a scope around the token shows
wherever it stands, such as its condition or what it runs over. -/
theorem timely_of_mem_inlineValues {v : InlineValue}
    (hv : v ∈ inlineValues limits (parse fileName s) offset visible) :
    v.span.stop ≤ ((parse fileName s).root.tokenAt s offset).pos ∨
      ∃ (n : Node) (text : List Char), v = .expression (n.span s) text ∧
        (walkAt limits (parse fileName s) offset visible).IsShownAhead
          (parse fileName s).root n := by
  obtain ⟨r, hr, rfl⟩ := List.mem_map.mp hv
  obtain ⟨c, -, hin⟩ := inside_reportedNodes fileName s limits offset visible hr
  rcases hin.timely with hpast | ⟨n, text, rfl, hahead⟩
  · have hstop := Node.stop_span_le s (Nat.le_of_lt hin.filled)
    exact .inl (Reported.span_value s r ▸ Nat.le_trans hstop hpast)
  · exact .inr ⟨n, text, rfl, hahead⟩

/-- The condition of a loop around the token has not run yet. -/
theorem timely_whileCondition :
    InlineValue.expression ⟨7, 1⟩ ['x'] ∈
        inlineValues {} (parse "a.ts" (.ofString "while (x) y;")) 3 ⟨0, 12⟩ ∧
      ((InlineValue.expression ⟨7, 1⟩ ['x']).span.stop ≤
          ((parse "a.ts" (.ofString "while (x) y;")).root.tokenAt
            (.ofString "while (x) y;") 3).pos ∨
        ∃ (n : Node) (text : List Char),
          InlineValue.expression ⟨7, 1⟩ ['x'] =
              .expression (n.span (.ofString "while (x) y;")) text ∧
            (walkAt {} (parse "a.ts" (.ofString "while (x) y;")) 3 ⟨0, 12⟩).IsShownAhead
              (parse "a.ts" (.ofString "while (x) y;")).root n) :=
  have hv : InlineValue.expression ⟨7, 1⟩ ['x'] ∈
      inlineValues {} (parse "a.ts" (.ofString "while (x) y;")) 3 ⟨0, 12⟩ := by decide +kernel
  ⟨hv, timely_of_mem_inlineValues "a.ts" (.ofString "while (x) y;") {} 3 ⟨0, 12⟩ hv⟩

/-- **Values stand apart, in the order of the text.**  The values are those of some nodes of the
tree.  No node is reported twice or together with a node inside it, and the values come in the order
of the text.  The only exception to the order is the condition of a loop around the token that
stands behind its body: it comes in front of what is reported of the body. -/
theorem apart_reportedNodes :
    inlineValues limits (parse fileName s) offset visible =
        (reportedNodes limits (parse fileName s) offset visible).map (·.value s) ∧
      (∀ r ∈ reportedNodes limits (parse fileName s) offset visible,
        r.node.Within (parse fileName s).root) ∧
      (reportedNodes limits (parse fileName s) offset visible).Pairwise
        (walkAt limits (parse fileName s) offset visible).Apart := by
  have hw := on_walkAt fileName s limits offset visible
  have hrow := row_reportedNodes fileName s limits offset visible
  have hinside {r : Reported} := inside_reportedNodes fileName s limits offset visible (r := r)
  have houtermost {c : Node}
      (hc : (walkAt limits (parse fileName s) offset visible).scopes.getLast? = some c) :
      c.Within (parse fileName s).root :=
    hw.scopes c (List.mem_of_getLast? hc)
  refine ⟨rfl, fun r hr => ?_, ?_⟩
  · obtain ⟨c, hc, hin⟩ := hinside hr
    exact hin.within.trans (houtermost hc)
  · cases hlast : (walkAt limits (parse fileName s) offset visible).scopes.getLast? with
    | none =>
      have hnil : reportedNodes limits (parse fileName s) offset visible = [] := by
        refine List.eq_nil_iff_forall_not_mem.mpr fun r hr => ?_
        obtain ⟨c, hc, -⟩ := hinside hr
        simp [hlast] at hc
      rw [hnil]
      exact .nil
    | some c =>
      rw [hlast] at hrow
      have hc := houtermost hlast
      have hfits : Fits c.pos c.stop [c] :=
        ⟨Nat.le_refl _, (hw.laidOut.within hc).pos_le_stop, Nat.le_refl _⟩
      refine (hrow.ordered hfits).imp_of_mem fun {x y} hx hy h => ?_
      obtain ⟨d, hd, hxin⟩ := hrow.inside x hx
      obtain ⟨e, he, hyin⟩ := hrow.inside y hy
      rw [List.mem_singleton.mp hd] at hxin
      rw [List.mem_singleton.mp he] at hyin
      exact hw.apart hc hxin hyin h

/-- What is shown next to the code stands between two characters of it. -/
lemma cuts_of_mem_inlineValues {v : InlineValue}
    (hv : v ∈ inlineValues limits (parse fileName s) offset visible) : v.span.Cuts s := by
  obtain ⟨r, hr, rfl⟩ := List.mem_map.mp hv
  obtain ⟨c, hc, hin⟩ := inside_reportedNodes fileName s limits offset visible hr
  have hw := on_walkAt fileName s limits offset visible
  have hwithin := hin.within.trans (hw.scopes c (List.mem_of_getLast? hc))
  rw [source_parse, Reported.span_value]
  exact ((laidOut_root_parse fileName s).1.within hwithin).cuts_span

/-- **Names are what stands in the text.**  The name of a variable that is looked up is the text of
its span, which is not empty and begins and ends between two characters.  In a text of 32-bit size
the span ends where its length says; in a longer one the sum of start and length has no room in an
offset. -/
theorem slice?_of_mem_inlineValues {span : Span} {name : List Char}
    (hv : .lookup span name ∈ inlineValues limits (parse fileName s) offset visible) :
    name ≠ [] ∧ s.IsCut span.start ∧ s.IsCut (span.start + span.length) ∧
      s.slice? span.start (span.start + span.length) = some name ∧
      (s.size ≤ maxOffset → span.stop = span.start + span.length) := by
  have hcuts := cuts_of_mem_inlineValues fileName s limits offset visible hv
  obtain ⟨r, hr, hvalue⟩ := List.mem_map.mp hv
  obtain ⟨n, rfl, hspan⟩ : ∃ n, r = .lookup n name ∧ n.span s = span := by
    rw [source_parse] at hvalue
    cases r <;> cases hvalue
    exact ⟨_, rfl, rfl⟩
  obtain ⟨c, -, hin⟩ := inside_reportedNodes fileName s limits offset visible hr
  obtain ⟨hne, hname, -⟩ := hin.renders
  have hstop : span.start + span.length = n.stop := by
    rw [← hspan, Node.span, Span.start_ofBounds]
    exact Nat.add_sub_cancel' (Node.start_le_stop s (Nat.le_of_lt hin.filled))
  have hslice : s.slice? span.start (span.start + span.length) =
      some (s.slice span.start (span.start + span.length)) :=
    hcuts.start.slice?_eq hcuts.stop (Nat.le_add_right _ _)
  refine ⟨hne, hcuts.start, hcuts.stop, ?_, hcuts.stop_eq⟩
  rw [hslice, hname, hstop, ← hspan]
  rfl

/-- The name of a variable behind a comment. -/
theorem slice?_commentedName :
    InlineValue.lookup ⟨9, 3⟩ ['é', 'x'] ∈ inlineValues {}
        (parse "a.ts" (.ofString "let /* */éx = 1; y")) 18 ⟨0, 19⟩ ∧
      ['é', 'x'] ≠ [] ∧
      (Source.ofString "let /* */éx = 1; y").IsCut 9 ∧
      (Source.ofString "let /* */éx = 1; y").IsCut (9 + 3) ∧
      (Source.ofString "let /* */éx = 1; y").slice? 9 (9 + 3) = some ['é', 'x'] ∧
      ((Source.ofString "let /* */éx = 1; y").size ≤ maxOffset →
        (Span.mk 9 3).stop = 9 + 3) :=
  have hv : InlineValue.lookup ⟨9, 3⟩ ['é', 'x'] ∈ inlineValues {}
      (parse "a.ts" (.ofString "let /* */éx = 1; y")) 18 ⟨0, 19⟩ := by decide +kernel
  ⟨hv, slice?_of_mem_inlineValues "a.ts" (.ofString "let /* */éx = 1; y") {} 18 ⟨0, 19⟩ hv⟩

/-- **Other scopes keep their values.**  What is reported lies in the outermost scope around the
token.  Every node around it in there is a scope around the token or lets it out, and is no type.
What a construct lets out is said by `Form.LetsOut`: a declared function, for instance, lets out its
name, and an `if` its condition. -/
theorem allows_of_mem_reportedNodes {r : Reported}
    (hr : r ∈ reportedNodes limits (parse fileName s) offset visible) :
    ∃ outermost : Node,
      (findScopes limits ((parse fileName s).root.tokenAt s offset)).getLast? = some outermost ∧
      r.node.Within outermost ∧ ∀ a : Node, a.Below outermost → r.node.Below a →
        (walkAt limits (parse fileName s) offset visible).Allows r.node a := by
  obtain ⟨c, hc, hin⟩ := inside_reportedNodes fileName s limits offset visible hr
  exact ⟨c, hc, hin.within, fun a ha hbelow => hin.allowed a ha.within hbelow⟩

/-- A function that is not running lets out its name. -/
theorem allows_functionName :
    ∃ h : reportedNodes {} (parse "a.ts" (.ofString "function f() { } x;")) 17 ⟨0, 19⟩ ≠ [],
      ∃ outermost : Node,
        (findScopes {} ((parse "a.ts" (.ofString "function f() { } x;")).root.tokenAt
          (.ofString "function f() { } x;") 17)).getLast? = some outermost ∧
        ((reportedNodes {} (parse "a.ts" (.ofString "function f() { } x;")) 17 ⟨0, 19⟩).head h
          ).node.Within outermost ∧ ∀ a : Node, a.Below outermost →
          ((reportedNodes {} (parse "a.ts" (.ofString "function f() { } x;")) 17 ⟨0, 19⟩).head h
            ).node.Below a →
          (walkAt {} (parse "a.ts" (.ofString "function f() { } x;")) 17 ⟨0, 19⟩).Allows
            ((reportedNodes {} (parse "a.ts" (.ofString "function f() { } x;")) 17 ⟨0, 19⟩).head h
              ).node a :=
  ⟨by decide +kernel, allows_of_mem_reportedNodes "a.ts" (.ofString "function f() { } x;") {} 17
    ⟨0, 19⟩ (List.head_mem _)⟩

end

end InlineValues
