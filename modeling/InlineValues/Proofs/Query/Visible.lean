import InlineValues.Proofs.Query.MoreScopes

/-!
# The visible part of the text

What the editor shows of a text decides which nodes are walked, and nothing else.  A node that
touches the visible part touches every larger one, so that a walk that sees more enters no less
(`Walk.enters_mono`), and what it is told about the parts of a node is no less either
(`Walk.form_mono`).  The induction is on the depth: both walks go down side by side.
-/

namespace InlineValues

/-- What touches a span touches every span around it. -/
lemma Span.touches_mono {s t u : Span} (hstart : t.start ≤ s.start) (hstop : s.stop ≤ t.stop)
    (h : s.touches u = true) : t.touches u = true := by
  simp only [touches, Bool.and_eq_true, decide_eq_true_eq] at h ⊢
  omega

lemma Span.stop_le_everything (s : Span) : s.stop ≤ everything.stop := Nat.min_le_right ..

/-- A walk that sees more of the text reports no less. -/
lemma Walk.values_sublist_of_visible {w : Walk} {visible : Span}
    (hvisible : ∀ span, w.visible.touches span = true → visible.touches span = true)
    (depth : Nat) (o : Option Node) :
    (w.values depth o).Sublist (({ w with visible } : Walk).values depth o) := by
  induction depth generalizing o with
  | zero => exact List.nil_sublist _
  | succ depth ih =>
    cases o with
    | none => exact .slnil
    | some n =>
      have hscopes : w.scopes ⊆ w.scopes := fun _ h => h
      have hparts : Walk.VisitsMore (w.values depth) (({ w with visible } : Walk).values depth) n :=
        fun o _ => ih o
      exact Walk.ite_sublist (Walk.enters_mono hscopes hvisible) (Walk.form_mono hscopes hparts)

/-- **To see less of a text takes values away** and changes nothing else.  What is reported for a
part of the text is among what is reported for every larger part, in the same order and with the
same spans and texts, and so among what is reported for the whole text. -/
theorem inlineValues_sublist_of_visible (limits : ScopeLimits) (file : ParsedFile) (offset : Nat)
    {visible wider : Span} (hstart : wider.start ≤ visible.start)
    (hstop : visible.stop ≤ wider.stop) :
    (inlineValues limits file offset visible).Sublist (inlineValues limits file offset wider) ∧
      (inlineValues limits file offset visible).Sublist
        (inlineValues limits file offset .everything) := by
  have hmono {wider : Span} (hstart : wider.start ≤ visible.start)
      (hstop : visible.stop ≤ wider.stop) :
      (inlineValues limits file offset visible).Sublist
        (inlineValues limits file offset wider) := by
    have hwalk := Walk.values_sublist_of_visible (w := walkAt limits file offset visible)
      (fun _ => Span.touches_mono hstart hstop) maxWalkDepth
    exact (hwalk _).map _
  exact ⟨hmono hstart hstop, hmono (Nat.zero_le _) visible.stop_le_everything⟩

/-- The second of two lines, and both. -/
theorem inlineValues_sublist_of_visible_line :
    (Span.mk 0 14).start ≤ (Span.mk 7 7).start ∧ (Span.mk 7 7).stop ≤ (Span.mk 0 14).stop ∧
      inlineValues {} (parse "a.ts" (.ofString "x = 1;\n\ny = 2;z")) 14 ⟨7, 7⟩ =
        [.lookup ⟨8, 1⟩ ['y']] ∧
      (inlineValues {} (parse "a.ts" (.ofString "x = 1;\n\ny = 2;z")) 14 ⟨7, 7⟩).Sublist
        (inlineValues {} (parse "a.ts" (.ofString "x = 1;\n\ny = 2;z")) 14 ⟨0, 14⟩) ∧
      (inlineValues {} (parse "a.ts" (.ofString "x = 1;\n\ny = 2;z")) 14 ⟨7, 7⟩).Sublist
        (inlineValues {} (parse "a.ts" (.ofString "x = 1;\n\ny = 2;z")) 14 .everything) :=
  ⟨by decide, by decide, by decide +kernel, inlineValues_sublist_of_visible {} _ 14 (by decide)
    (by decide)⟩

end InlineValues
