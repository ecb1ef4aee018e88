import InlineValues.Proofs.Token.Lexer

/-!
# What a lexer reports lies on its text

The fault of a token starts and ends between two characters.  It is the whole token
(`Scanned.invalid`), the token as far as it goes (`Scanned.regularExpression`), or a place in it
where something is missing: a closing quote, or a digit.

A lexer only adds to what it has reported (`AddsTo`), so that coming back to a snapshot, which cuts
off what was added, gives back exactly what was there (`AddsTo.shrink_eq`).
-/

namespace InlineValues

/-! ## Diagnostics on a text -/

/-- A diagnostic of a text: it starts and ends between two characters. -/
structure Diagnostic.On (s : Source) (d : Diagnostic) : Prop where
  start : s.IsCut d.start
  stop : s.IsCut (d.start + d.length)

/-- A diagnostic of a text that its lexer may report. -/
structure Diagnostic.OfLexer (s : Source) (d : Diagnostic) : Prop extends On s d where
  fault_ne : d.fault ≠ .excessiveNesting

namespace Diagnostic

variable {s : Source} {c d : Cursor} {fault : Fault}

/-- At a place something is missing. -/
lemma ofLexer_at (hc : c.On s) (hfault : fault ≠ .excessiveNesting) :
    OfLexer s ⟨c.pos, 0, fault⟩ := ⟨⟨hc.isCut, hc.isCut⟩, hfault⟩

lemma on_between (hc : c.On s) (h : c.Before d) : On s ⟨c.pos, d.pos - c.pos, fault⟩ where
  start := hc.isCut
  stop := by
    rw [Nat.add_sub_cancel' h.pos_le]
    exact (hc.of_before h).isCut

/-- Something on the way from a place to another one is wrong. -/
lemma ofLexer_between (hc : c.On s) (h : c.Before d) (hfault : fault ≠ .excessiveNesting) :
    OfLexer s ⟨c.pos, d.pos - c.pos, fault⟩ := ⟨on_between hc h, hfault⟩

end Diagnostic

/-! ## Adding diagnostics -/

/-- Diagnostics with a property were added. -/
def AddsTo (P : Diagnostic → Prop) (ds ds' : Array Diagnostic) : Prop :=
  ∃ more : List Diagnostic, ds'.toList = ds.toList ++ more ∧ ∀ d ∈ more, P d

namespace AddsTo

variable {P : Diagnostic → Prop} {ds ds' ds'' : Array Diagnostic}

lemma refl (P : Diagnostic → Prop) (ds : Array Diagnostic) : AddsTo P ds ds :=
  ⟨[], (List.append_nil _).symm, List.forall_mem_nil _⟩

lemma trans (h : AddsTo P ds ds') (h' : AddsTo P ds' ds'') : AddsTo P ds ds'' := by
  obtain ⟨more, hmore, hall⟩ := h
  obtain ⟨more', hmore', hall'⟩ := h'
  refine ⟨more ++ more', ?_, List.forall_mem_append.mpr ⟨hall, hall'⟩⟩
  rw [hmore', hmore, List.append_assoc]

lemma push {d : Diagnostic} (h : P d) (ds : Array Diagnostic) : AddsTo P ds (ds.push d) :=
  ⟨[d], Array.toList_push, List.forall_mem_singleton.mpr h⟩

/-- Nothing is taken back. -/
lemma size_le (h : AddsTo P ds ds') : ds.size ≤ ds'.size := by
  obtain ⟨more, hmore, -⟩ := h
  rw [← Array.length_toList, ← Array.length_toList, hmore, List.length_append]
  exact Nat.le_add_right _ _

lemma eq_empty (h : AddsTo P ds ds') (hempty : ds' = #[]) : ds = #[] := by
  have hsize := h.size_le
  rw [hempty] at hsize
  exact Array.size_eq_zero_iff.mp (Nat.le_zero.mp hsize)

lemma forall_mem (h : AddsTo P ds ds') (hall : ∀ d ∈ ds, P d) : ∀ d ∈ ds', P d := by
  obtain ⟨more, hmore, hall'⟩ := h
  intro d hd
  rw [← Array.mem_toList_iff, hmore] at hd
  exact (List.mem_append.mp hd).elim (fun hd => hall d (Array.mem_toList_iff.mp hd)) (hall' d)

/-- What was added can be forgotten. -/
theorem shrink_eq (h : AddsTo P ds ds') : ds'.shrink ds.size = ds := by
  obtain ⟨more, hmore, -⟩ := h
  apply Array.ext'
  rw [Array.toList_shrink, hmore, ← Array.length_toList, List.take_left]

end AddsTo

/-! ## The fault of a token -/

namespace Scanned

variable {s : Source} {start : Cursor}

/-- A fault, if there is one, that the lexer may report. -/
def Faulted (s : Source) (fault : Option Diagnostic) : Prop := ∀ d ∈ fault, d.OfLexer s

lemma faulted_none (s : Source) : Faulted s none := nofun

lemma faulted_some {d : Diagnostic} (h : d.OfLexer s) : Faulted s (some d) := by
  rintro _ ⟨⟩
  exact h

lemma faulted_missingDigits {c : Cursor} (hc : c.On s) (d : Cursor) :
    Faulted s (missingDigits c d) := by
  rw [missingDigits]
  split
  · exact faulted_some (Diagnostic.ofLexer_at hc (by decide))
  · exact faulted_none s

@[simp] lemma fault_closeNumber (start stop : Cursor) (integer : Bool)
    (fault : Option Diagnostic) : (closeNumber start stop integer fault).fault = fault := by
  rw [closeNumber]
  split <;> rfl

lemma faulted_decimalRest {fraction : Cursor} (h : fraction.On s) (integer : Bool) :
    Faulted s (decimalRest start fraction integer).fault := by
  rw [decimalRest]
  split
  · rw [fault_closeNumber]
    exact faulted_missingDigits
      (h.of_before (fraction.before_advance.trans (Cursor.before_skipIf _ _))) _
  · rw [fault_closeNumber]
    exact faulted_none s

lemma faulted_decimalNumber (h : start.On s) : Faulted s (decimalNumber start).fault := by
  have hwhole := h.of_before (avoids_decimalDigits start).1
  rw [decimalNumber_eq]
  split
  · exact faulted_decimalRest (hwhole.of_before
      ((Cursor.before_advance _).trans (avoids_decimalDigits _).1)) _
  · exact faulted_decimalRest hwhole _

lemma faulted_number (h : start.On s) : Faulted s (number start).fault := by
  rw [number]
  split
  · split
    · rw [radixNumber, fault_closeNumber]
      exact faulted_missingDigits (h.of_before (start.before_skip 2)) _
    · exact faulted_decimalNumber h
  · exact faulted_decimalNumber h

lemma faulted_string (h : start.On s) (quote : Char) : Faulted s (string quote start).fault := by
  have hstop := h.of_before (start.before_advance.trans
    (before_stringStop quote start.advance.rest start.advance.pos))
  rw [string]
  split
  · exact faulted_none s
  · exact faulted_some (Diagnostic.ofLexer_at hstop (by decide))

lemma faulted_template {body : Cursor} (h : body.On s) (head : Bool) :
    Faulted s (template head body).fault := by
  have hstop := h.of_before (before_templateStop body.rest body.pos)
  rw [template]
  split
  · exact faulted_some (Diagnostic.ofLexer_at hstop (by decide))
  · exact faulted_none s
  · exact faulted_none s

lemma faulted_regularExpression (h : start.On s) :
    Faulted s (regularExpression start).fault := by
  have hbody := start.before_advance.trans
    (onLineTo_regularExpressionStop false start.advance.rest start.advance.pos).1
  rw [regularExpression]
  split
  · exact faulted_none s
  · exact faulted_some (Diagnostic.ofLexer_between h hbody (by decide))

/-- Whatever stands in a text, the fault of the token there lies on the text. -/
lemma faulted_token (h : start.On s) : Faulted s (token start).fault := by
  rw [token]
  split
  · exact faulted_none s
  split
  · exact faulted_string h _
  split
  · exact faulted_template (h.of_before start.before_advance) true
  split
  · exact faulted_number h
  split
  · exact faulted_none s
  split
  · exact faulted_none s
  split
  · exact faulted_none s
  · exact faulted_some (Diagnostic.ofLexer_between h start.before_advance (by decide))

end Scanned

/-! ## What a lexer adds -/

namespace Lexer

variable {s : Source} {l : Lexer}

/-- From a lexer to another one only faults of the text were reported. -/
def Adds (s : Source) (l l' : Lexer) : Prop :=
  AddsTo (Diagnostic.OfLexer s) l.diagnostics l'.diagnostics

@[simp] lemma diagnostics_skipShebang (l : Lexer) :
    l.skipShebang.diagnostics = l.diagnostics := by
  unfold Lexer.skipShebang
  split <;> rfl

lemma adds_report {fault : Option Diagnostic} (h : Scanned.Faulted s fault) (l : Lexer) :
    l.Adds s (l.report fault) := by
  cases fault with
  | none => exact .refl _ _
  | some d => exact .push (h d rfl) _

lemma adds_scan (hsource : l.source = s) (hcursor : l.cursor.On s) : l.Adds s l.scan := by
  have hstop := hcursor.of_before (Trivia.before_stop l.cursor)
  have hfault : Scanned.Faulted s (some ⟨l.source.size, 0, .commentEndExpected⟩) := by
    rw [hsource]
    exact Scanned.faulted_some ⟨⟨s.isCut_size, s.isCut_size⟩, nofun⟩
  refine AddsTo.trans ?_ (adds_report (Scanned.faulted_token hstop) _)
  dsimp only
  split
  · exact adds_report hfault l
  · exact .refl _ _

lemma adds_replaceToken {t : Scanned} (h : Scanned.Faulted s t.fault) (l : Lexer) :
    l.Adds s (l.replaceToken t) := adds_report h _

lemma adds_rescanGreater (l : Lexer) : l.Adds s l.rescanGreater := by
  rw [Adds, diagnostics_rescanGreater]
  exact .refl _ _

lemma Sound.adds_rescanSlash (h : l.Sound s) : l.Adds s l.rescanSlash := by
  rw [Lexer.rescanSlash]
  split
  · rw [h.source]
    exact adds_replaceToken (Scanned.faulted_regularExpression (Cursor.on_cursor h.start)) l
  · exact .refl _ _

lemma Sound.adds_rescanTemplate (h : l.Sound s) (hkind : l.token.kind = .closeBrace) :
    l.Adds s l.rescanTemplate := by
  have hbody := (Cursor.on_cursor h.start).of_before (h.before_brace hkind)
  rw [Lexer.rescanTemplate, h.source]
  exact adds_replaceToken (Scanned.faulted_template hbody false) l

/-! ## What was reported of the current token -/

/-- What is wrong with the current token, as it was scanned, has been reported. -/
def Noted (s : Source) (l : Lexer) : Prop :=
  l.diagnostics = #[] →
    (Scanned.token (Trivia.before (s.cursor l.token.fullStart)).stop).fault = none

/-- What is read next was read without a fault, if nothing is reported. -/
lemma fault_eq_none_of_scan (h : l.scan.diagnostics = #[]) :
    l.diagnostics = #[] ∧ (Scanned.token (Trivia.before l.cursor).stop).fault = none := by
  have hreport (l : Lexer) (d : Option Diagnostic) (h : (l.report d).diagnostics = #[]) :
      l.diagnostics = #[] ∧ d = none := by
    cases d with
    | none => exact ⟨h, rfl⟩
    | some d => simp [report] at h
  obtain ⟨h, hfault⟩ := hreport _ _ h
  refine ⟨?_, hfault⟩
  split at h
  · exact (hreport _ _ h).1
  · exact h

lemma noted_scan (hcursor : l.cursor.On s) : l.scan.Noted s := by
  intro hclean
  rw [fullStart_scan, hcursor.eq_cursor]
  exact (fault_eq_none_of_scan hclean).2

/-- At the same token nothing that was reported is taken back. -/
lemma Noted.adds {l' : Lexer} (h : l.Noted s) (hadds : l.Adds s l')
    (hfull : l'.token.fullStart = l.token.fullStart) : l'.Noted s := by
  intro hclean
  rw [hfull]
  exact h (hadds.eq_empty hclean)

end Lexer

end InlineValues
