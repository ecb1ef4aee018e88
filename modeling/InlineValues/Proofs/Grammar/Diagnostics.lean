import InlineValues.Proofs.Grammar.SourceFile

/-!
# The diagnostics of a text

What a pass reports comes from the parser and from the lexer, and either of them may have taken
back what it had reported while looking ahead.  That nothing else is ever taken back, and that each
report lies on the text, is known of every production (`ParserState.Tells`), and how often the text
is nested too deeply is part of what is sound in a state (`ParserState.Told`).

Here the reports of a pass are put in order (`Parser.ReadsFile.reportsOn`), and those of a text are
the ones of the pass that its tree comes from (`reportsOn_parse`).
-/

namespace InlineValues

/-- What holds of the diagnostics of a text: they are ordered, each of them lies on the text, the
text is nested too deeply once at most, and something is reported where a production was refused
because of that. -/
structure ReportsOn (s : Source) (refused : Bool) (ds : List Diagnostic) : Prop where
  sorted : ds.Pairwise fun d d' => d.start ≤ d'.start
  start_cut : ∀ d ∈ ds, s.IsCut d.start
  stop_cut : ∀ d ∈ ds, s.IsCut (d.start + d.length)
  stop_le : ∀ d ∈ ds, d.start + d.length ≤ s.size
  once : ds.countP (fun d => d.fault.code == Fault.excessiveNesting.code) ≤ 1
  refusal : refused = true → ds ≠ []

/-- No other fault has the number of excessive nesting. -/
lemma Fault.code_beq_excessiveNesting (fault : Fault) :
    (fault.code == Fault.excessiveNesting.code) = (fault == .excessiveNesting) := by
  cases fault <;> rfl

namespace ParserState

variable {s : Source} {st : ParserState}

/-- Putting the reports in order leaves none of them out. -/
lemma perm_allDiagnostics (st : ParserState) :
    st.allDiagnostics.Perm (st.diagnostics.toList ++ st.lexer.diagnostics.toList) := by
  rw [allDiagnostics, Array.toList_append]
  exact List.mergeSort_perm _ _

lemma sorted_allDiagnostics (st : ParserState) :
    st.allDiagnostics.Pairwise fun d d' => d.start ≤ d'.start := by
  have hsorted : st.allDiagnostics.Pairwise fun d d' => decide (d.start ≤ d'.start) = true := by
    apply List.pairwise_mergeSort
    case trans =>
      intro d d' d'' h h'
      simp only [decide_eq_true_eq] at h h' ⊢
      exact Nat.le_trans h h'
    case total =>
      intro d d'
      simp only [Bool.or_eq_true, decide_eq_true_eq]
      exact Nat.le_total d.start d'.start
  exact hsorted.imp fun h => of_decide_eq_true h

lemma on_of_mem_allDiagnostics (hparser : ∀ d ∈ st.diagnostics, d.On s)
    (hlexer : ∀ d ∈ st.lexer.diagnostics, d.OfLexer s) {d : Diagnostic}
    (hd : d ∈ st.allDiagnostics) : d.On s := by
  rw [st.perm_allDiagnostics.mem_iff, List.mem_append, Array.mem_toList_iff,
    Array.mem_toList_iff] at hd
  rcases hd with hd | hd
  · exact hparser d hd
  · exact (hlexer d hd).toOn

/-- Only the parser reports that a text is nested too deeply. -/
lemma countP_allDiagnostics (hlexer : ∀ d ∈ st.lexer.diagnostics, d.OfLexer s) :
    st.allDiagnostics.countP (fun d => d.fault == .excessiveNesting) =
      st.diagnostics.countP fun d => d.fault == .excessiveNesting := by
  have hnone : st.lexer.diagnostics.countP (fun d => d.fault == .excessiveNesting) = 0 := by
    rw [Array.countP_eq_zero]
    intro d hd hfault
    exact (hlexer d hd).fault_ne (eq_of_beq hfault)
  rw [st.perm_allDiagnostics.countP_eq, List.countP_append, Array.countP_toList,
    Array.countP_toList, hnone, Nat.add_zero]

end ParserState

/-- The reports of a pass over a text. -/
theorem Parser.ReadsFile.reportsOn {fileName : String} {s : Source}
    {knownNames : Array (List Char)} {n : Node} {st : ParserState}
    (h : ReadsFile fileName s knownNames n st) : ReportsOn s st.refused st.allDiagnostics := by
  have hon {d : Diagnostic} (hd : d ∈ st.allDiagnostics) : d.On s :=
    ParserState.on_of_mem_allDiagnostics h.reported h.scanned hd
  constructor
  case sorted => exact st.sorted_allDiagnostics
  case start_cut => exact fun d hd => (hon hd).start
  case stop_cut => exact fun d hd => (hon hd).stop
  case stop_le => exact fun d hd => (hon hd).stop.le_size
  case once =>
    simp only [Fault.code_beq_excessiveNesting]
    rw [ParserState.countP_allDiagnostics h.scanned]
    exact h.told.once
  case refusal =>
    intro hrefused hempty
    have hsize := h.told.refusal hrefused
    have hlength := st.perm_allDiagnostics.length_eq
    rw [hempty, List.length_nil, List.length_append, Array.length_toList] at hlength
    omega

/-- The pass that the tree of a text comes from: the second one, where the names of the whole text
were asked for in the first. -/
def lastPass (fileName : String) (s : Source) : Node × ParserState :=
  let first := parseWith fileName s #[]
  if first.2.consulted then parseWith fileName s first.2.arena.names else first

lemma parse_eq_lastPass (fileName : String) (s : Source) :
    parse fileName s = ⟨s, (lastPass fileName s).1, (lastPass fileName s).2.arena,
      (lastPass fileName s).2.allDiagnostics⟩ := rfl

lemma exists_lastPass_eq (fileName : String) (s : Source) :
    ∃ knownNames, lastPass fileName s = parseWith fileName s knownNames := by
  rw [lastPass]
  split
  · exact ⟨_, rfl⟩
  · exact ⟨_, rfl⟩

/-- **Diagnostics are ordered and lie on the text.**  The diagnostics of every text, those of the
lexer and those of the parser together, are ordered by their start, and each of them begins and ends
between two characters.

At most one of them says that the text is nested too deeply.  Where a production was refused for
that, even while looking ahead, there is at least one diagnostic.  It need not be that one, since
nothing is reported where something was reported before. -/
theorem reportsOn_parse (fileName : String) (s : Source) :
    ReportsOn s (lastPass fileName s).2.refused (parse fileName s).diagnostics := by
  obtain ⟨knownNames, hpass⟩ := exists_lastPass_eq fileName s
  rw [parse_eq_lastPass, hpass]
  exact (readsFile_parseWith fileName s knownNames).reportsOn

end InlineValues
