import InlineValues.Document.Report
import InlineValues.Proofs.Printer.OneLine
import InlineValues.Proofs.Query.Report

/-!
# One line for each value

A report in lines of text can be read back only if no value goes over the end of a line.  The names
that are looked up never do.  An expression does where a string or a piece of a template inside it
goes over the end of a line, since literals are printed as they are spelled, and nowhere else
(`oneLine_of_mem_reportedNodes`).

So the values without such a literal are reported in as many lines as there are values, and one
template on two lines is enough to break that (`Document.oneLine_report_brokenTemplate`).
-/

namespace InlineValues

/-- The reported node has a string or a piece of a template in it that goes over the end of a
line. -/
def Reported.HoldsBreak (s : Source) (r : Reported) : Prop :=
  ∃ m : Node, m.Within r.node ∧ m.GoesOverLines s

section

variable {fileName : String} {s : Source} {limits : ScopeLimits} {offset : Nat} {visible : Span}
  {r : Reported}

/-- What is shown for a node stands on one line, if every literal in the node does. -/
theorem oneLine_of_mem_reportedNodes
    (hr : r ∈ reportedNodes limits (parse fileName s) offset visible) (hplain : ¬r.HoldsBreak s) :
    OneLine (r.value s).text := by
  obtain ⟨c, hc, hin⟩ := inside_reportedNodes fileName s limits offset visible hr
  have hw := on_walkAt fileName s limits offset visible
  have hroot := hin.within.trans (hw.scopes c (List.mem_of_getLast? hc))
  have hrenders := hin.renders
  cases r with
  | lookup n name => exact hrenders.2.2
  | expression n text =>
    change OneLine text
    rw [hrenders.1]
    exact oneLine_print ((laidOut_root_parse fileName s).1.within hroot)
      (fun m hm text => oneLine_name_of_parse fileName s (hm.trans hroot))
      fun m hm hbroken => hplain ⟨m, hm, hbroken⟩

/-- In a text of one line nothing goes over its end. -/
lemma Reported.not_holdsBreak (hs : OneLine s.chars) : ¬r.HoldsBreak s := by
  rintro ⟨m, -, -, hbroken⟩
  exact hbroken (hs.of_subset (s.slice_subset _ _))

end

/-! ## Reports -/

lemma oneLine_toDigits (n : Nat) : OneLine (Nat.toDigits 10 n) := by
  intro c hc
  have hdigit : c.isDigit = true := Nat.isDigit_of_mem_toDigits (by decide) (by decide) hc
  exact endsLine_of_test (by decide) (by decide) c hdigit

lemma InlineValue.oneLine_word (v : InlineValue) : OneLine v.word.toList := by
  cases v
  · exact (by decide : OneLine "lookup".toList)
  · exact (by decide : OneLine "expr".toList)

namespace Document

/-- Values that stand on one line each are reported in one line each, with the end of a line behind
it. -/
lemma exists_line (d : Document) {values : List InlineValue}
    (h : ∀ v ∈ values, OneLine v.text) :
    ∃ line : InlineValue → List Char, (∀ v ∈ values, OneLine (line v)) ∧
      d.report values = values.flatMap fun v => line v ++ ['\n'] := by
  refine ⟨_, fun v hv => ?_, rfl⟩
  simp [oneLine_toDigits, v.oneLine_word, h v hv, endsLine]

/-- **One line for each value.**  What is shown for a node stands on one line, unless a string or a
piece of a template in the node goes over the end of a line.  Where this happens to none of the
values that are asked for, they are reported in as many lines as there are values, one line for
each. -/
theorem oneLine_report (d : Document) (limits : ScopeLimits) :
    (∀ (offset : Nat) (visible : Span), ∀ r ∈ reportedNodes limits d.file offset visible,
      OneLine (r.value d.source).text ∨ r.HoldsBreak d.source) ∧
    ∀ (place : Location) (visible : Option Span),
      (∀ r ∈ reportedNodes limits d.file (d.byteOffset place)
        (visible.elim .everything d.byteSpan), ¬r.HoldsBreak d.source) →
      ∃ line : InlineValue → List Char,
        (∀ v ∈ d.values limits place visible, OneLine (line v)) ∧
        d.report (d.values limits place visible) =
          (d.values limits place visible).flatMap fun v => line v ++ ['\n'] := by
  have hnodes (offset : Nat) (visible : Span) (r : Reported)
      (hr : r ∈ reportedNodes limits d.file offset visible) (hplain : ¬r.HoldsBreak d.source) :
      OneLine (r.value d.source).text := by
    rw [d.file_eq] at hr
    exact oneLine_of_mem_reportedNodes hr hplain
  refine ⟨fun offset visible r hr => ?_, fun place visible hplain => ?_⟩
  · by_cases hbreak : r.HoldsBreak d.source
    · exact .inr hbreak
    · exact .inl (hnodes offset visible r hr hbreak)
  · refine d.exists_line fun v hv => ?_
    have hvalues : d.values limits place visible =
        (inlineValues limits d.file (d.byteOffset place)
          (visible.elim .everything d.byteSpan)).map (·.mapSpan d.utf16Span) := by
      cases visible <;> rfl
    rw [hvalues] at hv
    obtain ⟨w, hw, rfl⟩ := List.mem_map.mp hv
    obtain ⟨r, hr, rfl⟩ := List.mem_map.mp hw
    rw [InlineValue.text_mapSpan]
    exact hnodes _ _ r hr (hplain r hr)

/-- A template on two lines makes three lines of two values.  Next to it stands a text of one line,
whose two values are reported in two lines. -/
theorem oneLine_report_brokenTemplate :
    let d := ofSource "a.ts" (.ofString "o = \x7b k: \x60a\nb\x60 \x7d; end;")
    let plain := ofSource "a.ts" (.ofString "a.b = 'c'; d++; end;")
    ((d.values {} (.utf16 19) none).length = 2 ∧
        (d.report (d.values {} (.utf16 19) none)).count '\n' = 3) ∧
      (∃ r ∈ reportedNodes {} d.file 19 .everything,
        r.value d.source = .expression ⟨9, 5⟩ "\x60a\nb\x60".toList ∧
          r.HoldsBreak d.source) ∧
      plain.report (plain.values {} (.utf16 16) none) =
        "1:1\texpr\ta.b\n1:12\tlookup\td\n".toList ∧
      ∃ line : InlineValue → List Char,
        (∀ v ∈ plain.values {} (.utf16 16) none, OneLine (line v)) ∧
        plain.report (plain.values {} (.utf16 16) none) =
          (plain.values {} (.utf16 16) none).flatMap fun v => line v ++ ['\n'] := by
  refine ⟨by decide +kernel, ?_, by decide +kernel, ?_⟩
  · have hmem : InlineValue.expression ⟨9, 5⟩ "\x60a\nb\x60".toList ∈
        inlineValues {} (ofSource "a.ts" (.ofString "o = \x7b k: \x60a\nb\x60 \x7d; end;")).file 19
          .everything := by
      decide +kernel
    obtain ⟨r, hr, hvalue⟩ := List.mem_map.mp hmem
    have hcases := (oneLine_report _ {}).1 19 .everything r hr
    refine ⟨r, hr, hvalue, hcases.resolve_left fun hline => ?_⟩
    rw [source, hvalue] at hline
    exact absurd hline (by decide)
  · exact (oneLine_report (ofSource "a.ts" (.ofString "a.b = 'c'; d++; end;")) {}).2
      (.utf16 16) none fun r _ => Reported.not_holdsBreak (by decide +kernel)

end Document

end InlineValues
