import InlineValues.Proofs.Printer.Pieces
import InlineValues.Proofs.Token.Trivia

/-!
# Printing on one line

The layout writes a blank for each of its own line breaks, so that a line ends in the output only
where one ends in a text that is written as it is (`oneLine_layOut`).  What the printer writes on
its own stands on one line, and so do names (`Pieced.printNode`).  What is left are the literals,
which are printed as they are spelled, and a lexer ends numbers and regular expressions with their
line.  Only strings and the pieces of templates may go over the end of a line
(`Node.GoesOverLines`).  So a tree without such a leaf is printed on one line (`oneLine_print`).
-/

namespace InlineValues

/-- A mark in the text of which no line ends. -/
def Mark.OneLine (m : Mark) : Prop := ∀ cs, m = .text cs → InlineValues.OneLine cs

instance : IsPlain Mark.OneLine where
  line := nofun
  semicolon := nofun
  text h := by
    rintro cs ⟨⟩
    exact h

/-! ## The layout -/

/-- What is among the characters of one line stands on one line. -/
lemma OneLine.of_subset {as bs : List Char} (h : OneLine bs) (hsub : as ⊆ bs) : OneLine as :=
  fun c hc => h c (hsub hc)

namespace Line

variable {w : Line} {ms : List Mark}

lemma oneLine_settle (h : OneLine w.reversed) : OneLine w.settle.reversed := by
  unfold settle
  split
  · simpa [endsLine] using h
  · exact h

/-- Each mark keeps the output on one line. -/
lemma oneLine_mark (defer : Bool) {m : Mark} (h : OneLine w.reversed) (hm : m.OneLine) :
    OneLine (w.mark defer m).reversed := by
  have hsettle := oneLine_settle h
  cases m with
  | text cs =>
    change OneLine (w.append cs).reversed
    unfold append
    split
    · exact h
    · exact oneLine_append.mpr ⟨(hm cs rfl).of_subset fun c hc => List.mem_reverse.mp hc, hsettle⟩
  | line =>
    change OneLine w.breakLine.reversed
    unfold breakLine
    split
    · exact hsettle
    · exact hsettle
    · exact oneLine_cons.mpr ⟨by decide, oneLine_settle hsettle⟩
  | semicolon =>
    cases defer
    · exact oneLine_cons.mpr ⟨by decide, hsettle⟩
    · exact hsettle
  | cut => exact h

lemma oneLine_marks (defer : Bool) (h : OneLine w.reversed) (hms : ∀ m ∈ ms, m.OneLine) :
    OneLine (w.marks defer ms).reversed := by
  induction ms generalizing w with
  | nil => exact h
  | cons m ms ih =>
    obtain ⟨hm, hms⟩ := List.forall_mem_cons.mp hms
    exact ih (oneLine_mark defer h hm) hms

end Line

/-- The layout ends no line of its own. -/
theorem oneLine_layOut (defer : Bool) {ms : List Mark} (h : ∀ m ∈ ms, m.OneLine) :
    OneLine (layOut defer ms) :=
  (Line.oneLine_marks defer oneLine_nil h).of_subset fun _ hc =>
    List.dropWhile_subset _ (List.mem_reverse.mp hc)

/-! ## Leaves -/

/-- A string or a piece of a template in which a line ends. -/
structure Node.GoesOverLines (s : Source) (n : Node) : Prop where
  kind : ∃ kind : TokenKind, n.kind = .token kind ∧
    (kind = .stringLiteral ∨ kind.isTemplatePiece = true)
  broken : ¬OneLine (s.slice (n.start s) n.stop)

/-- A literal is no name, and unless it is a string or a piece of a template it ends with its
line. -/
lemma TokenKind.literal_cases {k : TokenKind} (h : (k.isLiteral || k.isTemplatePiece) = true) :
    k.isName = false ∧ k ≠ .endOfFile ∧ k ≠ .unknown ∧
      (k.staysOnLine = true ∨ k = .stringLiteral ∨ k.isTemplatePiece = true) := by
  cases k
  all_goals first | (exfalso; revert h; decide) | decide

section

variable {s : Source} {n : Node} {kind : TokenKind}

/-- A leaf that stands on a token has its text. -/
lemma Node.StandsOn.slice (h : n.StandsOn s kind) (hend : kind ≠ .endOfFile)
    (hknown : kind ≠ .unknown) : s.slice (n.start s) n.stop ≠ [] ∧
      (kind.staysOnLine = true → OneLine (s.slice (n.start s) n.stop)) := by
  obtain ⟨l, hsound, rfl, hpos, hstop⟩ := h
  rw [hsound.slice_eq hend hknown hpos hstop]
  refine ⟨fun hnil => ?_, hsound.line⟩
  have hmoves := hsound.moves hend
  have hlength := hsound.before.pos_eq
  rw [hnil] at hlength
  exact Nat.ne_of_gt hmoves hlength

/-- A leaf is printed on one line, unless it is a string or a piece of a template that goes over
the end of a line. -/
lemma oneLine_printLeaf {c : PrintContext} (hsource : c.source? = some s)
    (hplaced : n.Placed s) (hkind : n.kind = .token kind) (hplain : ¬n.GoesOverLines s)
    (text : List Char) : ∀ m ∈ printLeaf c n kind text, m.OneLine := by
  unfold printLeaf
  split
  case isFalse => simpa [spelled, Mark.OneLine] using kind.oneLine_spelling
  case isTrue hliteral =>
    obtain ⟨hname, hend, hknown, hcases⟩ := kind.literal_cases hliteral
    obtain ⟨hne, hline⟩ := (hplaced.token kind hkind hname).slice hend hknown
    have hone : OneLine (s.slice (n.start s) n.stop) := by
      rcases hcases with hstays | hlong
      · exact hline hstays
      · exact not_not.mp fun hbroken => hplain ⟨⟨kind, hkind, hlong⟩, hbroken⟩
    simp [PrintContext.spellingOf, hsource, hne, hone, Mark.OneLine]

/-! ## Trees -/

variable (hlaid : n.LaidOut s)
  (hnames : ∀ m : Node, m.Within n → ∀ text, m.form.name? = some text → OneLine text)
  (hplain : ∀ m : Node, m.Within n → ¬m.GoesOverLines s)
include hlaid hnames hplain

lemma oneLine_marksOf {c : PrintContext} (hsource : c.source? = some s)
    (hcomments : c.keepComments = false) (depth : Nat) :
    ∀ m ∈ marksOf c depth (some n), m.OneLine := by
  induction depth generalizing n with
  | zero => simp [marksOf, Mark.OneLine]
  | succ depth ih =>
    have hpieced : Pieced Mark.OneLine (fun m : Node => m.Below n)
        fun emit => printNode c emit n := by
      refine .printNode ?_ ?_ ?_
      · simp [commentsBefore, hcomments]
      · rintro text htext cs ⟨⟩
        exact hnames n .refl _ htext
      · exact fun kind text hkind =>
          oneLine_printLeaf hsource hlaid.placed hkind (hplain n .refl) text
    exact hpieced.forall_marks (marksOf_none c depth) fun m hm =>
      ih (hlaid.within hm.within) (fun k hk => hnames k (hk.trans hm.within))
        fun k hk => hplain k (hk.trans hm.within)

/-- A tree without such a leaf is printed on one line. -/
theorem oneLine_print : OneLine (print s {} n).text :=
  oneLine_layOut _ (oneLine_marksOf hlaid hnames hplain rfl rfl maxPrintDepth)

end

end InlineValues
