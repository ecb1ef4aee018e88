import InlineValues.Proofs.Printer.Pieces
import InlineValues.Proofs.Query.Report
import InlineValues.Proofs.Tree.Nesting

/-!
# Printing without a bound on the depth

The printer leaves out nodes that lie too deep.  `unboundedMarksOf` is the same printer without this
bound: it recurses over the tree itself, and each node is printed from what is printed for its parts
(`unboundedMarksOf_some`), since these are all below it (`Pieced.printNode`).

Where nothing was left out the two agree (`marksOf_eq_unbounded`), and where something was there is
a chain of nodes, each a child of the one before it, that is longer than the bound
(`exists_chain_of_cut`).  A printer that is used again and again starts each time from an empty line
(`Printer.print_eq`), so that nothing of this depends on what it has printed before.
-/

namespace InlineValues

/-! ## What is cut -/

/-- A mark that stands for itself, and not for something that was left out. -/
def Mark.IsKept (m : Mark) : Prop := m ≠ .cut

instance : IsPlain Mark.IsKept where
  line := nofun
  semicolon := nofun
  text _ := nofun

lemma isKept_blockComment (cs : List Char) : ∀ m ∈ blockComment cs, m.IsKept := by
  have hlines : ∀ lines : List (List Char),
      ∀ m ∈ [Mark.line].intercalate (lines.map fun line => [.text (trimmed line)]), m.IsKept := by
    intro lines
    induction lines with
    | nil => simp
    | cons line lines ih => cases lines <;> simp_all [List.intercalate_cons_cons, Mark.IsKept]
  simpa [blockComment, or_imp, forall_and, write, Mark.IsKept] using hlines _

/-- The printer leaves out nothing but parts of the node. -/
lemma pieced_printNode (c : PrintContext) (n : Node) :
    Pieced Mark.IsKept (fun m : Node => m.Below n) fun emit => printNode c emit n := by
  refine .printNode (fun statement => ?_) (fun _ _ => nofun) fun kind text _ => ?_
  · unfold commentsBefore
    split
    · simp only [List.mem_flatMap]
      rintro m ⟨comment, -, hm⟩
      split at hm
      · exact isKept_blockComment _ m hm
      · cases hm
    · nofun
  · unfold printLeaf
    split
    · dsimp only
      split <;> simp [Mark.IsKept]
    · simp [spelled, Mark.IsKept]

/-! ## The printer without a bound -/

/-- The marks of a node, however deep it is.  Parts are smaller than the node, and the question
whether they are does not come up (`unboundedMarksOf_some`). -/
noncomputable def unboundedMarksOf (c : PrintContext) : Option Node → List Mark
  | none => []
  | some n =>
    printNode c
      (fun part => if sizeOf part < sizeOf (some n) then unboundedMarksOf c part else []) n
termination_by part => sizeOf part

variable {c : PrintContext} {n : Node} {depth : Nat}

@[simp] lemma unboundedMarksOf_none : unboundedMarksOf c none = [] := by
  rw [unboundedMarksOf]

/-- Without a bound, a node is printed from what is printed for its parts. -/
theorem unboundedMarksOf_some (c : PrintContext) (n : Node) :
    unboundedMarksOf c n = printNode c (unboundedMarksOf c) n := by
  rw [unboundedMarksOf]
  refine (pieced_printNode c n).congr (by simp) unboundedMarksOf_none fun m hm _ => if_pos ?_
  have := hm.sizeOf_lt
  simp only [Option.some.sizeOf_spec]
  omega

/-- Where nothing was cut, the bound made no difference. -/
theorem marksOf_eq_unbounded (h : .cut ∉ marksOf c depth n) :
    marksOf c depth n = unboundedMarksOf c n := by
  induction depth generalizing n with
  | zero => exact absurd (List.mem_singleton.mpr rfl) h
  | succ depth ih =>
    rw [unboundedMarksOf_some]
    exact (pieced_printNode c n).congr (marksOf_none c depth) unboundedMarksOf_none
      fun m _ hsub => ih fun hcut => h (hsub hcut)

/-- If something is cut, a chain goes on below the depth. -/
theorem exists_chain_of_cut (h : .cut ∈ marksOf c depth n) :
    ∃ chain, n.ChainFrom chain ∧ depth < chain.length := by
  induction depth generalizing n with
  | zero => exact ⟨[n], ⟨rfl, .singleton n⟩, Nat.zero_lt_one⟩
  | succ depth ih =>
    obtain ⟨m, ⟨child, hchild, hm⟩, hcut⟩ :
        ∃ m : Node, m.Below n ∧ .cut ∈ marksOf c depth m := by
      by_contra hnone
      push Not at hnone
      have hkept := (pieced_printNode c n).forall_marks (marksOf_none c depth)
        fun m hm mark hmark hcut => hnone m hm (hcut ▸ hmark)
      exact hkept _ h rfl
    obtain ⟨chain, hchain, hlt⟩ := ih hcut
    obtain ⟨longer, hlonger, hle⟩ := hm.exists_chain hchain
    exact ⟨_, hlonger.cons hchild, Nat.succ_lt_succ (Nat.lt_of_lt_of_le hlt hle)⟩

-- Of a name in brackets only the brackets are left at depth one.
example : marksOf ⟨none, false⟩ 1 (some ⟨0, 0, .parenthesized (some ⟨0, 0, .identifier ['x']⟩)⟩) =
    [.text ['('], .cut, .text [')']] := rfl

/-! ## A printer that is used again -/

/-- A printer with the line that it writes on. -/
structure Printer where
  /-- The text that the tree was read from. -/
  source? : Option Source
  options : PrintOptions
  line : Line := {}
  /-- Whether something was left out since the last node was begun. -/
  truncated : Bool := false

namespace Printer

/-- What the printer knows besides the tree. -/
def context (p : Printer) : PrintContext := ⟨p.source?, !p.options.removeComments⟩

/-- Put out a mark. -/
def put (p : Printer) (m : Mark) : Printer :=
  { p with
    line := p.line.mark p.options.omitTrailingSemicolon m
    truncated := p.truncated || m == .cut }

/-- Print a node on an empty line, and take the text off the line. -/
def print (p : Printer) (n : Option Node) : List Char × Printer :=
  let p := (marksOf p.context maxPrintDepth n).foldl put { p with line := {}, truncated := false }
  (p.line.finish, { p with line := {} })

/-- Print nodes one after the other, and leave their texts aside. -/
def printAll (p : Printer) (ns : List (Option Node)) : Printer :=
  ns.foldl (fun p n => (p.print n).2) p

lemma foldl_put (p : Printer) (ms : List Mark) :
    ms.foldl put p =
      { p with
        line := p.line.marks p.options.omitTrailingSemicolon ms
        truncated := p.truncated || ms.contains .cut } := by
  induction ms generalizing p with
  | nil => simp
  | cons m ms ih =>
    rw [List.foldl_cons, ih]
    simp [put, Bool.or_assoc, beq_eq_decide, eq_comm]

/-- What is printed depends on the node and not on what was printed before. -/
theorem print_eq (p : Printer) (n : Node) :
    p.print n =
      ((InlineValues.print p.source? p.options n).text,
        { p with
          line := {}
          truncated := (InlineValues.print p.source? p.options n).truncated }) := by
  simp [print, foldl_put, InlineValues.print, layOut, context]

lemma settings_print (p : Printer) (n : Option Node) :
    (p.print n).2.source? = p.source? ∧ (p.print n).2.options = p.options := by
  simp [print, foldl_put]

lemma settings_printAll (p : Printer) (ns : List (Option Node)) :
    (p.printAll ns).source? = p.source? ∧ (p.printAll ns).options = p.options := by
  induction ns generalizing p with
  | nil => exact ⟨rfl, rfl⟩
  | cons n ns ih =>
    obtain ⟨hsource, hoptions⟩ := ih (p.print n).2
    obtain ⟨hsource', hoptions'⟩ := p.settings_print n
    exact ⟨hsource.trans hsource', hoptions.trans hoptions'⟩

end Printer

/-- A node printed without a bound. -/
noncomputable def printUnbounded (source? : Option Source) (options : PrintOptions) (n : Node) :
    List Char :=
  layOut options.omitTrailingSemicolon (unboundedMarksOf ⟨source?, !options.removeComments⟩ n)

section

variable {source? : Option Source} {options : PrintOptions}

/-- What was printed in full is what is printed without a bound. -/
lemma print_eq_unbounded (h : (print source? options n).truncated = false) :
    (print source? options n).text = printUnbounded source? options n := by
  have hcut : .cut ∉ marksOf ⟨source?, !options.removeComments⟩ maxPrintDepth n := by
    simpa [print] using h
  rw [print, printUnbounded, ← marksOf_eq_unbounded hcut]

/-- Where no chain is longer than the bound, nothing is left out. -/
lemma not_truncated_of_chains (h : ∀ chain, n.ChainFrom chain → chain.length ≤ maxPrintDepth) :
    (print source? options n).truncated = false := by
  have hcut : .cut ∉ marksOf ⟨source?, !options.removeComments⟩ maxPrintDepth n := fun hcut => by
    obtain ⟨chain, hchain, hlt⟩ := exists_chain_of_cut hcut
    exact Nat.not_lt_of_le (h chain hchain) hlt
  simpa [print] using hcut

end

/-- **The bound on the depth.**  Whatever a printer has printed before, what it prints for a node
without leaving anything out is what it prints without a bound, and it leaves nothing out if no
chain of nodes that leads down from the node is longer than the bound.  So every expression that is
shown next to the code is shown in full. -/
theorem print_printAll (fileName : String) (s : Source) (options : PrintOptions)
    (earlier : List (Option Node)) (n : Node) :
    let printed := (Printer.printAll { source? := s, options := options } earlier).print n
    (printed.2.truncated = false → printed.1 = printUnbounded s options n) ∧
      ((∀ chain, n.ChainFrom chain → chain.length ≤ maxPrintDepth) →
        printed.2.truncated = false) ∧
      ∀ (limits : ScopeLimits) (offset : Nat) (visible span : Span) (text : List Char),
        .expression span text ∈ inlineValues limits (parse fileName s) offset visible →
          ∃ m : Node, m.Within (parse fileName s).root ∧ m.span s = span ∧
            (print s {} m).truncated = false ∧ text = printUnbounded s {} m := by
  intro printed
  have hprinted : printed = _ := Printer.print_eq _ n
  obtain ⟨hsource, hoptions⟩ :=
    Printer.settings_printAll { source? := s, options := options } earlier
  rw [hsource, hoptions] at hprinted
  rw [hprinted]
  refine ⟨print_eq_unbounded, not_truncated_of_chains, fun limits offset visible span text hv => ?_⟩
  obtain ⟨r, hr, hvalue⟩ := List.mem_map.mp hv
  obtain ⟨c, hc, hin⟩ := inside_reportedNodes fileName s limits offset visible hr
  have hw := on_walkAt fileName s limits offset visible
  have hroot := hin.within.trans (hw.scopes c (List.mem_of_getLast? hc))
  cases r with
  | lookup m name => cases hvalue
  | expression m text' =>
    cases hvalue
    obtain ⟨htext, hfull⟩ := hin.renders
    exact ⟨m, hroot, rfl, hfull, htext.trans (print_eq_unbounded hfull)⟩

end InlineValues
