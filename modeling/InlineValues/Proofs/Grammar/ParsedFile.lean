import InlineValues.Proofs.Grammar.SourceFile
import InlineValues.Proofs.Tree.Links

/-!
# Parsed files

What `Parser.ReadsFile` says of a pass of the parser, read off for every text: the pass comes to an
end without standing still on the way, and its tree takes the whole text; the operators in the tree
join their operands by the precedences; the arena holds the tree with its links; and what the arena
gives for a node is what the node was made with.
-/

namespace InlineValues

variable {s : Source} {fileName : String} {n : Node}

/-- A node for a whole file: it takes all of the text and closes with the end of the file. -/
structure Node.IsFile (fileName : String) (s : Source) (n : Node) : Prop where
  pos : n.pos = 0
  stop : n.stop = s.size
  form : ∃ statements endOfFile, n.form = .sourceFile fileName statements endOfFile ∧
    endOfFile.form = .token .endOfFile ∧ endOfFile.stop = s.size

lemma Parser.ReadsFile.isFile {knownNames : Array (List Char)} {st : ParserState}
    (h : ReadsFile fileName s knownNames n st) :
    n.IsFile fileName s := ⟨h.pos, h.stop, h.form⟩

/-- **Every text is parsed to its end.**  No pass over a text stands still: each round of a loop
consumes a token or is the last one, and no bound on the rounds of a loop or on the depth of the
grammar is reached.  The pass stops at the end of the file only, with a tree for the whole text.
This holds of the pass that collects the names of the text as well as of the one that gives the
tree. -/
theorem isFile_parse (fileName : String) (s : Source) :
    (∀ knownNames : Array (List Char),
      (parseWith fileName s knownNames).2.stalled = false ∧
        (parseWith fileName s knownNames).2.kind = .endOfFile ∧
        (parseWith fileName s knownNames).1.IsFile fileName s) ∧
      (parse fileName s).root.IsFile fileName s := by
  refine ⟨fun knownNames => ?_, ?_⟩
  · have h := readsFile_parseWith fileName s knownNames
    exact ⟨h.moving, h.ended, h.isFile⟩
  · obtain ⟨_, st, h, -⟩ := readsFile_parse fileName s
    exact h.isFile

/-- A node of a parsed text that is not empty starts where its trivia ends, which is inside it. -/
lemma start_eq_of_parse (h : n.Within (parse fileName s).root) (hlt : n.pos < n.stop) :
    n.start s = skipTrivia s n.pos := by
  obtain ⟨_, _, hfile, -⟩ := readsFile_parse fileName s
  have hplaced := hfile.laidOut n h
  have hsize := hplaced.stop_cut.le_size
  have hinside : skipTrivia s n.pos ≤ n.stop := by
    rcases h.eq_or_below with rfl | ⟨c, hc, hn⟩
    · exact hfile.stop ▸ (isCut_skipTrivia hplaced.pos_cut).le_size
    · -- The nodes below the root start behind a first line that begins with `#!`.
      have hplain : 0 < n.pos ∨ ¬['#', '!'] <+: s.chars := by
        refine Classical.or_iff_not_imp_right.mpr fun hshebang => ?_
        have hfirst := hfile.behind c hc
        have hpos := ((hfile.laidOut.child hc).range_within hn).1
        have := le_passShebang (Classical.not_not.mp hshebang)
        omega
      rw [skipTrivia_eq_tokenStart hplaced.pos_cut.le_size hplain]
      exact hplaced.begun hlt
  rw [Node.start, if_pos (Nat.lt_of_lt_of_le hlt hsize), Nat.max_eq_left (Nat.le_of_lt hlt),
    Nat.min_eq_left hinside]

/-- **Operators join their operands by the precedences.**  In the tree of a text every operator
between two operands stands between an operand on the left that is bound at least as tightly and one
on the right that is bound more tightly, or the other way round for a power.  This holds however
long the chain is and for whatever reason it ends. -/
theorem joins_of_parse (h : n.Within (parse fileName s).root) {left : Node} {operator : TokenKind}
    {right : Option Node} (hform : n.form = .binary left operator right)
    (hprecedence : operator.precedence ≠ 0) : operator.Joins left right := by
  obtain ⟨_, _, hfile, -⟩ := readsFile_parse fileName s
  have hgraded := (hfile.laidOut n h).solid.graded
  exact hgraded left operator right hform (Nat.pos_of_ne_zero hprecedence)

/-- The last operator of a chain, with an operation on its left. -/
theorem joins_of_parse_chain :
    ∃ n left right : Node, n.Within (parse "a.ts" (.ofString "a - b ** c ** d - e")).root ∧
      n.form = .binary left .minus (some right) ∧ left.form.operator? = some .minus ∧
      TokenKind.minus.precedence ≠ 0 ∧ TokenKind.minus.Joins left (some right) := by
  have hchain : ∃ n ∈ (parse "a.ts" (.ofString "a - b ** c ** d - e")).root.children.flatMap
      Node.children, n.form.isBinary = true ∧ n.form.operator? = some .minus ∧
        (n.children.map fun c => c.form.operator?) = [some .minus, none] := by
    decide +kernel
  obtain ⟨n, hn, hbinary, hoperator, hoperands⟩ := hchain
  obtain ⟨statement, hstatement, hn⟩ := List.mem_flatMap.mp hn
  have hwithin : n.Within (parse "a.ts" (.ofString "a - b ** c ** d - e")).root :=
    .child hstatement (.child hn .refl)
  obtain ⟨left, operator, right, hform⟩ := Form.exists_of_isBinary hbinary
  rw [hform] at hoperator
  obtain rfl : operator = .minus := Option.some.inj hoperator
  rw [Node.children, hform] at hoperands
  cases right with
  | none => exact absurd (congrArg List.length hoperands) (by simp [Form.children])
  | some right =>
    exact ⟨n, left, right, hwithin, hform, (List.cons.inj hoperands).1, by decide,
      joins_of_parse hwithin hform (by decide)⟩

/-- **The arena holds a tree.**  In the arena of a text the nodes below the root, which is the last
one, are a tree with its links upward: each of them but the root is a child of one node only, and
once, which is the parent that the arena knows.  Parents come behind their children, so that every
walk upward ends.  The arena also holds nodes that were made and dropped on the way, and these
disturb none of it. -/
theorem isTree_parse (fileName : String) (s : Source) :
    (parse fileName s).arena.IsTree (parse fileName s).root.index := by
  obtain ⟨_, st, h, harena, -⟩ := readsFile_parse fileName s
  rw [harena]
  exact h.grown.isTree h.last

/-- **The arena gives what a node was made with.**  For a node of the tree the arena gives the
payload that the node was made with, which is its form, and for a name the text of the name.  Left
out are the nodes without a payload, and the leaves that were put among the literals and are none,
for which it gives the text of another literal. -/
theorem payload?_parse (h : n.Within (parse fileName s).root) {p : Pool} {j : Nat}
    (hplace : (parse fileName s).arena.place? n.index = some (p, j))
    (hliteral : p = .literals → n.kind.pool? = some .literals) :
    (parse fileName s).arena.payload? n.index = ((parse fileName s).arena.pool p)[j]? ∧
      (parse fileName s).arena.payload? n.index = some (n.form.map fun c => c.index) ∧
      (n.kind = .token .identifier ∨ n.kind = .token .privateIdentifier →
        (parse fileName s).arena.identifierText? n.index =
          some (s.slice (n.start s) n.stop)) := by
  obtain ⟨_, st, hfile, harena, -⟩ := readsFile_parse fileName s
  rw [harena] at hplace ⊢
  have hembeds := hfile.grown.stores _ (List.mem_singleton_self _) n h
  obtain ⟨hfound, hform⟩ := hembeds.payload?_eq hplace hliteral
  refine ⟨hfound, hform, fun hkind => hembeds.identifierText?_eq hplace hliteral ?_⟩
  rcases hkind with hkind | hkind <;> (rw [hkind]; rfl)

/-- The name in a text that is nothing but a name. -/
theorem payload?_loneName :
    ∃ n : Node, n.Within (parse "a.ts" (.ofString "x")).root ∧ n.kind = .token .identifier ∧
      (parse "a.ts" (.ofString "x")).arena.place? n.index = some (.identifiers, 0) ∧
      (parse "a.ts" (.ofString "x")).arena.payload? n.index =
        ((parse "a.ts" (.ofString "x")).arena.pool .identifiers)[0]? ∧
      (parse "a.ts" (.ofString "x")).arena.payload? n.index =
        some (n.form.map fun c => c.index) ∧
      (n.kind = .token .identifier ∨ n.kind = .token .privateIdentifier →
        (parse "a.ts" (.ofString "x")).arena.identifierText? n.index =
          some ((Source.ofString "x").slice (n.start (.ofString "x")) n.stop)) := by
  have hname : ∃ n ∈ (parse "a.ts" (.ofString "x")).root.children.flatMap Node.children,
      n.kind = .token .identifier ∧
        (parse "a.ts" (.ofString "x")).arena.place? n.index = some (.identifiers, 0) := by
    decide +kernel
  obtain ⟨n, hn, hkind, hplace⟩ := hname
  obtain ⟨statement, hstatement, hn⟩ := List.mem_flatMap.mp hn
  have hwithin : n.Within (parse "a.ts" (.ofString "x")).root :=
    .child hstatement (.child hn .refl)
  exact ⟨n, hwithin, hkind, hplace, payload?_parse hwithin hplace nofun⟩

-- The module behind `from` should be a string.  A name there is put among the literals, and what is
-- read back for it is the first name of the text.
example : ((parse "a.ts" (.ofString "let a; export * from y")).root.children.flatMap fun n =>
    n.children.map fun c =>
      (c.kind, (parse "a.ts" (.ofString "let a; export * from y")).arena.identifierText? c.index)) =
    [(.node .variableDeclarationList, none), (.token .identifier, some ['a'])] := by decide +kernel

end InlineValues
