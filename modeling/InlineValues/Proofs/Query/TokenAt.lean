import InlineValues.Proofs.Grammar.SourceFile
import InlineValues.Query.TokenAt

/-!
# The token at an offset

`TokenAt.Correct` says what is asked of a lookup: the token holds the offset, the chain of nodes
around it goes down from the root through nodes that hold the offset, and it cannot be continued.
A leaf is given if and only if there is one that holds the offset.

Two facts carry the proof.  The children of a node lie in a row, so that none behind the first one
that starts too late can hold the offset (`Fits.mem_takeWhile`).  And from any place of the text in
front of an offset, reading on ends with a token that holds the offset (`Lexer.sound_scanPast`).
-/

namespace InlineValues

variable {s : Source} {root n c : Node} {p : Nat}

/-! ## Reading a gap -/

namespace Lexer

/-- A lexer that is moved to a cut of its text stands there. -/
lemma on_setPosition {start : Nat} (h : s.IsCut start) :
    ((Lexer.start s).setPosition start).cursor.On s ∧
      ((Lexer.start s).setPosition start).cursor.pos = start := by
  have hmin : min start s.size = start := Nat.min_eq_left h.le_size
  have hcursor : ((Lexer.start s).setPosition start).cursor = s.cursor start := by
    rw [setPosition, Lexer.start, hmin]
  rw [hcursor]
  exact ⟨Cursor.on_cursor h, rfl⟩

/-- One more token is read behind the last one, whether or not a `>` goes on. -/
lemma sound_scan_joined (joined : Bool) {l : Lexer} (hsource : l.source = s)
    (hcursor : l.cursor.On s) :
    (if joined then l.scan.rescanGreater else l.scan).Sound s ∧
      (if joined then l.scan.rescanGreater else l.scan).token.fullStart = l.cursor.pos := by
  have hscan := sound_scan hsource hcursor
  cases joined with
  | true => exact ⟨hscan.rescanGreater, by simp⟩
  | false => exact ⟨hscan, by simp⟩

/-- A lexer that reads on from a place in front of an offset stops at the token that holds it. -/
theorem sound_scanPast (joined : Bool) (fuel : Nat) {l : Lexer} (hsource : l.source = s)
    (hcursor : l.cursor.On s) (hle : l.cursor.pos ≤ p) (hfuel : s.size - l.cursor.pos < fuel) :
    (l.scanPast p joined fuel).Sound s ∧ (l.scanPast p joined fuel).token.fullStart ≤ p ∧
      (p < (l.scanPast p joined fuel).stop ∨
        (l.scanPast p joined fuel).token.kind = .endOfFile) ∧
      l.cursor.pos ≤ (l.scanPast p joined fuel).token.fullStart := by
  induction fuel generalizing l with
  | zero => exact absurd hfuel (Nat.not_lt_zero _)
  | succ fuel ih =>
    rw [scanPast]
    obtain ⟨hsound, hfull⟩ := sound_scan_joined joined hsource hcursor
    generalize (if joined then l.scan.rescanGreater else l.scan) = next at hsound hfull ⊢
    split
    case isTrue hdone =>
      rw [Bool.or_eq_true, decide_eq_true_eq, beq_iff_eq] at hdone
      exact ⟨hsound, hfull ▸ hle, hdone, Nat.le_of_eq hfull.symm⟩
    case isFalse hgo =>
      simp only [Bool.or_eq_true, decide_eq_true_eq, beq_iff_eq, not_or, Nat.not_lt] at hgo
      -- The token in front of the offset is not empty, so that less is left to read.
      have hlt := hsound.fullStart_lt hgo.2
      have hsize := hsound.cursor.isCut.le_size
      obtain ⟨hlast, hpos, hdone, hnext⟩ := ih hsound.source hsound.cursor hgo.1 (by omega)
      exact ⟨hlast, hpos, hdone, by omega⟩

end Lexer

/-! ## The row of the children -/

/-- In a row no node stands behind one that starts later. -/
theorem Fits.mem_takeWhile {a b : Nat} {xs : List Node} (h : Fits a b xs) (hc : c ∈ xs)
    (hpos : c.pos ≤ p) : c ∈ xs.takeWhile (·.pos ≤ p) := by
  induction xs generalizing a with
  | nil => exact hc
  | cons x xs ih =>
    obtain ⟨-, hx, hrest⟩ := h
    rcases List.mem_cons.mp hc with rfl | hc
    · simp [hpos]
    · have := hrest.of_mem hc
      rw [List.takeWhile_cons_of_pos (by simp only [decide_eq_true_eq]; omega)]
      exact .tail _ (ih hrest hc)

namespace Node

/-- The offset lies in the range of the node. -/
def Contains (n : Node) (p : Nat) : Prop := n.pos ≤ p ∧ p < n.stop

/-- The offset belongs to the node.  The offset behind the end of the file belongs to it. -/
def Covers (n : Node) (p : Nat) : Prop := n.pos ≤ p ∧ n.reaches p = true

lemma reaches_iff :
    n.reaches p = true ↔ p < n.stop ∨ (p = n.stop ∧ n.kind = .token .endOfFile) := by
  simp [reaches]

lemma Contains.covers (h : n.Contains p) : n.Covers p := ⟨h.1, reaches_iff.mpr (.inl h.2)⟩

lemma childAt?_covers (h : n.childAt? p = some c) : c.Covers p := by
  have hreach := List.find?_some h
  have hpos := List.all_eq_true.mp List.all_takeWhile c (List.mem_of_find?_eq_some h)
  exact ⟨of_decide_eq_true hpos, hreach⟩

/-- Where no child is found, none covers the offset. -/
lemma not_covers_of_childAt? {a b : Nat} (hfits : Fits a b n.children) (h : n.childAt? p = none)
    (hc : c ∈ n.children) : ¬c.Covers p := fun hcovers =>
  List.find?_eq_none.mp h c (hfits.mem_takeWhile hc hcovers.1) hcovers.2

/-- The gap starts at the node or behind one of the children in front of the offset. -/
lemma gapStart_eq (n : Node) (p : Nat) :
    n.gapStart p = n.pos ∨ ∃ c ∈ n.childrenUpTo p, n.gapStart p = c.stop := by
  refine List.foldlRecOn (n.childrenUpTo p) _
    (motive := fun start => start = n.pos ∨ ∃ c ∈ n.childrenUpTo p, start = c.stop) (.inl rfl) ?_
  intro start hstart c hc
  rcases Nat.le_total start c.stop with h | h
  · exact .inr ⟨c, hc, Nat.max_eq_right h⟩
  · rwa [Nat.max_eq_left h]

lemma gapStart_cut (h : n.LaidOut s) : s.IsCut (n.gapStart p) := by
  rcases n.gapStart_eq p with heq | ⟨c, hc, heq⟩
  · exact heq ▸ h.placed.pos_cut
  · exact heq ▸ (h.child ((List.takeWhile_sublist _).subset hc)).placed.stop_cut

lemma gapStart_le (hpos : n.pos ≤ p) (h : n.childAt? p = none) : n.gapStart p ≤ p := by
  rcases n.gapStart_eq p with heq | ⟨c, hc, heq⟩
  · exact heq ▸ hpos
  · have hreach := List.find?_eq_none.mp h c hc
    rw [reaches_iff, not_or] at hreach
    omega

/-! ## The way down -/

/-- The nodes `outer`, innermost first, are the way from the root to a node through nodes that
contain the offset. -/
inductive Leads (p : Nat) (root : Node) : List Node → Node → Prop
  | root : Leads p root [] root
  | down {outer : List Node} {n c : Node} : Leads p root outer n → c ∈ n.children →
    c.Contains p → Leads p root (n :: outer) c

lemma Leads.within {outer : List Node} (h : Leads p root outer n) : n.Within root := by
  induction h with
  | root => exact .refl
  | down _ hc _ ih => exact Within.trans (.child hc .refl) ih

lemma Leads.root_or_contains {outer : List Node} (h : Leads p root outer n) :
    n = root ∨ n.Contains p := by
  cases h with
  | root => exact .inl rfl
  | down _ _ hp => exact .inr hp

end Node

/-- What a lookup of the token at an offset has to find. -/
structure TokenAt.Correct (s : Source) (root : Node) (p : Nat) (t : TokenAt) : Prop where
  pos_le : t.pos ≤ p
  holds : p < t.stop ∨ (t.kind = .endOfFile ∧ t.stop = s.size)
  leads : Node.Leads p root t.outer t.parent
  innermost : ∀ c ∈ t.parent.children, c.Contains p → c.kind.isToken = true
  leaf_isSome : t.leaf.isSome ↔ ∃ c ∈ t.parent.children, c.kind.isToken = true ∧ c.Covers p
  leaf : ∀ c ∈ t.leaf, c ∈ t.parent.children ∧ c.kind = .token t.kind ∧ c.pos = t.pos ∧
    c.stop = t.stop

/-- Where no child covers the offset, the text between the children is read. -/
lemma TokenAt.correct_gapToken {outer : List Node} (hn : n.LaidOut s) (hpos : n.pos ≤ p)
    (hleads : Node.Leads p root outer n) (h : n.childAt? p = none) :
    (n.gapToken s p outer).Correct s root p := by
  have hcut := Node.gapStart_cut (p := p) hn
  have hle := Node.gapStart_le hpos h
  have hnone (c : Node) (hc : c ∈ n.children) : ¬c.Covers p :=
    Node.not_covers_of_childAt? hn.placed.children h hc
  obtain ⟨hcursor, hgap⟩ := Lexer.on_setPosition hcut
  obtain ⟨hsound, hfull, hstop, -⟩ := Lexer.sound_scanPast (p := p) (n.is .binaryExpression)
    (s.size + 1) rfl hcursor (Nat.le_trans (Nat.le_of_eq hgap) hle)
    (Nat.lt_succ_of_le (Nat.sub_le ..))
  constructor
  case pos_le => exact hfull
  case holds => exact hstop.imp_right fun hkind => ⟨hkind, hsound.stop_of_endOfFile hkind⟩
  case leads => exact hleads
  case innermost => exact fun c hc hcontains => absurd hcontains.covers (hnone c hc)
  case leaf_isSome =>
    refine ⟨fun hsome => absurd hsome (by simp [Node.gapToken]), ?_⟩
    rintro ⟨c, hc, -, hcovers⟩
    exact absurd hcovers (hnone c hc)
  case leaf => exact fun c hc => absurd hc (by simp [Node.gapToken])

/-- A leaf that covers the offset is the token. -/
lemma TokenAt.correct_leaf {outer : List Node} {kind : TokenKind} (hn : n.LaidOut s)
    (hleads : Node.Leads p root outer n) (h : n.childAt? p = some c)
    (hkind : c.kind = .token kind) :
    TokenAt.Correct s root p
      { kind, pos := c.pos, stop := c.stop, leaf := c, parent := n, outer } := by
  have hc := Node.childAt?_mem h
  have hcovers := Node.childAt?_covers h
  have htoken : c.kind.isToken = true := by rw [hkind]; rfl
  have hend : c.kind = .token .endOfFile → c.stop = s.size := (hn.child hc).placed.ended
  rw [Node.Covers, Node.reaches_iff] at hcovers
  constructor
  case pos_le => exact hcovers.1
  case holds =>
    refine hcovers.2.imp_right fun hstop => ?_
    have heq : Kind.token kind = .token .endOfFile := hkind.symm.trans hstop.2
    cases heq
    exact ⟨rfl, hend hstop.2⟩
  case leads => exact hleads
  case innermost =>
    intro d hd hcontains
    rcases hcovers.2 with hlt | ⟨heq, hstop⟩
    · have hsame := hn.placed.children.eq_of_shared hc hd ⟨hcovers.1, hlt⟩ hcontains
      rwa [← hsame]
    · -- Behind the end of the file there is no text for another child.
      have := (hn.child hd).placed.stop_cut.le_size
      have := hend hstop
      have := hcontains.2
      omega
  case leaf_isSome => exact ⟨fun _ => ⟨c, hc, htoken, Node.childAt?_covers h⟩, fun _ => rfl⟩
  case leaf =>
    intro d hd
    cases hd
    exact ⟨hc, hkind, rfl, rfl⟩

/-- A composite child that covers the offset contains it. -/
lemma Node.contains_of_childAt? {kind : NodeKind} (h : n.childAt? p = some c)
    (hkind : c.kind = .node kind) : c.Contains p := by
  have hcovers := childAt?_covers h
  rw [Covers, reaches_iff, hkind] at hcovers
  exact ⟨hcovers.1, hcovers.2.resolve_right (by simp)⟩

/-- The way down keeps to nodes around the offset, and ends at the token. -/
lemma TokenAt.correct_tokenWithin {outer : List Node} (hn : n.LaidOut s) (hpos : n.pos ≤ p)
    (hleads : Node.Leads p root outer n) : (n.tokenWithin s p outer).Correct s root p := by
  fun_induction Node.tokenWithin s p outer n with
  | case1 outer n h => exact correct_gapToken hn hpos hleads h
  | case2 outer n c h kind hkind => exact correct_leaf hn hleads h hkind
  | case3 outer n c h kind hkind ih =>
    have hc := Node.childAt?_mem h
    have hcontains := Node.contains_of_childAt? h hkind
    exact ih (hn.child hc) hcontains.1 (.down hleads hc hcontains)

/-- At the end of the text stands the end of the file, right below the root. -/
lemma TokenAt.Correct.atEnd {t : TokenAt} (h : t.Correct s root s.size) (hroot : root.LaidOut s)
    (hend : ∃ c ∈ root.children, c.kind = .token .endOfFile) :
    t.kind = .endOfFile ∧ t.stop = s.size ∧ t.parent = root := by
  have hparent : t.parent = root := by
    refine h.leads.root_or_contains.resolve_right fun hcontains => ?_
    have := (hroot.within h.leads.within).placed.stop_cut.le_size
    have := hcontains.2
    omega
  obtain ⟨c, hc, hkind⟩ := hend
  have hplaced := (hroot.child hc).placed
  have hstop : c.stop = s.size := hplaced.ended hkind
  have hcovers : c.Covers s.size :=
    ⟨hstop ▸ hplaced.children.le, Node.reaches_iff.mpr (.inr ⟨hstop.symm, hkind⟩)⟩
  have hleaf := h.leaf_isSome.mpr ⟨c, hparent ▸ hc, by rw [hkind]; rfl, hcovers⟩
  obtain ⟨d, hd⟩ := Option.isSome_iff_exists.mp hleaf
  obtain ⟨hdmem, -, -, hdstop⟩ := h.leaf d hd
  have := (hroot.child (hparent ▸ hdmem)).placed.stop_cut.le_size
  obtain ⟨hkind, hstop⟩ := h.holds.resolve_left (by omega)
  exact ⟨hkind, hstop, hparent⟩

/-- **The token at an offset.**  At every offset of every text the token that holds the offset is
found, in the innermost node around it.  Where the token is a leaf of the tree, the arena knows that
node as its parent, so that the way to the outside through the arena starts at the right node.  From
the end of the text on, the token is the end of the file, and its parent is the root. -/
theorem tokenAt_parse (fileName : String) (s : Source) (offset : Nat) :
    ((parse fileName s).root.tokenAt s offset).Correct s (parse fileName s).root
        (min offset s.size) ∧
      (∀ c ∈ ((parse fileName s).root.tokenAt s offset).leaf,
        (parse fileName s).arena.parent? c.index =
          some ((parse fileName s).root.tokenAt s offset).parent.index) ∧
      (s.size ≤ offset →
        ((parse fileName s).root.tokenAt s offset).kind = .endOfFile ∧
          ((parse fileName s).root.tokenAt s offset).stop = s.size ∧
          ((parse fileName s).root.tokenAt s offset).parent = (parse fileName s).root) := by
  obtain ⟨_, st, hfile, harena, -⟩ := readsFile_parse fileName s
  have hcorrect : ((parse fileName s).root.tokenAt s offset).Correct s (parse fileName s).root
      (min offset s.size) :=
    TokenAt.correct_tokenWithin hfile.laidOut (hfile.pos ▸ Nat.zero_le _) .root
  refine ⟨hcorrect, fun c hc => ?_, fun hle => ?_⟩
  · rw [harena]
    have hparent := hcorrect.leads.within
    exact (hfile.grown.stores _ (List.mem_singleton_self _) _ hparent).linked c
      (hcorrect.leaf c hc).1
  · rw [Nat.min_eq_right hle] at hcorrect
    obtain ⟨statements, endOfFile, hform, hend, -⟩ := hfile.form
    refine hcorrect.atEnd hfile.laidOut ⟨endOfFile, ?_, by rw [Node.kind, hend]; rfl⟩
    rw [Node.children, hform]
    simp [Form.children]

end InlineValues
