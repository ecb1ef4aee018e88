import InlineValues.Proofs.Query.Chain

/-!
# Tokens at different offsets

The tokens that are found at two offsets are the same one, or the first ends in front of the second
(`TokenAt.Apart`).  Leaves keep to this since they lie in a row, and so do the tokens of one gap,
which are read from the same place (`Lexer.eq_or_stop_le_scanPast`).

What is read in a gap need not be what the parser read there.  It may go on behind the gap, over the
start of the next child or over the end of the node (`TokenAt.Overruns`), and nothing else makes two
tokens overlap.
-/

namespace InlineValues

variable {s : Source} {root n c : Node} {p q : Nat} {t u : TokenAt}

/-- Two tokens are the same part of the text, or the first one ends in front of the other. -/
def TokenAt.Apart (t u : TokenAt) : Prop := (t.pos = u.pos ∧ t.stop = u.stop) ∨ t.stop ≤ u.pos

instance (t u : TokenAt) : Decidable (t.Apart u) :=
  inferInstanceAs (Decidable ((t.pos = u.pos ∧ t.stop = u.stop) ∨ t.stop ≤ u.pos))

/-- The token at an offset was read in a gap and goes on behind it. -/
def TokenAt.Overruns (t : TokenAt) (p : Nat) : Prop :=
  t.leaf = none ∧
    (t.parent.stop < t.stop ∨ ∃ c ∈ t.parent.children, p < c.pos ∧ c.pos < t.stop)

/-- Of two nodes in a row, one starts behind the end of the other. -/
lemma Fits.stop_le_pos {a b : Nat} {xs : List Node} {d : Node} (h : Fits a b xs) (hc : c ∈ xs)
    (hd : d ∈ xs) (hne : c ≠ d) (hlt : c.pos < d.stop) : c.stop ≤ d.pos := by
  induction xs generalizing a with
  | nil => simp at hc
  | cons x xs ih =>
    obtain ⟨-, hx, hrest⟩ := h
    rcases List.mem_cons.mp hc with rfl | hc' <;> rcases List.mem_cons.mp hd with rfl | hd'
    · exact absurd rfl hne
    · exact (hrest.of_mem hd').1
    · have := hrest.of_mem hc'
      omega
    · exact ih hrest hc' hd'

/-! ## One gap -/

/-- From one place, the token at an earlier offset is read before the one at a later offset. -/
theorem Lexer.eq_or_stop_le_scanPast (joined : Bool) (fuel : Nat) {l : Lexer}
    (hsource : l.source = s) (hcursor : l.cursor.On s) (hpq : p ≤ q)
    (hfuel : s.size - l.cursor.pos < fuel) :
    l.scanPast p joined fuel = l.scanPast q joined fuel ∨
      (l.scanPast p joined fuel).stop ≤ (l.scanPast q joined fuel).token.fullStart := by
  induction fuel generalizing l with
  | zero => exact absurd hfuel (Nat.not_lt_zero _)
  | succ fuel ih =>
    rw [scanPast, scanPast]
    obtain ⟨hsound, hfull⟩ := sound_scan_joined joined hsource hcursor
    generalize (if joined then l.scan.rescanGreater else l.scan) = next at hsound hfull ⊢
    split
    case isTrue hp =>
      split
      case isTrue => exact .inl rfl
      case isFalse hq =>
        simp only [Bool.or_eq_true, decide_eq_true_eq, beq_iff_eq, not_or, Nat.not_lt] at hq
        have hlt := hsound.fullStart_lt hq.2
        have hsize := hsound.cursor.isCut.le_size
        obtain ⟨-, -, -, hbehind⟩ :=
          sound_scanPast joined fuel hsound.source hsound.cursor hq.1 (by omega)
        exact .inr hbehind
    case isFalse hp =>
      simp only [Bool.or_eq_true, decide_eq_true_eq, beq_iff_eq, not_or, Nat.not_lt] at hp
      have hlt := hsound.fullStart_lt hp.2
      have hsize := hsound.cursor.isCut.le_size
      rw [if_neg (by simpa using ⟨Nat.le_trans hp.1 hpq, hp.2⟩)]
      exact ih hsound.source hsound.cursor (by omega)

namespace Node

lemma le_foldl_stop (cs : List Node) (start : Nat) :
    start ≤ cs.foldl (fun start c => max start c.stop) start ∧
      ∀ c ∈ cs, c.stop ≤ cs.foldl (fun start c => max start c.stop) start := by
  induction cs generalizing start with
  | nil => simp
  | cons c cs ih =>
    obtain ⟨hstart, hcs⟩ := ih (max start c.stop)
    exact ⟨Nat.le_trans (Nat.le_max_left ..) hstart,
      List.forall_mem_cons.mpr ⟨Nat.le_trans (Nat.le_max_right ..) hstart, hcs⟩⟩

/-- A gap starts behind the children in front of the offset. -/
lemma stop_le_gapStart (hc : c ∈ n.childrenUpTo p) : c.stop ≤ n.gapStart p :=
  (le_foldl_stop _ _).2 c hc

/-- Two offsets lie in the same gap if no child starts between them. -/
lemma childrenUpTo_eq (hpq : p ≤ q) (h : ∀ c ∈ n.childrenUpTo q, c.pos ≤ p) :
    n.childrenUpTo q = n.childrenUpTo p := by
  unfold childrenUpTo at h ⊢
  generalize n.children = cs at h ⊢
  induction cs with
  | nil => rfl
  | cons c cs ih =>
    by_cases hc : c.pos ≤ q
    · rw [List.takeWhile_cons_of_pos (by simpa using hc)] at h ⊢
      rw [List.takeWhile_cons_of_pos (by simpa using h c List.mem_cons_self),
        ih fun d hd => h d (List.mem_cons_of_mem c hd)]
    · rw [List.takeWhile_cons_of_neg (by simpa using hc),
        List.takeWhile_cons_of_neg (by simpa using fun hcp => hc (Nat.le_trans hcp hpq))]

lemma mem_childrenUpTo (hn : n.LaidOut s) (hc : c ∈ n.children) (hpos : c.pos ≤ p) :
    c ∈ n.childrenUpTo p := hn.placed.children.mem_takeWhile hc hpos

/-! ## Where a token is found -/

lemma tokenWithin_of_none (h : n.childAt? p = none) (outer : List Node) :
    n.tokenWithin s p outer = n.gapToken s p outer := by
  rw [tokenWithin]
  split <;> simp_all

lemma tokenWithin_of_token {kind : TokenKind} (h : n.childAt? p = some c)
    (hkind : c.kind = .token kind) (outer : List Node) :
    n.tokenWithin s p outer =
      { kind, pos := c.pos, stop := c.stop, leaf := c, parent := n, outer } := by
  rw [tokenWithin]
  split
  · simp_all
  · cases h.symm.trans ‹_›
    split <;> simp_all

lemma tokenWithin_of_node {kind : NodeKind} (h : n.childAt? p = some c)
    (hkind : c.kind = .node kind) (outer : List Node) :
    n.tokenWithin s p outer = c.tokenWithin s p (n :: outer) := by
  rw [tokenWithin]
  split
  · simp_all
  · cases h.symm.trans ‹_›
    split <;> simp_all

/-- The token starts inside the node in which it is looked for. -/
lemma pos_le_tokenWithin (hn : n.LaidOut s) (hpos : n.pos ≤ p) (outer : List Node) :
    n.pos ≤ (n.tokenWithin s p outer).pos := by
  fun_induction Node.tokenWithin s p outer n with
  | case1 outer n h => exact Nat.le_trans (le_gapStart hn) (gapStart_le_pos hn hpos h outer)
  | case2 outer n c h kind hkind => exact (hn.placed.children.of_mem (childAt?_mem h)).1
  | case3 outer n c h kind hkind ih =>
    have hc := childAt?_mem h
    exact Nat.le_trans (hn.placed.children.of_mem hc).1
      (ih (hn.child hc) (contains_of_childAt? h hkind).1)

/-- The token starts inside the child that covers the offset. -/
lemma pos_child_le_tokenWithin (hn : n.LaidOut s) (h : n.childAt? p = some c)
    (outer : List Node) : c.pos ≤ (n.tokenWithin s p outer).pos := by
  cases hkind : c.kind with
  | token kind => rw [tokenWithin_of_token h hkind]
  | node kind =>
    rw [tokenWithin_of_node h hkind]
    exact pos_le_tokenWithin (hn.child (childAt?_mem h)) (contains_of_childAt? h hkind).1 _

/-- The token ends inside the node in which it is looked for, unless it goes on behind its gap. -/
lemma stop_tokenWithin_le (hn : n.LaidOut s) (outer : List Node) :
    (n.tokenWithin s p outer).stop ≤ n.stop ∨ (n.tokenWithin s p outer).Overruns p := by
  fun_induction Node.tokenWithin s p outer n with
  | case1 outer n h =>
    rcases Nat.lt_or_ge n.stop (n.gapToken s p outer).stop with hlt | hle
    · exact .inr ⟨rfl, .inl hlt⟩
    · exact .inl hle
  | case2 outer n c h kind hkind =>
    exact .inl (hn.placed.children.of_mem (childAt?_mem h)).2.2
  | case3 outer n c h kind hkind ih =>
    have hc := childAt?_mem h
    refine (ih (hn.child hc)).imp_left fun hle => ?_
    exact Nat.le_trans hle (hn.placed.children.of_mem hc).2.2

/-! ## Two offsets -/

/-- Behind the token of a gap stands any token that is found further on, if the first one does not
go on behind its gap. -/
lemma apart_gapToken (hn : n.LaidOut s) (hpos : n.pos ≤ p) (hpq : p ≤ q)
    (h : n.childAt? p = none) (outer outer' : List Node) :
    (n.gapToken s p outer).Apart (n.tokenWithin s q outer') ∨
      (n.gapToken s p outer).Overruns p := by
  by_cases hover : (n.gapToken s p outer).Overruns p
  · exact .inr hover
  refine .inl ?_
  have hbehind (c : Node) (hc : c ∈ n.children) (hcp : p < c.pos) :
      (n.gapToken s p outer).stop ≤ c.pos :=
    Nat.le_of_not_lt fun hlt => hover ⟨rfl, .inr ⟨c, hc, hcp, hlt⟩⟩
  cases hq : n.childAt? q with
  | some c =>
    have hc := childAt?_mem hq
    have hcq := childAt?_covers hq
    have hstart : p < c.pos := by
      refine Nat.lt_of_not_le fun hcp => not_covers_of_childAt? hn.placed.children h hc ⟨hcp, ?_⟩
      have hstop := reaches_iff.mp hcq.2
      refine reaches_iff.mpr ?_
      rcases hstop with hstop | ⟨hstop, hkind⟩
      · exact .inl (by omega)
      · exact (Nat.lt_or_eq_of_le hpq).imp (by omega) fun heq => ⟨by omega, hkind⟩
    exact .inr (Nat.le_trans (hbehind c hc hstart) (pos_child_le_tokenWithin hn hq outer'))
  | none =>
    have hgap := gapStart_le_pos hn (Nat.le_trans hpos hpq) hq outer'
    rw [tokenWithin_of_none hq]
    by_cases hsame : ∀ c ∈ n.childrenUpTo q, c.pos ≤ p
    · -- Both offsets lie in one gap, and its text is read once more from the same place.
      have hstart : n.gapStart q = n.gapStart p := by
        rw [gapStart, childrenUpTo_eq hpq hsame, gapStart]
      obtain ⟨hcursor, -⟩ := Lexer.on_setPosition (gapStart_cut (p := p) hn)
      have hread := Lexer.eq_or_stop_le_scanPast (n.is .binaryExpression) (s.size + 1)
        (l := (Lexer.start s).setPosition (n.gapStart p)) rfl hcursor hpq
        (Nat.lt_succ_of_le (Nat.sub_le ..))
      simp only [gapToken, TokenAt.Apart, hstart]
      exact hread.imp_left fun heq => by rw [heq]; exact ⟨rfl, rfl⟩
    · -- A child stands between the two gaps.
      simp only [not_forall, Nat.not_le] at hsame
      obtain ⟨c, hc, hcp⟩ := hsame
      have hmem := (List.takeWhile_sublist _).subset hc
      have := hbehind c hmem hcp
      have := (hn.placed.children.of_mem hmem).2.1
      have := stop_le_gapStart hc
      exact .inr (by omega)

/-- Behind a child that holds an offset stands any token that is found further on outside it. -/
lemma stop_child_le_tokenWithin (hn : n.LaidOut s) (hc : c ∈ n.children) (hp : c.Contains p)
    (hpq : p ≤ q) (hother : n.childAt? q ≠ some c) (outer : List Node) :
    c.stop ≤ (n.tokenWithin s q outer).pos := by
  have hfits := hn.placed.children
  obtain ⟨hcp, hpc⟩ := hp
  cases hq : n.childAt? q with
  | some d =>
    have hd := childAt?_mem hq
    have hlt : c.pos < d.stop := by
      rcases reaches_iff.mp (childAt?_covers hq).2 with hstop | ⟨-, hkind⟩
      · omega
      · have hend := (hn.child hd).placed.ended hkind
        have := (hn.child hc).placed.stop_cut.le_size
        omega
    have hne : c ≠ d := fun heq => hother (heq ▸ hq)
    exact Nat.le_trans (hfits.stop_le_pos hc hd hne hlt) (pos_child_le_tokenWithin hn hq outer)
  | none =>
    have hbefore := stop_le_gapStart (mem_childrenUpTo hn hc (Nat.le_trans hcp hpq))
    have hnpos := (hfits.of_mem hc).1
    rw [tokenWithin_of_none hq]
    exact Nat.le_trans hbefore (gapStart_le_pos hn (by omega) hq outer)

/-- Inside one node, two tokens are apart unless the first one goes on behind its gap. -/
lemma apart_tokenWithin (hn : n.LaidOut s) (hpos : n.pos ≤ p) (hpq : p < q) (hq : q ≤ s.size)
    (outer outer' : List Node) :
    (n.tokenWithin s p outer).Apart (n.tokenWithin s q outer') ∨
      (n.tokenWithin s p outer).Overruns p := by
  fun_induction Node.tokenWithin s p outer n generalizing outer' with
  | case1 outer n h => exact apart_gapToken hn hpos (Nat.le_of_lt hpq) h outer outer'
  | case2 outer n c h kind hkind =>
    refine .inl ?_
    by_cases hsame : n.childAt? q = some c
    · rw [tokenWithin_of_token hsame hkind]
      exact .inl ⟨rfl, rfl⟩
    · have hc := childAt?_mem h
      have hcontains : c.Contains p := by
        have hcovers := childAt?_covers h
        refine ⟨hcovers.1, (reaches_iff.mp hcovers.2).resolve_right fun hend => ?_⟩
        have := (hn.child hc).placed.ended hend.2
        omega
      exact .inr (stop_child_le_tokenWithin hn hc hcontains (Nat.le_of_lt hpq) hsame outer')
  | case3 outer n c h kind hkind ih =>
    have hc := childAt?_mem h
    have hcontains := contains_of_childAt? h hkind
    by_cases hsame : n.childAt? q = some c
    · rw [tokenWithin_of_node hsame hkind]
      exact ih (hn.child hc) hcontains.1 (n :: outer')
    · have hbehind :=
        stop_child_le_tokenWithin hn hc hcontains (Nat.le_of_lt hpq) hsame outer'
      exact (stop_tokenWithin_le (hn.child hc) (n :: outer)).imp_left fun hle =>
        .inr (Nat.le_trans hle hbehind)

end Node

/-- **Tokens at offsets divide the text.**  The tokens that are found at two offsets of a text are
the same one, or the first ends in front of the second, unless the first one was read in a gap of
the tree and goes on behind it.  A gap is read from its start on without the tree, and what opens a
string, a template or a comment there may run over the nodes that follow. -/
theorem apart_or_overruns_parse (fileName : String) (s : Source) {p q : Nat} (hpq : p ≤ q) :
    ((parse fileName s).root.tokenAt s p).Apart ((parse fileName s).root.tokenAt s q) ∨
      ((parse fileName s).root.tokenAt s p).Overruns (min p s.size) := by
  obtain ⟨_, st, hfile, -⟩ := readsFile_parse fileName s
  have hle : min p s.size ≤ min q s.size := by omega
  rcases Nat.lt_or_eq_of_le hle with hlt | heq
  · exact Node.apart_tokenWithin hfile.laidOut (hfile.pos ▸ Nat.zero_le _) hlt
      (Nat.min_le_right ..) [] []
  · refine .inl (.inl ?_)
    rw [Node.tokenAt, Node.tokenAt, heq]
    exact ⟨rfl, rfl⟩

/-- A first line that begins with `#!` is a gap.  A quote in it opens a template there, which goes
on over the statement in the next line. -/
theorem overruns_parse_firstLine :
    2 ≤ 3 ∧
      ¬((parse "a.ts" (.ofString "#!\x60\nlet a;")).root.tokenAt
          (.ofString "#!\x60\nlet a;") 2).Apart
        ((parse "a.ts" (.ofString "#!\x60\nlet a;")).root.tokenAt
          (.ofString "#!\x60\nlet a;") 3) ∧
      ((parse "a.ts" (.ofString "#!\x60\nlet a;")).root.tokenAt
        (.ofString "#!\x60\nlet a;") 2).Overruns 2 := by
  have hoverlap :
      ¬((parse "a.ts" (.ofString "#!\x60\nlet a;")).root.tokenAt
          (.ofString "#!\x60\nlet a;") 2).Apart
        ((parse "a.ts" (.ofString "#!\x60\nlet a;")).root.tokenAt
          (.ofString "#!\x60\nlet a;") 3) := by
    decide +kernel
  have hle : 2 ≤ 3 := by decide
  exact ⟨hle, hoverlap, (apart_or_overruns_parse "a.ts" _ hle).resolve_left hoverlap⟩

end InlineValues
