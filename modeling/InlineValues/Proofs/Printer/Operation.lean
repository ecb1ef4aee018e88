import InlineValues.Proofs.Printer.Lexemes

/-!
# Printing evaluable expressions

What the printer writes for an evaluable expression is made of the lexemes of this expression, if
nothing is left out for being too deep (`Node.MadeOf.writes`).  There is one lemma for each
construct, which knows of the parts only that they are written as their lexemes (`WritesWhole`).
What ends an expression depends on its level and on whether it is a number (`Node.EndsAt`).

Laid out alone, as a statement or as a file, this text can be scanned (`Node.MadeOf.spells_print`).
-/

namespace InlineValues

/-! ## What is printed -/

section

variable {c : PrintContext} {emit : Emit} {n e l r a b : Node} {k : TokenKind}

lemma printNode_parenthesized (h : n.form = .parenthesized (some e)) :
    printNode c emit n = write "(" ++ emit (some e) ++ write ")" := by
  rw [printNode, h]

lemma printNode_propertyAccess {optional : Bool}
    (h : n.form = .propertyAccess l optional (some r)) :
    printNode c emit n =
      emit (some l) ++ [.text (TokenKind.point optional).spelling] ++ emit (some r) := by
  rw [printNode, h]
  cases optional <;> rfl

lemma printNode_elementAccess {optional : Bool}
    (h : n.form = .elementAccess l optional (some r)) :
    printNode c emit n =
      emit (some l) ++ [.text (if optional then ['?', '.', '['] else ['['])] ++ emit (some r) ++
        write "]" := by
  rw [printNode, h]
  cases optional <;> rfl

lemma printNode_call {optional : Bool} {arguments : Sequence Node}
    (h : n.form = .call e optional none arguments) :
    printNode c emit n = emit (some e) ++ writeIf optional "?." ++
      (write "(" ++ commaSeparated emit arguments.items ++ write ")") := by
  rw [printNode, h]
  simp [angledList, parenthesizedList]

lemma printNode_arrayLiteral {elements : Sequence Node} {multiLine : Bool}
    (h : n.form = .arrayLiteral elements multiLine) :
    printNode c emit n = write "[" ++ (commaSeparated emit elements.items ++
      writeIf (elements.trailingComma && !elements.items.isEmpty) ",") ++ write "]" := by
  rw [printNode, h]
  rfl

lemma printNode_prefixUnary (h : n.form = .prefixUnary k (some e)) :
    printNode c emit n =
      spelled k ++ writeIf (fuses k (some e)) " " ++ emit (some e) := by
  rw [printNode, h]

lemma printNode_postfixUnary (h : n.form = .postfixUnary e k) :
    printNode c emit n = emit (some e) ++ spelled k := by
  rw [printNode, h]

lemma printNode_binary (h : n.form = .binary l k (some r)) :
    printNode c emit n = emit (some l) ++ printOperator k ++ emit (some r) := by
  rw [printNode, h]

lemma printNode_conditional (h : n.form = .conditional e (some a) (some b)) :
    printNode c emit n =
      emit (some e) ++ write " ? " ++ emit (some a) ++ write " : " ++ emit (some b) := by
  rw [printNode, h]

end

/-- The marks are texts, which together are made of the lexemes. -/
def WritesMarks (ends : List Char → Prop) (ms : List Mark) (ts : List Lexeme) : Prop :=
  ∃ texts : List (List Char), ms = texts.map .text ∧ Writes ends texts.flatten ts

lemma WritesMarks.mono {ends ends' : List Char → Prop} {ms : List Mark} {ts : List Lexeme}
    (h : WritesMarks ends ms ts) (hends : ∀ rest, ends' rest → ends rest) :
    WritesMarks ends' ms ts := by
  obtain ⟨texts, hms, hwrites⟩ := h
  exact ⟨texts, hms, hwrites.mono hends⟩

/-- The marks of the items of a list are among those of the list. -/
lemma mem_commaSeparated {emit : Emit} {m : Mark} {part : Node × List Lexeme}
    {parts : List (Node × List Lexeme)} (hpart : part ∈ parts) (hm : m ∈ emit (some part.1)) :
    m ∈ commaSeparated emit (parts.map (·.1)) := by
  induction parts with
  | nil => cases hpart
  | cons first parts ih =>
    have hfirst : commaSeparated emit ((first :: parts).map (·.1)) = emit (some first.1) ++
        if parts.isEmpty then [] else write ", " ++ commaSeparated emit (parts.map (·.1)) := by
      cases parts <;> simp [commaSeparated, List.intercalate_cons_cons]
    rw [hfirst]
    rcases List.mem_cons.mp hpart with rfl | hpart
    · exact List.mem_append_left _ hm
    · refine List.mem_append_right _ ?_
      cases parts with
      | nil => cases hpart
      | cons => exact List.mem_append_right _ (ih hpart)

/-- The items of a list are written with commas between them, and a list in brackets may have one
behind its last item. -/
lemma writesMarks_listed {emit : Emit} (trailing : Bool) (part : Node × List Lexeme)
    (parts : List (Node × List Lexeme))
    (h : ∀ p ∈ part :: parts, WritesMarks EndsOperand (emit (some p.1)) p.2) :
    ∃ texts : List (List Char), commaSeparated emit ((part :: parts).map (·.1)) ++
        writeIf trailing "," = texts.map .text ∧
      Writes EndsOperand texts.flatten (Lexeme.listed trailing ((part :: parts).map (·.2))) := by
  induction parts generalizing part with
  | nil =>
    obtain ⟨texts, hmarks, hwrites⟩ := h part List.mem_cons_self
    cases trailing with
    | false =>
      refine ⟨texts, ?_, ?_⟩
      · simp [commaSeparated, hmarks, writeIf]
      · simpa [Lexeme.listed] using hwrites
    | true =>
      refine ⟨texts ++ [[',']], ?_, ?_⟩
      · simp [commaSeparated, hmarks, writeIf, write]
      · simpa [Lexeme.listed] using hwrites.comma
  | cons next parts ih =>
    obtain ⟨xs, hxs, hfirst⟩ := h part List.mem_cons_self
    obtain ⟨ys, hys, hothers⟩ := ih next fun p hp => h p (List.mem_cons_of_mem _ hp)
    refine ⟨xs ++ [[',', ' ']] ++ ys, ?_, ?_⟩
    · rw [List.map_append, List.map_append, ← hxs, ← hys]
      simp [commaSeparated, List.intercalate_cons_cons, write]
    · simpa [Lexeme.listed] using hfirst.binary (k := .comma) rfl hothers

lemma exists_enclosed {emit : Emit} (trailing : Bool) {parts : List (Node × List Lexeme)}
    (h : ∀ part ∈ parts, WritesMarks EndsOperand (emit (some part.1)) part.2) :
    ∃ texts : List (List Char), commaSeparated emit (parts.map (·.1)) ++
        writeIf (trailing && !parts.isEmpty) "," = texts.map .text ∧
      Writes.Encloses texts.flatten (Lexeme.listed trailing (parts.map (·.2))) := by
  cases parts with
  | nil => exact ⟨[], by simp [commaSeparated, writeIf], .inl ⟨rfl, rfl⟩⟩
  | cons part parts =>
    obtain ⟨texts, hmarks, hwrites⟩ := writesMarks_listed trailing part parts h
    exact ⟨texts, by simpa using hmarks, .inr hwrites⟩

/-- In front of what an expression of a level ends.  At the lowest level a point may follow, unless
the expression is a number. -/
def Node.EndsAt : Nat → Node → List Char → Prop
  | 0, n, cs => if n.form.isNumber then EndsOperand cs else EndsName cs
  | _ + 1, _, cs => EndsOperand cs

@[simp] lemma Node.endsAt_succ (level : Nat) (n : Node) : n.EndsAt (level + 1) = EndsOperand := rfl

lemma EndsOperand.node_endsAt {rest : List Char} (h : EndsOperand rest) (level : Nat) (n : Node) :
    n.EndsAt level rest := by
  cases level with
  | zero =>
    rw [Node.EndsAt]
    split
    · exact h
    · exact h.endsName
  | succ => exact h

lemma Node.endsAt_of_le {i j : Nat} (h : i ≤ j) {n : Node} {rest : List Char}
    (hrest : n.EndsAt j rest) : n.EndsAt i rest := by
  cases j with
  | zero => rwa [Nat.le_zero.mp h]
  | succ => exact EndsOperand.node_endsAt hrest i n

lemma Node.endsName_of_endsAt {n : Node} {rest : List Char} (h : n.EndsAt 0 rest) :
    EndsName rest := by
  rw [Node.EndsAt] at h
  split at h
  · exact EndsOperand.endsName h
  · exact h

/-- An operand ends in front of brackets and in front of the mark of an optional chain. -/
lemma endsOperand_marked (optional : Bool) {k : TokenKind}
    (hk : k ∈ [TokenKind.openParen, .openBracket]) (cs : List Char) :
    EndsOperand ((if optional then ['?', '.'] else []) ++ (k.spelling ++ cs)) := by
  simp only [List.mem_cons, List.not_mem_nil, or_false] at hk
  cases optional with
  | true => exact endsOperand_cons (by decide)
  | false => rcases hk with rfl | rfl <;> exact endsOperand_cons (by decide)

/-- A leaf ends in front of what its lexeme ends at. -/
lemma Node.IsLeaf.endsAt {s : Source} {n : Node} {t : Lexeme} (h : n.IsLeaf s t)
    {rest : List Char} (hrest : n.EndsAt 0 rest) : t.kind.EndsAt rest := by
  rwa [Node.EndsAt, h.number, ← TokenKind.EndsAt] at hrest

lemma TokenKind.isNumber_of_isName {k : TokenKind} (h : k.isName = true) : k.isNumber = false := by
  cases k
  all_goals first | rfl | exact absurd h (by decide)

/-- A sign that does not fuse with its operand is not made longer by it. -/
lemma not_fuses {s : Source} {e : Node} {k : TokenKind} {cs : List Char} {ts : List Lexeme}
    (hk : k ∈ TokenKind.prefixSigns) (hfuses : fuses k (some e) = false) (h : e.MadeOf s 1 ts)
    {ends : List Char → Prop} (hwrites : Writes ends cs ts) : ∀ c ∈ cs.head?, c ∉ k.extensions := by
  obtain ⟨t, us, rfl, hstarts⟩ := h.starts
  obtain ⟨t', us', more, hts, rfl⟩ := hwrites.front
  obtain ⟨rfl, rfl⟩ := List.cons.inj hts
  -- No sign goes on with a character that an operand starts with.
  have hnone : ∀ k ∈ TokenKind.prefixSigns,
      k.extensions.all (fun c => !startsOperand c && c != '(' && c != '[') = true := by decide
  have hext (c : Char) (hc : c ∈ k.extensions) :
      (startsOperand c = false ∧ c ≠ '(') ∧ c ≠ '[' := by
    simpa using List.all_eq_true.mp (hnone k hk) c hc
  cases hstarts with
  | operand h =>
    obtain ⟨a, as, htext, hstart⟩ := h.front_operand
    intro c hc hmem
    rw [htext] at hc
    cases hc
    rw [(hext a hmem).1.1] at hstart
    cases hstart
  | openParen =>
    rintro c ⟨⟩ hmem
    exact (hext '(' hmem).1.2 rfl
  | openBracket =>
    rintro c ⟨⟩ hmem
    exact (hext '[' hmem).2 rfl
  | @sign k' hk' _ form =>
    obtain ⟨o, hform⟩ := form rfl
    obtain ⟨origin, stop, form⟩ := e
    simp only at hform
    subst hform
    -- The pairs of signs that fuse are those that are kept apart.
    have hpairs : ∀ k ∈ TokenKind.prefixSigns, ∀ k' ∈ TokenKind.prefixSigns,
        k'.spelling.head?.any k.extensions.contains = true →
          fuses k (some ⟨origin, stop, .prefixUnary k' o⟩) = true := by
      intro k hk k' hk'
      simp only [TokenKind.prefixSigns, List.mem_cons, List.not_mem_nil, or_false] at hk hk'
      rcases hk with rfl | rfl | rfl | rfl | rfl | rfl <;>
        rcases hk' with rfl | rfl | rfl | rfl | rfl | rfl <;>
        first | exact fun _ => rfl | exact fun h => absurd h (by decide)
    intro c hc hmem
    have hspelling : ∀ k ∈ TokenKind.prefixSigns, k.spelling ≠ [] := by decide
    have hhead : c ∈ k'.spelling.head? := by
      change c ∈ (k'.spelling ++ more).head? at hc
      rwa [List.head?_append_of_ne_nil _ (hspelling k' hk')] at hc
    have hany : k'.spelling.head?.any k.extensions.contains = true :=
      (Option.any_eq_true _ _).mpr ⟨c, hhead, List.contains_iff_mem.mpr hmem⟩
    rw [hpairs k hk k' hk' hany] at hfuses
    cases hfuses

/-! ## What is written for each construct -/

/-- Unless something is left out for being too deep, the marks are texts that are made of the
lexemes. -/
def WritesWhole (ends : List Char → Prop) (ms : List Mark) (ts : List Lexeme) : Prop :=
  .cut ∉ ms → WritesMarks ends ms ts

/-- Nothing is written for a node but by printing it. -/
lemma WritesWhole.of_printNode {c : PrintContext} {n : Node} {ends : List Char → Prop}
    {ts : List Lexeme} (h : ∀ depth, WritesWhole ends (printNode c (marksOf c depth) n) ts)
    (depth : Nat) : WritesWhole ends (marksOf c depth (some n)) ts := by
  cases depth with
  | zero => exact fun hcut => absurd (List.mem_singleton_self _) hcut
  | succ depth => exact h depth

/-- A leaf is written as its lexeme. -/
lemma Node.IsLeaf.marksOf_eq {s : Source} {c : PrintContext} {n : Node} {t : Lexeme}
    (h : n.IsLeaf s t) (hc : c.source? = some s) {depth : Nat}
    (hcut : .cut ∉ marksOf c depth (some n)) : marksOf c depth (some n) = [.text t.text] := by
  cases depth with
  | zero => exact absurd (List.mem_singleton_self _) hcut
  | succ depth => rw [marksOf, h.printed c _ hc]

lemma Node.IsLeaf.writesWhole {s : Source} {c : PrintContext} {n : Node} {t : Lexeme}
    (h : n.IsLeaf s t) (hc : c.source? = some s) (depth : Nat) :
    WritesWhole (n.EndsAt 0) (marksOf c depth (some n)) [t] := by
  intro hcut
  rw [h.marksOf_eq hc hcut]
  refine ⟨[t.text], rfl, ?_⟩
  rw [List.flatten_singleton]
  exact (Writes.atom h.atom).mono fun _ => h.endsAt

section

variable {c : PrintContext} {emit : Emit} {n o e l r m a b : Node} {k : TokenKind}
  {optional : Bool} {ts us vs : List Lexeme} {list : Sequence Node}
  {parts : List (Node × List Lexeme)} {ends : List Char → Prop}

lemma writesWhole_parenthesized (form : n.form = .parenthesized (some e))
    (h : WritesWhole (e.EndsAt 2) (emit (some e)) ts) :
    WritesWhole ends (printNode c emit n) (.ofKind .openParen :: ts ++ [.ofKind .closeParen]) := by
  intro hcut
  rw [printNode_parenthesized form] at hcut ⊢
  obtain ⟨texts, hmarks, hwrites⟩ := h fun hmem => hcut (by simp [hmem])
  refine ⟨['('] :: texts ++ [[')']], by simp [hmarks, write], ?_⟩
  simpa using (hwrites.mono fun _ h => h.node_endsAt 2 e).parenthesized

lemma writesWhole_access {s : Source} {t : Lexeme}
    (form : n.form = .propertyAccess o optional (some m))
    (point : optional = true ∨ o.form.isNumber = false) (name : m.IsLeaf s t)
    (kind : t.kind.isName = true) (h : WritesWhole (o.EndsAt 0) (emit (some o)) ts)
    (hname : .cut ∉ emit (some m) → emit (some m) = [.text t.text]) :
    WritesWhole (n.EndsAt 0) (printNode c emit n) (ts ++ [.ofKind (.point optional), t]) := by
  intro hcut
  rw [printNode_propertyAccess form] at hcut ⊢
  obtain ⟨texts, hmarks, hwrites⟩ := h fun hmem => hcut (by simp [hmem])
  have hmember := hname fun hmem => hcut (by simp [hmem])
  refine ⟨texts ++ [(TokenKind.point optional).spelling, t.text], by simp [hmarks, hmember], ?_⟩
  have hends (rest : List Char) : o.EndsAt 0 ((TokenKind.point optional).spelling ++ rest) := by
    cases optional with
    | true => exact (endsOperand_cons (by decide)).node_endsAt 0 o
    | false =>
      rw [Node.EndsAt, point.resolve_left (by simp), if_neg (by simp)]
      rintro _ ⟨⟩
      exact List.mem_cons_self
  have hnumber := TokenKind.isNumber_of_isName kind
  refine Writes.mono (by simpa using hwrites.access name.atom kind hends) fun rest hrest => ?_
  rw [TokenKind.EndsAt, hnumber]
  exact Node.endsName_of_endsAt hrest

/-- An object with a pair of brackets behind it. -/
lemma Writes.brackets (optional : Bool) (k k' : TokenKind) {cs ds : List Char}
    (hk : k ∈ [TokenKind.openParen, .openBracket])
    (hk' : k' ∈ [TokenKind.closeParen, .closeBracket]) (h : Writes (o.EndsAt 0) cs ts)
    (h' : Encloses ds us) :
    Writes ends
      (cs ++ ((if optional then ['?', '.'] else []) ++ (k.spelling ++ ds ++ k'.spelling)))
      (ts ++ Lexeme.mark optional ++ (.ofKind k :: us ++ [.ofKind k'])) := by
  have hwrites : Writes ends _ _ := h.append (marked optional hk hk' h') fun rest => by
    rw [List.append_assoc, List.append_assoc, List.append_assoc]
    exact (endsOperand_marked optional hk _).node_endsAt 0 o
  rwa [← List.append_assoc ts] at hwrites

lemma writesWhole_index (form : n.form = .elementAccess o optional (some e))
    (ho : WritesWhole (o.EndsAt 0) (emit (some o)) ts)
    (he : WritesWhole (e.EndsAt 2) (emit (some e)) us) :
    WritesWhole ends (printNode c emit n) (ts ++ Lexeme.mark optional ++
      (.ofKind .openBracket :: us ++ [.ofKind .closeBracket])) := by
  intro hcut
  rw [printNode_elementAccess form] at hcut ⊢
  obtain ⟨xs, hxs, hobject⟩ := ho fun hmem => hcut (by simp [hmem])
  obtain ⟨ys, hys, hindex⟩ := he fun hmem => hcut (by simp [hmem])
  refine ⟨xs ++ [if optional then ['?', '.', '['] else ['[']] ++ ys ++ [[']']],
    by simp [hxs, hys, write], ?_⟩
  have hwrites : Writes ends _ _ := hobject.brackets optional .openBracket .closeBracket
    (by simp) (by simp) (.inr (hindex.mono fun _ h => h.node_endsAt 2 e))
  rw [show TokenKind.openBracket.spelling = ['['] from rfl,
    show TokenKind.closeBracket.spelling = [']'] from rfl] at hwrites
  cases optional <;> simpa using hwrites

/-- The items of a list are written whole if the list is. -/
lemma exists_enclosed_whole (trailing : Bool)
    (h : ∀ part ∈ parts, WritesWhole (part.1.EndsAt 2) (emit (some part.1)) part.2)
    (hcut : .cut ∉ commaSeparated emit (parts.map (·.1))) :
    ∃ texts : List (List Char), commaSeparated emit (parts.map (·.1)) ++
        writeIf (trailing && !parts.isEmpty) "," = texts.map .text ∧
      Writes.Encloses texts.flatten (Lexeme.listed trailing (parts.map (·.2))) :=
  exists_enclosed trailing fun part hpart =>
    WritesMarks.mono (h part hpart fun hmem => hcut (mem_commaSeparated hpart hmem))
      fun _ h => h.node_endsAt 2 part.1

lemma writesWhole_call (form : n.form = .call o optional none list)
    (items : list.items = parts.map (·.1))
    (ho : WritesWhole (o.EndsAt 0) (emit (some o)) ts)
    (hparts : ∀ part ∈ parts, WritesWhole (part.1.EndsAt 2) (emit (some part.1)) part.2) :
    WritesWhole ends (printNode c emit n) (ts ++ Lexeme.mark optional ++
      (.ofKind .openParen :: Lexeme.listed false (parts.map (·.2)) ++ [.ofKind .closeParen])) := by
  intro hcut
  rw [printNode_call form, items] at hcut ⊢
  obtain ⟨xs, hxs, hobject⟩ := ho fun hmem => hcut (by simp [hmem])
  obtain ⟨ys, hys, harguments⟩ := exists_enclosed_whole false hparts fun hmem =>
    hcut (by simp [hmem])
  replace hys : commaSeparated emit (parts.map (·.1)) = ys.map .text := by
    simpa [writeIf] using hys
  refine ⟨xs ++ (if optional then [['?', '.']] else []) ++ (['('] :: ys ++ [[')']]), ?_, ?_⟩
  · cases optional <;> simp [hxs, hys, write, writeIf]
  have hwrites : Writes ends _ _ := hobject.brackets optional .openParen .closeParen
    (by simp) (by simp) harguments
  rw [show TokenKind.openParen.spelling = ['('] from rfl,
    show TokenKind.closeParen.spelling = [')'] from rfl] at hwrites
  cases optional <;> simpa using hwrites

lemma writesWhole_array {multiLine : Bool} (form : n.form = .arrayLiteral list multiLine)
    (items : list.items = parts.map (·.1))
    (hparts : ∀ part ∈ parts, WritesWhole (part.1.EndsAt 2) (emit (some part.1)) part.2) :
    WritesWhole ends (printNode c emit n) (.ofKind .openBracket ::
      Lexeme.listed list.trailingComma (parts.map (·.2)) ++ [.ofKind .closeBracket]) := by
  intro hcut
  rw [printNode_arrayLiteral form, items] at hcut ⊢
  obtain ⟨ys, hys, helements⟩ := exists_enclosed_whole list.trailingComma hparts fun hmem =>
    hcut (by simp [hmem])
  have hbrackets : Writes ends _ _ := Writes.bracketed .openBracket .closeBracket
    (by simp) (by simp) helements
  rw [List.isEmpty_map, hys]
  rw [show TokenKind.openBracket.spelling = ['['] from rfl,
    show TokenKind.closeBracket.spelling = [']'] from rfl] at hbrackets
  exact ⟨['['] :: ys ++ [[']']], by simp [write], by simpa using hbrackets⟩

lemma writesWhole_sign {s : Source} (form : n.form = .prefixUnary k (some e))
    (hk : k ∈ TokenKind.prefixSigns) (hmade : e.MadeOf s 1 ts)
    (h : WritesWhole (e.EndsAt 1) (emit (some e)) ts) :
    WritesWhole EndsOperand (printNode c emit n) (.ofKind k :: ts) := by
  intro hcut
  rw [printNode_prefixUnary form] at hcut ⊢
  obtain ⟨texts, hmarks, hwrites⟩ := h fun hmem => hcut (by simp [hmem])
  cases hfuses : fuses k (some e) with
  | true =>
    refine ⟨k.spelling :: [' '] :: texts, by simp [hmarks, spelled, writeIf, write], ?_⟩
    simpa using hwrites.sign hk (.inl rfl)
  | false =>
    refine ⟨k.spelling :: texts, by simp [hmarks, spelled, writeIf], ?_⟩
    simpa using hwrites.sign hk (.inr ⟨rfl, not_fuses hk hfuses hmade hwrites⟩)

lemma writesWhole_update (form : n.form = .postfixUnary e k)
    (hk : k ∈ [TokenKind.plusPlus, .minusMinus])
    (h : WritesWhole (e.EndsAt 0) (emit (some e)) ts) :
    WritesWhole ends (printNode c emit n) (ts ++ [.ofKind k]) := by
  intro hcut
  rw [printNode_postfixUnary form] at hcut ⊢
  obtain ⟨texts, hmarks, hwrites⟩ := h fun hmem => hcut (by simp [hmem])
  refine ⟨texts ++ [k.spelling], by simp [hmarks, spelled], ?_⟩
  simpa using (hwrites.mono fun _ h => h.node_endsAt 0 e).update hk

lemma writesWhole_binary (form : n.form = .binary l k (some r)) (hk : k.isInfix = true)
    (hl : WritesWhole (l.EndsAt 2) (emit (some l)) ts)
    (hr : WritesWhole (r.EndsAt 2) (emit (some r)) us) :
    WritesWhole EndsOperand (printNode c emit n) (ts ++ .ofKind k :: us) := by
  intro hcut
  rw [printNode_binary form] at hcut ⊢
  obtain ⟨xs, hxs, hleft⟩ := hl fun hmem => hcut (by simp [hmem])
  obtain ⟨ys, hys, hright⟩ := hr fun hmem => hcut (by simp [hmem])
  have hwrites := Writes.binary hk hleft hright
  rw [printOperator]
  split
  case isTrue hcomma =>
    rw [if_pos hcomma] at hwrites
    refine ⟨xs ++ [[',', ' ']] ++ ys, by simp [hxs, hys, write], ?_⟩
    simpa using hwrites
  case isFalse hcomma =>
    rw [if_neg hcomma] at hwrites
    refine ⟨xs ++ [[' '], k.spelling, [' ']] ++ ys, by simp [hxs, hys, write, spelled], ?_⟩
    simpa using hwrites

lemma writesWhole_conditional (form : n.form = .conditional e (some a) (some b))
    (he : WritesWhole (e.EndsAt 2) (emit (some e)) ts)
    (ha : WritesWhole (a.EndsAt 2) (emit (some a)) us)
    (hb : WritesWhole (b.EndsAt 2) (emit (some b)) vs) :
    WritesWhole EndsOperand (printNode c emit n)
      (ts ++ .ofKind .question :: us ++ .ofKind .colon :: vs) := by
  intro hcut
  rw [printNode_conditional form] at hcut ⊢
  obtain ⟨xs, hxs, hcondition⟩ := he fun hmem => hcut (by simp [hmem])
  obtain ⟨ys, hys, htrue⟩ := ha fun hmem => hcut (by simp [hmem])
  obtain ⟨zs, hzs, hfalse⟩ := hb fun hmem => hcut (by simp [hmem])
  refine ⟨xs ++ [[' ', '?', ' ']] ++ ys ++ [[' ', ':', ' ']] ++ zs,
    by simp [hxs, hys, hzs, write], ?_⟩
  simpa using Writes.conditional hcondition htrue hfalse

end

/-- An evaluable expression that is printed whole is printed as its lexemes. -/
theorem Node.MadeOf.writes {s : Source} {level : Nat} {n : Node} {ts : List Lexeme}
    (h : n.MadeOf s level ts) {c : PrintContext} (hc : c.source? = some s) (depth : Nat) :
    WritesWhole (n.EndsAt level) (marksOf c depth (some n)) ts := by
  induction h generalizing depth with
  | lift hle _ ih => exact fun hcut => WritesMarks.mono (ih depth hcut) fun _ => endsAt_of_le hle
  | leaf h => exact h.writesWhole hc depth
  | parenthesized form _ ih =>
    exact .of_printNode (fun depth => writesWhole_parenthesized form (ih depth)) depth
  | access form point _ name kind ih =>
    exact .of_printNode (fun depth =>
      writesWhole_access form point name kind (ih depth) (name.marksOf_eq hc)) depth
  | index form _ _ iho ihe =>
    exact .of_printNode (fun depth => writesWhole_index form (iho depth) (ihe depth)) depth
  | call form items _ _ iho ihs =>
    exact .of_printNode (fun depth =>
      writesWhole_call form items (iho depth) fun part hpart => ihs part hpart depth) depth
  | array form items _ ihs =>
    exact .of_printNode (fun depth =>
      writesWhole_array form items fun part hpart => ihs part hpart depth) depth
  | sign form hk h ih =>
    exact .of_printNode (fun depth => writesWhole_sign form hk h (ih depth)) depth
  | update form hk _ ih =>
    exact .of_printNode (fun depth => writesWhole_update form hk (ih depth)) depth
  | binary form hk _ _ ihl ihr =>
    exact .of_printNode (fun depth => writesWhole_binary form hk (ihl depth) (ihr depth)) depth
  | conditional form _ _ _ ihe iha ihb =>
    exact .of_printNode (fun depth =>
      writesWhole_conditional form (ihe depth) (iha depth) (ihb depth)) depth

/-- Whatever its level, an expression ends in front of what an operand ends at. -/
lemma Node.MadeOf.writes_operand {s : Source} {level : Nat} {n : Node} {ts : List Lexeme}
    (h : n.MadeOf s level ts) {c : PrintContext} (hc : c.source? = some s) (depth : Nat)
    (hcut : .cut ∉ marksOf c depth (some n)) :
    WritesMarks EndsOperand (marksOf c depth (some n)) ts :=
  (h.writes hc depth hcut).mono fun _ hrest => hrest.node_endsAt level n

/-! ## Texts that are printed -/

lemma Line.marks_texts (defer : Bool) (w : Line) (hw : w.owesSemicolon = false)
    (texts : List (List Char)) :
    w.marks defer (texts.map .text) = ⟨texts.flatten.reverse ++ w.reversed, false⟩ := by
  induction texts generalizing w with
  | nil =>
    obtain ⟨reversed, owes⟩ := w
    cases hw
    rfl
  | cons cs texts ih =>
    have hmark : w.mark defer (.text cs) = ⟨cs.reverse ++ w.reversed, false⟩ := by
      obtain ⟨reversed, owes⟩ := w
      cases hw
      cases cs with
      | nil => rfl
      | cons => rfl
    rw [List.map_cons, marks_cons, hmark, ih _ rfl]
    simp

lemma Line.finish_append {cs : List Char} {c : Char} (hc : c ≠ ' ') (owes : Bool) :
    Line.finish ⟨(cs ++ [c]).reverse, owes⟩ = cs ++ [c] := by
  simp [finish, hc]

/-- Laid out alone, what is written is no more than the lexemes. -/
lemma WritesMarks.writes_layOut {ends : List Char → Prop} {ms : List Mark} {ts : List Lexeme}
    (h : WritesMarks ends ms ts) (defer : Bool) : Writes ends (layOut defer ms) ts := by
  obtain ⟨texts, rfl, hwrites⟩ := h
  obtain ⟨more, c, hlast, hc⟩ := hwrites.last
  have hmarks := Line.marks_texts defer {} rfl texts
  rw [show Line.reversed {} = [] from rfl, List.append_nil, hlast] at hmarks
  rwa [layOut, hmarks, Line.finish_append hc, ← hlast]

/-- Laid out as an expression or as a statement, what is written is made of the lexemes. -/
lemma WritesMarks.spells {ms : List Mark} {ts : List Lexeme} (h : WritesMarks EndsOperand ms ts)
    (defer : Bool) {before behind : List Mark} (hbefore : before = [] ∨ before = [.line])
    (hbehind : behind = [] ∨ behind = [.semicolon]) :
    Spells (layOut defer (before ++ ms ++ behind)) ts := by
  obtain ⟨texts, rfl, hwrites⟩ := h
  obtain ⟨more, c, hlast, hc⟩ := hwrites.last
  have hstart : Line.marks defer {} before = {} := by
    rcases hbefore with rfl | rfl <;> rfl
  have hexpression := Line.marks_texts defer {} rfl texts
  rw [show Line.reversed {} = [] from rfl, List.append_nil, hlast] at hexpression
  have hclosed (rest : List Char) (hrest : IsClosing rest) :
      Spells (more ++ [c] ++ rest) ts := by
    have hends : EndsOperand rest := by
      rcases hrest with rfl | rfl
      · exact endsOperand_nil
      · exact endsOperand_cons (by decide)
    have hspells := hwrites.spells rest [] hends (.nil hrest)
    rwa [hlast, List.append_nil] at hspells
  rw [layOut, Line.marks_append, Line.marks_append, hstart, hexpression]
  rcases hbehind with rfl | rfl
  · rw [Line.marks_nil, Line.finish_append hc]
    simpa using hclosed [] (.inl rfl)
  · cases defer with
    | true =>
      have hsemicolon : Line.marks true ⟨(more ++ [c]).reverse, false⟩ [.semicolon] =
          ⟨(more ++ [c]).reverse, true⟩ := rfl
      rw [hsemicolon, Line.finish_append hc]
      simpa using hclosed [] (.inl rfl)
    | false =>
      have hreverse : (more ++ [c] ++ [';']).reverse = ';' :: (more ++ [c]).reverse :=
        List.reverse_append ..
      have hsemicolon : Line.marks false ⟨(more ++ [c]).reverse, false⟩ [.semicolon] =
          ⟨(more ++ [c] ++ [';']).reverse, false⟩ := by
        rw [hreverse]
        rfl
      rw [hsemicolon, Line.finish_append (by decide)]
      exact hclosed [';'] (.inr rfl)

/-- What is printed for an expression `e`: the expression itself, a statement that consists of it,
or a file with this statement alone, whose comments are left out. -/
inductive Node.Presents (e : Node) (options : PrintOptions) : Node → Prop
  | expression : Presents e options e
  | statement {m : Node} (form : m.form = .expressionStatement e) : Presents e options m
  | file {m x endOfFile : Node} {fileName : String} {statements : Sequence Node}
      (form : m.form = .sourceFile fileName statements endOfFile)
      (items : statements.items = [x]) (statement : x.form = .expressionStatement e)
      (comments : options.removeComments = true) : Presents e options m

/-- What is printed whole is written without a cut. -/
lemma cut_notMem_marksOf {s : Source} {options : PrintOptions} {m : Node}
    (h : (print (some s) options m).truncated = false) :
    .cut ∉ marksOf ⟨some s, !options.removeComments⟩ maxPrintDepth (some m) := by
  intro hmem
  rw [print] at h
  simp [hmem] at h

/-- What is printed whole for an expression of operators alone is no more than its lexemes. -/
lemma Node.MadeOf.writes_print {s : Source} {level : Nat} {e : Node} {ts : List Lexeme}
    {options : PrintOptions} (h : e.MadeOf s level ts)
    (hcut : (print (some s) options e).truncated = false) :
    Writes EndsOperand (print (some s) options e).text ts :=
  (h.writes_operand rfl _ (cut_notMem_marksOf hcut)).writes_layOut options.omitTrailingSemicolon

/-- What is printed whole for an expression of operators is made of its lexemes. -/
lemma Node.MadeOf.spells_print {s : Source} {level : Nat} {e m : Node} {ts : List Lexeme}
    {options : PrintOptions} (h : e.MadeOf s level ts) (hm : e.Presents options m)
    (hcut : (print (some s) options m).truncated = false) :
    Spells (print (some s) options m).text ts := by
  have hcut := cut_notMem_marksOf hcut
  have hstatement {c : PrintContext} (hc : c.source? = some s) {x : Node}
      (form : x.form = .expressionStatement e) (depth : Nat)
      (hcut : .cut ∉ marksOf c depth (some x)) :
      ∃ ms, marksOf c depth (some x) = ms ++ [.semicolon] ∧ WritesMarks EndsOperand ms ts := by
    cases depth with
    | zero => exact absurd (List.mem_singleton_self _) hcut
    | succ depth =>
      have hprint : printNode c (marksOf c depth) x = marksOf c depth (some e) ++ [.semicolon] := by
        rw [printNode, form]
      rw [marksOf, hprint] at hcut ⊢
      exact ⟨_, rfl, h.writes_operand hc depth fun hmem => hcut (List.mem_append_left _ hmem)⟩
  rw [print]
  cases hm with
  | expression =>
    simpa using
      (h.writes_operand rfl _ hcut).spells options.omitTrailingSemicolon (.inl rfl) (.inl rfl)
  | statement form =>
    obtain ⟨ms, hms, hwrites⟩ := hstatement rfl form _ hcut
    simpa [hms] using hwrites.spells options.omitTrailingSemicolon (.inl rfl) (.inr rfl)
  | @file m x endOfFile fileName statements form items statement comments =>
    have hprint : printNode ⟨some s, !options.removeComments⟩
        (marksOf ⟨some s, !options.removeComments⟩ 999) m =
          .line :: marksOf ⟨some s, !options.removeComments⟩ 999 (some x) := by
      rw [printNode, form]
      simp [statementLines, items, commentsBefore, comments]
    have hmarks : marksOf ⟨some s, !options.removeComments⟩ maxPrintDepth (some m) =
        .line :: marksOf ⟨some s, !options.removeComments⟩ 999 (some x) := hprint
    rw [hmarks] at hcut
    obtain ⟨ms, hms, hwrites⟩ := hstatement rfl statement 999 fun hmem =>
      hcut (List.mem_cons_of_mem _ hmem)
    rw [hmarks, hms]
    exact hwrites.spells options.omitTrailingSemicolon (.inr rfl) (.inr rfl)

end InlineValues
