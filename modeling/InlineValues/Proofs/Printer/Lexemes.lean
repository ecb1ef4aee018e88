import InlineValues.Printer.Print
import InlineValues.Grammar.Expression
import InlineValues.Proofs.Token.Reading
import InlineValues.Proofs.Tree.Operation

/-!
# The lexemes of evaluable expressions

`Node.MadeOf` relates an expression to the lexemes that it is made of, in the order in which they
are read.  It is layered as the grammar is: what stands in front of an operator in front is a
postfix expression or a primary one, perhaps with accesses and calls behind it, and only operators
between two operands and conditional expressions are printed with blanks.  Arguments and elements
stand in brackets with commas between them (`Lexeme.listed`).

`Writes` relates characters to the lexemes that they are made of, in front of what ends them.  Two
lexemes never fuse: between two operands there are blanks, and two signs in a row are kept apart
where they would be another sign.  Brackets and commas fuse with nothing.  A point fuses with no
name and no bracket, but it would with a number, which may not stand in front of one.
-/

namespace InlineValues

namespace TokenKind

/-- The operators in front of an operand. -/
def prefixSigns : List TokenKind := [plus, minus, tilde, exclamation, plusPlus, minusMinus]

/-- The operators between two operands. -/
def isInfix (k : TokenKind) : Bool :=
  k == comma || k.isAssignmentOperator ||
    (k.precedence != 0 && k != asKeyword && k != satisfiesKeyword)

/-- The tokens that may stand behind an operand. -/
def joinsOperand (k : TokenKind) : Bool :=
  k.isInfix || k == question || k == colon || k == closeParen || k == closeBracket

/-- What stands between an object and the name of its member. -/
def point (optional : Bool) : TokenKind := if optional then questionDot else dot

/-- The operators between two operands are read in one step, or begin with `>`, or are words. -/
lemma isInfix_cases {k : TokenKind} (h : k.isInfix = true) :
    (k ∈ signs ∧ k ≠ greaterThan) ∨ k ∈ greaterKinds ∨ k ∈ Lexeme.operatorWords := by
  cases k
  all_goals first | (exfalso; revert h; decide) | decide

end TokenKind

/-- The mark of an optional chain, if there is one. -/
def Lexeme.mark (optional : Bool) : List Lexeme := if optional then [.ofKind .questionDot] else []

/-- The lexemes of a list: commas stand between its items, and perhaps behind the last one. -/
def Lexeme.listed (trailing : Bool) : List (List Lexeme) → List Lexeme
  | [] => []
  | [ts] => ts ++ if trailing then [.ofKind .comma] else []
  | ts :: us :: items => ts ++ .ofKind .comma :: listed trailing (us :: items)

/-- A leaf that is printed as a lexeme. -/
structure Node.IsLeaf (s : Source) (n : Node) (t : Lexeme) : Prop where
  atom : t.IsAtom
  number : n.form.isNumber = t.kind.isNumber
  printed : ∀ (c : PrintContext) (emit : Emit), c.source? = some s →
    printNode c emit n = [.text t.text]

/-- The expression is made of the lexemes.  At the lowest level stand leaves, parentheses and lists
and the accesses and calls behind them, at the next one the operators in front of an operand or
behind it, and at the highest one the others. -/
inductive Node.MadeOf (s : Source) : Nat → Node → List Lexeme → Prop
  | leaf {n : Node} {t : Lexeme} (h : n.IsLeaf s t) (kind : t.kind.isOperand = true) :
      MadeOf s 0 n [t]
  | parenthesized {n e : Node} {ts : List Lexeme} (form : n.form = .parenthesized (some e))
      (h : MadeOf s 2 e ts) :
      MadeOf s 0 n (.ofKind .openParen :: ts ++ [.ofKind .closeParen])
  | access {n o m : Node} {optional : Bool} {t : Lexeme} {ts : List Lexeme}
      (form : n.form = .propertyAccess o optional (some m))
      (point : optional = true ∨ o.form.isNumber = false) (object : MadeOf s 0 o ts)
      (name : m.IsLeaf s t) (kind : t.kind.isName = true) :
      MadeOf s 0 n (ts ++ [.ofKind (.point optional), t])
  | index {n o e : Node} {optional : Bool} {ts us : List Lexeme}
      (form : n.form = .elementAccess o optional (some e)) (object : MadeOf s 0 o ts)
      (index : MadeOf s 2 e us) :
      MadeOf s 0 n (ts ++ Lexeme.mark optional ++
        (.ofKind .openBracket :: us ++ [.ofKind .closeBracket]))
  | call {n o : Node} {optional : Bool} {arguments : Sequence Node} {ts : List Lexeme}
      {parts : List (Node × List Lexeme)} (form : n.form = .call o optional none arguments)
      (items : arguments.items = parts.map (·.1)) (object : MadeOf s 0 o ts)
      (made : ∀ part ∈ parts, MadeOf s 2 part.1 part.2) :
      MadeOf s 0 n (ts ++ Lexeme.mark optional ++
        (.ofKind .openParen :: Lexeme.listed false (parts.map (·.2)) ++ [.ofKind .closeParen]))
  | array {n : Node} {elements : Sequence Node} {multiLine : Bool}
      {parts : List (Node × List Lexeme)} (form : n.form = .arrayLiteral elements multiLine)
      (items : elements.items = parts.map (·.1))
      (made : ∀ part ∈ parts, MadeOf s 2 part.1 part.2) :
      MadeOf s 0 n (.ofKind .openBracket ::
        Lexeme.listed elements.trailingComma (parts.map (·.2)) ++ [.ofKind .closeBracket])
  | sign {n e : Node} {k : TokenKind} {ts : List Lexeme} (form : n.form = .prefixUnary k (some e))
      (hk : k ∈ TokenKind.prefixSigns) (h : MadeOf s 1 e ts) : MadeOf s 1 n (.ofKind k :: ts)
  | update {n e : Node} {k : TokenKind} {ts : List Lexeme} (form : n.form = .postfixUnary e k)
      (hk : k ∈ [TokenKind.plusPlus, .minusMinus]) (h : MadeOf s 0 e ts) :
      MadeOf s 1 n (ts ++ [.ofKind k])
  | binary {n l r : Node} {k : TokenKind} {ts us : List Lexeme}
      (form : n.form = .binary l k (some r)) (hk : k.isInfix = true) (left : MadeOf s 2 l ts)
      (right : MadeOf s 2 r us) : MadeOf s 2 n (ts ++ .ofKind k :: us)
  | conditional {n e a b : Node} {ts us vs : List Lexeme}
      (form : n.form = .conditional e (some a) (some b)) (condition : MadeOf s 2 e ts)
      (whenTrue : MadeOf s 2 a us) (whenFalse : MadeOf s 2 b vs) :
      MadeOf s 2 n (ts ++ .ofKind .question :: us ++ .ofKind .colon :: vs)
  | lift {i j : Nat} {n : Node} {ts : List Lexeme} (hle : i ≤ j) (h : MadeOf s i n ts) :
      MadeOf s j n ts

namespace Node.MadeOf

variable {s : Source} {level : Nat} {n : Node} {ts : List Lexeme}

/-- The lexemes with which an expression starts.  A sign is that of the outermost operator, unless
there is an operator between operands. -/
inductive Starts (level : Nat) (n : Node) : Lexeme → Prop
  | operand {t : Lexeme} (h : t.IsOperand) : Starts level n t
  | openParen : Starts level n (.ofKind .openParen)
  | openBracket : Starts level n (.ofKind .openBracket)
  | sign {k : TokenKind} (hk : k ∈ TokenKind.prefixSigns) (hlevel : level ≠ 0)
      (form : level = 1 → ∃ e, n.form = .prefixUnary k e) : Starts level n (.ofKind k)

lemma starts (h : n.MadeOf s level ts) : ∃ t us, ts = t :: us ∧ Starts level n t := by
  induction h with
  | leaf h kind => exact ⟨_, _, rfl, .operand ⟨h.atom, kind⟩⟩
  | parenthesized => exact ⟨_, _, rfl, .openParen⟩
  | array => exact ⟨_, _, rfl, .openBracket⟩
  | sign form hk => exact ⟨_, _, rfl, .sign hk (by decide) fun _ => ⟨_, form⟩⟩
  | access _ _ _ _ _ ih | index _ _ _ ih | call _ _ _ _ ih | update _ _ _ ih =>
    obtain ⟨t, us, rfl, hstarts⟩ := ih
    refine ⟨t, _, rfl, ?_⟩
    cases hstarts with
    | operand h => exact .operand h
    | openParen => exact .openParen
    | openBracket => exact .openBracket
    | sign _ hlevel => exact absurd rfl hlevel
  | binary _ _ _ _ ih | conditional _ _ _ _ ih =>
    obtain ⟨t, us, rfl, hstarts⟩ := ih
    refine ⟨t, _, rfl, ?_⟩
    cases hstarts with
    | operand h => exact .operand h
    | openParen => exact .openParen
    | openBracket => exact .openBracket
    | sign hk => exact .sign hk (by decide) fun h => absurd h (by decide)
  | @lift i j n ts hle h ih =>
    obtain ⟨t, us, rfl, hstarts⟩ := ih
    refine ⟨t, _, rfl, ?_⟩
    cases hstarts with
    | operand h => exact .operand h
    | openParen => exact .openParen
    | openBracket => exact .openBracket
    | sign hk hlevel form => exact .sign hk (by omega) fun hj => form (by omega)

/-- The first token is an operand, a bracket or a sign. -/
lemma starts_kind (h : n.MadeOf s level ts) : ∃ t us, ts = t :: us ∧
    t.kind ∉ TokenKind.greaterKinds ∧ (t.kind.isOperand = true ∨
      t.kind ∈ [TokenKind.openParen, .openBracket] ∨
        level ≠ 0 ∧ t.kind ∈ TokenKind.prefixSigns) := by
  obtain ⟨t, us, rfl, hstarts⟩ := h.starts
  refine ⟨t, us, rfl, ?_⟩
  cases hstarts with
  | operand ht => exact ⟨TokenKind.notMem_greaterKinds_of_isAtom ht.atom, .inl ht.kind⟩
  | openParen | openBracket => exact ⟨by decide, .inr (.inl (by decide))⟩
  | sign hk hlevel =>
    have hsigns : ∀ k ∈ TokenKind.prefixSigns, k ∉ TokenKind.greaterKinds := by decide
    exact ⟨hsigns _ hk, .inr (.inr ⟨hlevel, hk⟩)⟩

/-- No sign stands in front of a leaf or of brackets. -/
lemma head_notMem_prefixSigns (h : n.MadeOf s 0 ts) :
    ∀ t ∈ ts.head?, t.kind ∉ TokenKind.prefixSigns := by
  obtain ⟨t, us, rfl, -, hkind⟩ := h.starts_kind
  rintro t ⟨⟩ hmem
  have hsigns : ∀ k ∈ TokenKind.prefixSigns,
      k.isOperand = false ∧ k ∉ [TokenKind.openParen, .openBracket] := by decide
  obtain ⟨hoperand, hbracket⟩ := hsigns _ hmem
  rcases hkind with hkind | hkind | ⟨hlevel, -⟩
  · rw [hoperand] at hkind
    cases hkind
  · exact hbracket hkind
  · exact hlevel rfl

end Node.MadeOf

/-! ## What is written -/

namespace Spells

variable {cs : List Char} {ts : List Lexeme} {k : TokenKind}

/-- Punctuation that is not made longer by what follows. -/
lemma sign (hk : k ∈ TokenKind.signs) (hne : k ≠ .greaterThan)
    (hcs : ∀ c ∈ cs.head?, c ∉ k.extensions) (h : Spells cs ts) :
    Spells (k.spelling ++ cs) (.ofKind k :: ts) := by
  have honly : ∀ k ∈ TokenKind.signs, k ∈ TokenKind.greaterKinds → k = .greaterThan := by decide
  exact .cons (Lexeme.standsAt_sign hk hne hcs) (fun hgreater => absurd (honly k hk hgreater) hne) h

/-- A keyword in front of a blank. -/
lemma word (hk : k ∈ TokenKind.keywords) (h : Spells cs ts) :
    Spells (k.spelling ++ ' ' :: cs) (.ofKind k :: ts) := by
  have hplain : ∀ k ∈ TokenKind.keywords, k ∉ TokenKind.greaterKinds := by decide
  exact .cons (Lexeme.standsAt_word hk cs) (fun hmem => absurd hmem (hplain k hk)) h.blank

/-- An operator between two operands in front of a blank. -/
lemma infixed (hk : k.isInfix = true) (h : Spells cs ts) :
    Spells (k.spelling ++ ' ' :: cs) (.ofKind k :: ts) := by
  rcases TokenKind.isInfix_cases hk with ⟨hsign, hne⟩ | hgreater | hword
  · exact sign hsign hne (fun c hc => by cases hc; exact blank_notMem_extensions k hsign) h.blank
  · exact .cons (Lexeme.standsAt_greater hgreater cs) (fun _ => ⟨rfl, rfl⟩) h.blank
  · exact word (Lexeme.operatorWords_subset hword) h

end Spells

/-- The characters are made of the lexemes, in front of what ends them. -/
structure Writes (ends : List Char → Prop) (cs : List Char) (ts : List Lexeme) : Prop where
  spells : ∀ rest us, ends rest → Spells rest us → Spells (cs ++ rest) (ts ++ us)
  front : ∃ t us more, ts = t :: us ∧ cs = t.text ++ more
  last : ∃ more c, cs = more ++ [c] ∧ c ≠ ' '

namespace Writes

variable {ends ends' ends'' : List Char → Prop} {cs ds : List Char} {ts us : List Lexeme}
  {t : Lexeme} {k : TokenKind}

lemma mono (h : Writes ends cs ts) (hends : ∀ rest, ends' rest → ends rest) :
    Writes ends' cs ts :=
  ⟨fun rest us hrest => h.spells rest us (hends rest hrest), h.front, h.last⟩

lemma atom (h : t.IsAtom) : Writes t.kind.EndsAt t.text [t] where
  spells rest us hrest hus :=
    .cons (h.standsAt hrest)
      (fun hgreater => absurd hgreater (TokenKind.notMem_greaterKinds_of_isAtom h.atom)) hus
  front := ⟨t, [], [], rfl, (List.append_nil _).symm⟩
  last := by
    obtain ⟨c, more, htext, -⟩ := h.front
    have hne : t.text ≠ [] := by
      rw [htext]
      exact List.cons_ne_nil _ _
    refine ⟨t.text.dropLast, t.text.getLast hne, (List.dropLast_append_getLast hne).symm,
      fun hblank => h.detached.last ?_⟩
    rw [List.getLast?_eq_some_getLast hne, hblank]

/-- What stands behind the front of a text ends with its last character. -/
lemma last_append (h : Writes ends ds us) (front : List Char) :
    ∃ more c, front ++ ds = more ++ [c] ∧ c ≠ ' ' := by
  obtain ⟨more, c, rfl, hc⟩ := h.last
  exact ⟨front ++ more, c, (List.append_assoc ..).symm, hc⟩

/-- What stands in front of the rest of a text starts with its first lexeme. -/
lemma front_append (h : Writes ends cs ts) (rest : List Char) (us : List Lexeme) :
    ∃ t us' more, ts ++ us = t :: us' ∧ cs ++ rest = t.text ++ more := by
  obtain ⟨t, us', more, rfl, rfl⟩ := h.front
  exact ⟨t, us' ++ us, more ++ rest, rfl, List.append_assoc ..⟩

/-- A bracket is not made longer by what follows. -/
lemma spells_bracket (k : TokenKind)
    (hk : k ∈ [TokenKind.openParen, .openBracket] ++ [TokenKind.closeParen, .closeBracket])
    {rest : List Char} (h : Spells rest us) : Spells (k.spelling ++ rest) (.ofKind k :: us) := by
  have hsigns : ∀ k ∈ [TokenKind.openParen, .openBracket] ++ [TokenKind.closeParen, .closeBracket],
      k ∈ TokenKind.signs ∧ k ≠ .greaterThan ∧ k.extensions = [] := by decide
  obtain ⟨hsign, hne, hext⟩ := hsigns k hk
  exact h.sign hsign hne fun c _ => by rw [hext]; exact List.not_mem_nil

/-- What stands in a pair of brackets: an expression or a list, or nothing. -/
def Encloses (cs : List Char) (ts : List Lexeme) : Prop :=
  cs = [] ∧ ts = [] ∨ Writes EndsOperand cs ts

/-- A pair of brackets with what stands in it. -/
lemma bracketed (k k' : TokenKind) (hk : k ∈ [TokenKind.openParen, .openBracket])
    (hk' : k' ∈ [TokenKind.closeParen, .closeBracket]) (h : Encloses cs ts) :
    Writes ends (k.spelling ++ cs ++ k'.spelling) (.ofKind k :: ts ++ [.ofKind k']) where
  spells rest us _ hus := by
    have hcloses : ∀ k ∈ [TokenKind.closeParen, .closeBracket],
        k.spelling.head?.all operandEnds.contains = true ∧ k.spelling ≠ [] := by decide
    obtain ⟨hends, hne⟩ := hcloses k' hk'
    have hbehind : Spells (k'.spelling ++ rest) (.ofKind k' :: us) :=
      spells_bracket k' (List.mem_append_right _ hk') hus
    have hinner : Spells (cs ++ (k'.spelling ++ rest)) (ts ++ .ofKind k' :: us) := by
      rcases h with ⟨rfl, rfl⟩ | h
      · exact hbehind
      · refine h.spells _ _ (fun c hc => ?_) hbehind
        exact List.contains_iff_mem.mp ((Option.all_eq_true _ _).mp hends c
          (by rwa [List.head?_append_of_ne_nil _ hne] at hc))
    simpa using spells_bracket k (List.mem_append_left _ hk) hinner
  front := ⟨.ofKind k, _, cs ++ k'.spelling, rfl, by simp [Lexeme.ofKind]⟩
  last := by
    simp only [List.mem_cons, List.not_mem_nil, or_false] at hk'
    rcases hk' with rfl | rfl
    · exact ⟨k.spelling ++ cs, ')', rfl, by decide⟩
    · exact ⟨k.spelling ++ cs, ']', rfl, by decide⟩

lemma parenthesized (h : Writes EndsOperand cs ts) :
    Writes ends ('(' :: cs ++ [')']) (.ofKind .openParen :: ts ++ [.ofKind .closeParen]) :=
  bracketed .openParen .closeParen (by simp) (by simp) (.inr h)

/-- What stands behind an object. -/
lemma append (h : Writes ends cs ts) (h' : Writes ends' ds us)
    (hends : ∀ rest, ends (ds ++ rest)) : Writes ends' (cs ++ ds) (ts ++ us) where
  spells rest vs hrest hvs := by
    simpa using h.spells _ _ (hends rest) (h'.spells rest vs hrest hvs)
  front := h.front_append _ _
  last := h'.last_append _

/-- A pair of brackets behind the mark of an optional chain. -/
lemma marked (optional : Bool) {k k' : TokenKind} (hk : k ∈ [TokenKind.openParen, .openBracket])
    (hk' : k' ∈ [TokenKind.closeParen, .closeBracket]) (h : Encloses cs ts) :
    Writes ends ((if optional then ['?', '.'] else []) ++ (k.spelling ++ cs ++ k'.spelling))
      (Lexeme.mark optional ++ (.ofKind k :: ts ++ [.ofKind k'])) := by
  have hbrackets : Writes ends (k.spelling ++ cs ++ k'.spelling)
      (.ofKind k :: ts ++ [.ofKind k']) := bracketed k k' hk hk' h
  cases optional with
  | false => exact hbrackets
  | true =>
    refine ⟨fun rest us hrest hus => ?_, ⟨.ofKind .questionDot, _, _, rfl, rfl⟩,
      hbrackets.last_append _⟩
    have hinner := hbrackets.spells rest us hrest hus
    have hstands : (Lexeme.ofKind .questionDot).StandsAt
        (k.spelling ++ cs ++ k'.spelling ++ rest) := by
      refine Lexeme.standsAt_questionDot fun c hc => ?_
      simp only [List.mem_cons, List.not_mem_nil, or_false] at hk
      rcases hk with rfl | rfl
      all_goals
        cases hc
        rfl
    exact hinner.cons hstands fun hgreater => absurd hgreater (by decide)

/-- A name of a member behind its object, unless the point belongs to the object. -/
lemma access {optional : Bool} (h : Writes ends cs ts) (hname : t.IsAtom)
    (hkind : t.kind.isName = true)
    (hends : ∀ rest, ends ((TokenKind.point optional).spelling ++ rest)) :
    Writes t.kind.EndsAt (cs ++ (TokenKind.point optional).spelling ++ t.text)
      (ts ++ [.ofKind (.point optional), t]) where
  spells rest us hrest hus := by
    have hmember := (atom hname).spells rest us hrest hus
    have hfront : ∀ c ∈ (t.text ++ rest).head?, c ≠ '.' ∧ isDecimalDigit c = false := by
      obtain ⟨c, more, htext, hstart, -⟩ := hname.front
      rw [htext]
      rintro _ ⟨⟩
      exact TokenKind.Starts.ne_point hstart hkind
    have hstands : (Lexeme.ofKind (.point optional)).StandsAt (t.text ++ rest) := by
      cases optional with
      | true => exact Lexeme.standsAt_questionDot fun c hc => (hfront c hc).2
      | false => exact Lexeme.standsAt_dot hfront
    have hplain : (Lexeme.ofKind (.point optional)).kind ∉ TokenKind.greaterKinds := by
      cases optional <;> decide
    have hpoint := h.spells _ _ (hends _)
      (.cons hstands (fun hgreater => absurd hgreater hplain) hmember)
    simpa [Lexeme.ofKind] using hpoint
  front := by
    rw [List.append_assoc]
    exact h.front_append _ _
  last := (atom hname).last_append _

/-- A sign in front of an operand, with a blank where it would be made longer. -/
lemma sign (hk : k ∈ TokenKind.prefixSigns) (h : Writes ends cs ts) {blank : List Char}
    (hblank : blank = [' '] ∨ blank = [] ∧ ∀ c ∈ cs.head?, c ∉ k.extensions) :
    Writes ends (k.spelling ++ blank ++ cs) (.ofKind k :: ts) where
  spells rest us hrest hus := by
    have hsigns : ∀ k ∈ TokenKind.prefixSigns, k ∈ TokenKind.signs ∧ k ≠ .greaterThan := by decide
    obtain ⟨hsign, hne⟩ := hsigns k hk
    have hinner := h.spells rest us hrest hus
    rcases hblank with rfl | ⟨rfl, hfront⟩
    · have hstands := hinner.blank.sign hsign hne fun c hc => by
        cases hc
        exact blank_notMem_extensions k hsign
      simpa using hstands
    · have hstands := hinner.sign hsign hne fun c hc => by
        obtain ⟨more, d, rfl, -⟩ := h.last
        refine hfront c ?_
        cases more <;> simpa using hc
      simpa using hstands
  front := ⟨.ofKind k, ts, blank ++ cs, rfl, by rw [List.append_assoc]; rfl⟩
  last := h.last_append _

/-- A sign behind an operand. -/
lemma update (hk : k ∈ [TokenKind.plusPlus, .minusMinus]) (h : Writes EndsOperand cs ts) :
    Writes ends (cs ++ k.spelling) (ts ++ [.ofKind k]) where
  spells rest us _ hus := by
    have hsigns : ∀ k ∈ [TokenKind.plusPlus, .minusMinus], k ∈ TokenKind.signs ∧
        k ≠ .greaterThan ∧ k.extensions = [] ∧
          k.spelling.head?.all operandEnds.contains = true := by
      decide
    obtain ⟨hsign, hne, hext, hends⟩ := hsigns k hk
    have hstands : Spells (k.spelling ++ rest) (.ofKind k :: us) :=
      hus.sign hsign hne fun c _ => by rw [hext]; exact List.not_mem_nil
    have hspelling : k.spelling ≠ [] := by
      simp only [List.mem_cons, List.not_mem_nil, or_false] at hk
      rcases hk with rfl | rfl <;> exact List.cons_ne_nil _ _
    have hrest : EndsOperand (k.spelling ++ rest) := fun c hc =>
      List.contains_iff_mem.mp ((Option.all_eq_true _ _).mp hends c
        (by rwa [List.head?_append_of_ne_nil _ hspelling] at hc))
    simpa using h.spells _ _ hrest hstands
  front := h.front_append _ _
  last := by
    simp only [List.mem_cons, List.not_mem_nil, or_false] at hk
    rcases hk with rfl | rfl
    · exact ⟨cs ++ ['+'], '+', (List.append_assoc cs ['+'] ['+']).symm, by decide⟩
    · exact ⟨cs ++ ['-'], '-', (List.append_assoc cs ['-'] ['-']).symm, by decide⟩

/-- Two operands with a token between them. -/
lemma between (h : Writes EndsOperand cs ts) (h' : Writes ends ds us) {text : List Char}
    {t : Lexeme} (hends : ∀ rest, EndsOperand (text ++ rest))
    (htext : ∀ rest vs, Spells rest vs → Spells (text ++ rest) (t :: vs)) :
    Writes ends (cs ++ text ++ ds) (ts ++ t :: us) where
  spells rest vs hrest hvs := by
    have hright := htext _ _ (h'.spells rest vs hrest hvs)
    simpa using h.spells _ _ (hends _) hright
  front := by
    rw [List.append_assoc]
    exact h.front_append _ _
  last := h'.last_append _

lemma binary (hk : k.isInfix = true) (h : Writes EndsOperand cs ts) (h' : Writes ends ds us) :
    Writes ends (cs ++ (if k == .comma then [',', ' '] else ' ' :: k.spelling ++ [' ']) ++ ds)
      (ts ++ .ofKind k :: us) := by
  split
  case isTrue hcomma =>
    obtain rfl : k = .comma := eq_of_beq hcomma
    refine h.between h' (fun rest => endsOperand_cons (by decide)) fun rest vs hvs => ?_
    exact hvs.infixed hk
  case isFalse =>
    refine h.between h' (fun rest => endsOperand_cons (by decide)) fun rest vs hvs => ?_
    simpa using (hvs.infixed hk).blank

/-- A comma behind the last item of a list. -/
lemma comma (h : Writes EndsOperand cs ts) :
    Writes ends (cs ++ [',']) (ts ++ [.ofKind .comma]) where
  spells rest us _ hus := by
    have hstands : Spells (TokenKind.comma.spelling ++ rest) (.ofKind .comma :: us) :=
      hus.sign (by decide) (by decide) fun c _ => by
        rw [show TokenKind.comma.extensions = [] from rfl]
        exact List.not_mem_nil
    simpa using h.spells _ _ (endsOperand_cons (by decide)) hstands
  front := h.front_append _ _
  last := ⟨cs, ',', rfl, by decide⟩

lemma conditional {es : List Char} {vs : List Lexeme} (h : Writes EndsOperand cs ts)
    (h' : Writes EndsOperand ds us) (h'' : Writes ends es vs) :
    Writes ends (cs ++ [' ', '?', ' '] ++ ds ++ [' ', ':', ' '] ++ es)
      (ts ++ .ofKind .question :: us ++ .ofKind .colon :: vs) := by
  have hsign (k : TokenKind) (hk : k ∈ [TokenKind.question, .colon]) (rest : List Char)
      (vs : List Lexeme) (hvs : Spells rest vs) :
      Spells (' ' :: k.spelling ++ ' ' :: rest) (.ofKind k :: vs) := by
    have hsigns : ∀ k ∈ [TokenKind.question, .colon], k ∈ TokenKind.signs ∧ k ≠ .greaterThan := by
      decide
    refine (hvs.blank.sign (hsigns k hk).1 (hsigns k hk).2 fun c hc => ?_).blank
    cases hc
    exact blank_notMem_extensions k (hsigns k hk).1
  have hfirst : Writes EndsOperand (cs ++ [' ', '?', ' '] ++ ds) (ts ++ .ofKind .question :: us) :=
    h.between h' (fun rest => endsOperand_cons (by decide))
      fun rest vs hvs => hsign .question (by simp) rest vs hvs
  exact hfirst.between h'' (fun rest => endsOperand_cons (by decide))
    fun rest vs hvs => hsign .colon (by simp) rest vs hvs

end Writes

end InlineValues
