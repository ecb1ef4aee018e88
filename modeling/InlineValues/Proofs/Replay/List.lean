import InlineValues.Proofs.Grammar.Expression
import InlineValues.Proofs.Replay.Basic

/-!
# Lists that are read again

The arguments of a call and the elements of an array stand in brackets and are read by one loop,
item by item (`Parser.delimited`).  As with chains, the loop is followed round by round: what is
read again up to a comma (`Items`), a further item makes longer, or ends together with the closing
token (`ItemsReplay`).  If every item is read again, so is the list (`gives_delimited_replay`).
-/

namespace InlineValues

/-! ## The lexemes of a list -/

namespace Lexeme

/-- What is known of the items of a list and of a comma is known of the list. -/
lemma forall_mem_listed {P : Lexeme → Prop} (trailing : Bool) {items : List (List Lexeme)}
    (hcomma : P (.ofKind .comma)) (h : ∀ ts ∈ items, ∀ t ∈ ts, P t) :
    ∀ t ∈ listed trailing items, P t := by
  fun_induction listed trailing items with
  | case1 => exact List.forall_mem_nil _
  | case2 ts =>
    refine List.forall_mem_append.mpr ⟨h ts List.mem_cons_self, ?_⟩
    split
    · exact List.forall_mem_singleton.mpr hcomma
    · exact List.forall_mem_nil _
  | case3 ts us items ih =>
    obtain ⟨hts, hothers⟩ := List.forall_mem_cons.mp h
    exact List.forall_mem_append.mpr ⟨hts, List.forall_mem_cons.mpr ⟨hcomma, ih hothers⟩⟩

/-- A list starts with its first item. -/
lemma exists_listed (trailing : Bool) (ts : List Lexeme) (items : List (List Lexeme)) :
    ∃ us, listed trailing (ts :: items) = ts ++ us := by
  cases items <;> exact ⟨_, rfl⟩

/-- The lexemes of some items with a comma behind each of them. -/
def withCommas (items : List (List Lexeme)) : List Lexeme :=
  items.flatMap (· ++ [.ofKind .comma])

lemma withCommas_concat (items : List (List Lexeme)) (ts : List Lexeme) :
    withCommas (items ++ [ts]) = withCommas items ++ (ts ++ [.ofKind .comma]) := by
  simp [withCommas]

/-- If a comma stands behind the last item, one stands behind each. -/
lemma listed_true (items : List (List Lexeme)) : listed true items = withCommas items := by
  fun_induction listed true items with
  | case1 => rfl
  | case2 ts => simp [withCommas]
  | case3 ts us items ih => simp [ih, withCommas]

lemma listed_concat (items : List (List Lexeme)) (ts : List Lexeme) :
    listed false (items ++ [ts]) = withCommas items ++ ts := by
  induction items with
  | nil => simp [listed, withCommas]
  | cons us items ih =>
    have hcons : listed false (us :: (items ++ [ts])) =
        us ++ .ofKind .comma :: listed false (items ++ [ts]) := by
      cases items <;> rfl
    rw [List.cons_append, hcons, ih]
    simp [withCommas]

end Lexeme

namespace Parser

open ParserState

variable {s : Source} {w d : Nat} {st : ParserState} {opening close : TokenKind} {c : Context}
  {element : Parser (Option Node)} {elements : Nat → Parser (Option Node)} {l l' l'' : Lexer}
  {e : Node} {us : List Lexeme} {read : List Node × Bool} {parts : List (Node × List Lexeme)}

/-! ## One item of the second run -/

/-- No item starts with a comma, a closing bracket or three points. -/
lemma Follows.kind_item {rest : List Lexeme} (h : Follows d (us ++ rest) st)
    (hmade : e.MadeOf s 2 us) :
    st.kind ∉ [TokenKind.comma, .closeParen, .closeBracket, .dotDotDot, .endOfFile] := by
  obtain ⟨t, us', rfl, hgreater, hkind⟩ := hmade.starts_kind
  rw [h.kind_eq hgreater]
  have hothers : ∀ k ∈ [TokenKind.comma, .closeParen, .closeBracket, .dotDotDot, .endOfFile],
      k.isOperand = false ∧ k ∉ [TokenKind.openParen, .openBracket] ∧
        k ∉ TokenKind.prefixSigns := by
    decide
  intro hmem
  obtain ⟨hoperand, hbracket, hsign⟩ := hothers _ hmem
  rcases hkind with hkind | hkind | ⟨-, hkind⟩
  · rw [hoperand] at hkind
    cases hkind
  · exact hbracket hkind
  · exact hsign hkind

/-- An item is read again, and then what stands behind it decides. -/
lemma gives_delimitedStep_again (fuel : Nat) (read : List Node × Bool) {rest : List Lexeme}
    {t : Lexeme} (hclose : close ∈ [TokenKind.closeParen, .closeBracket])
    (h : Rereads (Stage.expression.within c) 1 elements l' e us) (hmade : e.MadeOf s 2 us)
    (ht : t.kind = .comma ∨ t.kind = close) (hkind : l'.token.kind = t.kind)
    (hleads : l'.scan.Leads rest) (hfollows : Follows d (us ++ t :: rest) st)
    (hlevels : d + e.levels ≤ maxParserDepth)
    (hfuel : 4 * (us.length + (rest.length + 1) + (maxParserDepth - d)) + 1 ≤ fuel) :
    (delimitedStep close (elements fuel) read).Gives st fun r st' => ∃ e', e.Alike e' ∧
      (t.kind = .comma → r = .yield (e' :: read.1, true) ∧ Follows d rest st') ∧
      (t.kind = close → r = .done (e' :: read.1, false) ∧ Follows d (t :: rest) st') := by
  have hitem := hfollows.kind_item hmade
  have hbehind : ∀ k ∈ [TokenKind.comma, .closeParen, .closeBracket],
      k ∉ TokenKind.greaterKinds ∧ k ≠ .inKeyword ∧ Stage.expression.ends k = true := by decide
  have hmem : t.kind ∈ [TokenKind.comma, .closeParen, .closeBracket] := by
    rcases ht with ht | ht
    · rw [ht]
      exact List.mem_cons_self
    · rw [ht]
      exact List.mem_cons_of_mem _ hclose
  obtain ⟨hgreater, hin, hends⟩ := hbehind _ hmem
  have htail : Lexer.Tail (Stage.expression.within c).ends l' (t :: rest) := by
    refine ⟨hleads.append (.single hkind hgreater), ?_⟩
    rintro u ⟨⟩
    exact Stage.ends_within_of_ne hin hends
  have hne : st.kind ≠ close := fun h => hitem (h ▸ List.mem_cons_of_mem _ (by
    simp only [List.mem_cons, List.not_mem_nil, or_false] at hclose ⊢
    tauto))
  refine .at?_ne hne (.at?_ne (fun hend => hitem (by simp [hend])) ?_)
  rw [Bool.or_self, if_neg Bool.false_ne_true]
  refine .pos ((h (t :: rest) st fuel d htail hfollows hlevels (by
    rw [List.length_cons]
    omega)).bind fun o st₁ h₁ => ?_)
  obtain ⟨e', rfl, halike⟩ := h₁.alike
  have hkind₁ := h₁.follows.kind_eq hgreater
  by_cases hcomma : t.kind = .comma
  · refine .optional_eq (hkind₁.trans hcomma) (.pure ⟨e', halike, fun _ => ⟨rfl, ?_⟩, fun hk => ?_⟩)
    · exact h₁.follows.advanced hgreater
    · rw [← hk, hcomma] at hclose
      exact absurd hclose (by decide)
  · have hlast : t.kind = close := ht.resolve_left hcomma
    refine .optional_ne (hkind₁ ▸ hcomma) (.at?_eq (hkind₁.trans hlast) (.pos ?_))
    rw [Bool.true_or, if_pos rfl]
    exact .pure ⟨e', halike, fun hk => absurd hk hcomma, fun _ => ⟨rfl, h₁.follows⟩⟩

/-! ## The items so far -/

/-- The lexemes of the items, with a comma behind each. -/
abbrev itemLexemes (parts : List (Node × List Lexeme)) : List Lexeme :=
  Lexeme.withCommas (parts.map (·.2))

/-- Wherever the items follow, each with a comma behind it, they are read, and what stands behind
the last comma decides what the loop gives. -/
def RereadsItems (close : TokenKind) (elements : Nat → Parser (Option Node)) (l' : Lexer)
    (parts : List (Node × List Lexeme)) : Prop :=
  ∀ (rest : List Lexeme) (st : ParserState) (fuel d rounds : Nat)
    (Q : List Node × Bool → ParserState → Prop), l'.Leads rest →
    Follows d (itemLexemes parts ++ rest) st →
    (∀ part ∈ parts, d + part.1.levels ≤ maxParserDepth) →
    4 * ((itemLexemes parts).length + rest.length + (maxParserDepth - d)) + 1 ≤ fuel →
    (itemLexemes parts).length + rest.length < rounds →
    (∀ nodes st' rounds, List.Forall₂ Node.Alike (parts.map (·.1)) nodes → Follows d rest st' →
      rest.length < rounds → (iterate (delimitedStep close (elements fuel)) rounds
        (nodes.reverse, !parts.isEmpty)).Gives st' Q) →
    (iterate (delimitedStep close (elements fuel)) rounds ([], false)).Gives st Q

/-- The items that were read from `l` to `l'`, each with a comma behind it. -/
structure Items (s : Source) (close : TokenKind) (d : Nat) (elements : Nat → Parser (Option Node))
    (l l' : Lexer) (read : List Node × Bool) (parts : List (Node × List Lexeme)) : Prop where
  read : read = ((parts.map (·.1)).reverse, !parts.isEmpty)
  madeOf : ∀ part ∈ parts, part.1.MadeOf s 2 part.2
  path : l.Path (itemLexemes parts) l'
  levels : d ≤ maxParserDepth → ∀ part ∈ parts, d + part.1.levels ≤ maxParserDepth
  again : RereadsItems close elements l' parts

/-- The items of a list were read from `l` to its closing token at `l'`, and are read again wherever
they follow in front of that. -/
structure ItemsReplay (s : Source) (close : TokenKind) (d : Nat)
    (elements : Nat → Parser (Option Node)) (l l' : Lexer) (read : List Node × Bool)
    (parts : List (Node × List Lexeme)) : Prop where
  nodes : read.1.reverse = parts.map (·.1)
  madeOf : ∀ part ∈ parts, part.1.MadeOf s 2 part.2
  path : l.Path (Lexeme.listed read.2 (parts.map (·.2))) l'
  levels : d ≤ maxParserDepth → ∀ part ∈ parts, d + part.1.levels ≤ maxParserDepth
  again : ∀ (rest : List Lexeme) (st : ParserState) (fuel d rounds : Nat), l'.scan.Leads rest →
    Follows d (Lexeme.listed read.2 (parts.map (·.2)) ++ .ofKind close :: rest) st →
    (∀ part ∈ parts, d + part.1.levels ≤ maxParserDepth) →
    4 * ((Lexeme.listed read.2 (parts.map (·.2))).length + (rest.length + 1) +
      (maxParserDepth - d)) + 1 ≤ fuel →
    (Lexeme.listed read.2 (parts.map (·.2))).length + (rest.length + 1) < rounds →
    (iterate (delimitedStep close (elements fuel)) rounds ([], false)).Gives st fun read' st' =>
      List.Forall₂ Node.Alike (parts.map (·.1)) read'.1.reverse ∧ read'.2 = read.2 ∧
        Follows d (.ofKind close :: rest) st'

namespace Items

/-- In front of the first item. -/
lemma nil (s : Source) (close : TokenKind) (d : Nat) (elements : Nat → Parser (Option Node))
    (l : Lexer) : Items s close d elements l l ([], false) [] := by
  refine ⟨rfl, List.forall_mem_nil _, .refl l, fun _ => List.forall_mem_nil _, ?_⟩
  exact fun rest st fuel d rounds Q _ hfollows _ _ hrounds h => h [] st rounds .nil hfollows (by
    simpa [Lexeme.withCommas] using hrounds)

/-- One more item. -/
lemma longer (h : Items s close d elements l l' read parts)
    (hclose : close ∈ [TokenKind.closeParen, .closeBracket])
    (h' : Replay s (Stage.expression.within c) 1 d elements l' l'' e us)
    (hcomma : l''.token.kind = .comma) :
    Items s close d elements l l''.scan (e :: read.1, true) (parts ++ [(e, us)]) := by
  have hlexemes : itemLexemes (parts ++ [(e, us)]) =
      itemLexemes parts ++ (us ++ [.ofKind .comma]) := by
    rw [itemLexemes, List.map_append]
    exact Lexeme.withCommas_concat _ us
  have hpath : l'.Path (us ++ [.ofKind .comma]) l''.scan :=
    h'.path.trans (.single hcomma (by decide))
  refine ⟨by rw [h.read]; simp, ?_, ?_, ?_, ?_⟩
  · exact List.forall_mem_append.mpr ⟨h.madeOf, List.forall_mem_singleton.mpr h'.madeOf⟩
  · rw [hlexemes]
    exact h.path.trans hpath
  · exact fun hdepth => List.forall_mem_append.mpr
      ⟨h.levels hdepth, List.forall_mem_singleton.mpr (h'.levels hdepth)⟩
  intro rest st fuel d rounds Q hleads hfollows hlevels hfuel hrounds hrest
  obtain ⟨hothers, hitem⟩ := List.forall_mem_append.mp hlevels
  have hlevel : d + e.levels ≤ maxParserDepth := hitem (e, us) List.mem_cons_self
  rw [hlexemes] at hfollows hfuel hrounds
  simp only [List.append_assoc, List.cons_append, List.nil_append, List.length_append,
    List.length_cons, List.length_nil] at hfollows hfuel hrounds
  have hleads' : l'.Leads (us ++ .ofKind .comma :: rest) := by
    simpa using hleads.append hpath
  refine h.again _ st fuel d rounds Q hleads' hfollows hothers ?_ ?_
    fun nodes st' rounds' halike hfollows' hrounds' => ?_
  · simp only [List.length_append, List.length_cons]
    omega
  · simp only [List.length_append, List.length_cons]
    omega
  simp only [List.length_append, List.length_cons] at hrounds'
  obtain ⟨rounds', rfl⟩ : ∃ k, rounds' = k + 1 := ⟨rounds' - 1, by omega⟩
  have hstep := gives_delimitedStep_again fuel (nodes.reverse, !parts.isEmpty) hclose h'.again
    h'.madeOf (.inl rfl) hcomma hleads hfollows' hlevel (by omega)
  refine gives_iterate_yield (P := fun read' st'' => ∃ nodes', read' = (nodes'.reverse, true) ∧
      List.Forall₂ Node.Alike ((parts ++ [(e, us)]).map (·.1)) nodes' ∧ Follows d rest st'')
    (hstep.mono fun r st'' hr => ?_) ?_ ?_
  · obtain ⟨e', he, hr, -⟩ := hr
    obtain ⟨rfl, hfollows''⟩ := hr rfl
    refine ⟨_, rfl, nodes ++ [e'], by simp, ?_, hfollows''⟩
    rw [List.map_append]
    exact List.rel_append halike (.cons he .nil)
  · rintro _ st'' ⟨nodes', rfl, halike', hfollows''⟩
    exact ⟨nodes', rfl, halike', hfollows''.of_same rfl rfl rfl hfollows''.plain hfollows''.depth⟩
  · rintro _ st'' ⟨nodes', rfl, halike', hfollows''⟩
    have hgives := hrest nodes' st'' rounds' halike' hfollows'' (by omega)
    rwa [show (!(parts ++ [(e, us)]).isEmpty) = true by simp] at hgives

/-- The list ends behind a comma, or is empty. -/
lemma closed (h : Items s close d elements l l' read parts)
    (hclose : close ∈ [TokenKind.closeParen, .closeBracket]) (hkind : l'.token.kind = close) :
    ItemsReplay s close d elements l l' read parts := by
  have hgreater : ∀ k ∈ [TokenKind.closeParen, .closeBracket], k ∉ TokenKind.greaterKinds := by
    decide
  have hlexemes : Lexeme.listed read.2 (parts.map (·.2)) = itemLexemes parts := by
    rw [h.read]
    cases parts with
    | nil => rfl
    | cons => exact Lexeme.listed_true _
  refine ⟨by rw [h.read]; simp, h.madeOf, by rw [hlexemes]; exact h.path, h.levels, ?_⟩
  intro rest st fuel d rounds hleads hfollows hlevels hfuel hrounds
  rw [hlexemes] at hfollows hfuel hrounds
  have hleads' : l'.Leads (.ofKind close :: rest) :=
    hleads.append (.single hkind (hgreater close hclose))
  refine h.again _ st fuel d rounds _ hleads' hfollows hlevels hfuel hrounds
    fun nodes st' rounds' halike hfollows' hrounds' => ?_
  have hkind' : st'.kind = close := hfollows'.kind_eq (hgreater close hclose)
  have hstop : (delimitedStep close (elements fuel) (nodes.reverse, !parts.isEmpty)).Gives st'
      fun r st'' => r = .done (nodes.reverse, !parts.isEmpty) ∧ st'' = st' := by
    refine .at?_eq hkind' (.at? fun _ _ _ => ?_)
    rw [Bool.true_or, if_pos rfl]
    exact .pure ⟨rfl, rfl⟩
  refine gives_iterate_done (hstop.mono fun r st'' hr => ?_) (Nat.zero_lt_of_lt hrounds')
  obtain ⟨rfl, rfl⟩ := hr
  exact ⟨_, rfl, by simpa using halike, by rw [h.read], hfollows'⟩

/-- The list ends behind an item. -/
lemma closed_item (h : Items s close d elements l l' read parts)
    (hclose : close ∈ [TokenKind.closeParen, .closeBracket])
    (h' : Replay s (Stage.expression.within c) 1 d elements l' l'' e us)
    (hkind : l''.token.kind = close) :
    ItemsReplay s close d elements l l'' (e :: read.1, false) (parts ++ [(e, us)]) := by
  have hgreater : ∀ k ∈ [TokenKind.closeParen, .closeBracket], k ∉ TokenKind.greaterKinds := by
    decide
  have hlexemes : Lexeme.listed false ((parts ++ [(e, us)]).map (·.2)) =
      itemLexemes parts ++ us := by
    rw [List.map_append]
    exact Lexeme.listed_concat _ us
  refine ⟨by rw [h.read]; simp, ?_, ?_, ?_, ?_⟩
  · exact List.forall_mem_append.mpr ⟨h.madeOf, List.forall_mem_singleton.mpr h'.madeOf⟩
  · rw [hlexemes]
    exact h.path.trans h'.path
  · exact fun hdepth => List.forall_mem_append.mpr
      ⟨h.levels hdepth, List.forall_mem_singleton.mpr (h'.levels hdepth)⟩
  intro rest st fuel d rounds hleads hfollows hlevels hfuel hrounds
  obtain ⟨hothers, hitem⟩ := List.forall_mem_append.mp hlevels
  have hlevel : d + e.levels ≤ maxParserDepth := hitem (e, us) List.mem_cons_self
  rw [hlexemes] at hfollows hfuel hrounds
  simp only [List.append_assoc, List.length_append] at hfollows hfuel hrounds
  have hleads' : l'.Leads (us ++ .ofKind close :: rest) :=
    (hleads.append (.single hkind (hgreater close hclose))).append h'.path
  refine h.again _ st fuel d rounds _ hleads' hfollows hothers ?_ ?_
    fun nodes st' rounds' halike hfollows' hrounds' => ?_
  · simp only [List.length_append, List.length_cons]
    omega
  · simp only [List.length_append, List.length_cons]
    omega
  have hstep := gives_delimitedStep_again fuel (nodes.reverse, !parts.isEmpty) hclose h'.again
    h'.madeOf (.inr rfl) hkind hleads hfollows' hlevel (by omega)
  refine gives_iterate_done (hstep.mono fun r st'' hr => ?_) (by omega)
  obtain ⟨e', he, -, hr⟩ := hr
  obtain ⟨rfl, hfollows''⟩ := hr rfl
  refine ⟨_, rfl, ?_, rfl, hfollows''⟩
  rw [List.map_append, List.reverse_cons, List.reverse_reverse]
  exact List.rel_append halike (.cons he .nil)

end Items

/-! ## The items of the first run -/

/-- What is known of a round that reads an item: a comma stands behind it, or the list ends. -/
inductive ItemRound (s : Source) (close : TokenKind) (elements : Nat → Parser (Option Node))
    (st : ParserState) (read : List Node × Bool) :
    ForInStep (List Node × Bool) → ParserState → Prop
  | item {read' : List Node × Bool} {st' : ParserState} (tells : Tells s st st')
      (h : st'.Quiet → ∃ e, read' = (e :: read.1, true) ∧ (e.IsEvaluable → ∃ us l,
        Replay s (Stage.expression.within st.context) 1 st.depth elements st.lexer l e us ∧
          l.token.kind = .comma ∧ st'.lexer = l.scan)) :
      ItemRound s close elements st read (.yield read') st'
  | last {read' : List Node × Bool} {st' : ParserState} (tells : Tells s st st')
      (h : st'.Quiet → ∃ e, read' = (e :: read.1, false) ∧ (e.IsEvaluable → ∃ us,
        Replay s (Stage.expression.within st.context) 1 st.depth elements st.lexer st'.lexer e
          us)) :
      ItemRound s close elements st read (.done read') st'
  | stop : ItemRound s close elements st read (.done read) st

lemma itemRound_delimitedStep (read : List Node × Bool)
    (helement : Replays s w .expression 1 element elements) (hs : st.Sound s w) :
    (delimitedStep close element read).Gives st (ItemRound s close elements st read) := by
  refine .at? fun _ _ _ => .at? fun _ _ _ => ?_
  split
  · exact .pure .stop
  refine .pos ((helement st hs).bind fun o st₁ h => ?_)
  obtain ⟨h₁, hrepeats⟩ := h
  by_cases hcomma : st₁.kind = .comma
  · have h₂ : Advances s w st₁ st₁.advanced := gives_advance h₁.sound
    refine .optional_eq hcomma (.pure (.item (h₁.tells.trans h₂.tells) fun hquiet => ?_))
    obtain ⟨e, rfl, hreplay⟩ := hrepeats (h₂.tells.quiet hquiet)
    refine ⟨e, rfl, fun hevaluable => ?_⟩
    obtain ⟨us, hreplay⟩ := hreplay hevaluable
    exact ⟨us, st₁.lexer, hreplay, h₁.sound.current.symm.trans hcomma, rfl⟩
  · refine .optional_ne hcomma (.at? fun _ _ _ => .pos ?_)
    split
    · refine .pure (.last h₁.tells fun hquiet => ?_)
      obtain ⟨e, rfl, hreplay⟩ := hrepeats hquiet
      exact ⟨e, rfl, hreplay⟩
    · refine ((gives_expect_quiet .comma h₁.sound).and
        (skips_expect .comma st₁ h₁.sound)).bind fun _ st₂ h => .pure ?_
      obtain ⟨hloud, h₂⟩ := h
      exact .item (h₁.tells.trans h₂.tells) fun hquiet => absurd (hloud hquiet).1 hcomma

/-- If every item is read again, so are the items of a list. -/
lemma gives_items (hclose : close ∈ [TokenKind.closeParen, .closeBracket])
    (hreads : element.Reads s w Option.toList)
    (helement : Replays s w .expression 1 element elements) (hs : st.Sound s w) :
    (repeatFrom ([], false) (delimitedStep close element)).Gives st fun read st' =>
      st.Reads s w st' read.1.reverse ∧ (st'.Quiet → st'.kind = close →
        (∀ e ∈ read.1, e.IsEvaluable) → ∃ parts,
          ItemsReplay s close st.depth elements st.lexer st'.lexer read parts) := by
  have hinit : st.Reads s w st (([], false) : List Node × Bool).1.reverse := hs.reads
  refine Gives.repeatTo (s := s) (w := w)
    (I := fun read st' => st.Reads s w st' read.1.reverse ∧ (st'.Quiet →
      (∀ e ∈ read.1, e.IsEvaluable) → ∃ parts,
        Items s close st.depth elements st.lexer st'.lexer read parts))
    (fun _ _ h => h.1.sound) ⟨hinit, fun _ _ => ⟨[], .nil ..⟩⟩ fun read st₁ h₁ => ?_
  obtain ⟨hread, hitems⟩ := h₁
  have hdepth : st₁.depth = st.depth := hread.depth
  refine ((gives_delimitedStep close hreads read hread).and
    (itemRound_delimitedStep read helement hread.sound)).mono fun r st₂ h => ?_
  obtain ⟨hround, hitem⟩ := h
  have hclosing (st' : ParserState) (h : st.Reads s w st' r.value.1.reverse)
      (hkind : st'.kind = close) : st'.lexer.token.kind = close :=
    h.sound.current.symm.trans hkind
  cases hitem with
  | item htells h =>
    refine ⟨?_, nofun⟩
    rintro _ ⟨⟩
    refine ⟨⟨hround.keeps, fun hquiet hevaluable => ?_⟩, hround.lt _ rfl⟩
    obtain ⟨e, rfl, hreplay⟩ := h hquiet
    obtain ⟨he, hothers⟩ := List.forall_mem_cons.mp hevaluable
    obtain ⟨parts, hitems⟩ := hitems (htells.quiet hquiet) hothers
    obtain ⟨us, l, hreplay, hcomma, hlexer⟩ := hreplay he
    rw [hdepth] at hreplay
    rw [hlexer]
    exact ⟨_, hitems.longer hclose hreplay hcomma⟩
  | last htells h =>
    refine ⟨nofun, ?_⟩
    rintro _ ⟨⟩
    refine ⟨hround.keeps, fun hquiet hkind hevaluable => ?_⟩
    obtain ⟨e, rfl, hreplay⟩ := h hquiet
    obtain ⟨he, hothers⟩ := List.forall_mem_cons.mp hevaluable
    obtain ⟨parts, hitems⟩ := hitems (htells.quiet hquiet) hothers
    obtain ⟨us, hreplay⟩ := hreplay he
    rw [hdepth] at hreplay
    exact ⟨_, hitems.closed_item hclose hreplay (hclosing _ hround.keeps hkind)⟩
  | stop =>
    refine ⟨nofun, ?_⟩
    rintro _ ⟨⟩
    refine ⟨hround.keeps, fun hquiet hkind hevaluable => ?_⟩
    obtain ⟨parts, hitems⟩ := hitems hquiet hevaluable
    exact ⟨parts, hitems.closed hclose (hclosing _ hround.keeps hkind)⟩

/-! ## Lists in brackets -/

/-- The lexemes of a list in brackets. -/
abbrev listLexemes (opening close : TokenKind) (trailing : Bool)
    (parts : List (Node × List Lexeme)) : List Lexeme :=
  .ofKind opening :: Lexeme.listed trailing (parts.map (·.2)) ++ [.ofKind close]

/-- A list in brackets was read from `l` to `l'`, and is read again wherever its lexemes follow. -/
structure ListReplay (s : Source) (opening close : TokenKind) (d : Nat)
    (elements : Nat → Parser (Option Node)) (l l' : Lexer) (list : Sequence Node)
    (parts : List (Node × List Lexeme)) : Prop where
  items : list.items = parts.map (·.1)
  madeOf : ∀ part ∈ parts, part.1.MadeOf s 2 part.2
  path : l.Path (listLexemes opening close list.trailingComma parts) l'
  levels : d ≤ maxParserDepth → d + Node.levelsWithin list.items ≤ maxParserDepth + 2
  again : ∀ (rest : List Lexeme) (st : ParserState) (fuel d : Nat), l'.Leads rest →
    Follows d (listLexemes opening close list.trailingComma parts ++ rest) st →
    d + Node.levelsWithin list.items ≤ maxParserDepth + 2 →
    4 * ((listLexemes opening close list.trailingComma parts).length + rest.length +
      (maxParserDepth - d)) ≤ fuel →
    (inContext bracketed (delimited opening close (elements fuel))).Gives st fun list' st' =>
      list.Alike list' ∧ Follows d rest st'

lemma notMem_greaterKinds_of_bracket {k : TokenKind}
    (hk : k ∈ [TokenKind.openParen, .openBracket] ++ [TokenKind.closeParen, .closeBracket]) :
    k ∉ TokenKind.greaterKinds := by
  have hplain : ∀ k ∈ [TokenKind.openParen, .openBracket] ++ [TokenKind.closeParen, .closeBracket],
      k ∉ TokenKind.greaterKinds := by
    decide
  exact hplain k hk

/-- The brackets around the items. -/
lemma ItemsReplay.inBrackets {list : Sequence Node}
    (h : ItemsReplay s close d elements l.scan l' read parts)
    (hopening : opening ∈ [TokenKind.openParen, .openBracket])
    (hclose : close ∈ [TokenKind.closeParen, .closeBracket]) (hopen : l.token.kind = opening)
    (hkind : l'.token.kind = close) (hlist : list.items = read.1.reverse)
    (htrailing : list.trailingComma = read.2) :
    ListReplay s opening close d elements l l'.scan list parts := by
  have hgreater := notMem_greaterKinds_of_bracket (List.mem_append_left _ hopening)
  have hgreater' := notMem_greaterKinds_of_bracket (List.mem_append_right _ hclose)
  have hitems : list.items = parts.map (·.1) := hlist.trans h.nodes
  refine ⟨hitems, h.madeOf, ?_, fun hdepth => ?_,
    fun rest st fuel d hleads hfollows hlevels hfuel => ?_⟩
  · have hfirst : l.Path [.ofKind opening] l.scan := .single hopen hgreater
    rw [htrailing]
    exact (hfirst.trans h.path).trans (.single hkind hgreater')
  · have hall : ∀ e ∈ list.items, e.levels + 2 ≤ maxParserDepth + 2 - d := by
      rw [hitems, List.forall_mem_map]
      intro part hpart
      have := h.levels hdepth part hpart
      omega
    have := Node.levelsWithin_le hall (by omega)
    omega
  have hparts : ∀ part ∈ parts, d + part.1.levels ≤ maxParserDepth := fun part hpart => by
    have := Node.levels_le_levelsWithin (hitems ▸ List.mem_map_of_mem hpart)
    omega
  simp only [listLexemes, htrailing, List.cons_append, List.append_assoc, List.nil_append,
    List.length_cons, List.length_append, List.length_nil] at hfollows hfuel
  have hinside : Follows d (Lexeme.listed read.2 (parts.map (·.2)) ++ .ofKind close :: rest)
      { st with context := bracketed st.context }.advanced :=
    (hfollows.advanced hgreater).of_same rfl rfl rfl rfl hfollows.depth
  have hlen := hinside.spelled.length_le
  simp only [List.length_append, List.length_cons] at hlen
  refine gives_inContext (.expect_eq (hfollows.kind_eq hgreater) ?_)
  refine Gives.bind (.get (h.again rest _ fuel d _ hleads hinside hparts ?_ ?_)) ?_
  · omega
  · omega
  rintro read' st₁ ⟨halike, htrailing', hfollows₁⟩
  refine .sequence fun list' hlist' =>
    .expect_eq (hfollows₁.kind_eq hgreater') (.pure ⟨⟨?_, ?_⟩, ?_⟩)
  · rw [hitems]
    simpa [hlist'] using halike
  · exact htrailing.trans htrailing'.symm
  · exact (hfollows₁.advanced hgreater').of_same rfl rfl rfl hfollows.plain
      (hfollows₁.advanced hgreater').depth

/-- If every item is read again, so is a list in brackets. -/
lemma gives_delimited_replay (hopening : opening ∈ [TokenKind.openParen, .openBracket])
    (hclose : close ∈ [TokenKind.closeParen, .closeBracket])
    (hreads : element.Reads s (w - 1) Option.toList)
    (helement : Replays s (w - 1) .expression 1 element elements) (hs : st.Sound s w)
    (hkind : st.kind = opening) :
    (inContext bracketed (delimited opening close element)).Gives st fun list st' =>
      Tells s st st' ∧ (st'.Quiet → (∀ e ∈ list.items, e.IsEvaluable) → ∃ parts,
        ListReplay s opening close st.depth elements st.lexer st'.lexer list parts) := by
  have hend : opening ≠ .endOfFile := by
    rintro rfl
    exact absurd hopening (by decide)
  have h₁ : Advances s w { st with context := bracketed st.context }
      { st with context := bracketed st.context }.advanced := gives_advance (hs.inContext _)
  have hlater := h₁.sound_lt (hs.inContext _) (h₁.lt (hkind ▸ hend))
  refine gives_inContext (.expect_eq hkind ((gives_items hclose hreads helement hlater).bind
    fun read st₁ h => .sequence fun list hlist => ?_))
  obtain ⟨h₂, hitems⟩ := h
  refine ((gives_expect_quiet close h₂.sound).and
    (skips_expect close st₁ h₂.sound)).bind fun _ st₂ h => .pure ?_
  obtain ⟨hclosed, h₃⟩ := h
  have htells := (h₁.tells.trans h₂.tells).trans h₃.tells
  refine ⟨⟨htells.diagnostics, htells.lexer⟩, fun hquiet hevaluable => ?_⟩
  have hquiet₂ : st₂.Quiet := ⟨hquiet.diagnostics, hquiet.lexer⟩
  obtain ⟨hcloses, rfl⟩ := hclosed hquiet₂
  obtain ⟨parts, hreplay⟩ := hitems (h₃.tells.quiet hquiet₂) hcloses fun e he =>
    hevaluable e (by simpa [hlist] using he)
  exact ⟨parts, hreplay.inBrackets hopening hclose (hs.current.symm.trans hkind)
    (h₂.sound.current.symm.trans hcloses) hlist rfl⟩

/-! ## The items of calls and arrays -/

/-- What may stand in brackets is read again. -/
structure RereadsInside (s : Source) (w : Nat) (rules : Rules) : Prop where
  sound : rules.Sound s w
  expression : Replays s w .expression 1 (Parser.expression rules)
    fun fuel => Parser.expression (grammar fuel)
  assignment : Replays s w .expression 1 (rules .assignment) fun fuel => grammar fuel .assignment

section

variable {rules : Rules} {g : Stage} {l : Lexer}

/-- No three points stand in front of an item. -/
lemma Rereads.spreadable (h : Rereads g 1 (fun fuel => grammar fuel .assignment) l e us)
    (hmade : e.MadeOf s 2 us) :
    Rereads g 1 (fun fuel => Parser.spreadable (grammar fuel)) l e us := by
  intro rest st fuel d htail hfollows hlevels hfuel
  have hne : st.kind ≠ .dotDotDot := fun hpoints =>
    hfollows.kind_item hmade (by simp [hpoints])
  exact .pos (.optional_ne hne (h rest st fuel d htail hfollows hlevels hfuel))

/-- An item is no hole. -/
lemma Rereads.arrayElement (h : Rereads g 1 (fun fuel => Parser.spreadable (grammar fuel)) l e us)
    (hmade : e.MadeOf s 2 us) :
    Rereads g 1 (fun fuel => Parser.arrayElement (grammar fuel)) l e us := by
  intro rest st fuel d htail hfollows hlevels hfuel
  have hne : st.kind ≠ .comma := fun hcomma => hfollows.kind_item hmade (by simp [hcomma])
  exact .pos (.at?_ne hne (h rest st fuel d htail hfollows hlevels hfuel))

/-- An argument is read again, unless it is spread. -/
lemma replays_spreadable (h : RereadsInside s w rules) :
    Replays s w .expression 1 (spreadable rules) fun fuel => spreadable (grammar fuel) := by
  intro st hs
  refine ((reads_spreadable h.sound st hs).mono fun _ _ h => h.forget).and ?_
  by_cases hpoints : st.kind = .dotDotDot
  · refine .pos (.optional_eq hpoints ?_)
    exact .after fun inner st₁ => .finish (.pure (.foreign (.of_form rfl)))
  · refine .pos (.optional_ne hpoints ((h.assignment st hs).mono fun o st₁ hread => ?_))
    exact hread.2.again_of fun _ _ _ hmade hagain => hagain.spreadable hmade

/-- An element of an array is read again, unless it is spread or a hole. -/
lemma replays_arrayElement (h : RereadsInside s w rules) :
    Replays s w .expression 1 (arrayElement rules) fun fuel => arrayElement (grammar fuel) := by
  intro st hs
  refine ((reads_arrayElement h.sound st hs).mono fun _ _ h => h.forget).and ?_
  by_cases hcomma : st.kind = .comma
  · exact .pos (.at?_eq hcomma (.nodeAt (.pure (.foreign (.of_form rfl)))))
  · refine .pos (.at?_ne hcomma ((replays_spreadable h st hs).mono fun o st₁ hread => ?_))
    exact hread.2.again_of fun _ _ _ hmade hagain => hagain.arrayElement hmade

end

end Parser
end InlineValues
