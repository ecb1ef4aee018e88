import InlineValues.Proofs.Nesting.SourceFile
import InlineValues.Proofs.Replay.File

/-!
# What is nested without a guard

An operator in front of a type takes a type with operators, and no guard stands between the two.  So
one level of guarded productions is enough for any number of operators, and a text can be nested
deeper than the guard lets in elsewhere, with nothing to report (`stacks_parse_operators`).

The text is one that is made of keywords with blanks behind them (`Spells.spaced`).  Each production
on the way to the operators reads the first of its lexemes, as `Follows` tells them.
-/

namespace InlineValues

/-! ## Nodes on a way down -/

/-- Some way down from the node leads over `count` nodes of a kind. -/
def Node.Stacks (kind : NodeKind) (count : Nat) (n : Node) : Prop :=
  ∃ chain, n.ChainFrom chain ∧ chain.countP (·.is kind) = count

namespace Node.Stacks

variable {kind : NodeKind} {count : Nat} {n m : Node}

lemma leaf (hkind : n.is kind = false) : n.Stacks kind 0 :=
  ⟨[n], ⟨rfl, .singleton n⟩, by simp [hkind]⟩

/-- The way leads on from the node above. -/
lemma below (h : m.Stacks kind count) (hm : m ∈ n.children) (hkind : n.is kind = false) :
    n.Stacks kind count := by
  obtain ⟨chain, hchain, hcount⟩ := h
  exact ⟨n :: chain, hchain.cons hm, by simp [hkind, hcount]⟩

/-- The node above is one more of them. -/
lemma succ (h : m.Stacks kind count) (hm : m ∈ n.children) (hkind : n.is kind = true) :
    n.Stacks kind (count + 1) := by
  obtain ⟨chain, hchain, hcount⟩ := h
  exact ⟨n :: chain, hchain.cons hm, by simp [hkind, hcount]⟩

end Node.Stacks

/-! ## Keywords with blanks behind them -/

/-- The text of tokens that their kinds tell all about, each with a blank behind it. -/
def spaced (ks : List TokenKind) : List Char := ks.flatMap fun k => k.spelling ++ [' ']

theorem Spells.spaced {ks : List TokenKind}
    (h : ∀ k ∈ ks, k ∈ TokenKind.keywords ∨ k ∈ TokenKind.signs ∧ k ≠ .greaterThan) :
    Spells (spaced ks) (ks.map Lexeme.ofKind) := by
  induction ks with
  | nil => exact .nil (.inl rfl)
  | cons k ks ih =>
    obtain ⟨hk, hks⟩ := List.forall_mem_cons.mp h
    have htext : InlineValues.spaced (k :: ks) = k.spelling ++ ' ' :: InlineValues.spaced ks := by
      simp [InlineValues.spaced]
    rw [htext]
    rcases hk with hword | ⟨hsign, hne⟩
    · exact .word hword (ih hks)
    · refine .sign hsign hne (fun c hc => ?_) (ih hks).blank
      cases hc
      exact blank_notMem_extensions k hsign

/-- A type with `count` operators in front of it. -/
def operatorKinds (count : Nat) : List TokenKind :=
  List.replicate count .keyOfKeyword ++ [.voidKeyword]

/-- A variable of such a type. -/
def variableKinds (count : Nat) : List TokenKind :=
  .varKeyword :: .typeKeyword :: .colon :: operatorKinds count

example : spaced (variableKinds 2) = "var type : keyof keyof void ".toList := by decide

lemma mem_variableKinds {count : Nat} {k : TokenKind} (h : k ∈ variableKinds count) :
    k ∈ [TokenKind.varKeyword, .typeKeyword, .colon, .keyOfKeyword, .voidKeyword] := by
  simp only [variableKinds, operatorKinds, List.mem_cons, List.mem_append, List.mem_replicate] at h
  grind

namespace Parser

open ParserState

variable {d count fuel : Nat} {st : ParserState}

/-! ## The type -/

/-- A node was read from which a way leads down over the operators, with nothing behind it. -/
structure Stacked (count d : Nat) (o : Option Node) (st : ParserState) : Prop where
  way : ∃ n, o = some n ∧ n.Stacks .typeOperator count
  follows : Follows d [] st

/-- In front of keywords stands the first of them. -/
lemma Follows.kind_keyword {k : TokenKind} {ks : List TokenKind}
    (h : Follows d ((k :: ks).map Lexeme.ofKind) st) (hgreater : k ∉ TokenKind.greaterKinds) :
    st.kind = k ∧ Follows d (ks.map Lexeme.ofKind) st.advanced :=
  ⟨h.kind_eq hgreater, h.advanced hgreater⟩

/-- A type with operators starts with one of them or with `void`. -/
lemma Follows.kind_operator (h : Follows d ((operatorKinds count).map Lexeme.ofKind) st) :
    st.kind = .keyOfKeyword ∨ st.kind = .voidKeyword := by
  cases count with
  | zero => exact .inr (h.kind_keyword (by decide)).1
  | succ count => exact .inl (h.kind_keyword (by decide)).1

/-- Behind the last lexeme stands no other token than one that closes the text. -/
lemma Follows.kind_ne {k : TokenKind} (h : Follows d [] st)
    (hk : k ≠ .endOfFile ∧ k ≠ .semicolon) : st.kind ≠ k := by
  rintro rfl
  rcases h.spelled.last.kind with hkind | ⟨hkind, -⟩
  · exact hk.1 (h.current.trans hkind)
  · exact hk.2 (h.current.trans hkind)

lemma gives_bracketedType_void {rules : Rules}
    (h : Follows d ([TokenKind.voidKeyword].map Lexeme.ofKind) st) :
    (bracketedType rules).Gives st (Stacked 0 d) := by
  obtain ⟨hkind, hbehind⟩ := h.kind_keyword (by decide)
  have htoken : tokenNode.Gives st fun n st' => n.Stacks .typeOperator 0 ∧ Follows d [] st' :=
    .pos (.kind (.advance (gives_finish ⟨.leaf rfl, hbehind.closed _ _⟩)))
  have hbasic : (basicType rules).Gives st (Stacked 0 d) := by
    refine .pos (.kind ?_)
    rw [hkind]
    exact htoken.bind fun n st₁ h₁ => .pure ⟨⟨n, rfl, h₁.1⟩, h₁.2⟩
  refine .pos (hbasic.bind fun o st₁ h₁ => ?_)
  obtain ⟨n, rfl, hn⟩ := h₁.way
  refine Gives.bind (P := fun n' st' => n' = n ∧ Follows d [] st')
    (.get (gives_iterate_done ?_ (Nat.succ_pos _))) fun n' st₂ h₂ => ?_
  · refine .afterLineBreak fun b => .at?_ne (h₁.follows.kind_ne (by decide)) ?_
    rw [Bool.not_false, Bool.or_true]
    exact ⟨n, rfl, rfl, h₁.follows⟩
  · exact .pure ⟨⟨n', rfl, h₂.1 ▸ hn⟩, h₂.2⟩

/-- One production opens for each operator, and none of them is guarded. -/
lemma gives_typeOperator_stacked (hfuel : count < fuel)
    (h : Follows d ((operatorKinds count).map Lexeme.ofKind) st) :
    (grammar fuel .typeOperator).Gives st (Stacked count d) := by
  obtain ⟨fuel, rfl⟩ : ∃ k, fuel = k + 1 := ⟨fuel - 1, by omega⟩
  induction count generalizing fuel st with
  | zero =>
    obtain ⟨hkind, -⟩ := h.kind_keyword (by decide)
    refine .pos (.kind ?_)
    rw [hkind]
    exact gives_bracketedType_void h
  | succ count ih =>
    obtain ⟨hkind, hbehind⟩ := h.kind_keyword (by decide)
    obtain ⟨fuel, rfl⟩ : ∃ k, fuel = k + 1 := ⟨fuel - 1, by omega⟩
    refine .pos (.kind ?_)
    rw [hkind]
    refine .advance ((ih hbehind fuel (by omega)).bind fun o st₁ h₁ => ?_)
    obtain ⟨n, rfl, hn⟩ := h₁.way
    refine .finish (.pure ⟨⟨_, rfl, hn.succ ?_ rfl⟩, h₁.follows.closed _ _⟩)
    change n ∈ [n]
    exact List.mem_singleton_self n

/-- No function type starts with an operator or with `void`. -/
lemma Follows.gives_atFunctionType (h : Follows d ((operatorKinds count).map Lexeme.ofKind) st) :
    atFunctionType.Gives st fun b st' => b = false ∧ st' = st := by
  refine .kind ?_
  rcases h.kind_operator with hkind | hkind
  · rw [hkind]
    exact ⟨rfl, rfl⟩
  · rw [hkind]
    exact ⟨rfl, rfl⟩

/-- Operators between types are not there. -/
lemma gives_compositeType_stacked {rules : Rules} {operator : TokenKind}
    {form : Sequence (Option Node) → Form Node} {constituent : Parser (Option Node)}
    (hoperator : operator ∈ [TokenKind.ampersand, .bar])
    (h : Follows d ((operatorKinds count).map Lexeme.ofKind) st)
    (hconstituent : constituent.Gives st (Stacked count d)) :
    (compositeType rules operator form constituent).Gives st (Stacked count d) := by
  have hapart : ∀ k ∈ [TokenKind.ampersand, .bar], k ≠ .keyOfKeyword ∧ k ≠ .voidKeyword ∧
      k ≠ .endOfFile ∧ k ≠ .semicolon := by decide
  obtain ⟨hkeyOf, hvoid, hend⟩ := hapart _ hoperator
  have hkind := h.kind_operator
  refine .pos (.optional_ne (fun heq => ?_) ?_)
  · rw [heq] at hkind
    exact hkind.elim hkeyOf hvoid
  refine h.gives_atFunctionType.bind fun b st₁ hst => ?_
  obtain ⟨rfl, rfl⟩ := hst
  rw [if_neg Bool.false_ne_true]
  refine hconstituent.bind fun o st₂ h₂ => .at?_ne (h₂.follows.kind_ne hend) ?_
  exact h₂

lemma gives_anyType_stacked (hfuel : count < fuel)
    (h : Follows d ((operatorKinds count).map Lexeme.ofKind) st) :
    (anyType (grammar fuel)).Gives st (Stacked count d) := by
  have hintersection : (intersectionType (grammar fuel)).Gives st (Stacked count d) :=
    gives_compositeType_stacked (by decide) h (gives_typeOperator_stacked hfuel h)
  have hunion : (unionType (grammar fuel)).Gives st (Stacked count d) :=
    gives_compositeType_stacked (by decide) h hintersection
  refine h.gives_atFunctionType.bind fun b st₁ hst => ?_
  obtain ⟨rfl, rfl⟩ := hst
  rw [if_neg Bool.false_ne_true]
  refine .pos (hunion.bind fun o st₂ h₂ => ?_)
  obtain ⟨n, rfl, -⟩ := id h₂.way
  refine .afterLineBreak fun b => .ite (.pure h₂) ?_
  exact .optional_ne (h₂.follows.kind_ne (by decide)) (.pure h₂)

/-- For the whole type one level is opened. -/
lemma gives_type_stacked (hfuel : count + 1 < fuel)
    (h : Follows d ((operatorKinds count).map Lexeme.ofKind) st) (hdepth : d < maxParserDepth) :
    (grammar fuel .type).Gives st (Stacked count d) := by
  obtain ⟨fuel, rfl⟩ : ∃ k, fuel = k + 1 := ⟨fuel - 1, by omega⟩
  have hinner : Follows (d + 1) ((operatorKinds count).map Lexeme.ofKind)
      { st with depth := st.depth + 1 } :=
    h.of_same rfl rfl rfl h.plain (by simp [h.depth])
  rw [grammar, production]
  refine .nested (fun _ => ?_) (absurd (h.depth ▸ hdepth))
  refine (gives_anyType_stacked (by omega) hinner).mono fun o st₁ h₁ => ⟨h₁.way, ?_⟩
  exact h₁.follows.of_same rfl rfl rfl h₁.follows.plain (by simp [h₁.follows.depth])

/-! ## The variable -/

lemma gives_variableDeclaration_stacked (hfuel : count + 1 < fuel)
    (h : Follows d ((TokenKind.typeKeyword :: .colon :: operatorKinds count).map Lexeme.ofKind) st)
    (hdepth : d < maxParserDepth) :
    (variableDeclaration (grammar fuel)).Gives st (Stacked count d) := by
  obtain ⟨fuel, rfl⟩ : ∃ k, fuel = k + 1 := ⟨fuel - 1, by omega⟩
  obtain ⟨hkind, hcolon⟩ := h.kind_keyword (by decide)
  have hnode : identifierNode.Gives st fun _ st' =>
      Follows d ((TokenKind.colon :: operatorKinds count).map Lexeme.ofKind) st' :=
    .pos (.value (.advance (gives_finish (hcolon.closed _ _))))
  have hat : atIdentifier.Gives st fun b st' => b = true ∧ st' = st := by
    refine .get (.kind ?_)
    rw [hkind]
    exact ⟨rfl, rfl⟩
  have hname : (grammar (fuel + 1) .bindingName).Gives st fun o st' => (∃ n, o = some n) ∧
      Follows d ((TokenKind.colon :: operatorKinds count).map Lexeme.ofKind) st' := by
    refine .pos (.kind ?_)
    rw [hkind]
    refine hat.bind fun b st₁ hst => ?_
    obtain ⟨rfl, rfl⟩ := hst
    exact hnode.bind fun n st₁ h₁ => .pure ⟨⟨n, rfl⟩, h₁⟩
  refine .pos (hname.bind fun o st₁ h₁ => ?_)
  obtain ⟨⟨name, rfl⟩, h₁⟩ := h₁
  obtain ⟨hkind₁, htype⟩ := h₁.kind_keyword (by decide)
  have htyping (definite : Bool) : Gives (do
      let type ← typeAnnotation (grammar (fuel + 1))
      let value ← initializer (grammar (fuel + 1))
      return some (← finish st.here (.variableDeclaration (some name) definite type value))) st₁
      (Stacked count d) := by
    have htyped : ( typeAnnotation (grammar (fuel + 1))).Gives st₁
        (Stacked count d) :=
      .optional_eq hkind₁ (gives_type_stacked hfuel htype hdepth)
    refine htyped.bind fun type st₂ h₂ => ?_
    obtain ⟨n, rfl, hn⟩ := h₂.way
    have hvalue : (initializer (grammar (fuel + 1))).Gives st₂ fun value st₃ =>
        value = none ∧ st₃ = st₂ :=
      .optional_ne (h₂.follows.kind_ne (by decide)) ⟨rfl, rfl⟩
    refine hvalue.bind fun value st₃ hst => ?_
    obtain ⟨rfl, rfl⟩ := hst
    refine .finish (.pure ⟨⟨_, rfl, hn.below ?_ rfl⟩, h₂.follows.closed _ _⟩)
    change n ∈ [name, n]
    exact List.mem_cons_of_mem name (List.mem_singleton_self n)
  refine .afterLineBreak fun b => .ite (.pure_bind (htyping _)) ?_
  exact .optional_ne (by rw [hkind₁]; decide) (htyping _)

lemma gives_variableStatement_stacked (hfuel : count + 1 < fuel)
    (h : Follows d ((variableKinds count).map Lexeme.ofKind) st) (hdepth : d < maxParserDepth)
    (start : Nat) :
    (variableStatement (grammar fuel) start none).Gives st fun n st' =>
      n.Stacks .typeOperator count ∧ st'.Quiet ∧ st'.kind = .endOfFile := by
  obtain ⟨hkind, hrest⟩ := h.kind_keyword (by decide)
  have hkeyword : variableKeyword.Gives st fun _ st' => st' = st.advanced := by
    refine .kind (.advance ?_)
    rw [hkind]
    rfl
  have hlist : (variableList (grammar fuel)).Gives st fun n st' =>
      n.Stacks .typeOperator count ∧ Follows d [] st' := by
    refine .pos (hkeyword.bind fun keyword st₁ hst => ?_)
    rw [hst]
    refine Gives.bind (P := fun nodes st' => (∃ n, nodes = [n] ∧ n.Stacks .typeOperator count) ∧
      Follows d [] st') (.get (gives_iterate_done ?_ (Nat.succ_pos _))) fun nodes st₂ h₂ => ?_
    · refine (gives_variableDeclaration_stacked hfuel hrest hdepth).bind fun o st₂ h₂ => ?_
      obtain ⟨n, rfl, hn⟩ := h₂.way
      exact .optional_ne (h₂.follows.kind_ne (by decide)) ⟨_, rfl, ⟨n, rfl, hn⟩, h₂.follows⟩
    · obtain ⟨⟨n, rfl, hn⟩, hfollows⟩ := h₂
      refine .sequence fun q hq => gives_finish ⟨hn.below ?_ rfl, hfollows.closed _ _⟩
      change n ∈ q.items
      simp [hq]
  refine hlist.bind fun n st₁ h₁ => h₁.2.gives_semicolon.bind fun _ st₂ h₂ => ?_
  refine gives_finish ⟨h₁.1.below ?_ rfl, ⟨h₂.1.diagnostics, h₂.1.lexer⟩, h₂.2⟩
  change n ∈ [n]
  exact List.mem_singleton_self n

lemma gives_statement_stacked (hfuel : count + 1 < fuel)
    (h : Follows d ((variableKinds count).map Lexeme.ofKind) st) (hdepth : d < maxParserDepth) :
    (statement (grammar fuel)).Gives st fun o st' =>
      (∃ x, o = some x ∧ x.Stacks .typeOperator count) ∧ st'.Quiet ∧ st'.kind = .endOfFile := by
  obtain ⟨hkind, -⟩ := h.kind_keyword (by decide)
  have hdeclaration : atDeclaration.Gives st fun b st' => b = false ∧ st' = st := by
    refine .kind ?_
    rw [hkind]
    exact ⟨rfl, rfl⟩
  have hvariables : atVariables.Gives st fun b st' => b = true ∧ st' = st := by
    refine .kind ?_
    rw [hkind]
    exact ⟨rfl, rfl⟩
  refine .kind ?_
  rw [hkind]
  refine hdeclaration.bind fun b st₁ hst => ?_
  obtain ⟨rfl, rfl⟩ := hst
  refine hvariables.bind fun b st₂ hst => ?_
  obtain ⟨rfl, rfl⟩ := hst
  refine .pos (.map ((gives_variableStatement_stacked hfuel h hdepth _).mono fun n st₃ h₃ => ?_))
  exact ⟨⟨n, rfl, h₃.1⟩, h₃.2⟩

/-! ## The file -/

lemma gives_sourceFile_stacked {s : Source} (hs : s.chars = spaced (variableKinds count))
    (fileName : String) (knownNames : Array (List Char)) :
    (sourceFile fileName).Gives (.start s knownNames) fun n st =>
      n.Stacks .typeOperator count ∧ st.Quiet := by
  have hkinds : ∀ k ∈ [TokenKind.varKeyword, .typeKeyword, .colon, .keyOfKeyword, .voidKeyword],
      (k ∈ TokenKind.keywords ∨ k ∈ TokenKind.signs ∧ k ≠ .greaterThan) ∧ k.isCalm = true := by
    decide
  have hspells : Spells s.chars ((variableKinds count).map Lexeme.ofKind) :=
    hs ▸ .spaced fun k hk => (hkinds k (mem_variableKinds hk)).1
  have hcalm : ∀ t ∈ (variableKinds count).map Lexeme.ofKind, t.kind.isCalm = true :=
    List.forall_mem_map.mpr fun k hk => (hkinds k (mem_variableKinds hk)).2
  have hhead : s.chars.head? ≠ some '#' := by
    have hfirst : (spaced (variableKinds count)).head? = some 'v' := rfl
    rw [hs, hfirst]
    decide
  have hfollows := follows_firstToken hspells hcalm hhead knownNames
  have hdeeper : Follows 1 ((variableKinds count).map Lexeme.ofKind)
      { firstToken (.start s knownNames) with depth := 1 } :=
    hfollows.of_same rfl rfl rfl rfl rfl
  -- Each operator takes up a part of the text, whose size bounds the depth of the grammar.
  obtain ⟨fuel, hfuel⟩ : ∃ fuel, depthBound s = fuel + 1 := ⟨_, rfl⟩
  have hlength : count + 4 ≤ s.size := by
    have hle : ((variableKinds count).map Lexeme.ofKind).length ≤ s.size :=
      s.size_eq ▸ hspells.length_le
    simp only [variableKinds, operatorKinds, List.length_map, List.length_cons, List.length_append,
      List.length_replicate, List.length_nil] at hle
    omega
  have hbound : count + 1 < fuel := by
    rw [depthBound] at hfuel
    omega
  obtain ⟨hkind, -⟩ := hfollows.kind_keyword (by decide)
  have hfile := gives_fileStatements_single (by rw [hkind]; decide) (by rw [hkind]; decide)
    (by rw [hfollows.depth]; decide) (gives_statement_stacked hbound hdeeper (by decide))
  refine (gives_sourceFile_of hfuel (fun _ _ _ _ _ hq => ⟨⟨hq.1.diagnostics, hq.1.lexer⟩, hq.2⟩)
    hfile).mono fun n st hn => ?_
  obtain ⟨statements, endOfFile, hform, hquiet, x, hitems, hx⟩ := hn
  refine ⟨hx.below ?_ ?_, hquiet⟩
  · simp [Node.children, hform, Form.children, hitems]
  · rw [Node.is, Node.kind, hform]
    rfl

end Parser

lemma stacks_parse_of_chars {s : Source} {count : Nat}
    (hs : s.chars = spaced (variableKinds count)) (fileName : String) :
    (parse fileName s).diagnostics = [] ∧ (parse fileName s).root.Stacks .typeOperator count := by
  obtain ⟨knownNames, hroot, hdiagnostics⟩ := exists_parse_eq fileName s
  have hpass : (parseWith fileName s knownNames).1.Stacks .typeOperator count ∧
      (parseWith fileName s knownNames).2.Quiet :=
    Parser.gives_sourceFile_stacked hs fileName knownNames
  rw [hroot, hdiagnostics]
  exact ⟨ParserState.quiet_iff.mp hpass.2, hpass.1⟩

/-- For every number there is a text without a fault whose tree holds that many operators on one way
down: no guard bounds them. -/
theorem stacks_parse_operators (fileName : String) (count : Nat) :
    (parse fileName (.ofChars (spaced (variableKinds count)))).diagnostics = [] ∧
      (parse fileName (.ofChars (spaced (variableKinds count)))).root.Stacks .typeOperator count :=
  stacks_parse_of_chars (Source.chars_ofChars _) fileName

end InlineValues
