import InlineValues.Printer.Print
import InlineValues.Proofs.Token.Lexeme
import Mathlib.Data.List.DropRight

/-!
# Quoted strings read back

A string that comes from no source text is printed between double quotes, and five characters are
escaped in it.  A lexer takes a backslash together with the character behind it and ends a string at
the first quote or line end that no backslash precedes.  Every character of a quoted text is either
escaped or neither of these (`quotedChar_cases`), whatever the text is, so that the lexer comes to
the closing quote and no further (`Scanned.stringStop_quoted`), and `unescaped` gives the text back
(`unescaped_quoted`).
-/

namespace InlineValues

/-! ## Undoing the escapes -/

/-- The character that a letter stands for behind a backslash, for the five escapes in use. -/
def escapedChar? : Char → Option Char
  | 'n' => some '\n'
  | 'r' => some '\r'
  | 't' => some '\t'
  | '\\' => some '\\'
  | '\x22' => some '\x22'
  | _ => none

/-- A text with the five escapes undone. -/
def unescaped : List Char → List Char
  | '\\' :: c :: cs =>
    match escapedChar? c with
    | some d => d :: unescaped cs
    | none => '\\' :: c :: unescaped cs
  | c :: cs => c :: unescaped cs
  | [] => []

/-- Between quotes a character is escaped, or it is one that neither ends a string nor starts an
escape. -/
theorem quotedChar_cases (c : Char) :
    (∃ e, quotedChar c = ['\\', e] ∧ e ≠ '\r' ∧ escapedChar? e = some c) ∨
      quotedChar c = [c] ∧ c ≠ '\\' ∧ c ≠ '\x22' ∧ endsLine c = false := by
  unfold quotedChar
  split
  case h_1 => exact .inl ⟨'n', rfl, by decide, rfl⟩
  case h_2 => exact .inl ⟨'r', rfl, by decide, rfl⟩
  case h_3 => exact .inl ⟨'t', rfl, by decide, rfl⟩
  case h_4 => exact .inl ⟨'\\', rfl, by decide, rfl⟩
  case h_5 => exact .inl ⟨'\x22', rfl, by decide, rfl⟩
  case h_6 c hfeed hreturn _ hslash hquote =>
    refine .inr ⟨rfl, hslash, hquote, ?_⟩
    simp only [endsLine, Bool.or_eq_false_iff, beq_eq_false_iff_ne]
    exact ⟨hfeed, hreturn⟩

theorem unescaped_quoted (cs : List Char) : unescaped (cs.flatMap quotedChar) = cs := by
  induction cs with
  | nil => rfl
  | cons c cs ih =>
    rw [List.flatMap_cons]
    rcases quotedChar_cases c with ⟨e, hquoted, -, he⟩ | ⟨hquoted, hslash, -⟩
    · rw [hquoted, List.cons_append, List.singleton_append, unescaped, he, ih]
    · rw [hquoted, List.singleton_append, unescaped, ih]
      exact fun _ _ h => absurd h hslash

/-! ## The end of a quoted text -/

/-- A string ends at the quote behind a text that was escaped, and nowhere inside it. -/
theorem Scanned.stringStop_quoted (cs rest : List Char) (pos : Nat) :
    stringStop '\x22' (cs.flatMap quotedChar ++ '\x22' :: rest) pos =
      ⟨'\x22' :: rest, pos + byteLength (cs.flatMap quotedChar)⟩ := by
  induction cs generalizing pos with
  | nil =>
    rw [List.flatMap_nil, List.nil_append, stringStop.eq_4 _ _ _ _ (by simp) (by simp)]
    rfl
  | cons c cs ih =>
    rw [List.flatMap_cons]
    rcases quotedChar_cases c with ⟨e, hquoted, hreturn, -⟩ | ⟨hquoted, hslash, hquote, hline⟩
    · have hescape := stringStop.eq_3 '\x22' pos e
        (cs.flatMap quotedChar ++ '\x22' :: rest) fun _ h => absurd h hreturn
      rw [hquoted, List.append_assoc, List.cons_append, List.singleton_append, hescape, ih]
      simp only [byteLength_cons, byteLength_append, byteLength_nil, Nat.add_zero, Nat.add_assoc]
      rfl
    · rw [hquoted, List.append_assoc, List.singleton_append,
        stringStop.eq_4 _ _ _ _ (fun _ h => absurd h hslash) (fun _ _ h => absurd h hslash),
        if_neg (by simp [hquote, hline]), ih, byteLength_append, byteLength_cons, byteLength_nil,
        Nat.add_zero, Nat.add_assoc]

/-- A quoted text is read as one string. -/
lemma Scanned.token_quoted (cs : List Char) (pos : Nat) :
    token ⟨quoted cs, pos⟩ =
      { kind := .stringLiteral, value := cs.flatMap quotedChar
        stop := ⟨[], pos + byteLength (quoted cs)⟩ } := by
  have hstring : token ⟨quoted cs, pos⟩ = string '\x22' ⟨quoted cs, pos⟩ := rfl
  have hadvance : Cursor.advance ⟨quoted cs, pos⟩ =
      ⟨cs.flatMap quotedChar ++ ['\x22'], pos + 1⟩ := rfl
  have hsees : Cursor.sees ⟨['\x22'], pos + 1 + byteLength (cs.flatMap quotedChar)⟩ (· == '\x22') =
      true := rfl
  rw [hstring]
  simp only [string, hadvance, stringStop_quoted, hsees, if_true, Cursor.textTo_append]
  simp only [Cursor.advance, quoted, byteLength_append, byteLength_cons, byteLength_nil,
    Nat.add_assoc]
  rfl

/-! ## Printing and reading -/

/-- A lone text is laid out as it is, without the blanks at its end. -/
lemma layOut_text (defer : Bool) (cs : List Char) :
    layOut defer [.text cs] = cs.rdropWhile (· == ' ') := by
  have hreversed : (Line.append {} cs).reversed = cs.reverse := by
    cases cs <;> simp [Line.append, Line.settle]
  change ((Line.append {} cs).reversed.dropWhile (· == ' ')).reverse = _
  rw [hreversed]
  rfl

lemma layOut_text_of_getLast? {cs : List Char} (hlast : cs.getLast? ≠ some ' ') (defer : Bool) :
    layOut defer [.text cs] = cs := by
  rw [layOut_text, List.rdropWhile_eq_self_iff]
  intro hne hblank
  rw [List.getLast?_eq_some_getLast hne] at hlast
  exact hlast (congrArg some (eq_of_beq hblank))

lemma getLast?_quoted (cs : List Char) : (quoted cs).getLast? = some '\x22' :=
  List.getLast?_concat

/-- A string that comes from no source text is printed quoted. -/
lemma text_print_string (text : List Char) (options : PrintOptions) (origin : Origin)
    (stop : Nat) :
    (print none options ⟨origin, stop, .literal .stringLiteral text⟩).text = quoted text := by
  have hlast : (quoted text).getLast? ≠ some ' ' := by
    rw [getLast?_quoted]
    decide
  exact layOut_text_of_getLast? hlast options.omitTrailingSemicolon

/-- A lexer at the start of a quoted text has read all of it as one string. -/
lemma Lexer.start_scan_quoted (cs : List Char) :
    (Lexer.start (.ofChars (quoted cs))).scan =
      { source := .ofChars (quoted cs)
        token :=
          { kind := .stringLiteral, fullStart := 0, start := 0, value := cs.flatMap quotedChar
            afterLineBreak := false, unterminated := false }
        cursor := ⟨[], byteLength (quoted cs)⟩
        diagnostics := #[] } := by
  have hcursor : (Source.ofChars (quoted cs)).cursor 0 = ⟨quoted cs, 0⟩ := by
    simp [Source.cursor, Source.suffix]
  have htrivia : Trivia.before ⟨quoted cs, 0⟩ = ⟨⟨quoted cs, 0⟩, false, false⟩ := rfl
  simp [Lexer.scan, Lexer.start, hcursor, htrivia, Scanned.token_quoted, Lexer.report]

/-- **Quoted strings read back.**  A string that comes from no source text is printed as a text that
a lexer reads as one closed string, which takes the whole text and is followed by its end, without a
report; and the value of this string without its escapes is the string that was printed. -/
theorem scan_print_string (text : List Char) (options : PrintOptions) (origin : Origin)
    (stop : Nat) :
    let output := (print none options ⟨origin, stop, .literal .stringLiteral text⟩).text
    let l := (Lexer.start (.ofChars output)).scan
    (l.token.kind = .stringLiteral ∧ l.token.unterminated = false ∧ l.token.start = 0 ∧
        l.stop = byteLength output ∧ l.text = output) ∧
      unescaped l.token.value = text ∧
      l.scan.token.kind = .endOfFile ∧ l.scan.diagnostics = #[] := by
  rw [text_print_string]
  dsimp only
  rw [Lexer.start_scan_quoted]
  have hslice : (Source.ofChars (quoted text)).slice? 0 (byteLength (quoted text)) =
      some (quoted text) := Source.slice?_zero_of_eq_append (List.append_nil _).symm
  have hend : Scanned.token (Trivia.before ⟨[], byteLength (quoted text)⟩).stop =
      { kind := .endOfFile, value := [], stop := ⟨[], byteLength (quoted text)⟩ } := rfl
  refine ⟨⟨rfl, rfl, rfl, rfl, ?_⟩, unescaped_quoted text, ?_, ?_⟩
  · rw [Lexer.text, Source.slice]
    exact congrArg (·.getD []) hslice
  · rw [Lexer.token_scan]
    exact congrArg Scanned.kind hend
  · rfl

end InlineValues
