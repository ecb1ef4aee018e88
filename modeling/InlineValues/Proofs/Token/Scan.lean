import InlineValues.Proofs.Token.Cursor
import InlineValues.Proofs.Token.Table
import InlineValues.Token.Trivia

/-!
# Every token but the end is read forward

Whatever stands at a cursor, the token read there ends at or behind it with whole characters
between, and only the end of the file is empty (`Scanned.token_readFrom`).  A closing brace is
known by its character, which is what lets the grammar read it again as the end of a substitution
in a template.

The value of a token is a part of its text.  A string or a piece of a template may go on over the
end of a line, but names, numbers and regular expressions do not (`TokenKind.staysOnLine`).
-/

namespace InlineValues

/-! ## Trivia -/

lemma Trivia.before_walk (place : Place) (lineBreak : Bool) (rest : List Char) (pos : Nat) :
    Cursor.Before ⟨rest, pos⟩ (walk place lineBreak rest pos).stop := by
  fun_induction walk place lineBreak rest pos with
  | case1 => exact .refl _
  | case2 lineBreak rest pos ih => exact Cursor.Before.trans ⟨['/', '/'], rfl, rfl⟩ ih
  | case3 lineBreak rest pos ih => exact Cursor.Before.trans ⟨['/', '*'], rfl, rfl⟩ ih
  | case4 => exact Cursor.before_cons.trans (by assumption)
  | case5 => exact Cursor.before_cons.trans (by assumption)
  | case6 => exact .refl _
  | case7 => exact Cursor.before_cons.trans (by assumption)
  | case8 => exact Cursor.before_cons.trans (by assumption)
  | case9 lineBreak rest pos ih => exact Cursor.Before.trans ⟨['*', '/'], rfl, rfl⟩ ih
  | case10 => exact Cursor.before_cons.trans (by assumption)

lemma Trivia.before_stop (c : Cursor) : c.Before (before c).stop :=
  before_walk .between false c.rest c.pos

/-- Where trivia ends, no blank stands. -/
lemma Trivia.front_stop {place : Place} {lineBreak : Bool} {cs rest : List Char} {pos : Nat}
    {c : Char} (h : (walk place lineBreak cs pos).stop.rest = c :: rest) :
    isLineBreak c = false ∧ isBlank c = false := by
  fun_induction walk place lineBreak cs pos with
  | case1 => cases h
  | case6 lineBreak c' cs pos _ _ hline hblank =>
    obtain ⟨rfl, -⟩ := List.cons.inj h
    exact ⟨Bool.eq_false_iff.mpr hline, Bool.eq_false_iff.mpr hblank⟩
  | case2 _ _ _ ih | case3 _ _ _ ih | case4 _ _ _ _ _ _ _ ih | case5 _ _ _ _ _ _ _ _ ih =>
    exact ih h
  | _ => simp_all

lemma isLineBreak_of_endsLine {c : Char} (h : endsLine c = true) : isLineBreak c = true := by
  simp only [endsLine, isLineBreak, Bool.or_eq_true] at h ⊢
  exact .inl (.inl h)

lemma endsLine_of_isLineBreak {c : Char} (h : ¬ isLineBreak c = true) : endsLine c = false :=
  Bool.eq_false_iff.mpr fun hc => h (isLineBreak_of_endsLine hc)

/-- The kinds of names: the tokens whose value is their text. -/
def TokenKind.isName (k : TokenKind) : Bool :=
  k == .identifier || k == .privateIdentifier || k.isAnyKeyword

/-- The kinds of tokens with characters of their own choice that end with their line. -/
def TokenKind.staysOnLine (k : TokenKind) : Bool :=
  k.isName || k == .numericLiteral || k == .bigIntLiteral || k == .regularExpressionLiteral

lemma TokenKind.staysOnLine_of_isName {k : TokenKind} (h : k.isName = true) :
    k.staysOnLine = true := by simp [staysOnLine, h]

/-! ## Gaps -/

/-- A blank, or a character that ends a line. -/
def isGap (c : Char) : Bool := c == ' ' || endsLine c

lemma endsLine_of_isGap : ∀ a, isGap a = false → endsLine a = false := fun a ha => by
  simp only [isGap, Bool.or_eq_false_iff] at ha
  exact ha.2

/-- A class of characters without any of these. -/
lemma isGap_of_test {test : Char → Bool} (hblank : test ' ' = false)
    (hfeed : test '\n' = false) (hreturn : test '\r' = false) :
    ∀ a, test a = true → isGap a = false := by
  intro a ha
  have hne : a ≠ ' ' := fun h => by simp [h, hblank] at ha
  simpa [isGap, hne] using endsLine_of_test hfeed hreturn a ha

namespace Scanned

/-- A token that is not the end of the file, read forward from a cursor. -/
structure ReadFrom (start : Cursor) (t : Scanned) : Prop where
  before : start.Before t.stop
  moves : start.pos < t.stop.pos
  kind_ne : t.kind ≠ .endOfFile
  brace : t.kind = .closeBrace → start.rest.head? = some '\x7d'
  value : t.value <:+: start.textTo t.stop
  spelled : t.kind.isName = true → t.value = start.textTo t.stop
  line : t.kind.staysOnLine = true → OneLine (start.textTo t.stop)
  plain : t.kind ≠ .unknown → ¬ ['#', '!'] <+: start.rest

/-- What starts with another character than `#` is no first line that begins with `#!`. -/
lemma not_shebang_of_head {cs : List Char} (h : ∀ a ∈ cs.head?, a ≠ '#') :
    ¬ ['#', '!'] <+: cs := by
  rintro ⟨tail, rfl⟩
  exact h '#' rfl rfl

/-! ## Numbers -/

/-- There is no gap in a run of digits. -/
lemma avoids_digits {isDigit : Char → Bool} (hdigit : ∀ a, isDigit a = true → isGap a = false)
    (c : Cursor) : c.Avoids isGap (digits isDigit c) := by
  rw [digits]
  split
  · refine Cursor.avoids_skipWhile (fun a ha => ?_) c
    rcases Bool.or_eq_true _ _ ▸ ha with hd | hlow
    · exact hdigit a hd
    · rw [eq_of_beq hlow]
      decide
  · exact .refl isGap c

lemma avoids_decimalDigits (c : Cursor) : c.Avoids isGap (digits isDecimalDigit c) :=
  avoids_digits (isGap_of_test (by decide) (by decide) (by decide)) c

/-- A letter that announces digits is no gap, and neither are the digits. -/
lemma isGap_of_radixDigit? {letter : Char} {isDigit : Char → Bool}
    (h : radixDigit? letter = some isDigit) :
    isGap letter = false ∧ ∀ a, isDigit a = true → isGap a = false := by
  unfold radixDigit? at h
  split at h <;> first
    | (cases h; exact ⟨by decide, isGap_of_test (by decide) (by decide) (by decide)⟩)
    | cases h

lemma pos_lt_digits {isDigit : Char → Bool} {c : Cursor} (h : c.sees isDigit = true) :
    c.pos < (digits isDigit c).pos := by
  rw [digits, if_pos h]
  apply Cursor.pos_lt_skipWhile
  simp only [Cursor.sees, Option.any_eq_true] at h ⊢
  obtain ⟨a, ha, hdigit⟩ := h
  exact ⟨a, ha, by simp [hdigit]⟩

/-- Closing a number keeps its end, or takes one more character. -/
lemma avoids_closeNumber (start stop : Cursor) (integer : Bool) (fault : Option Diagnostic) :
    stop.Avoids isGap (closeNumber start stop integer fault).stop := by
  rw [closeNumber]
  split
  case isTrue h =>
    have hsees : stop.sees (· == 'n') = true := (Bool.and_eq_true _ _ ▸ h).2
    exact Cursor.avoids_advance_of_sees (isGap_of_test (by decide) (by decide) (by decide)) hsees
  case isFalse => exact .refl isGap stop

lemma kind_closeNumber (start stop : Cursor) (integer : Bool) (fault : Option Diagnostic) :
    (closeNumber start stop integer fault).kind ∈ [TokenKind.numericLiteral, .bigIntLiteral] := by
  rw [closeNumber]
  split <;> simp

lemma value_closeNumber (start stop : Cursor) (integer : Bool) (fault : Option Diagnostic) :
    (closeNumber start stop integer fault).value =
      start.textTo (closeNumber start stop integer fault).stop := by
  rw [closeNumber]
  split <;> rfl

/-- What follows the whole part and the fraction of a decimal number that starts at `start`. -/
def decimalRest (start fraction : Cursor) (integer : Bool) : Scanned :=
  if fraction.sees (fun a => a == 'e' || a == 'E') then
    let sign := fraction.advance.skipIf fun a => a == '+' || a == '-'
    let stop := digits isDecimalDigit sign
    closeNumber start stop false (missingDigits sign stop)
  else closeNumber start fraction integer none

lemma decimalNumber_eq (start : Cursor) :
    decimalNumber start =
      if (digits isDecimalDigit start).sees (· == '.') then
        decimalRest start (digits isDecimalDigit (digits isDecimalDigit start).advance) false
      else decimalRest start (digits isDecimalDigit start) true := by
  simp only [decimalNumber, decimalRest]
  cases (digits isDecimalDigit start).sees (· == '.') <;> rfl

/-- A scanned number: it is closed behind characters among which there is no gap, and it is not
empty where it starts with a digit or a point. -/
structure ClosesNumber (start : Cursor) (t : Scanned) : Prop where
  closed : ∃ stop integer fault, t = closeNumber start stop integer fault
  avoids : start.Avoids isGap t.stop
  moves : start.sees (fun a => isDecimalDigit a || a == '.') = true → start.pos < t.stop.pos

lemma ClosesNumber.kind {start : Cursor} {t : Scanned} (h : ClosesNumber start t) :
    t.kind ∈ [TokenKind.numericLiteral, .bigIntLiteral] := by
  obtain ⟨stop, integer, fault, rfl⟩ := h.closed
  exact kind_closeNumber start stop integer fault

lemma ClosesNumber.value {start : Cursor} {t : Scanned} (h : ClosesNumber start t) :
    t.value = start.textTo t.stop := by
  obtain ⟨stop, integer, fault, rfl⟩ := h.closed
  exact value_closeNumber start stop integer fault

lemma closesNumber_closeNumber {start stop : Cursor} (havoids : start.Avoids isGap stop)
    (hmoves : start.sees (fun a => isDecimalDigit a || a == '.') = true → start.pos < stop.pos)
    (integer : Bool) (fault : Option Diagnostic) :
    ClosesNumber start (closeNumber start stop integer fault) := by
  have hclose := avoids_closeNumber start stop integer fault
  exact ⟨⟨stop, integer, fault, rfl⟩, havoids.trans hclose,
    fun h => Nat.lt_of_lt_of_le (hmoves h) hclose.1.pos_le⟩

/-- The rest of a decimal number closes it behind its exponent, or at once. -/
lemma exists_decimalRest (start fraction : Cursor) (integer : Bool) :
    ∃ stop integer' fault, fraction.Avoids isGap stop ∧
      decimalRest start fraction integer = closeNumber start stop integer' fault := by
  unfold decimalRest
  extract_lets sign stop
  split
  case isTrue hexponent =>
    have hletter : fraction.Avoids isGap fraction.advance :=
      Cursor.avoids_advance_of_sees (isGap_of_test (by decide) (by decide) (by decide)) hexponent
    have hsign : fraction.advance.Avoids isGap sign :=
      Cursor.avoids_skipIf (isGap_of_test (by decide) (by decide) (by decide)) _
    exact ⟨stop, _, _, (hletter.trans hsign).trans (avoids_decimalDigits sign), rfl⟩
  case isFalse => exact ⟨fraction, _, _, .refl isGap fraction, rfl⟩

lemma pos_le_decimalRest (start fraction : Cursor) (integer : Bool) :
    fraction.pos ≤ (decimalRest start fraction integer).stop.pos := by
  obtain ⟨stop, integer', fault, hstop, hclose⟩ := exists_decimalRest start fraction integer
  rw [hclose]
  exact (hstop.trans (avoids_closeNumber start stop integer' fault)).1.pos_le

lemma closesNumber_decimalRest {start fraction : Cursor} (havoids : start.Avoids isGap fraction)
    (hmoves : start.sees (fun a => isDecimalDigit a || a == '.') = true →
      start.pos < fraction.pos) (integer : Bool) :
    ClosesNumber start (decimalRest start fraction integer) := by
  obtain ⟨stop, integer', fault, hstop, hclose⟩ := exists_decimalRest start fraction integer
  rw [hclose]
  exact closesNumber_closeNumber (havoids.trans hstop)
    (fun h => Nat.lt_of_lt_of_le (hmoves h) hstop.1.pos_le) _ _

/-- The first character of a decimal number is passed with the digits, or as the point behind none
of them. -/
lemma closesNumber_decimalNumber (start : Cursor) :
    ClosesNumber start (decimalNumber start) := by
  have hwhole := avoids_decimalDigits start
  rw [decimalNumber_eq]
  split
  case isTrue hpoint =>
    have hpass : (digits isDecimalDigit start).Avoids isGap (digits isDecimalDigit start).advance :=
      Cursor.avoids_advance_of_sees (isGap_of_test (by decide) (by decide) (by decide)) hpoint
    have hfraction := hpass.trans (avoids_decimalDigits _)
    refine closesNumber_decimalRest (hwhole.trans hfraction) (fun _ => ?_) _
    have hrest : (digits isDecimalDigit start).rest ≠ [] := by
      intro hnil
      simp [Cursor.sees, Cursor.peek?, hnil] at hpoint
    exact Nat.lt_of_le_of_lt hwhole.1.pos_le (Nat.lt_of_lt_of_le (Cursor.pos_lt_advance hrest)
      (avoids_decimalDigits _).1.pos_le)
  case isFalse hpoint =>
    refine closesNumber_decimalRest hwhole (fun h => pos_lt_digits ?_) _
    -- Without a digit in front the point itself would be seen.
    refine Decidable.byContradiction fun hdigit => hpoint ?_
    rw [digits, if_neg hdigit]
    simp only [Cursor.sees, Option.any_eq_true] at h hdigit ⊢
    obtain ⟨a, ha, htest⟩ := h
    refine ⟨a, ha, ?_⟩
    cases hd : isDecimalDigit a with
    | true => exact absurd ⟨a, ha, hd⟩ hdigit
    | false => simpa [hd] using htest

lemma closesNumber_number (start : Cursor) : ClosesNumber start (number start) := by
  rw [number]
  split
  case h_1 letter rest hrest =>
    split
    case h_1 isDigit hdigit =>
      obtain ⟨hletter, hdigits⟩ := isGap_of_radixDigit? hdigit
      have hskip : start.Avoids isGap (start.skip 2) := by
        obtain ⟨_, pos⟩ := start
        obtain rfl := hrest
        exact (Cursor.avoids_cons (by decide)).trans (Cursor.avoids_cons hletter)
      have hbody := avoids_digits hdigits (start.skip 2)
      have hmoves : start.pos < (start.skip 2).pos :=
        Nat.lt_of_lt_of_le (Cursor.pos_lt_advance (by simp [hrest]))
          (start.advance.before_skip 1).pos_le
      exact closesNumber_closeNumber (hskip.trans hbody)
        (fun _ => Nat.lt_of_lt_of_le hmoves hbody.1.pos_le) _ _
    case h_2 => exact closesNumber_decimalNumber start
  case h_2 => exact closesNumber_decimalNumber start

/-- A number starts with a digit or a point. -/
lemma not_shebang_of_number {start : Cursor}
    (h : start.sees (fun a => isDecimalDigit a || a == '.') = true) :
    ¬ ['#', '!'] <+: start.rest := by
  refine not_shebang_of_head fun a ha hsharp => ?_
  rw [Cursor.sees, Cursor.peek?, ha, hsharp] at h
  exact absurd h (by decide)

lemma readFrom_number {start : Cursor}
    (h : start.sees (fun a => isDecimalDigit a || a == '.') = true) :
    ReadFrom start (number start) := by
  have hnumber := closesNumber_number start
  have hkind := hnumber.kind
  constructor
  case before => exact hnumber.avoids.1
  case moves => exact hnumber.moves h
  case value => exact hnumber.value ▸ List.infix_refl _
  case spelled => exact fun _ => hnumber.value
  case line => exact fun _ => (hnumber.avoids.mono endsLine_of_isGap).2
  case plain => exact fun _ => not_shebang_of_number h
  all_goals
    intro heq
    rw [heq] at hkind
    exact absurd hkind (by decide)

/-! ## Strings, templates and regular expressions -/

lemma before_stringStop (quote : Char) (rest : List Char) (pos : Nat) :
    Cursor.Before ⟨rest, pos⟩ (stringStop quote rest pos) := by
  fun_induction stringStop quote rest pos with
  | case1 => exact .refl _
  | case2 pos rest ih => exact Cursor.Before.trans ⟨['\\', '\r', '\n'], rfl, rfl⟩ ih
  | case3 pos c rest _ ih => exact (Cursor.before_cons.trans Cursor.before_cons).trans ih
  | case4 => exact .refl _
  | case5 => exact Cursor.before_cons.trans (by assumption)

lemma before_templateStop (rest : List Char) (pos : Nat) :
    Cursor.Before ⟨rest, pos⟩ (templateStop rest pos) := by
  fun_induction templateStop rest pos with
  | case1 => exact .refl _
  | case2 => exact .refl _
  | case3 pos c rest ih => exact (Cursor.before_cons.trans Cursor.before_cons).trans ih
  | case4 => exact .refl _
  | case5 => exact Cursor.before_cons.trans (by assumption)

/-- The body of a regular expression ends with its line. -/
lemma onLineTo_regularExpressionStop (inClass : Bool) (rest : List Char) (pos : Nat) :
    Cursor.OnLineTo ⟨rest, pos⟩ (regularExpressionStop inClass rest pos) := by
  have hbackslash {rest : List Char} {pos : Nat} :
      Cursor.OnLineTo ⟨'\\' :: rest, pos⟩ ⟨rest, pos + 1⟩ := Cursor.avoids_cons (by decide)
  fun_induction regularExpressionStop inClass rest pos with
  | case1 => exact .refl _ _
  | case2 => exact hbackslash
  | case3 inClass pos c rest hc ih =>
    exact (hbackslash.trans (Cursor.avoids_cons (endsLine_of_isLineBreak hc))).trans ih
  | case4 => exact .refl _ _
  | case5 inClass c rest pos _ hc ih =>
    simp only [Bool.or_eq_true, not_or] at hc
    exact (Cursor.avoids_cons (endsLine_of_isLineBreak hc.1)).trans ih

lemma onLineTo_identifierParts (c : Cursor) : c.OnLineTo (c.skipWhile isIdentifierPart) :=
  Cursor.avoids_skipWhile (endsLine_of_test (by decide) (by decide)) c

section

variable {start : Cursor} (hrest : start.rest ≠ [])
include hrest

/-- A token that takes its first character and then reads on to `stop`. -/
lemma readFrom_advance {t : Scanned} (hstop : start.advance.Before t.stop)
    (hkind : t.kind ≠ .endOfFile) (hbrace : t.kind ≠ .closeBrace)
    (hvalue : t.value <:+: start.textTo t.stop)
    (hspelled : t.kind.isName = true → t.value = start.textTo t.stop)
    (hline : t.kind.staysOnLine = true → OneLine (start.textTo t.stop))
    (hplain : t.kind ≠ .unknown → ¬ ['#', '!'] <+: start.rest) : ReadFrom start t where
  before := start.before_advance.trans hstop
  moves := Nat.lt_of_lt_of_le (Cursor.pos_lt_advance hrest) hstop.pos_le
  kind_ne := hkind
  brace h := absurd h hbrace
  value := hvalue
  spelled := hspelled
  line := hline
  plain := hplain

/-- A token of one line, whose value is its text. -/
lemma readFrom_line {t : Scanned} (hfirst : start.OnLineTo start.advance)
    (hstop : start.advance.OnLineTo t.stop) (hkind : t.kind ≠ .endOfFile)
    (hbrace : t.kind ≠ .closeBrace) (hvalue : t.value = start.textTo t.stop)
    (hplain : ¬ ['#', '!'] <+: start.rest) : ReadFrom start t :=
  readFrom_advance hrest hstop.1 hkind hbrace (hvalue ▸ List.infix_refl _) (fun _ => hvalue)
    (fun _ => (hfirst.trans hstop).2) fun _ => hplain

lemma readFrom_string {quote : Char} (hplain : ¬ ['#', '!'] <+: start.rest) :
    ReadFrom start (string quote start) := by
  have hstop := before_stringStop quote start.advance.rest start.advance.pos
  simp only [string]
  split
  · refine readFrom_advance hrest (hstop.trans (Cursor.before_advance _)) (by simp) (by simp) ?_
      nofun nofun fun _ => hplain
    exact Cursor.textTo_infix start.before_advance hstop (Cursor.before_advance _)
  · refine readFrom_advance hrest hstop (by simp) (by simp) ?_ nofun nofun fun _ => hplain
    exact Cursor.textTo_infix start.before_advance hstop (.refl _)

lemma readFrom_regularExpression (hplain : ¬ ['#', '!'] <+: start.rest)
    (hfirst : start.OnLineTo start.advance) : ReadFrom start (regularExpression start) := by
  have hstop := onLineTo_regularExpressionStop false start.advance.rest start.advance.pos
  simp only [regularExpression]
  split
  case isTrue hslash =>
    have hclose := Cursor.avoids_advance_of_sees (endsLine_of_test (by decide) (by decide)) hslash
    have hbody := hstop.trans hclose
    have hflags := hbody.trans (onLineTo_identifierParts _)
    exact readFrom_line hrest hfirst hflags (by simp) (by simp) rfl hplain
  case isFalse => exact readFrom_line hrest hfirst hstop (by simp) (by simp) rfl hplain

end

lemma kind_regularExpression (start : Cursor) :
    (regularExpression start).kind = .regularExpressionLiteral := by
  simp only [regularExpression]
  split <;> rfl

lemma before_template (head : Bool) (body : Cursor) : body.Before (template head body).stop := by
  have hstop := before_templateStop body.rest body.pos
  simp only [template]
  split
  · exact hstop
  · exact hstop.trans (Cursor.before_skip _ 2)
  · exact hstop.trans (Cursor.before_advance _)

/-- The kinds of the pieces of a template. -/
lemma kind_template (head : Bool) (body : Cursor) :
    (template head body).kind.isTemplatePiece = true := by
  simp only [template]
  split <;> cases head <;> rfl

/-- The pieces of a template may go on over the end of a line. -/
lemma staysOnLine_template (head : Bool) (body : Cursor) :
    (template head body).kind.staysOnLine = false := by
  simp only [template]
  split <;> cases head <;> rfl

lemma value_template (head : Bool) (body : Cursor) :
    ∃ stop, body.Before stop ∧ stop.Before (template head body).stop ∧
      (template head body).value = body.textTo stop := by
  refine ⟨templateStop body.rest body.pos, before_templateStop body.rest body.pos, ?_⟩
  simp only [template]
  split
  · exact ⟨.refl _, rfl⟩
  · exact ⟨Cursor.before_skip _ 2, rfl⟩
  · exact ⟨Cursor.before_advance _, rfl⟩

/-- A piece of a template is read from behind its opening quote or brace. -/
lemma readFrom_template {start body : Cursor} (hfirst : start.Before body)
    (hmoves : start.pos < body.pos) (hplain : ¬ ['#', '!'] <+: start.rest) (head : Bool) :
    ReadFrom start (template head body) := by
  have hbody := before_template head body
  have hpiece := kind_template head body
  have hline := staysOnLine_template head body
  obtain ⟨stop, hfront, hback, hvalue⟩ := value_template head body
  constructor
  case before => exact hfirst.trans hbody
  case moves => exact Nat.lt_of_lt_of_le hmoves hbody.pos_le
  case value =>
    rw [hvalue]
    exact Cursor.textTo_infix hfirst hfront hback
  case spelled => exact fun hk => absurd (TokenKind.staysOnLine_of_isName hk) (by simp [hline])
  case line => exact fun hk => absurd hk (by simp [hline])
  case plain => exact fun _ => hplain
  all_goals
    intro heq
    rw [heq] at hpiece
    exact absurd hpiece (by decide)

/-! ## Words and punctuation -/

lemma keyword_ne_end : ∀ k ∈ TokenKind.keywords, k ≠ .endOfFile ∧ k ≠ .closeBrace := by
  decide

lemma operator_ne_end :
    ∀ k ∈ TokenKind.operators,
      k ≠ .endOfFile ∧ 0 < k.spelling.length ∧ k.isName = false ∧ k.staysOnLine = false := by
  decide

lemma head_operator : ∀ k ∈ TokenKind.operators, k.spelling.head? ≠ some '#' := by decide

lemma readFrom_word {start : Cursor} {c : Char} {rest : List Char}
    (hcons : start.rest = c :: rest)
    (hc : isIdentifierStart c = true) : ReadFrom start (word start) := by
  have hrest : start.rest ≠ [] := by simp [hcons]
  have hsees : start.sees isIdentifierStart = true := by simp [Cursor.sees, Cursor.peek?, hcons, hc]
  have hkind : (word start).kind ≠ .endOfFile ∧ (word start).kind ≠ .closeBrace := by
    simp only [word]
    cases hword : TokenKind.ofWord? _ with
    | none => exact ⟨by simp, by simp⟩
    | some k => exact keyword_ne_end k (TokenKind.mem_keywords_of_ofWord? hword)
  refine readFrom_line hrest ?_ (onLineTo_identifierParts _)
    hkind.1 hkind.2 rfl (not_shebang_of_head fun a ha hsharp => ?_)
  · exact Cursor.avoids_advance_of_sees (endsLine_of_test (by decide) (by decide)) hsees
  · obtain rfl : c = a := by simpa [hcons] using ha
    rw [hsharp] at hc
    exact absurd hc (by decide)

/-- Punctuation is passed character by character, at least one of them. -/
lemma readFrom_operator {start : Cursor} {k : TokenKind} {length : Nat} (hrest : start.rest ≠ [])
    (h : TokenKind.operator? start.rest = some (k, length)) :
    ReadFrom start { kind := k, value := [], stop := start.skip length } := by
  obtain ⟨hmem, ⟨rest, hsplit⟩, rfl⟩ := TokenKind.stands_of_operator? h
  obtain ⟨hne, hlength, hname, hline⟩ := operator_ne_end k hmem
  refine ⟨start.before_skip _, ?_, hne, ?_, List.nil_infix, by simp [hname], by simp [hline], ?_⟩
  · obtain ⟨n, hn⟩ : ∃ n, k.spelling.length = n + 1 := ⟨k.spelling.length - 1, by omega⟩
    simp only [hn, Cursor.skip]
    exact Nat.lt_of_lt_of_le (Cursor.pos_lt_advance hrest) (start.advance.before_skip n).pos_le
  · intro hbrace
    simp only at hbrace
    subst hbrace
    rw [← hsplit]
    rfl
  · refine fun _ => not_shebang_of_head fun a ha hsharp => head_operator k hmem ?_
    obtain ⟨c, cs, hspelling⟩ := List.exists_cons_of_length_pos hlength
    rw [← hsplit, hspelling] at ha
    rw [hspelling, ← hsharp]
    exact ha

/-! ## Any token -/

/-- At the end of the text stands the end of the file. -/
lemma token_of_nil {start : Cursor} (h : start.rest = []) :
    token start = { kind := .endOfFile, value := [], stop := start } := by
  rw [token, h]

/-- Before the end of the text stands a token that is not empty. -/
theorem token_readFrom {start : Cursor} (hrest : start.rest ≠ []) :
    ReadFrom start (token start) := by
  obtain ⟨c, rest, hcons⟩ := List.exists_cons_of_ne_nil hrest
  have hplain (hc : c ≠ '#') : ¬ ['#', '!'] <+: start.rest :=
    not_shebang_of_head fun a ha => by
      obtain rfl : c = a := by simpa [hcons] using ha
      exact hc
  simp only [token, hcons]
  split
  case isTrue hquote =>
    refine readFrom_string hrest (hplain ?_)
    rintro rfl
    exact absurd hquote (by decide)
  split
  case isTrue hquote =>
    refine readFrom_template start.before_advance (Cursor.pos_lt_advance hrest) (hplain ?_) true
    rintro rfl
    exact absurd hquote (by decide)
  split
  case isTrue hnumber =>
    apply readFrom_number
    simp only [Cursor.sees, Cursor.peek?, hcons, List.head?_cons, Option.any_some]
    simp only [Bool.or_eq_true, Bool.and_eq_true] at hnumber ⊢
    exact hnumber.imp_right And.left
  split
  case isTrue hprivate =>
    simp only [Bool.and_eq_true, beq_iff_eq] at hprivate
    obtain ⟨rfl, hname⟩ := hprivate
    have hsees : start.sees (· == '#') = true := by simp [Cursor.sees, Cursor.peek?, hcons]
    refine readFrom_line hrest ?_ (onLineTo_identifierParts _)
      (by simp [privateName]) (by simp [privateName]) rfl ?_
    · exact Cursor.avoids_advance_of_sees (endsLine_of_test (by decide) (by decide)) hsees
    · rintro ⟨tail, htail⟩
      rw [hcons] at htail
      cases htail
      simp [isIdentifierStart, isAscii, isAsciiLetter] at hname
  split
  case isTrue hword => exact readFrom_word hcons hword
  split
  case h_1 k length hoperator => exact readFrom_operator hrest (hcons ▸ hoperator)
  case h_2 =>
    exact readFrom_advance hrest (.refl _) (by simp [invalid]) (by simp [invalid]) List.nil_infix
      (absurd · Bool.false_ne_true) (absurd · Bool.false_ne_true) fun hknown => absurd rfl hknown

end Scanned

end InlineValues
