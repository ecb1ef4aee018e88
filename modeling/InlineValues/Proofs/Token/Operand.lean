import InlineValues.Proofs.Token.Scan

/-!
# Names and literals are read from their own characters

A name, a number or a string ends where its characters end: in front of any text that starts with a
blank, a sign or a bracket (`EndsOperand`), its characters are read as the same token again
(`Scanned.detaches_token`).  What stood behind them in the text that they were taken from does not
matter.  In front of a point only a name or a string ends (`EndsName`): the point would be a part of
the number.

For a run of characters this is `Cursor.runFrom_append`.  A number is a row of such runs with single
characters between them, so that its lemma follows the cases of `Scanned.decimalNumber`.
-/

namespace InlineValues

/-! ## What may follow an operand -/

/-- Characters that belong to no name and no number. -/
def operandEnds : List Char := [' ', '(', ')', '[', ']', '?', '+', '-', ',', ';']

/-- A text in front of which a name or a literal ends. -/
def EndsOperand (cs : List Char) : Prop := ∀ c ∈ cs.head?, c ∈ operandEnds

lemma endsOperand_nil : EndsOperand [] := nofun

lemma endsOperand_cons {c : Char} {cs : List Char} (h : c ∈ operandEnds) :
    EndsOperand (c :: cs) := by
  intro a ha
  cases ha
  exact h

lemma EndsOperand.any_eq_false {cs : List Char} {test : Char → Bool} (h : EndsOperand cs)
    (htest : operandEnds.all (fun c => !test c) = true) : cs.head?.any test = false := by
  cases hc : cs.head? with
  | none => rfl
  | some c =>
    have := List.all_eq_true.mp htest c (h c hc)
    simpa using this

/-- A text in front of which a name or a string ends. -/
def EndsName (cs : List Char) : Prop := ∀ c ∈ cs.head?, c ∈ '.' :: operandEnds

lemma EndsOperand.endsName {cs : List Char} (h : EndsOperand cs) : EndsName cs :=
  fun c hc => List.mem_cons_of_mem _ (h c hc)

lemma EndsName.any_eq_false {cs : List Char} {test : Char → Bool} (h : EndsName cs)
    (htest : ('.' :: operandEnds).all (fun c => !test c) = true) : cs.head?.any test = false := by
  cases hc : cs.head? with
  | none => rfl
  | some c =>
    have := List.all_eq_true.mp htest c (h c hc)
    simpa using this

/-- Numbers, which a point may belong to. -/
def TokenKind.isNumber (k : TokenKind) : Bool := k == .numericLiteral || k == .bigIntLiteral

/-- In front of what a name or a literal of a kind ends. -/
def TokenKind.EndsAt (k : TokenKind) (cs : List Char) : Prop :=
  if k.isNumber then EndsOperand cs else EndsName cs

lemma TokenKind.endsAt_eq_endsOperand {k : TokenKind} (h : k.isNumber = true) :
    k.EndsAt = EndsOperand := by
  funext cs
  rw [EndsAt, if_pos h]

lemma TokenKind.endsAt_eq_endsName {k : TokenKind} (h : k.isNumber = false) :
    k.EndsAt = EndsName := by
  funext cs
  rw [EndsAt, if_neg (by simp [h])]

lemma EndsOperand.endsAt {cs : List Char} (h : EndsOperand cs) (k : TokenKind) : k.EndsAt cs := by
  unfold TokenKind.EndsAt
  split
  · exact h
  · exact h.endsName

namespace Scanned

/-! ## Tokens in front of any end -/

/-- The function `f` reads the characters `as` as a token of a kind with a value, whatever ends
them. -/
structure Detached (ends : List Char → Prop) (f : Cursor → Scanned) (as : List Char)
    (kind : TokenKind) (value : List Char) : Prop where
  read : ∀ cs pos, ends cs →
    f ⟨as ++ cs, pos⟩ = { kind, value, stop := ⟨cs, pos + byteLength as⟩ }
  last : as.getLast? ≠ some ' '

/-- What `f` takes of a text it reads in the same way in front of any end. -/
def Detaches (ends : List Char → Prop) (f : Cursor → Scanned) (cs : List Char) (pos : Nat) : Prop :=
  ∃ as rest kind value, cs = as ++ rest ∧
    f ⟨cs, pos⟩ = { kind, value, stop := ⟨rest, pos + byteLength as⟩ } ∧
    Detached ends f as kind value

lemma getLast?_ne_blank {as : List Char} (h : ' ' ∉ as) : as.getLast? ≠ some ' ' :=
  fun hlast => h (List.mem_of_getLast? hlast)

/-! ## Words -/

lemma isDecimalDigit_of_isIdentifierStart {c : Char} (hc : isIdentifierStart c = true) :
    isDecimalDigit c = false := by
  rw [Bool.eq_false_iff]
  intro hdigit
  simp only [isDecimalDigit, Bool.and_eq_true, decide_eq_true_eq, Char.le_def] at hdigit
  have hascii : isAscii c = true := by
    simp only [isAscii, decide_eq_true_eq]
    exact Nat.lt_of_le_of_lt hdigit.2 (by decide)
  have hlow : ¬ ('a' ≤ c) ∧ ¬ ('A' ≤ c) := by
    simp only [Char.le_def]
    constructor <;> exact fun h => absurd (Nat.le_trans h hdigit.2) (by decide)
  simp [isIdentifierStart, hascii, isAsciiLetter, hlow] at hc
  rcases hc with rfl | rfl
  all_goals exact absurd hdigit (by decide)

lemma token_eq_word {c : Char} (hc : isIdentifierStart c = true) (cs : List Char) (pos : Nat) :
    token ⟨c :: cs, pos⟩ = word ⟨c :: cs, pos⟩ := by
  have hne (d : Char) (hd : isIdentifierStart d = false) : (c == d) = false := by
    rw [beq_eq_false_iff_ne]
    rintro rfl
    simp [hc] at hd
  have hdigit := isDecimalDigit_of_isIdentifierStart hc
  simp only [token, hne '\x22' (by decide), hne '\x27' (by decide), hne '\x60' (by decide),
    hne '.' (by decide), hne '#' (by decide), hdigit, hc, Bool.or_self, Bool.false_and,
    if_true, Bool.false_eq_true, if_false]

lemma word_append {c : Char} {as cs : List Char} (has : as.all isIdentifierPart = true)
    (hcs : cs.head?.any isIdentifierPart = false) (pos : Nat) :
    word ⟨c :: as ++ cs, pos⟩ =
      { kind := (TokenKind.ofWord? (c :: as)).getD .identifier, value := c :: as
        stop := ⟨cs, pos + byteLength (c :: as)⟩ } := by
  have hstop : (Cursor.advance ⟨c :: as ++ cs, pos⟩).skipWhile isIdentifierPart =
      ⟨cs, pos + byteLength (c :: as)⟩ := by
    rw [byteLength_cons, ← Nat.add_assoc]
    exact Cursor.runFrom_append has hcs _
  simp only [word, hstop, Cursor.textTo_append]

lemma isIdentifierPart_of_isIdentifierStart {c : Char} (h : isIdentifierStart c = true) :
    isIdentifierPart c = true := by
  simp only [isIdentifierStart, isIdentifierPart] at h ⊢
  split at h
  · rename_i hascii
    rw [if_pos hascii]
    grind
  · rename_i hascii
    rw [if_neg hascii]
    simp [h]

lemma detaches_word {c : Char} (hc : isIdentifierStart c = true) (cs : List Char) (pos : Nat) :
    Detaches EndsName word (c :: cs) pos := by
  obtain ⟨as, rest, rfl, has, hrest, -⟩ := Cursor.exists_runFrom isIdentifierPart cs pos
  refine ⟨c :: as, rest, _, _, rfl, word_append has hrest pos, ⟨fun ds p hds => ?_, ?_⟩⟩
  · exact word_append has (hds.any_eq_false (by decide)) p
  · refine getLast?_ne_blank fun hmem => ?_
    have hpart : ∀ a ∈ c :: as, isIdentifierPart a = true :=
      List.forall_mem_cons.mpr ⟨isIdentifierPart_of_isIdentifierStart hc, List.all_eq_true.mp has⟩
    exact absurd (hpart _ hmem) (by decide)

/-! ## Numbers -/

/-- A run of digits as `digits` reads it. -/
def IsDigitRun (isDigit : Char → Bool) (ds : List Char) : Prop :=
  (∀ d ∈ ds.head?, isDigit d = true) ∧ ds.all (fun a => isDigit a || a == '_') = true

lemma digits_append {isDigit : Char → Bool} {ds cs : List Char} (hds : IsDigitRun isDigit ds)
    (hcs : cs.head?.any (fun a => isDigit a || a == '_') = false) (pos : Nat) :
    digits isDigit ⟨ds ++ cs, pos⟩ = ⟨cs, pos + byteLength ds⟩ := by
  obtain ⟨hfirst, hall⟩ := hds
  have hsees : Cursor.sees ⟨ds ++ cs, pos⟩ isDigit = !ds.isEmpty := by
    cases ds with
    | nil =>
      cases cs with
      | nil => rfl
      | cons c cs =>
        have hc : isDigit c = false ∧ (c == '_') = false := by simpa using hcs
        simp [Cursor.sees, Cursor.peek?, hc.1]
    | cons d ds => simpa [Cursor.sees, Cursor.peek?] using hfirst d rfl
  rw [digits, hsees]
  cases ds with
  | nil => simp
  | cons d ds => exact Cursor.runFrom_append hall hcs pos

lemma exists_digits (isDigit : Char → Bool) (cs : List Char) (pos : Nat) :
    ∃ ds rest, cs = ds ++ rest ∧ IsDigitRun isDigit ds ∧
      digits isDigit ⟨cs, pos⟩ = ⟨rest, pos + byteLength ds⟩ ∧
      (ds ≠ [] → rest.head?.any (fun a => isDigit a || a == '_') = false) := by
  rw [digits]
  split
  case isTrue hsees =>
    obtain ⟨ds, rest, rfl, hds, hrest, hrun⟩ :=
      Cursor.exists_runFrom (fun a => isDigit a || a == '_') cs pos
    refine ⟨ds, rest, rfl, ⟨?_, hds⟩, hrun, fun _ => hrest⟩
    cases ds with
    | nil => simp
    | cons d ds => simpa [Cursor.sees, Cursor.peek?] using hsees
  case isFalse => exact ⟨[], cs, rfl, ⟨by simp, rfl⟩, rfl, fun h => absurd rfl h⟩

lemma IsDigitRun.blank_notMem {isDigit : Char → Bool} {ds : List Char}
    (h : IsDigitRun isDigit ds) (hblank : isDigit ' ' = false) : ' ' ∉ ds := by
  intro hmem
  have := List.all_eq_true.mp h.2 ' ' hmem
  simp [hblank] at this

/-- The characters `as` end a number of a kind, whatever ends them. -/
structure NumberEnd (as : List Char) (integer : Bool) (kind : TokenKind) : Prop where
  rest : ∀ start cs pos, EndsOperand cs →
    decimalRest start ⟨as ++ cs, pos⟩ integer =
      { kind, value := start.textTo ⟨cs, pos + byteLength as⟩, stop := ⟨cs, pos + byteLength as⟩ }
  head : ∀ a ∈ as.head?, a ∈ ['e', 'E', 'n']
  blank : ' ' ∉ as

lemma closeNumber_of_not_sees {start stop : Cursor} {integer : Bool}
    (h : integer = true → stop.sees (· == 'n') = false) (fault : Option Diagnostic) :
    closeNumber start stop integer fault =
      { kind := .numericLiteral, value := start.textTo stop, stop, fault } := by
  rw [closeNumber, if_neg]
  intro hn
  rw [Bool.and_eq_true] at hn
  simp [h hn.1] at hn

lemma missingDigits_append {ds cs : List Char} {pos : Nat} (hds : ds ≠ []) :
    missingDigits ⟨ds ++ cs, pos⟩ ⟨cs, pos + byteLength ds⟩ = none := by
  have hlen : byteLength ds ≠ 0 := by rwa [Ne, byteLength_eq_zero]
  simp [missingDigits, hlen]

/-- A sign in front of digits is passed. -/
lemma skipIf_sign {sign ds cs : List Char} (hsign : sign ∈ [[], ['+'], ['-']])
    (hds : IsDigitRun isDecimalDigit ds) (hne : ds ≠ []) (pos : Nat) :
    Cursor.skipIf ⟨sign ++ (ds ++ cs), pos⟩ (fun a => a == '+' || a == '-') =
      ⟨ds ++ cs, pos + byteLength sign⟩ := by
  obtain ⟨d, ds, rfl⟩ := List.exists_cons_of_ne_nil hne
  have hd : isDecimalDigit d = true := hds.1 d rfl
  simp only [List.mem_cons, List.not_mem_nil, or_false] at hsign
  rcases hsign with rfl | rfl | rfl
  · have hplus : d ≠ '+' := by rintro rfl; exact absurd hd (by decide)
    have hminus : d ≠ '-' := by rintro rfl; exact absurd hd (by decide)
    simp [Cursor.skipIf, Cursor.sees, Cursor.peek?, hplus, hminus]
  all_goals rfl

/-- An exponent: its letter, perhaps a sign, and digits. -/
lemma numberEnd_exponent {e : Char} {sign ds : List Char} (he : e ∈ ['e', 'E'])
    (hsign : sign ∈ [[], ['+'], ['-']]) (hds : IsDigitRun isDecimalDigit ds) (hne : ds ≠ [])
    (integer : Bool) : NumberEnd (e :: (sign ++ ds)) integer .numericLiteral where
  rest start cs pos hcs := by
    have hsees : Cursor.sees ⟨e :: (sign ++ ds) ++ cs, pos⟩ (fun a => a == 'e' || a == 'E') =
        true := by
      simpa [Cursor.sees, Cursor.peek?] using he
    have hsplit : Cursor.advance ⟨e :: (sign ++ ds) ++ cs, pos⟩ =
        ⟨sign ++ (ds ++ cs), pos + e.utf8Size⟩ := by
      simp [Cursor.advance]
    have hlen : byteLength (e :: (sign ++ ds)) = e.utf8Size + byteLength sign + byteLength ds := by
      rw [byteLength_cons, byteLength_append, Nat.add_assoc]
    rw [decimalRest, if_pos hsees, hsplit, skipIf_sign hsign hds hne]
    dsimp only
    rw [digits_append hds (hcs.any_eq_false (by decide)), missingDigits_append hne,
      closeNumber_of_not_sees fun h => absurd h Bool.false_ne_true]
    simp only [hlen, Nat.add_assoc]
  head a ha := by
    cases ha
    simp only [List.mem_cons, List.not_mem_nil, or_false] at he ⊢
    exact he.imp_right .inl
  blank := by
    have := hds.blank_notMem (by decide)
    simp only [List.mem_cons, List.not_mem_nil, or_false] at he hsign
    rcases he with rfl | rfl <;> rcases hsign with rfl | rfl | rfl <;> simpa using this

/-- A number may end behind its digits. -/
lemma numberEnd_nil (integer : Bool) : NumberEnd [] integer .numericLiteral where
  rest start cs pos hcs := by
    have hexponent : Cursor.sees ⟨cs, pos⟩ (fun a => a == 'e' || a == 'E') = false :=
      hcs.any_eq_false (by decide)
    have hbig : Cursor.sees ⟨cs, pos⟩ (· == 'n') = false := hcs.any_eq_false (by decide)
    rw [List.nil_append, byteLength_nil, Nat.add_zero, decimalRest, hexponent, if_neg (by simp),
      closeNumber_of_not_sees fun _ => hbig]
  head := nofun
  blank := nofun

/-- A big integer ends with its letter. -/
lemma numberEnd_big : NumberEnd ['n'] true .bigIntLiteral where
  rest start cs pos hcs := rfl
  head a ha := by
    cases ha
    decide
  blank := by decide

lemma exists_skipIf_sign (cs : List Char) (pos : Nat) :
    ∃ sign rest, cs = sign ++ rest ∧ sign ∈ [[], ['+'], ['-']] ∧
      Cursor.skipIf ⟨cs, pos⟩ (fun a => a == '+' || a == '-') =
        ⟨rest, pos + byteLength sign⟩ := by
  rw [Cursor.skipIf]
  split
  case isTrue hsees =>
    obtain ⟨c, rest, rfl⟩ : ∃ c rest, cs = c :: rest := by
      cases cs with
      | nil => cases hsees
      | cons c rest => exact ⟨c, rest, rfl⟩
    have hc : c = '+' ∨ c = '-' := by simpa [Cursor.sees, Cursor.peek?] using hsees
    rcases hc with rfl | rfl
    · exact ⟨['+'], rest, rfl, by simp, rfl⟩
    · exact ⟨['-'], rest, rfl, by simp, rfl⟩
  case isFalse => exact ⟨[], cs, rfl, by simp, rfl⟩

/-- What is read behind the fraction of a number without a fault. -/
lemma exists_numberEnd {start : Cursor} {cs : List Char} {pos : Nat} {integer : Bool}
    (hfault : (decimalRest start ⟨cs, pos⟩ integer).fault = none) :
    ∃ as rest kind, cs = as ++ rest ∧ NumberEnd as integer kind ∧
      decimalRest start ⟨cs, pos⟩ integer =
        { kind, value := start.textTo ⟨rest, pos + byteLength as⟩
          stop := ⟨rest, pos + byteLength as⟩ } := by
  by_cases hexponent : Cursor.sees ⟨cs, pos⟩ (fun a => a == 'e' || a == 'E') = true
  · obtain ⟨e, cs, rfl⟩ : ∃ e cs', cs = e :: cs' := by
      cases cs with
      | nil => cases hexponent
      | cons e cs => exact ⟨e, cs, rfl⟩
    have he : e ∈ ['e', 'E'] := by simpa [Cursor.sees, Cursor.peek?] using hexponent
    rw [decimalRest, if_pos hexponent] at hfault ⊢
    have hadvance : Cursor.advance ⟨e :: cs, pos⟩ = ⟨cs, pos + e.utf8Size⟩ := rfl
    rw [hadvance] at hfault ⊢
    obtain ⟨sign, rest, rfl, hsign, hskip⟩ := exists_skipIf_sign cs (pos + e.utf8Size)
    rw [hskip] at hfault ⊢
    dsimp only at hfault ⊢
    obtain ⟨ds, rest, rfl, hds, hdigits, -⟩ :=
      exists_digits isDecimalDigit rest (pos + e.utf8Size + byteLength sign)
    rw [hdigits, closeNumber_of_not_sees fun h => absurd h Bool.false_ne_true] at hfault ⊢
    have hne : ds ≠ [] := by
      rintro rfl
      simp [missingDigits] at hfault
    refine ⟨e :: (sign ++ ds), rest, _, by simp, numberEnd_exponent he hsign hds hne integer, ?_⟩
    rw [missingDigits_append hne, byteLength_cons, byteLength_append]
    simp only [Nat.add_assoc]
  · rw [decimalRest, if_neg hexponent]
    by_cases hbig : integer = true ∧ Cursor.sees ⟨cs, pos⟩ (· == 'n') = true
    · obtain ⟨rfl, hbig⟩ := hbig
      obtain ⟨cs, rfl⟩ : ∃ cs', cs = 'n' :: cs' := by
        cases cs with
        | nil => cases hbig
        | cons c cs =>
          have hc : c = 'n' := by simpa [Cursor.sees, Cursor.peek?] using hbig
          exact ⟨cs, by rw [hc]⟩
      exact ⟨['n'], cs, _, rfl, numberEnd_big, rfl⟩
    · rw [closeNumber_of_not_sees fun h => Bool.eq_false_iff.mpr fun hn => hbig ⟨h, hn⟩]
      exact ⟨[], cs, _, rfl, numberEnd_nil integer, rfl⟩

/-- No end of a number can be taken for more digits or a fraction. -/
lemma NumberEnd.any_eq_false {as cs : List Char} {integer : Bool} {kind : TokenKind}
    {test : Char → Bool} (h : NumberEnd as integer kind) (hcs : EndsOperand cs)
    (htest : (operandEnds ++ ['e', 'E', 'n']).all (fun c => !test c) = true) :
    (as ++ cs).head?.any test = false := by
  rw [List.all_append, Bool.and_eq_true] at htest
  cases as with
  | nil => exact hcs.any_eq_false htest.1
  | cons a as =>
    have := List.all_eq_true.mp htest.2 a (h.head a rfl)
    simpa using this

/-- A decimal number without a fault can be taken out of its text. -/
lemma detaches_decimalNumber {cs : List Char} {pos : Nat}
    (hfault : (decimalNumber ⟨cs, pos⟩).fault = none) :
    Detaches EndsOperand decimalNumber cs pos := by
  obtain ⟨ds, rest, rfl, hds, hdigits, -⟩ := exists_digits isDecimalDigit cs pos
  unfold Detaches
  rw [decimalNumber_eq, hdigits] at hfault ⊢
  by_cases hpoint : Cursor.sees ⟨rest, pos + byteLength ds⟩ (· == '.') = true
  · obtain ⟨rest, rfl⟩ : ∃ rest', rest = '.' :: rest' := by
      cases rest with
      | nil => cases hpoint
      | cons c rest =>
        have hc : c = '.' := by simpa [Cursor.sees, Cursor.peek?] using hpoint
        exact ⟨rest, by rw [hc]⟩
    rw [if_pos hpoint] at hfault ⊢
    have hadvance (p : Nat) (r : List Char) :
        Cursor.advance ⟨'.' :: r, p⟩ = ⟨r, p + 1⟩ := rfl
    rw [hadvance] at hfault ⊢
    obtain ⟨fs, rest, rfl, hfs, hfraction, -⟩ :=
      exists_digits isDecimalDigit rest (pos + byteLength ds + 1)
    rw [hfraction] at hfault ⊢
    obtain ⟨as, rest, kind, rfl, has, hread⟩ := exists_numberEnd hfault
    have hlen : byteLength (ds ++ '.' :: (fs ++ as)) =
        byteLength ds + 1 + byteLength fs + byteLength as := by
      simp only [byteLength_append, byteLength_cons]
      have : '.'.utf8Size = 1 := rfl
      omega
    have htext (cs : List Char) (p : Nat) :
        Cursor.textTo ⟨ds ++ '.' :: (fs ++ (as ++ cs)), p⟩
          ⟨cs, p + byteLength ds + 1 + byteLength fs + byteLength as⟩ =
          ds ++ '.' :: (fs ++ as) := by
      have := Cursor.textTo_append (ds ++ '.' :: (fs ++ as)) cs p
      rw [hlen] at this
      simpa [Nat.add_assoc] using this
    refine ⟨ds ++ '.' :: (fs ++ as), rest, kind, ds ++ '.' :: (fs ++ as), by simp, ?_,
      fun cs p hcs => ?_, ?_⟩
    · rw [hread, hlen, htext]
      simp only [Nat.add_assoc]
    · have hsplit : ds ++ '.' :: (fs ++ as) ++ cs = ds ++ '.' :: (fs ++ (as ++ cs)) := by simp
      have hsees : Cursor.sees ⟨'.' :: (fs ++ (as ++ cs)), p + byteLength ds⟩ (· == '.') = true :=
        rfl
      rw [hsplit, decimalNumber_eq, digits_append hds rfl, if_pos hsees, hadvance,
        digits_append hfs (has.any_eq_false hcs (by decide)), has.rest _ _ _ hcs, htext, hlen]
      simp only [Nat.add_assoc]
    · refine getLast?_ne_blank ?_
      simp [hds.blank_notMem (by decide), hfs.blank_notMem (by decide), has.blank]
  · rw [if_neg hpoint] at hfault ⊢
    obtain ⟨as, rest, kind, rfl, has, hread⟩ := exists_numberEnd hfault
    have htext (cs : List Char) (p : Nat) :
        Cursor.textTo ⟨ds ++ (as ++ cs), p⟩ ⟨cs, p + byteLength ds + byteLength as⟩ = ds ++ as := by
      have := Cursor.textTo_append (ds ++ as) cs p
      rw [byteLength_append] at this
      simpa [Nat.add_assoc] using this
    refine ⟨ds ++ as, rest, kind, ds ++ as, by simp, ?_, fun cs p hcs => ?_, ?_⟩
    · rw [hread, htext, byteLength_append]
      simp only [Nat.add_assoc]
    · have hsees : Cursor.sees ⟨as ++ cs, p + byteLength ds⟩ (· == '.') = false :=
        has.any_eq_false hcs (by decide)
      rw [List.append_assoc, decimalNumber_eq,
        digits_append hds (has.any_eq_false hcs (by decide)), hsees, if_neg (by simp),
        has.rest _ _ _ hcs, htext, byteLength_append]
      simp only [Nat.add_assoc]
    · refine getLast?_ne_blank ?_
      simp [hds.blank_notMem (by decide), has.blank]

/-- The digits behind a radix end in front of the end of an operand, and of the letter of a big
integer. -/
lemma radixDigit?_spec {letter : Char} {isDigit : Char → Bool}
    (h : radixDigit? letter = some isDigit) :
    letter ≠ ' ' ∧
      (operandEnds ++ ['n']).all (fun c => !(isDigit c || c == '_')) = true := by
  unfold radixDigit? at h
  split at h
  all_goals first | (cases h; exact ⟨by decide, by decide⟩) | cases h

/-- A number with a radix: its prefix, digits, and perhaps the letter of a big integer. -/
lemma radixNumber_append {letter : Char} {isDigit : Char → Bool}
    (h : radixDigit? letter = some isDigit) {ds big cs : List Char} (hds : IsDigitRun isDigit ds)
    (hne : ds ≠ []) (hbig : big ∈ [[], ['n']])
    (hcs : (big ++ cs).head?.any (fun c => isDigit c || c == '_') = false)
    (hend : big = [] → cs.head?.any (· == 'n') = false) (pos : Nat) :
    number ⟨'0' :: letter :: (ds ++ (big ++ cs)), pos⟩ =
      { kind := if big.isEmpty then .numericLiteral else .bigIntLiteral
        value := '0' :: letter :: (ds ++ big)
        stop := ⟨cs, pos + byteLength ('0' :: letter :: (ds ++ big))⟩ } := by
  have hskip : Cursor.skip ⟨'0' :: letter :: (ds ++ (big ++ cs)), pos⟩ 2 =
      ⟨ds ++ (big ++ cs), pos + 1 + letter.utf8Size⟩ := rfl
  have htext := Cursor.textTo_append ('0' :: letter :: (ds ++ big)) cs pos
  have hlen : byteLength ('0' :: letter :: (ds ++ big)) =
      1 + letter.utf8Size + byteLength ds + byteLength big := by
    simp only [byteLength_append, byteLength_cons]
    have : '0'.utf8Size = 1 := rfl
    omega
  rw [hlen] at htext ⊢
  simp only [number, h, radixNumber, hskip]
  rw [digits_append hds hcs, missingDigits_append hne]
  simp only [List.mem_cons, List.not_mem_nil, or_false] at hbig
  rcases hbig with rfl | rfl
  · have hsees : Cursor.sees ⟨cs, pos + 1 + letter.utf8Size + byteLength ds⟩ (· == 'n') = false :=
      hend rfl
    rw [List.nil_append, closeNumber_of_not_sees fun _ => hsees]
    simp only [List.append_nil, List.cons_append, byteLength_nil, Nat.add_zero] at htext ⊢
    simp only [← Nat.add_assoc] at htext ⊢
    simp [htext]
  · have hsees : Cursor.sees ⟨['n'] ++ cs, pos + 1 + letter.utf8Size + byteLength ds⟩ (· == 'n') =
        true := rfl
    have hadvance : Cursor.advance ⟨['n'] ++ cs, pos + 1 + letter.utf8Size + byteLength ds⟩ =
      ⟨cs, pos + 1 + letter.utf8Size + byteLength ds + 1⟩ := rfl
    have hone : byteLength ['n'] = 1 := rfl
    rw [closeNumber, hsees, Bool.and_self, if_pos rfl, hadvance]
    simp only [List.append_assoc, List.cons_append, List.nil_append, hone] at htext ⊢
    simp only [← Nat.add_assoc] at htext ⊢
    simp [htext]

lemma number_eq_decimalNumber {cs : List Char} {pos : Nat}
    (h : ∀ letter rest, cs = '0' :: letter :: rest → radixDigit? letter = none) :
    number ⟨cs, pos⟩ = decimalNumber ⟨cs, pos⟩ := by
  unfold number
  split
  case h_1 letter rest hcs => rw [h letter rest hcs]
  case h_2 => rfl

/-- A number with a radix and without a fault can be taken out of its text. -/
lemma detaches_radixNumber {letter : Char} {isDigit : Char → Bool}
    (h : radixDigit? letter = some isDigit) {cs : List Char} {pos : Nat}
    (hfault : (number ⟨'0' :: letter :: cs, pos⟩).fault = none) :
    Detaches EndsOperand number ('0' :: letter :: cs) pos := by
  obtain ⟨hletter, hspec⟩ := radixDigit?_spec h
  rw [List.all_append, Bool.and_eq_true] at hspec
  obtain ⟨ds, rest, rfl, hds, hdigits, hrest⟩ :=
    exists_digits isDigit cs (pos + 1 + letter.utf8Size)
  have hne : ds ≠ [] := by
    rintro rfl
    have hskip : Cursor.skip ⟨'0' :: letter :: ([] ++ rest), pos⟩ 2 =
      ⟨[] ++ rest, pos + 1 + letter.utf8Size⟩ := rfl
    simp only [number, h, radixNumber, hskip, hdigits, closeNumber] at hfault
    split at hfault <;> simp [missingDigits] at hfault
  -- Behind its digits the number may end with the letter of a big integer.
  obtain ⟨big, rest, rfl, hbig, hfollows, hend⟩ : ∃ big rest', rest = big ++ rest' ∧
      big ∈ [[], ['n']] ∧
      ((big ++ rest').head?.any (fun a => isDigit a || a == '_') = false) ∧
      (big = [] → rest'.head?.any (· == 'n') = false) := by
    by_cases hn : rest.head?.any (· == 'n') = true
    · obtain ⟨rest, rfl⟩ : ∃ rest', rest = 'n' :: rest' := by
        cases rest with
        | nil => cases hn
        | cons c rest =>
          have hc : c = 'n' := by simpa using hn
          exact ⟨rest, by rw [hc]⟩
      exact ⟨['n'], rest, rfl, by simp, hrest hne, fun h => absurd h (List.cons_ne_nil _ _)⟩
    · exact ⟨[], rest, rfl, by simp, hrest hne, fun _ => Bool.eq_false_iff.mpr hn⟩
  refine ⟨'0' :: letter :: (ds ++ big), rest, _, _, by simp,
    radixNumber_append h hds hne hbig hfollows hend pos,
    fun r p hr => ?_, ?_⟩
  · rw [List.cons_append, List.cons_append, List.append_assoc]
    refine radixNumber_append h hds hne hbig ?_ (fun _ => hr.any_eq_false (by decide)) p
    simp only [List.mem_cons, List.not_mem_nil, or_false] at hbig
    rcases hbig with rfl | rfl
    · exact hr.any_eq_false hspec.1
    · exact hfollows
  · refine getLast?_ne_blank ?_
    have hdigit : isDigit ' ' = false := by
      have := List.all_eq_true.mp hspec.1 ' ' (by decide)
      simpa using this
    simp only [List.mem_cons, List.not_mem_nil, or_false] at hbig
    rcases hbig with rfl | rfl <;> simp [hletter.symm, hds.blank_notMem hdigit]

/-- A number without a fault can be taken out of its text. -/
lemma detaches_number {cs : List Char} {pos : Nat} (hfault : (number ⟨cs, pos⟩).fault = none) :
    Detaches EndsOperand number cs pos := by
  by_cases hradix : ∃ letter rest isDigit, cs = '0' :: letter :: rest ∧
      radixDigit? letter = some isDigit
  · obtain ⟨letter, rest, isDigit, rfl, hdigit⟩ := hradix
    exact detaches_radixNumber hdigit hfault
  · have hplain (letter : Char) (rest : List Char) (hcs : cs = '0' :: letter :: rest) :
        radixDigit? letter = none := by
      cases hdigit : radixDigit? letter with
      | none => rfl
      | some isDigit => exact absurd ⟨letter, rest, isDigit, hcs, hdigit⟩ hradix
    rw [number_eq_decimalNumber hplain] at hfault
    obtain ⟨as, rest, kind, value, rfl, hread, hdetached⟩ := detaches_decimalNumber hfault
    refine ⟨as, rest, kind, value, rfl, by rw [number_eq_decimalNumber hplain, hread],
      fun r p hr => ?_, hdetached.last⟩
    rw [number_eq_decimalNumber, hdetached.read r p hr]
    -- A letter behind the zero is the number's own, or ends an operand.
    intro letter more hsplit
    match as, hsplit, hplain with
    | [], hsplit, _ =>
      rw [List.nil_append] at hsplit
      exact absurd (hr '0' (by rw [hsplit]; rfl)) (by decide)
    | [_], hsplit, _ =>
      have hmore : r = letter :: more := (List.cons.inj hsplit).2
      have hnone : operandEnds.all (fun c => (radixDigit? c).isNone) = true := by decide
      exact Option.isNone_iff_eq_none.mp
        (List.all_eq_true.mp hnone letter (hr letter (by rw [hmore]; rfl)))
    | _ :: _ :: as, hsplit, hplain =>
      simp only [List.cons_append, List.cons.injEq] at hsplit
      obtain ⟨rfl, rfl, -⟩ := hsplit
      exact hplain _ (as ++ rest) rfl

/-! ## Strings -/

/-- What stands in a string: a closed one ends in front of its quote, whatever is behind that. -/
lemma exists_stringStop {quote : Char} (hslash : quote ≠ '\\') (hfeed : quote ≠ '\n')
    {cs rest : List Char} {pos stop : Nat} (h : stringStop quote cs pos = ⟨quote :: rest, stop⟩) :
    ∃ as, cs = as ++ quote :: rest ∧ ∀ rest pos, stringStop quote (as ++ quote :: rest) pos =
      ⟨quote :: rest, pos + byteLength as⟩ := by
  fun_induction stringStop quote cs pos with
  | case1 => cases h
  | case2 cs pos ih =>
    obtain ⟨as, rfl, hread⟩ := ih h
    refine ⟨'\\' :: '\r' :: '\n' :: as, rfl, fun r p => ?_⟩
    simp only [List.cons_append, stringStop, hread, byteLength_cons, ← Nat.add_assoc]
    rfl
  | case3 c cs pos hcrlf ih =>
    obtain ⟨as, rfl, hread⟩ := ih h
    refine ⟨'\\' :: c :: as, rfl, fun r p => ?_⟩
    rw [List.cons_append, List.cons_append, stringStop.eq_3, hread]
    · simp only [byteLength_cons, ← Nat.add_assoc]
      rfl
    · intro tail hc htail
      cases as with
      | nil => exact hfeed (List.cons.inj htail).1
      | cons a as =>
        exact hcrlf (as ++ quote :: rest) hc (by rw [List.cons_append, (List.cons.inj htail).1])
  | case4 c cs pos hcrlf hescape hend =>
    obtain ⟨rfl, rfl⟩ := List.cons.inj (Cursor.mk.inj h).1
    refine ⟨[], rfl, fun r p => ?_⟩
    rw [List.nil_append, stringStop.eq_4 _ _ _ _ (by simp [hslash]) (by simp [hslash]), if_pos]
    · rfl
    · simp
  | case5 c cs pos hcrlf hescape hend ih =>
    obtain ⟨as, rfl, hread⟩ := ih h
    have hc : c ≠ '\\' := by
      rintro rfl
      cases as with
      | nil => exact hescape _ _ rfl rfl
      | cons a as => exact hescape _ _ rfl rfl
    refine ⟨c :: as, rfl, fun r p => ?_⟩
    rw [List.cons_append, stringStop.eq_4 _ _ _ _ (by simp [hc]) (by simp [hc]), if_neg hend, hread,
      byteLength_cons, Nat.add_assoc]

/-- A string without a fault can be taken out of its text. -/
lemma detaches_string {quote : Char} (hquote : quote = '\x22' ∨ quote = '\x27')
    {cs : List Char} {pos : Nat} (hfault : (string quote ⟨quote :: cs, pos⟩).fault = none) :
    Detaches EndsName (string quote) (quote :: cs) pos := by
  have hone : quote.utf8Size = 1 := by rcases hquote with rfl | rfl <;> rfl
  have hslash : quote ≠ '\\' := by rcases hquote with rfl | rfl <;> decide
  have hfeed : quote ≠ '\n' := by rcases hquote with rfl | rfl <;> decide
  have hblank : quote ≠ ' ' := by rcases hquote with rfl | rfl <;> decide
  obtain ⟨as, rest, rfl, hread⟩ : ∃ as rest, cs = as ++ quote :: rest ∧
      ∀ rest pos, stringStop quote (as ++ quote :: rest) pos =
        ⟨quote :: rest, pos + byteLength as⟩ := by
    have hadvance : Cursor.advance ⟨quote :: cs, pos⟩ = ⟨cs, pos + quote.utf8Size⟩ := rfl
    simp only [string, hadvance] at hfault
    split at hfault
    case isTrue hsees =>
      cases hstop : stringStop quote cs (pos + quote.utf8Size) with
      | mk behind stop =>
        rw [hstop] at hsees
        cases behind with
        | nil => cases hsees
        | cons c behind =>
          have hc : c = quote := by simpa [Cursor.sees, Cursor.peek?] using hsees
          subst hc
          obtain ⟨as, hcs, hread⟩ := exists_stringStop hslash hfeed hstop
          exact ⟨as, behind, hcs, hread⟩
    case isFalse => cases hfault
  have hstring (r : List Char) (p : Nat) : string quote ⟨quote :: (as ++ quote :: r), p⟩ =
      { kind := .stringLiteral, value := as
        stop := ⟨r, p + byteLength (quote :: (as ++ [quote]))⟩ } := by
    have hadvance : Cursor.advance ⟨quote :: (as ++ quote :: r), p⟩ =
      ⟨as ++ quote :: r, p + quote.utf8Size⟩ := rfl
    have hsees : Cursor.sees ⟨quote :: r, p + quote.utf8Size + byteLength as⟩ (· == quote) =
        true := by
      simp [Cursor.sees, Cursor.peek?]
    simp only [string, hadvance, hread, hsees, if_true, Cursor.textTo_append]
    simp only [Cursor.advance, byteLength_cons, byteLength_append, byteLength_nil, Nat.add_zero,
      ← Nat.add_assoc]
  refine ⟨quote :: (as ++ [quote]), rest, _, _, by simp, hstring rest pos, fun r p _ => ?_, ?_⟩
  · have hsplit : quote :: (as ++ [quote]) ++ r = quote :: (as ++ quote :: r) := by simp
    rw [hsplit, hstring]
  · rw [← List.cons_append, List.getLast?_concat]
    simpa using hblank

/-! ## Any operand -/

/-- A number that starts with a point takes the digit behind it. -/
lemma pos_lt_number_point {d : Char} (hd : isDecimalDigit d = true) (cs : List Char) (pos : Nat) :
    pos + 1 < (number ⟨'.' :: d :: cs, pos⟩).stop.pos := by
  rw [number_eq_decimalNumber (by simp), decimalNumber_eq]
  have hnone : digits isDecimalDigit ⟨'.' :: d :: cs, pos⟩ = ⟨'.' :: d :: cs, pos⟩ := rfl
  have hsees : Cursor.sees ⟨'.' :: d :: cs, pos⟩ (· == '.') = true := rfl
  rw [hnone, if_pos hsees]
  refine Nat.lt_of_lt_of_le ?_ (pos_le_decimalRest ..)
  exact pos_lt_digits (c := ⟨d :: cs, pos + 1⟩) (by simpa [Cursor.sees, Cursor.peek?] using hd)

/-- Two functions that read the same where the characters of a token stand. -/
lemma Detaches.congr {ends : List Char → Prop} {f g : Cursor → Scanned} {cs : List Char}
    {pos : Nat} (h : Detaches ends f cs pos) (hcs : g ⟨cs, pos⟩ = f ⟨cs, pos⟩)
    (hread : ∀ as rest, cs = as ++ rest → (f ⟨cs, pos⟩).stop.pos = pos + byteLength as →
      ∀ r p, ends r → g ⟨as ++ r, p⟩ = f ⟨as ++ r, p⟩) : Detaches ends g cs pos := by
  obtain ⟨as, rest, kind, value, hsplit, hf, hdetached⟩ := h
  refine ⟨as, rest, kind, value, hsplit, hcs.trans hf, fun r p hr => ?_, hdetached.last⟩
  rw [hread as rest hsplit (by rw [hf]) r p hr, hdetached.read r p hr]

/-- The first character of a token decides how it is read. -/
lemma Detaches.congr_front {ends : List Char → Prop} {f g : Cursor → Scanned} {c : Char}
    {cs : List Char} {pos : Nat} (h : Detaches ends f (c :: cs) pos)
    (heq : ∀ cs p, g ⟨c :: cs, p⟩ = f ⟨c :: cs, p⟩)
    (hmoves : pos < (f ⟨c :: cs, pos⟩).stop.pos) : Detaches ends g (c :: cs) pos := by
  refine h.congr (heq cs pos) fun as rest hsplit hstop r p _ => ?_
  cases as with
  | nil => simp [hstop] at hmoves
  | cons a as =>
    obtain ⟨rfl, -⟩ := List.cons.inj hsplit
    exact heq _ p

end Scanned

/-- The kinds of the tokens that are an expression of their own, without those that are read in
another way in some places. -/
def TokenKind.isOperand : TokenKind → Bool
  | .identifier | .thisKeyword | .nullKeyword | .trueKeyword | .falseKeyword | .numericLiteral
  | .bigIntLiteral | .stringLiteral => true
  | _ => false

/-- The kinds of operands, and of the names that may stand behind a point. -/
def TokenKind.isAtom (k : TokenKind) : Bool := k.isOperand || k.isName

/-- The characters that an operand can start with. -/
def startsOperand (c : Char) : Bool :=
  c == '\x22' || c == '\x27' || c == '.' || isDecimalDigit c || isIdentifierStart c

/-- The character may start an operand or a name, whichever the kind is of. -/
structure TokenKind.Starts (k : TokenKind) (c : Char) : Prop where
  operand : k.isOperand = true → startsOperand c = true
  name : k.isName = true → isIdentifierStart c = true ∨ c = '#'

/-- No name starts with a point or with a digit. -/
lemma TokenKind.Starts.ne_point {k : TokenKind} {c : Char} (h : k.Starts c)
    (hname : k.isName = true) : c ≠ '.' ∧ isDecimalDigit c = false := by
  rcases h.name hname with hstart | rfl
  · refine ⟨?_, Scanned.isDecimalDigit_of_isIdentifierStart hstart⟩
    rintro rfl
    exact absurd hstart (by decide)
  · decide

namespace Scanned

lemma kind_string (quote : Char) (start : Cursor) : (string quote start).kind = .stringLiteral := by
  rw [string]
  split <;> rfl

/-- A private name can be taken out of its text. -/
lemma detaches_privateName {c : Char} (hc : isIdentifierStart c = true) (cs : List Char)
    (pos : Nat) : Detaches EndsName token ('#' :: c :: cs) pos := by
  obtain ⟨as, rest, rfl, has, hrest, -⟩ := Cursor.exists_runFrom isIdentifierPart cs pos
  have hall : (c :: as).all isIdentifierPart = true := by
    rw [List.all_cons, isIdentifierPart_of_isIdentifierStart hc, has, Bool.and_self]
  have hread (r : List Char) (p : Nat) (hr : r.head?.any isIdentifierPart = false) :
      token ⟨'#' :: c :: as ++ r, p⟩ =
        { kind := .privateIdentifier, value := '#' :: c :: as
          stop := ⟨r, p + byteLength ('#' :: c :: as)⟩ } := by
    have hstop : (Cursor.advance ⟨'#' :: c :: as ++ r, p⟩).skipWhile isIdentifierPart =
        ⟨r, p + byteLength ('#' :: c :: as)⟩ := by
      rw [byteLength_cons, ← Nat.add_assoc]
      exact Cursor.runFrom_append hall hr _
    have hprivate : token ⟨'#' :: c :: as ++ r, p⟩ = privateName ⟨'#' :: c :: as ++ r, p⟩ := by
      simp [token, isDecimalDigit, hc]
    rw [hprivate, privateName]
    simp only [hstop, Cursor.textTo_append]
  refine ⟨'#' :: c :: as, rest, _, _, rfl, hread rest pos hrest, fun r p hr => ?_, ?_⟩
  · exact hread r p (hr.any_eq_false (by decide))
  · refine getLast?_ne_blank fun hmem => ?_
    rcases List.mem_cons.mp hmem with hblank | hmem
    · exact absurd hblank (by decide)
    · exact absurd (List.all_eq_true.mp hall _ hmem) (by decide)

/-- The kind of a word is no number. -/
lemma isNumber_word (start : Cursor) : (word start).kind.isNumber = false := by
  have hkeywords : ∀ k ∈ TokenKind.keywords, k.isNumber = false := by decide
  rw [word]
  cases hword : TokenKind.ofWord? (start.textTo (start.advance.skipWhile isIdentifierPart)) with
  | none => rfl
  | some k => exact hkeywords k (TokenKind.mem_keywords_of_ofWord? hword)

/-- The token at a character is taken out of its text in front of whatever ends its kind, and the
character is one that the kind starts with. -/
def TokenDetaches (c : Char) (cs : List Char) (pos : Nat) : Prop :=
  Detaches (token ⟨c :: cs, pos⟩).kind.EndsAt token (c :: cs) pos ∧
    (token ⟨c :: cs, pos⟩).kind.Starts c

section

variable {c d : Char} {cs : List Char} {pos : Nat}

lemma pos_lt_token (c : Char) (cs : List Char) (pos : Nat) :
    pos < (token ⟨c :: cs, pos⟩).stop.pos := by
  have hrest : Cursor.rest ⟨c :: cs, pos⟩ ≠ [] := List.cons_ne_nil c cs
  exact (token_readFrom hrest).moves

/-- A number is a token that may end where any operand does, and no name. -/
lemma kind_number (start : Cursor) :
    (number start).kind.isNumber = true ∧ (number start).kind.isName = false := by
  have hnumbers : ∀ k ∈ [TokenKind.numericLiteral, .bigIntLiteral],
      k.isNumber = true ∧ k.isName = false := by decide
  exact hnumbers _ (closesNumber_number start).kind

lemma tokenDetaches_string (hquote : c = '\x22' ∨ c = '\x27')
    (hfault : (token ⟨c :: cs, pos⟩).fault = none) : TokenDetaches c cs pos := by
  have heq (cs : List Char) (p : Nat) : token ⟨c :: cs, p⟩ = string c ⟨c :: cs, p⟩ := by
    rcases hquote with rfl | rfl <;> rfl
  have hmoves := pos_lt_token c cs pos
  rw [TokenDetaches]
  rw [heq] at hfault hmoves ⊢
  rw [kind_string, TokenKind.endsAt_eq_endsName rfl]
  refine ⟨(detaches_string hquote hfault).congr_front heq hmoves, fun _ => ?_,
    fun hname => absurd hname (by decide)⟩
  rcases hquote with rfl | rfl <;> rfl

lemma tokenDetaches_number (hdigit : isDecimalDigit c = true)
    (hfault : (token ⟨c :: cs, pos⟩).fault = none) : TokenDetaches c cs pos := by
  have hquote : ∀ q ∈ ['\x22', '\x27', '\x60'], c ≠ q := by
    rintro q hq rfl
    simp only [List.mem_cons, List.not_mem_nil, or_false] at hq
    rcases hq with rfl | rfl | rfl <;> exact absurd hdigit (by decide)
  have heq (cs : List Char) (p : Nat) : token ⟨c :: cs, p⟩ = number ⟨c :: cs, p⟩ := by
    simp [token, hquote '\x22' (by simp), hquote '\x27' (by simp), hquote '\x60' (by simp), hdigit]
  have hmoves := pos_lt_token c cs pos
  rw [TokenDetaches]
  rw [heq] at hfault hmoves ⊢
  obtain ⟨hnumber, hname⟩ := kind_number ⟨c :: cs, pos⟩
  rw [TokenKind.endsAt_eq_endsOperand hnumber]
  exact ⟨(detaches_number hfault).congr_front heq hmoves,
    fun _ => by simp [startsOperand, hdigit], fun h => by rw [hname] at h; cases h⟩

/-- A number may start with its point, and then holds the digit behind it. -/
lemma tokenDetaches_point (hd : isDecimalDigit d = true)
    (hfault : (token ⟨'.' :: d :: cs, pos⟩).fault = none) : TokenDetaches '.' (d :: cs) pos := by
  have heq (cs : List Char) (p : Nat) :
      token ⟨'.' :: d :: cs, p⟩ = number ⟨'.' :: d :: cs, p⟩ := by
    simp [token, hd]
  rw [TokenDetaches]
  rw [heq] at hfault ⊢
  obtain ⟨hnumber, hname⟩ := kind_number ⟨'.' :: d :: cs, pos⟩
  rw [TokenKind.endsAt_eq_endsOperand hnumber]
  refine ⟨(detaches_number hfault).congr (heq cs pos) fun as rest hsplit hstop r p _ => ?_,
    fun _ => rfl, fun h => by rw [hname] at h; cases h⟩
  have hlt := pos_lt_number_point hd cs pos
  rcases as with _ | ⟨_, _ | ⟨_, as⟩⟩
  · rw [hstop, byteLength_nil] at hlt
    exact absurd hlt (by omega)
  · obtain ⟨rfl, -⟩ := List.cons.inj hsplit
    rw [hstop] at hlt
    exact absurd hlt (Nat.lt_irrefl _)
  · simp only [List.cons_append, List.cons.injEq] at hsplit
    obtain ⟨rfl, rfl, -⟩ := hsplit
    exact heq _ p

lemma tokenDetaches_word (hword : isIdentifierStart c = true) : TokenDetaches c cs pos := by
  have heq (cs : List Char) (p : Nat) : token ⟨c :: cs, p⟩ = word ⟨c :: cs, p⟩ :=
    token_eq_word hword cs p
  have hmoves := pos_lt_token c cs pos
  rw [TokenDetaches]
  rw [heq] at hmoves ⊢
  rw [TokenKind.endsAt_eq_endsName (isNumber_word _)]
  exact ⟨(detaches_word hword cs pos).congr_front heq hmoves,
    fun _ => by simp [startsOperand, hword], fun _ => .inl hword⟩

lemma tokenDetaches_privateName (hd : isIdentifierStart d = true) :
    TokenDetaches '#' (d :: cs) pos := by
  have hkind : (token ⟨'#' :: d :: cs, pos⟩).kind = .privateIdentifier := by
    simp [token, isDecimalDigit, hd, privateName]
  rw [TokenDetaches, hkind, TokenKind.endsAt_eq_endsName rfl]
  exact ⟨detaches_privateName hd cs pos, fun hoperand => absurd hoperand (by decide),
    fun _ => .inr rfl⟩

/-- Whatever else a token starts with, it is no operand and no name. -/
lemma isAtom_token_eq_false (hquote : ¬ (c = '\x22' ∨ c = '\x27'))
    (hdigit : ¬ isDecimalDigit c = true)
    (hpoint : ¬ (c = '.' ∧ cs.head?.any isDecimalDigit = true))
    (hword : ¬ isIdentifierStart c = true)
    (hprivate : ¬ (c = '#' ∧ cs.head?.any isIdentifierStart = true)) :
    (token ⟨c :: cs, pos⟩).kind.isAtom = false := by
  rw [Bool.eq_false_iff]
  intro hkind
  rw [not_or] at hquote
  simp only [token, beq_eq_false_iff_ne.mpr hquote.1, beq_eq_false_iff_ne.mpr hquote.2,
    Bool.or_self, Bool.false_eq_true, if_false] at hkind
  split at hkind
  · simp only [template] at hkind
    split at hkind <;> cases hkind
  split at hkind
  case isTrue hnumber =>
    simp only [Bool.or_eq_true, Bool.and_eq_true, beq_iff_eq] at hnumber
    exact hnumber.elim hdigit hpoint
  split at hkind
  case isTrue hname =>
    simp only [Bool.and_eq_true, beq_iff_eq] at hname
    exact hprivate hname
  split at hkind
  case h_1 k length hoperator =>
    have hnone : ∀ k ∈ TokenKind.operators, k.isAtom = false := by decide
    rw [hnone k (TokenKind.stands_of_operator? hoperator).1] at hkind
    cases hkind
  case h_2 => cases hkind

/-- An operand or a name without a fault can be taken out of its text. -/
lemma detaches_token (hkind : (token ⟨c :: cs, pos⟩).kind.isAtom = true)
    (hfault : (token ⟨c :: cs, pos⟩).fault = none) : TokenDetaches c cs pos := by
  have hhead {test : Char → Bool} (h : cs.head?.any test = true) :
      ∃ d cs', cs = d :: cs' ∧ test d = true := by
    cases cs with
    | nil => cases h
    | cons d cs => exact ⟨d, cs, rfl, by simpa using h⟩
  by_cases hquote : c = '\x22' ∨ c = '\x27'
  · exact tokenDetaches_string hquote hfault
  by_cases hdigit : isDecimalDigit c = true
  · exact tokenDetaches_number hdigit hfault
  by_cases hpoint : c = '.' ∧ cs.head?.any isDecimalDigit = true
  · obtain ⟨rfl, hpoint⟩ := hpoint
    obtain ⟨d, cs, rfl, hd⟩ := hhead hpoint
    exact tokenDetaches_point hd hfault
  by_cases hword : isIdentifierStart c = true
  · exact tokenDetaches_word hword
  by_cases hprivate : c = '#' ∧ cs.head?.any isIdentifierStart = true
  · obtain ⟨rfl, hprivate⟩ := hprivate
    obtain ⟨d, cs, rfl, hd⟩ := hhead hprivate
    exact tokenDetaches_privateName hd
  · rw [isAtom_token_eq_false hquote hdigit hpoint hword hprivate] at hkind
    cases hkind

end

end Scanned

end InlineValues
