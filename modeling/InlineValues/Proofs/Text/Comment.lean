import InlineValues.Proofs.Token.Trivia
import InlineValues.Text.Comment

/-!
# Comments in front of a token

`leadingComments` reads the same comments as `skipTrivia`, with its own idea of what stands between
them: ASCII blanks and line ends only.  `Source.Alternates` says what it finds, for every text: gaps
of that kind and comments take turns up to the place where the scan stops, each comment is exactly
one (`Comment.IsExact`), and it is noted whether a line ends in the gap behind it.

The scan keeps what it has found in reverse, and notes a line end on the last comment when it comes
to one.  `Source.Found` is what holds of this list at every step, with one lemma for each step.  It
says of the list, from its other end, what `Source.Alternates` says of the result
(`Source.Alternates.of_found`).

The scan never goes beyond `skipTrivia`, and it comes to the same offset exactly if the trivia
outside of comments is ASCII text.
-/

namespace InlineValues

/-! ## Comments and gaps -/

/-- A character that the scan passes between comments. -/
def isAsciiGap (a : Char) : Bool := isAsciiBlank a || endsLine a

/-- A text that is exactly one comment, given what stands behind it. -/
def CommentForm.Reads : CommentForm → (text behind : List Char) → Prop
  | .line, text, behind =>
    ∃ body, text = '/' :: '/' :: body ∧ OneLine body ∧ ∀ a ∈ behind.head?, endsLine a = true
  | .block, text, behind =>
    ∃ body, ¬['*', '/'] <:+: body ∧
      (text = '/' :: '*' :: (body ++ ['*', '/']) ∨ text = '/' :: '*' :: body ∧ behind = [])

/-- A comment of a text, with nothing in front of it and nothing behind it. -/
structure Comment.IsExact (s : Source) (c : Comment) : Prop where
  start : s.IsCut c.start
  stop : s.IsCut c.stop
  lt : c.start < c.stop
  reads : c.form.Reads (s.slice c.start c.stop) (s.suffix c.stop)

/-- Between two offsets stand ASCII blanks and line ends only. -/
def Source.IsGap (s : Source) (p q : Nat) : Prop := p ≤ q ∧ ∀ a ∈ s.slice p q, isAsciiGap a = true

/-- Behind a comment stands a gap up to an offset, and it is noted whether a line ends in it. -/
def Comment.LeadsTo (s : Source) (c : Comment) (p : Nat) : Prop :=
  s.IsGap c.stop p ∧ (c.endsWithLine = true ↔ ¬OneLine (s.slice c.stop p))

/-- Where the first of some comments starts, or the place behind all of them. -/
def firstStart (cs : List Comment) (stop : Nat) : Nat := (cs.head?.map Comment.start).getD stop

/-- From `start` to `stop` gaps and comments take turns. -/
def Source.Alternates (s : Source) : (start : Nat) → List Comment → (stop : Nat) → Prop
  | start, [], stop => s.IsGap start stop
  | start, c :: cs, stop =>
    s.IsGap start c.start ∧ c.IsExact s ∧ c.LeadsTo s (firstStart cs stop) ∧
      s.Alternates c.stop cs stop

/-! ## Passing a comment -/

/-- A line comment goes on to the end of its line, or to the end of the text. -/
lemma reads_passLine (rest : List Char) (pos : Nat) :
    ∃ body, rest = body ++ (passLine rest pos).1 ∧
      (passLine rest pos).2 = pos + byteLength body ∧ OneLine body ∧
      ∀ a ∈ (passLine rest pos).1.head?, endsLine a = true := by
  obtain ⟨body, behind, rfl, hbody, hbehind, hrun⟩ :=
    Cursor.exists_runFrom (fun c => !endsLine c) rest pos
  obtain ⟨hrest, hpos⟩ := Cursor.mk.inj ((runFrom_passLine _ pos).symm.trans hrun)
  rw [hrest, hpos]
  refine ⟨body, rfl, rfl, fun a ha => ?_, fun a ha => ?_⟩
  · simpa using List.all_eq_true.mp hbody a ha
  · simpa [Option.mem_def.mp ha] using hbehind

/-- A block comment goes on to the first end of one, or to the end of the text. -/
lemma reads_passBlockComment (rest : List Char) (pos : Nat) :
    ∃ body, ¬['*', '/'] <:+: body ∧
      ((rest = body ++ '*' :: '/' :: (passBlockComment rest pos).1 ∧
          (passBlockComment rest pos).2 = pos + byteLength body + 2) ∨
        rest = body ∧ (passBlockComment rest pos).1 = [] ∧
          (passBlockComment rest pos).2 = pos + byteLength body) := by
  fun_induction passBlockComment rest pos with
  | case1 pos => exact ⟨[], by simp, .inr ⟨rfl, rfl, rfl⟩⟩
  | case2 pos cs => exact ⟨[], by simp, .inl ⟨rfl, rfl⟩⟩
  | case3 c cs pos hopen ih =>
    obtain ⟨body, hbody, hstop⟩ := ih
    have hfront : ¬['*', '/'] <+: c :: body := by
      rintro ⟨tail, htail⟩
      obtain ⟨rfl, rfl⟩ := List.cons.inj htail
      rcases hstop with ⟨hcs, -⟩ | ⟨hcs, -⟩ <;> exact hopen _ rfl hcs
    refine ⟨c :: body, fun hinfix => (List.infix_cons_iff.mp hinfix).elim hfront hbody, ?_⟩
    rw [byteLength_cons, ← Nat.add_assoc]
    rcases hstop with ⟨hcs, hpos⟩ | ⟨hcs, hrest, hpos⟩
    · exact .inl ⟨congrArg (c :: ·) hcs, hpos⟩
    · exact .inr ⟨congrArg (c :: ·) hcs, hrest, hpos⟩

/-- A comment is read from `cs` on. -/
def CommentForm.Passes (form : CommentForm) (cs : List Char) (pos : Nat) (passed : Passed) : Prop :=
  ∃ text, cs = text ++ passed.1 ∧ passed.2 = pos + byteLength text ∧ text ≠ [] ∧
    form.Reads text passed.1

lemma CommentForm.Passes.before {form : CommentForm} {cs : List Char} {pos : Nat}
    {passed : Passed} (h : form.Passes cs pos passed) :
    Cursor.Before ⟨cs, pos⟩ ⟨passed.1, passed.2⟩ := by
  obtain ⟨text, hcs, hpos, -⟩ := h
  exact ⟨text, hcs, hpos⟩

lemma passes_line (rest : List Char) (pos : Nat) :
    CommentForm.line.Passes ('/' :: '/' :: rest) pos (passLine rest (pos + 2)) := by
  obtain ⟨body, hrest, hpos, hline, hfront⟩ := reads_passLine rest (pos + 2)
  refine ⟨'/' :: '/' :: body, congrArg ('/' :: '/' :: ·) hrest, ?_, nofun, body, rfl, hline, hfront⟩
  rw [hpos, byteLength_cons, byteLength_cons, ← Nat.add_assoc, ← Nat.add_assoc]
  rfl

lemma passes_block (rest : List Char) (pos : Nat) :
    CommentForm.block.Passes ('/' :: '*' :: rest) pos (passBlockComment rest (pos + 2)) := by
  obtain ⟨body, hbody, ⟨hrest, hpos⟩ | ⟨hrest, hnil, hpos⟩⟩ := reads_passBlockComment rest (pos + 2)
  · refine ⟨'/' :: '*' :: (body ++ ['*', '/']), ?_, ?_, nofun, body, hbody, .inl rfl⟩
    · simpa using hrest
    · rw [hpos, byteLength_cons, byteLength_cons, byteLength_append, ← Nat.add_assoc,
        ← Nat.add_assoc, ← Nat.add_assoc]
      rfl
  · refine ⟨'/' :: '*' :: body, ?_, ?_, nofun, body, hbody, .inr ⟨rfl, hnil⟩⟩
    · rw [hnil, List.append_nil]
      exact congrArg ('/' :: '*' :: ·) hrest
    · rw [hpos, byteLength_cons, byteLength_cons, ← Nat.add_assoc, ← Nat.add_assoc]
      rfl

/-! ## Gaps -/

section

variable {s : Source} {p pos stop : Nat} {a : Char} {text rest : List Char}

/-- Behind a text that is read at a place. -/
lemma Cursor.On.passed (hon : Cursor.On ⟨text ++ rest, pos⟩ s)
    (hstop : stop = pos + byteLength text) :
    Cursor.On ⟨rest, stop⟩ s ∧ s.slice pos stop = text ∧ s.suffix stop = rest := by
  have hbefore : Cursor.Before ⟨text ++ rest, pos⟩ ⟨rest, stop⟩ := ⟨text, rfl, hstop⟩
  have hnext := hon.of_before hbefore
  exact ⟨hnext, (hon.slice_eq hnext hbefore.pos_le).trans (Cursor.textTo_eq rfl hstop),
    congrArg Cursor.rest hnext.eq_cursor⟩

lemma Source.slice_self (s : Source) (p : Nat) : s.slice p p = [] := by
  unfold slice slice?
  rw [if_neg (Nat.lt_irrefl p), Nat.sub_self]
  split <;> simp

lemma Source.IsGap.refl (s : Source) (p : Nat) : s.IsGap p p :=
  ⟨Nat.le_refl p, by simp [s.slice_self]⟩

lemma Source.IsCut.slice_cons (hp : s.IsCut p) (hon : Cursor.On ⟨a :: rest, pos⟩ s)
    (h : p ≤ pos) : s.slice p (pos + a.utf8Size) = s.slice p pos ++ [a] := by
  have hsize : pos + a.utf8Size = pos + byteLength [a] := by simp
  have hon' : Cursor.On ⟨[a] ++ rest, pos⟩ s := hon
  obtain ⟨hnext, hone, -⟩ := hon'.passed hsize
  rw [hp.slice_append hon.isCut hnext.isCut h (Nat.le_add_right _ _), hone]

/-- A gap goes on with a character of its kind. -/
lemma Source.IsGap.cons (hp : s.IsCut p) (hon : Cursor.On ⟨a :: rest, pos⟩ s)
    (ha : isAsciiGap a = true) (h : s.IsGap p pos) : s.IsGap p (pos + a.utf8Size) := by
  refine ⟨Nat.le_trans h.1 (Nat.le_add_right _ _), ?_⟩
  rw [hp.slice_cons hon h.1]
  exact List.forall_mem_append.mpr ⟨h.2, by simpa using ha⟩

/-! ## What the scan has found -/

/-- The comments between `start` and `pos`, last one first, with the gap behind each of them. -/
def Source.Found (s : Source) (start : Nat) : (found : List Comment) → (pos : Nat) → Prop
  | [], pos => s.IsGap start pos
  | c :: earlier, pos => c.IsExact s ∧ c.LeadsTo s pos ∧ s.Found start earlier c.start

namespace Source.Found

variable {start : Nat} {found : List Comment} (hstart : s.IsCut start)
  (hon : Cursor.On ⟨a :: rest, pos⟩ s)

section

include hstart hon

/-- A blank is passed. -/
lemma blank (ha : isAsciiBlank a = true) (h : s.Found start found pos) :
    s.Found start found (pos + a.utf8Size) := by
  have hgap : isAsciiGap a = true := by simp [isAsciiGap, ha]
  have hline : endsLine a = false := by
    revert ha
    simp only [isAsciiBlank, endsLine, Bool.or_eq_true, beq_iff_eq]
    rintro (((rfl | rfl) | rfl) | rfl) <;> rfl
  cases found with
  | nil => exact IsGap.cons hstart hon hgap h
  | cons c earlier =>
    obtain ⟨hexact, ⟨hleads, hflag⟩, hrest⟩ := h
    refine ⟨hexact, ⟨hleads.cons hexact.stop hon hgap, ?_⟩, hrest⟩
    rw [hflag, hexact.stop.slice_cons hon hleads.1]
    simp [hline]

/-- A line end is noted on the last comment. -/
lemma lineEnd (ha : endsLine a = true) (h : s.Found start found pos) :
    s.Found start (noteLineEnd found) (pos + a.utf8Size) := by
  have hgap : isAsciiGap a = true := by simp [isAsciiGap, ha]
  cases found with
  | nil => exact IsGap.cons hstart hon hgap h
  | cons c earlier =>
    obtain ⟨⟨hcut, hcut', hlt, hreads⟩, ⟨hleads, -⟩, hrest⟩ := h
    refine ⟨⟨hcut, hcut', hlt, hreads⟩, ⟨hleads.cons hcut' hon hgap, ?_⟩, hrest⟩
    rw [hcut'.slice_cons hon hleads.1]
    simp [ha]

end

/-- A comment is added. -/
lemma comment {form : CommentForm} {cs : List Char} {passed : Passed}
    (hon : Cursor.On ⟨cs, pos⟩ s) (hpassed : form.Passes cs pos passed)
    (h : s.Found start found pos) :
    s.Found start (⟨pos, passed.2, form, false⟩ :: found) passed.2 := by
  obtain ⟨text, rfl, hpos, hne, hreads⟩ := hpassed
  obtain ⟨hnext, hslice, hsuffix⟩ := hon.passed hpos
  have hlt : pos < passed.2 := by
    have := Nat.pos_of_ne_zero (mt byteLength_eq_zero.mp hne)
    omega
  refine ⟨⟨hon.isCut, hnext.isCut, hlt, ?_⟩, ⟨.refl s _, ?_⟩, h⟩
  · dsimp only
    rwa [hslice, hsuffix]
  · simp [s.slice_self]

end Source.Found

end

/-! ## Gaps and comments in turn -/

namespace Source.Alternates

variable {s : Source} {start pos stop : Nat} {cs found : List Comment}

/-- A gap in front of the first comment, or in place of it, may be longer. -/
lemma of_gap (h : s.IsGap start pos) (hpos : firstStart cs stop = pos)
    (hcs : s.Alternates pos cs stop) : s.Alternates start cs stop := by
  subst hpos
  cases cs with
  | nil => exact h
  | cons c cs => exact ⟨h, hcs.2⟩

/-- What was found, in the order of the text. -/
theorem of_found (h : s.Found start found pos) (hpos : firstStart cs stop = pos)
    (hcs : s.Alternates pos cs stop) :
    s.Alternates start (found.reverse ++ cs) stop := by
  induction found generalizing pos cs with
  | nil => exact of_gap h hpos hcs
  | cons c earlier ih =>
    obtain ⟨hexact, hleads, hrest⟩ := h
    rw [List.reverse_cons, List.append_assoc]
    exact ih hrest rfl ⟨.refl s _, hexact, hpos ▸ hleads, of_gap hleads.1 hpos hcs⟩

lemma le (h : s.Alternates start cs stop) : start ≤ stop := by
  induction cs generalizing start with
  | nil => exact h.1
  | cons c cs ih =>
    obtain ⟨hgap, hexact, -, hrest⟩ := h
    have := hgap.1
    have := hexact.lt
    have := ih hrest
    omega

lemma of_mem {c : Comment} (h : s.Alternates start cs stop) (hc : c ∈ cs) :
    start ≤ c.start ∧ c.IsExact s ∧ c.stop ≤ stop := by
  induction cs generalizing start with
  | nil => cases hc
  | cons d cs ih =>
    obtain ⟨hgap, hexact, -, hrest⟩ := h
    have hlt := hexact.lt
    rcases List.mem_cons.mp hc with rfl | hc
    · exact ⟨hgap.1, hexact, hrest.le⟩
    · obtain ⟨hle, hexact, hstop⟩ := ih hrest hc
      exact ⟨Nat.le_trans hgap.1 (Nat.le_trans (Nat.le_of_lt hlt) hle), hexact, hstop⟩

lemma pairwise (h : s.Alternates start cs stop) : cs.Pairwise fun c d => c.stop ≤ d.start := by
  induction cs generalizing start with
  | nil => exact .nil
  | cons c cs ih =>
    obtain ⟨-, -, -, hrest⟩ := h
    exact .cons (fun d hd => (hrest.of_mem hd).1) (ih hrest)

end Source.Alternates

/-! ## The scan -/

/-- A place that is the end of the text, or where something stands that is neither in a gap nor a
comment. -/
def IsFront (rest : List Char) : Prop :=
  (∀ a ∈ rest.head?, isAsciiGap a = false) ∧ ¬['/', '/'] <+: rest ∧ ¬['/', '*'] <+: rest

/-- The characters that `passTrivia` passes outside of comments. -/
def betweenComments (cs : List Char) : List Char :=
  match cs with
  | '/' :: '/' :: rest =>
    have := length_passLine_le rest 0
    betweenComments (passLine rest 0).1
  | '/' :: '*' :: rest =>
    have := length_passBlockComment_le rest 0
    betweenComments (passBlockComment rest 0).1
  | c :: rest => if isLineBreak c || isBlank c then c :: betweenComments rest else []
  | [] => []
termination_by cs.length
decreasing_by all_goals simp_all <;> omega

/-- A gap is ASCII text. -/
lemma isAscii_of_isAsciiGap {a : Char} (h : isAsciiGap a = true) : isAscii a = true := by
  simp only [isAsciiGap, isAsciiBlank, endsLine, Bool.or_eq_true, beq_iff_eq] at h
  obtain (((rfl | rfl) | rfl) | rfl) | (rfl | rfl) := h <;> rfl

/-- Within ASCII, a gap is what trivia is outside of comments. -/
lemma isAsciiGap_of_isAscii {a : Char} (h : isAscii a = true) :
    isAsciiGap a = (isLineBreak a || isBlank a) := by
  have hall : ∀ n : Fin 128,
      isAsciiGap (Char.ofNat n) = (isLineBreak (Char.ofNat n) || isBlank (Char.ofNat n)) := by
    decide +kernel
  have hlow : a.toNat < 128 := UInt32.lt_iff_toNat_lt.mp (of_decide_eq_true h)
  simpa using hall ⟨a.toNat, hlow⟩

lemma passTrivia_add (cs : List Char) (p n : Nat) :
    (passTrivia cs (p + n)).2 = p + (passTrivia cs n).2 := by
  have hwalk := Trivia.pos_walk_passTrivia false cs 0 (p + n)
  rw [Nat.zero_add, Nat.zero_add] at hwalk
  rw [← hwalk, Trivia.pos_walk_passTrivia]

lemma le_passTrivia (cs : List Char) (n : Nat) : n ≤ (passTrivia cs n).2 := by
  have hadd := passTrivia_add cs n 0
  rw [Nat.add_zero] at hadd
  exact hadd ▸ Nat.le_add_right _ _

section

variable {a : Char} {rest : List Char} (hline : ∀ tail, a = '/' → rest = '/' :: tail → False)
  (hblock : ∀ tail, a = '/' → rest = '*' :: tail → False)

include hline hblock

lemma passTrivia_gap (ha : isAsciiGap a = true) (pos : Nat) :
    passTrivia (a :: rest) pos = passTrivia rest (pos + a.utf8Size) ∧
      betweenComments (a :: rest) = a :: betweenComments rest := by
  have htrivia := (isAsciiGap_of_isAscii (isAscii_of_isAsciiGap ha)).symm.trans ha
  rw [passTrivia.eq_3 _ _ _ hline hblock, betweenComments.eq_3 _ _ hline hblock, if_pos htrivia,
    if_pos htrivia]
  exact ⟨rfl, rfl⟩

/-- Where the scan stops, trivia goes on exactly with a character beyond ASCII. -/
lemma isAscii_betweenComments_iff (ha : isAsciiGap a = false) (pos : Nat) :
    (∀ b ∈ betweenComments (a :: rest), isAscii b = true) ↔
      pos = (passTrivia (a :: rest) pos).2 := by
  rw [passTrivia.eq_3 _ _ _ hline hblock, betweenComments.eq_3 _ _ hline hblock]
  split
  case isTrue htrivia =>
    have hbeyond : ¬isAscii a = true := fun hascii => by
      rw [isAsciiGap_of_isAscii hascii, htrivia] at ha
      cases ha
    have hmoves := le_passTrivia rest (pos + a.utf8Size)
    have hsize := a.utf8Size_pos
    exact ⟨fun hall => absurd (hall a (List.mem_cons_self ..)) hbeyond, fun h => by omega⟩
  case isFalse => simp

lemma isFront_cons (ha : isAsciiGap a = false) : IsFront (a :: rest) := by
  refine ⟨fun b hb => Option.some.inj hb ▸ ha, ?_, ?_⟩ <;> rintro ⟨tail, htail⟩ <;>
    obtain ⟨rfl, rfl⟩ := List.cons.inj htail
  · exact hline tail rfl rfl
  · exact hblock tail rfl rfl

end

variable {s : Source} {start : Nat}

lemma fst_passLine (cs : List Char) (n m : Nat) : (passLine cs n).1 = (passLine cs m).1 := by
  fun_induction passLine cs n generalizing m with
  | case1 => rfl
  | case2 c cs n hc => rw [passLine, if_pos hc]
  | case3 c cs n hc ih => rw [passLine, if_neg hc, ih]

lemma fst_passBlockComment (cs : List Char) (n m : Nat) :
    (passBlockComment cs n).1 = (passBlockComment cs m).1 := by
  fun_induction passBlockComment cs n generalizing m with
  | case1 => rfl
  | case2 => rfl
  | case3 c cs n hopen ih => rw [passBlockComment.eq_3 _ _ _ hopen, ih]

/-- What the scan has found where it stops, and that it stops in front of something else. -/
lemma exists_found_commentsFrom (hstart : s.IsCut start) (found : List Comment) (cs : List Char)
    (pos : Nat) (hon : Cursor.On ⟨cs, pos⟩ s) (hfound : s.Found start found pos) :
    ∃ found' stop, commentsFrom found cs pos = found'.reverse ∧ s.Found start found' stop ∧
      IsFront (s.suffix stop) ∧ stop ≤ (passTrivia cs pos).2 ∧
      ((∀ a ∈ betweenComments cs, isAscii a = true) ↔ stop = (passTrivia cs pos).2) := by
  -- The scan is followed step by step, with `Found` as its invariant and `passTrivia` beside it.
  fun_induction commentsFrom found cs pos with
  | case1 found pos rest stop hlength ih =>
    have hpassed := passes_line rest pos
    have hnext := ih (hon.of_before hpassed.before) (hfound.comment hon hpassed)
    rwa [passTrivia, betweenComments, fst_passLine rest 0 (pos + 2)]
  | case2 found pos rest stop hlength ih =>
    have hpassed := passes_block rest pos
    have hnext := ih (hon.of_before hpassed.before) (hfound.comment hon hpassed)
    rwa [passTrivia, betweenComments, fst_passBlockComment rest 0 (pos + 2)]
  | case3 found pos a rest hline hblock ha ih =>
    have hgap : isAsciiGap a = true := by simp [isAsciiGap, ha]
    obtain ⟨htrivia, hbetween⟩ := passTrivia_gap hline hblock hgap pos
    have hnext := ih (hon.of_before Cursor.before_cons) (hfound.blank hstart hon ha)
    simpa only [htrivia, hbetween, List.forall_mem_cons, isAscii_of_isAsciiGap hgap, true_and]
      using hnext
  | case4 found pos a rest hline hblock hblank ha ih =>
    have hgap : isAsciiGap a = true := by simp [isAsciiGap, ha]
    obtain ⟨htrivia, hbetween⟩ := passTrivia_gap hline hblock hgap pos
    have hnext := ih (hon.of_before Cursor.before_cons) (hfound.lineEnd hstart hon ha)
    simpa only [htrivia, hbetween, List.forall_mem_cons, isAscii_of_isAsciiGap hgap, true_and]
      using hnext
  | case5 found pos a rest hline hblock hblank ha =>
    have hgap : isAsciiGap a = false := by simp [isAsciiGap, hblank, ha]
    have hsuffix : s.suffix pos = a :: rest := congrArg Cursor.rest hon.eq_cursor
    exact ⟨found, pos, rfl, hfound, hsuffix ▸ isFront_cons hline hblock hgap,
      le_passTrivia _ pos, isAscii_betweenComments_iff hline hblock hgap pos⟩
  | case6 found pos =>
    have hsuffix : s.suffix pos = [] := congrArg Cursor.rest hon.eq_cursor
    refine ⟨found, pos, rfl, hfound, ?_, le_passTrivia _ pos, ?_⟩
    · simp [hsuffix, IsFront]
    · simp [passTrivia, betweenComments]

/-! ## Where the scan starts -/

/-- The scan starts at `pos`, or behind a first line that begins with `#!`. -/
def Source.ScansFrom (s : Source) (pos start : Nat) : Prop :=
  (¬(pos = 0 ∧ ['#', '!'] <+: s.chars) ∧ start = pos) ∨
    (pos = 0 ∧ ['#', '!'] <+: s.slice 0 start ∧ OneLine (s.slice 0 start) ∧
      ∀ a ∈ (s.suffix start).head?, endsLine a = true)

/-- The scan and `skipTrivia` start at the same place. -/
lemma exists_scansFrom {pos : Nat} (hpos : s.IsCut pos) :
    ∃ start, s.ScansFrom pos start ∧ Cursor.On ⟨s.suffix start, start⟩ s ∧ pos ≤ start ∧
      leadingComments s pos = commentsFrom [] (s.suffix start) start ∧
      skipTrivia s pos = (passTrivia (s.suffix start) start).2 := by
  by_cases hshebang : pos = 0 ∧ ['#', '!'] <+: s.chars
  · obtain ⟨rfl, rest, hrest⟩ := hshebang
    obtain ⟨body, hbody, hstop, hline, hfront⟩ := reads_passLine rest 2
    have hpass : passShebang s.chars = passLine rest 2 := by rw [← hrest]; rfl
    have hchars : s.chars = ('#' :: '!' :: body) ++ (passLine rest 2).1 := by
      rw [List.cons_append, List.cons_append, ← hbody, ← hrest]
      rfl
    have hlen : (passLine rest 2).2 = 0 + byteLength ('#' :: '!' :: body) := by
      rw [hstop, byteLength_cons, byteLength_cons, ← Nat.add_assoc, ← Nat.add_assoc]
      rfl
    have hzero : Cursor.On ⟨s.chars, 0⟩ s := dropBytes?_zero s.chars
    rw [hchars] at hzero
    obtain ⟨hon, hslice, hsuffix⟩ := hzero.passed hlen
    refine ⟨(passLine rest 2).2, .inr ⟨rfl, ?_⟩, ?_, Nat.zero_le _, ?_⟩
    · rw [hslice, hsuffix]
      exact ⟨⟨body, rfl⟩, oneLine_cons.mpr ⟨rfl, oneLine_cons.mpr ⟨rfl, hline⟩⟩, hfront⟩
    · rwa [hsuffix]
    · simp [leadingComments, skipTrivia, hpass, hsuffix]
  · refine ⟨pos, .inl ⟨hshebang, rfl⟩, Cursor.on_cursor hpos, Nat.le_refl pos, ?_⟩
    by_cases hzero : pos = 0
    · subst hzero
      have hchars := s.suffix_zero
      have hpass := passShebang_of_plain fun h => hshebang ⟨rfl, h⟩
      simp [leadingComments, skipTrivia, hpass, hchars]
    · have hadd := passTrivia_add (s.suffix pos) pos 0
      rw [Nat.add_zero] at hadd
      simp [leadingComments, skipTrivia, hzero, Nat.min_eq_left hpos.le_size, hadd]

/-! ## The comments in front of a token -/

/-- The comments `cs` are those in front of a token at or behind `pos`, as far as `stop`. -/
structure Source.ListsComments (s : Source) (pos start stop : Nat) (cs : List Comment) : Prop where
  scans : s.ScansFrom pos start
  alternates : s.Alternates start cs stop
  front : IsFront (s.suffix stop)
  ordered : cs.Pairwise fun c d => c.stop ≤ d.start
  within : ∀ c ∈ cs, pos ≤ c.start ∧ c.start < c.stop ∧ c.stop ≤ skipTrivia s pos
  stop_le : stop ≤ skipTrivia s pos
  /-- Where trivia is ASCII text outside of comments, the scan comes to its end. -/
  complete : (∀ a ∈ betweenComments (s.suffix start), isAscii a = true) ↔ stop = skipTrivia s pos

/-- **Comments are listed exactly.**  From any place between two characters, the comments that are
listed are those that stand there in front of the next token.  Each has its exact range, is of the
kind that its first two characters say, and tells whether a line break follows it.  They are in
order and do not overlap, and between them, in front of the first and behind the last stand only
blanks and line breaks, up to where the list ends.

It ends at the token itself exactly if the trivia is ASCII text outside of comments: other blanks
are trivia for the lexer, but end the list.  A first line that begins with `#!` is passed. -/
theorem listsComments_leadingComments {pos : Nat} (hpos : s.IsCut pos) :
    ∃ start stop, s.ListsComments pos start stop (leadingComments s pos) := by
  obtain ⟨start, hscans, hon, hle, hcomments, hskip⟩ := exists_scansFrom hpos
  obtain ⟨found, stop, hfound, hholds, hfront, hstop, hcomplete⟩ :=
    exists_found_commentsFrom hon.isCut [] (s.suffix start) start hon (.refl s start)
  rw [hskip.symm] at hstop hcomplete
  have halternates : s.Alternates start (leadingComments s pos) stop := by
    rw [hcomments, hfound, ← List.append_nil found.reverse]
    exact .of_found hholds rfl (.refl s stop)
  refine ⟨start, stop, hscans, halternates, hfront, halternates.pairwise, fun c hc => ?_, hstop,
    hcomplete⟩
  obtain ⟨hstart, hexact, hend⟩ := halternates.of_mem hc
  exact ⟨Nat.le_trans hle hstart, hexact.lt, Nat.le_trans hend hstop⟩

/-- Behind a first line, a comment that a line end follows and one that a blank beyond ASCII
follows. -/
theorem listsComments_leadingComments_firstLine :
    let s := Source.ofString "#! /*\n// a\r/**/\u00a0/* b"
    s.IsCut 0 ∧ (∃ start stop, s.ListsComments 0 start stop (leadingComments s 0)) ∧
      leadingComments s 0 = [⟨6, 10, .line, true⟩, ⟨11, 15, .block, false⟩] ∧
      skipTrivia s 0 = 21 := by
  intro s
  exact ⟨s.isCut_zero, listsComments_leadingComments s.isCut_zero, by decide +kernel,
    by decide +kernel⟩

end InlineValues
