import InlineValues.Text.LineMap
import InlineValues.Token.Cursor
import Mathlib.Tactic.Lemma

/-!
# Cursors move forward over whole characters

`Cursor.On` says that a cursor is a place of a text, and `Cursor.Before` that a cursor can be
reached from another one by passing characters.  What is reached from a place of a text is a place
of the text (`Cursor.On.of_before`), so that a function on cursors needs one lemma only: its result
is `Before`-reachable.  All offsets of the lexer are cuts of the text for this reason.

`Cursor.Avoids` says in addition that no character of some class is among those passed.  With the
characters that end a line for the class it is `Cursor.OnLineTo`.
-/

namespace InlineValues

/-- An offset between two characters of a text, or at one of its ends. -/
def Source.IsCut (s : Source) (p : Nat) : Prop := ∃ rest, dropBytes? s.chars p = some rest

/-- A cut divides the text in two. -/
lemma Source.isCut_iff {s : Source} {p : Nat} :
    s.IsCut p ↔ ∃ front behind, s.chars = front ++ behind ∧ byteLength front = p := by
  constructor
  · rintro ⟨behind, hbehind⟩
    obtain ⟨front, hchars, hfront⟩ := eq_append_of_dropBytes? hbehind
    exact ⟨front, behind, hchars, hfront⟩
  · rintro ⟨front, behind, hchars, rfl⟩
    exact ⟨behind, hchars ▸ dropBytes?_append front behind⟩

@[simp] lemma Source.suffix_zero (s : Source) : s.suffix 0 = s.chars := by simp [suffix]

/-- Behind a part of the text stands the rest of it. -/
lemma Source.suffix_of_eq_append {s : Source} {front behind : List Char}
    (h : s.chars = front ++ behind) : s.suffix (byteLength front) = behind := by
  rw [suffix, suffix?_eq, h, dropBytes?_append]
  rfl

/-- A part of the text is what stands between its ends. -/
lemma Source.slice?_of_eq_append {s : Source} {front between behind : List Char}
    (h : s.chars = front ++ (between ++ behind)) :
    s.slice? (byteLength front) (byteLength front + byteLength between) = some between := by
  have hstop : dropBytes? s.chars (byteLength front + byteLength between) = some behind := by
    rw [h, ← List.append_assoc, ← byteLength_append, dropBytes?_append]
  have hstart : dropBytes? s.chars (byteLength front) = some (between ++ behind) := by
    rw [h, dropBytes?_append]
  rw [slice?, if_neg (Nat.not_lt_of_le (Nat.le_add_right _ _)), suffix?_eq, suffix?_eq, hstart,
    hstop, Nat.add_sub_cancel_left]
  exact congrArg some (takeBytes_append between behind)

/-- In front of the rest of the text stands the part of it. -/
lemma Source.slice?_zero_of_eq_append {s : Source} {front behind : List Char}
    (h : s.chars = front ++ behind) : s.slice? 0 (byteLength front) = some front := by
  have hslice := @slice?_of_eq_append s [] front behind h
  rwa [byteLength_nil, Nat.zero_add] at hslice

namespace Cursor

/-- A cursor that stands in a text: what is left to read is the text from its offset on. -/
def On (c : Cursor) (s : Source) : Prop := dropBytes? s.chars c.pos = some c.rest

/-- The cursor `d` lies at `c` or behind it, with whole characters between them. -/
def Before (c d : Cursor) : Prop :=
  ∃ passed, c.rest = passed ++ d.rest ∧ d.pos = c.pos + byteLength passed

/-! ## The order of cursors -/

lemma Before.refl (c : Cursor) : c.Before c := ⟨[], by simp⟩

lemma Before.trans {c d e : Cursor} (h : c.Before d) (h' : d.Before e) : c.Before e := by
  obtain ⟨first, hrest, hpos⟩ := h
  obtain ⟨second, hrest', hpos'⟩ := h'
  refine ⟨first ++ second, by rw [hrest, hrest', List.append_assoc], ?_⟩
  rw [hpos', hpos, byteLength_append, Nat.add_assoc]

lemma Before.pos_le {c d : Cursor} (h : c.Before d) : c.pos ≤ d.pos := by
  obtain ⟨passed, -, hpos⟩ := h
  omega

/-! ## The text between cursors -/

/-- The text up to a cursor behind it. -/
lemma textTo_append (as cs : List Char) (pos : Nat) :
    textTo ⟨as ++ cs, pos⟩ ⟨cs, pos + byteLength as⟩ = as := by
  rw [textTo, Nat.add_sub_cancel_left, takeBytes_append]

/-- The text up to a cursor is what has to be passed to reach it. -/
lemma textTo_eq {c d : Cursor} {passed : List Char} (hrest : c.rest = passed ++ d.rest)
    (hpos : d.pos = c.pos + byteLength passed) : c.textTo d = passed := by
  obtain ⟨rest, pos⟩ := c
  obtain ⟨rest', pos'⟩ := d
  obtain rfl : rest = passed ++ rest' := hrest
  obtain rfl : pos' = pos + byteLength passed := hpos
  exact textTo_append passed rest' pos

lemma Before.rest_eq {c d : Cursor} (h : c.Before d) : c.rest = c.textTo d ++ d.rest := by
  obtain ⟨passed, hrest, hpos⟩ := h
  rw [textTo_eq hrest hpos, hrest]

lemma Before.pos_eq {c d : Cursor} (h : c.Before d) :
    d.pos = c.pos + byteLength (c.textTo d) := by
  obtain ⟨passed, hrest, hpos⟩ := h
  rw [textTo_eq hrest hpos, hpos]

lemma textTo_trans {c d e : Cursor} (h : c.Before d) (h' : d.Before e) :
    c.textTo e = c.textTo d ++ d.textTo e := by
  refine textTo_eq ?_ ?_
  · rw [h.rest_eq, h'.rest_eq, List.append_assoc]
  · rw [h'.pos_eq, h.pos_eq, byteLength_append, Nat.add_assoc]

lemma textTo_self (c : Cursor) : c.textTo c = [] := by
  rw [textTo, Nat.sub_self, takeBytes_zero]

/-- The text from a character on begins with it. -/
lemma textTo_cons {a : Char} {rest : List Char} {pos : Nat} {d : Cursor}
    (h : Before ⟨rest, pos + a.utf8Size⟩ d) :
    textTo ⟨a :: rest, pos⟩ d = a :: textTo ⟨rest, pos + a.utf8Size⟩ d := by
  refine textTo_eq ?_ ?_
  · rw [List.cons_append, ← h.rest_eq]
  · rw [h.pos_eq, byteLength_cons, Nat.add_assoc]

/-- Between two cursors lies the text between any two others there. -/
lemma textTo_infix {c b e d : Cursor} (hfront : c.Before b) (hbody : b.Before e)
    (hback : e.Before d) : b.textTo e <:+: c.textTo d := by
  rw [textTo_trans hfront (hbody.trans hback), textTo_trans hbody hback]
  exact ⟨c.textTo b, e.textTo d, by rw [List.append_assoc]⟩

/-! ## Places of a text -/

lemma On.isCut {s : Source} {c : Cursor} (h : c.On s) : s.IsCut c.pos := ⟨c.rest, h⟩

/-- What is reached from a place of a text is a place of the text. -/
theorem On.of_before {s : Source} {c d : Cursor} (hc : c.On s) (h : c.Before d) : d.On s := by
  obtain ⟨front, hfront, hlen⟩ := eq_append_of_dropBytes? hc
  obtain ⟨passed, hrest, hpos⟩ := h
  have hchars : s.chars = (front ++ passed) ++ d.rest := by
    rw [hfront, hrest, List.append_assoc]
  have hd : d.pos = byteLength (front ++ passed) := by rw [byteLength_append, hlen, hpos]
  rw [On, hchars, hd]
  exact dropBytes?_append _ _

/-- The cursor at a cut is a place of the text. -/
lemma on_cursor {s : Source} {p : Nat} (h : s.IsCut p) : (s.cursor p).On s := by
  obtain ⟨rest, hrest⟩ := h
  simp [On, Source.cursor, Source.suffix, hrest]

/-- A place of a text is determined by its offset. -/
lemma On.eq_cursor {s : Source} {c : Cursor} (h : c.On s) : s.cursor c.pos = c := by
  rw [On] at h
  simp [Source.cursor, Source.suffix, h]

lemma On.size_eq {s : Source} {c : Cursor} (h : c.On s) : s.size = c.pos + byteLength c.rest := by
  obtain ⟨front, hfront, hlen⟩ := eq_append_of_dropBytes? h
  rw [s.size_eq, hfront, byteLength_append, hlen]

/-- Where nothing is left to read, the text ends. -/
lemma On.pos_eq_size {s : Source} {c : Cursor} (h : c.On s) (hrest : c.rest = []) :
    c.pos = s.size := by
  have := h.size_eq
  simp [hrest] at this
  omega

/-- The text between two places of a text. -/
lemma On.slice_eq {s : Source} {c d : Cursor} (hc : c.On s) (hd : d.On s) (h : c.pos ≤ d.pos) :
    s.slice c.pos d.pos = c.textTo d := by
  rw [On] at hc hd
  rw [Source.slice, Source.slice?, if_neg (Nat.not_lt_of_le h), s.suffix?_eq, s.suffix?_eq, hc, hd]
  rfl

end Cursor

lemma Source.IsCut.le_size {s : Source} {p : Nat} (h : s.IsCut p) : p ≤ s.size := by
  have := (Cursor.on_cursor h).size_eq
  simp only [Source.cursor] at this
  omega

/-- Between two cuts in order there is a text. -/
lemma Source.IsCut.slice?_eq {s : Source} {p q : Nat} (hp : s.IsCut p) (hq : s.IsCut q)
    (h : p ≤ q) : s.slice? p q = some (s.slice p q) := by
  obtain ⟨rest, hrest⟩ := hp
  obtain ⟨behind, hbehind⟩ := hq
  rw [slice, slice?, if_neg (Nat.not_lt_of_le h), s.suffix?_eq, s.suffix?_eq, hrest, hbehind]
  rfl

/-- Two cuts in order divide the text into three parts. -/
lemma Source.IsCut.exists_append {s : Source} {p q : Nat} (hp : s.IsCut p) (hq : s.IsCut q)
    (h : p ≤ q) :
    ∃ front between behind, s.chars = front ++ between ++ behind ∧ byteLength front = p ∧
      byteLength (front ++ between) = q ∧ s.slice p q = between := by
  obtain ⟨rest, hrest⟩ := hp
  obtain ⟨behind, hbehind⟩ := hq
  obtain ⟨front, hchars, hfront⟩ := eq_append_of_dropBytes? hrest
  obtain ⟨upto, hchars', hupto⟩ := eq_append_of_dropBytes? hbehind
  obtain ⟨between, rfl, rfl⟩ : ∃ between, upto = front ++ between ∧ rest = between ++ behind := by
    rcases List.append_eq_append_iff.mp (hchars.symm.trans hchars') with h | ⟨extra, rfl, rfl⟩
    · exact h
    · have hlen := byteLength_append upto extra
      have hnil : extra = [] := byteLength_eq_zero.mp (by omega)
      exact ⟨[], by simp [hnil], by simp [hnil]⟩
  refine ⟨front, between, behind, hchars', hfront, hupto, ?_⟩
  have hlen := byteLength_append front between
  have hbetween : q - p = byteLength between := by omega
  rw [Source.slice, Source.slice?, if_neg (Nat.not_lt_of_le h), s.suffix?_eq, s.suffix?_eq, hrest,
    hbehind, hbetween]
  exact takeBytes_append between behind

lemma Source.IsCut.before {s : Source} {p q : Nat} (hp : s.IsCut p) (hq : s.IsCut q)
    (h : p ≤ q) : (s.cursor p).Before (s.cursor q) := by
  obtain ⟨front, between, behind, hchars, rfl, rfl, -⟩ := hp.exists_append hq h
  have hp := suffix_of_eq_append (hchars.trans (List.append_assoc ..))
  have hq := suffix_of_eq_append hchars
  exact ⟨between, by rw [cursor, cursor, hp, hq], byteLength_append front between⟩

/-- A cut between two others divides the text between them. -/
lemma Source.IsCut.slice_append {s : Source} {p q r : Nat} (hp : s.IsCut p) (hq : s.IsCut q)
    (hr : s.IsCut r) (hpq : p ≤ q) (hqr : q ≤ r) :
    s.slice p r = s.slice p q ++ s.slice q r := by
  have hfront := (Cursor.on_cursor hp).slice_eq (Cursor.on_cursor hq) hpq
  have hback := (Cursor.on_cursor hq).slice_eq (Cursor.on_cursor hr) hqr
  have hwhole := (Cursor.on_cursor hp).slice_eq (Cursor.on_cursor hr) (Nat.le_trans hpq hqr)
  rw [Cursor.textTo_trans (hp.before hq hpq) (hq.before hr hqr), ← hfront, ← hback] at hwhole
  exact hwhole

lemma takeBytes_subset (cs : List Char) (n : Nat) : takeBytes cs n ⊆ cs := by
  induction cs generalizing n with
  | nil => simp
  | cons c cs ih =>
    by_cases hn : n = 0
    · simp [hn]
    · rw [takeBytes_cons c cs hn]
      exact List.cons_subset_cons c (ih _)

/-- What is cut out of a text is made of its characters. -/
lemma Source.slice_subset (s : Source) (p q : Nat) : s.slice p q ⊆ s.chars := by
  unfold slice slice?
  split
  · simp
  split
  case h_1 rest _ hrest _ =>
    rw [s.suffix?_eq] at hrest
    obtain ⟨front, hfront, -⟩ := eq_append_of_dropBytes? hrest
    rw [hfront]
    exact fun c hc => List.mem_append_right _ (takeBytes_subset rest (q - p) hc)
  case h_2 => simp

lemma Source.isCut_zero (s : Source) : s.IsCut 0 := ⟨s.chars, dropBytes?_zero s.chars⟩

lemma Source.isCut_size (s : Source) : s.IsCut s.size := by
  refine ⟨[], ?_⟩
  have := dropBytes?_append s.chars []
  rwa [List.append_nil, ← s.size_eq] at this

/-! ## Movements -/

namespace Cursor

lemma before_cons {a : Char} {rest : List Char} {pos : Nat} :
    Before ⟨a :: rest, pos⟩ ⟨rest, pos + a.utf8Size⟩ := ⟨[a], by simp⟩

lemma before_advance (c : Cursor) : c.Before c.advance := by
  rcases c with ⟨_ | ⟨a, rest⟩, pos⟩
  · exact .refl _
  · exact before_cons

lemma before_skipIf (c : Cursor) (test : Char → Bool) : c.Before (c.skipIf test) := by
  rw [skipIf]
  split
  · exact c.before_advance
  · exact .refl c

lemma before_skip (c : Cursor) (n : Nat) : c.Before (c.skip n) := by
  induction n generalizing c with
  | zero => exact .refl c
  | succ n ih => exact c.before_advance.trans (ih c.advance)

lemma skip_append (as cs : List Char) (pos : Nat) :
    skip ⟨as ++ cs, pos⟩ as.length = ⟨cs, pos + byteLength as⟩ := by
  induction as generalizing pos with
  | nil => rfl
  | cons a as ih =>
    have hadvance : advance ⟨a :: as ++ cs, pos⟩ = ⟨as ++ cs, pos + a.utf8Size⟩ := rfl
    rw [List.length_cons, skip, hadvance, ih, byteLength_cons, Nat.add_assoc]

/-- Passing a text that stands at a cursor. -/
lemma textTo_skip {c : Cursor} {as : List Char} (h : as <+: c.rest) :
    c.textTo (c.skip as.length) = as := by
  obtain ⟨rest, pos⟩ := c
  obtain ⟨cs, rfl⟩ : as <+: rest := h
  rw [skip_append, textTo_append]

lemma before_runFrom (test : Char → Bool) (rest : List Char) (pos : Nat) :
    Before ⟨rest, pos⟩ (runFrom test rest pos) := by
  induction rest generalizing pos with
  | nil => exact .refl _
  | cons a rest ih =>
    rw [runFrom]
    split
    · exact before_cons.trans (ih _)
    · exact .refl _

lemma before_skipWhile (c : Cursor) (test : Char → Bool) : c.Before (c.skipWhile test) :=
  before_runFrom test c.rest c.pos

/-- Passing a character that is there moves a cursor. -/
lemma pos_lt_advance {c : Cursor} (h : c.rest ≠ []) : c.pos < c.advance.pos := by
  rcases c with ⟨_ | ⟨a, rest⟩, pos⟩
  · exact absurd rfl h
  · have := a.utf8Size_pos
    simp only [advance]
    omega

/-- Passing a run that is not empty moves a cursor. -/
lemma pos_lt_skipWhile {c : Cursor} {test : Char → Bool} (h : c.sees test = true) :
    c.pos < (c.skipWhile test).pos := by
  rcases c with ⟨_ | ⟨a, rest⟩, pos⟩
  · simp [sees, peek?] at h
  · have hsize := a.utf8Size_pos
    have ha : test a = true := by simpa [sees, peek?] using h
    have hle := (before_runFrom test rest (pos + a.utf8Size)).pos_le
    simp only [skipWhile, runFrom, ha, if_true] at hle ⊢
    omega

end Cursor

/-! ## Movements on a line -/

/-- A text in which no line ends. -/
def OneLine (cs : List Char) : Prop := ∀ c ∈ cs, endsLine c = false

-- Named here, since over a finite type Mathlib has an instance that tries every character.
instance (cs : List Char) : Decidable (OneLine cs) :=
  List.decidableBAll (fun c => endsLine c = false) cs

@[simp] lemma oneLine_nil : OneLine [] := by simp [OneLine]

@[simp] lemma oneLine_cons {c : Char} {cs : List Char} :
    OneLine (c :: cs) ↔ endsLine c = false ∧ OneLine cs := by simp [OneLine]

@[simp] lemma oneLine_append {as bs : List Char} :
    OneLine (as ++ bs) ↔ OneLine as ∧ OneLine bs := by simp [OneLine, or_imp, forall_and]

/-- A class of characters without the two that end a line. -/
lemma endsLine_of_test {test : Char → Bool} (hfeed : test '\n' = false)
    (hreturn : test '\r' = false) : ∀ a, test a = true → endsLine a = false := by
  intro a ha
  have hne : a ≠ '\n' ∧ a ≠ '\r' :=
    ⟨fun h => by simp [h, hfeed] at ha, fun h => by simp [h, hreturn] at ha⟩
  simpa [endsLine] using hne

namespace Cursor

/-- The cursor `d` is reached from `c` without passing a character of a class. -/
def Avoids (bad : Char → Bool) (c d : Cursor) : Prop :=
  c.Before d ∧ ∀ a ∈ c.textTo d, bad a = false

/-- The cursor `d` is reached from `c` by passing characters of one line. -/
def OnLineTo (c d : Cursor) : Prop := c.Avoids endsLine d

section

variable {bad : Char → Bool} {c d e : Cursor}

lemma Avoids.refl (bad : Char → Bool) (c : Cursor) : c.Avoids bad c := by
  refine ⟨.refl c, ?_⟩
  rw [textTo_self]
  exact List.forall_mem_nil _

lemma Avoids.trans (h : c.Avoids bad d) (h' : d.Avoids bad e) : c.Avoids bad e := by
  refine ⟨h.1.trans h'.1, ?_⟩
  rw [textTo_trans h.1 h'.1]
  exact List.forall_mem_append.mpr ⟨h.2, h'.2⟩

lemma Avoids.mono {bad' : Char → Bool} (hbad : ∀ a, bad a = false → bad' a = false)
    (h : c.Avoids bad d) : c.Avoids bad' d := ⟨h.1, fun a ha => hbad a (h.2 a ha)⟩

lemma avoids_cons {a : Char} (ha : bad a = false) {rest : List Char} {pos : Nat} :
    Avoids bad ⟨a :: rest, pos⟩ ⟨rest, pos + a.utf8Size⟩ := by
  refine ⟨before_cons, ?_⟩
  rw [textTo_cons (.refl _), textTo_self]
  simp [ha]

lemma avoids_advance (h : ∀ a ∈ c.rest.head?, bad a = false) : c.Avoids bad c.advance := by
  rcases c with ⟨_ | ⟨a, rest⟩, pos⟩
  · exact .refl bad _
  · exact avoids_cons (h a rfl)

variable {test : Char → Bool} (htest : ∀ a, test a = true → bad a = false)
include htest

lemma avoids_advance_of_sees (h : c.sees test = true) : c.Avoids bad c.advance :=
  avoids_advance fun a ha => htest a (by rwa [sees, peek?, ha] at h)

lemma avoids_skipIf (c : Cursor) : c.Avoids bad (c.skipIf test) := by
  rw [skipIf]
  split
  case isTrue h => exact avoids_advance_of_sees htest h
  case isFalse => exact .refl bad c

lemma avoids_runFrom (rest : List Char) (pos : Nat) :
    Avoids bad ⟨rest, pos⟩ (runFrom test rest pos) := by
  induction rest generalizing pos with
  | nil => exact .refl bad _
  | cons a rest ih =>
    rw [runFrom]
    split
    case isTrue ha => exact (avoids_cons (htest a ha)).trans (ih _)
    case isFalse => exact .refl bad _

lemma avoids_skipWhile (c : Cursor) : c.Avoids bad (c.skipWhile test) :=
  avoids_runFrom htest c.rest c.pos

end

/-! ## Runs of characters -/

/-- A run ends in front of a character that does not belong to it. -/
lemma runFrom_append {test : Char → Bool} {as cs : List Char} (has : as.all test = true)
    (hcs : cs.head?.any test = false) (pos : Nat) :
    runFrom test (as ++ cs) pos = ⟨cs, pos + byteLength as⟩ := by
  induction as generalizing pos with
  | nil =>
    cases cs with
    | nil => rfl
    | cons c cs =>
      have hc : test c = false := by simpa using hcs
      simp [runFrom, hc]
  | cons a as ih =>
    simp only [List.all_cons, Bool.and_eq_true] at has
    rw [List.cons_append, runFrom, if_pos has.1, ih has.2, byteLength_cons, Nat.add_assoc]

/-- What a run passes, and what stands behind it. -/
lemma exists_runFrom (test : Char → Bool) (cs : List Char) (pos : Nat) :
    ∃ as rest, cs = as ++ rest ∧ as.all test = true ∧ rest.head?.any test = false ∧
      runFrom test cs pos = ⟨rest, pos + byteLength as⟩ := by
  induction cs generalizing pos with
  | nil => exact ⟨[], [], rfl, rfl, rfl, rfl⟩
  | cons c cs ih =>
    rw [runFrom]
    by_cases hc : test c = true
    · obtain ⟨as, rest, hsplit, has, hrest, hrun⟩ := ih (pos + c.utf8Size)
      refine ⟨c :: as, rest, by rw [hsplit, List.cons_append], by simp [hc, has], hrest, ?_⟩
      rw [if_pos hc, hrun, byteLength_cons, Nat.add_assoc]
    · exact ⟨[], c :: cs, rfl, rfl, by simpa using hc, if_neg hc⟩

end Cursor

end InlineValues
