import InlineValues.Text.Span
import InlineValues.Text.Utf16
import InlineValues.Proofs.Token.Cursor
import Mathlib.Algebra.GroupWithZero.Nat

/-!
# UTF-16 offsets and byte offsets undo each other

`utf16Units` is the UTF-16 form of a list of characters, and `utf16Length` its length.  The two
conversions of offsets are monotone and never lead past the end, and on the cuts of a text they undo
each other: behind the characters `as` lies the byte offset `byteLength as`, which is the UTF-16
offset `utf16Length as`.  So the text between two cuts has the code units between the two UTF-16
offsets (`take_utf16Units`).
-/

namespace InlineValues

/-! ## Code units -/

/-- The UTF-16 code units of a character: the character itself, or a pair of surrogates. -/
def utf16CharUnits (c : Char) : List Nat :=
  if c.val < 0x10000 then [c.toNat]
  else [0xD800 + (c.toNat - 0x10000) / 0x400, 0xDC00 + (c.toNat - 0x10000) % 0x400]

/-- The UTF-16 form of a list of characters. -/
def utf16Units (cs : List Char) : List Nat := cs.flatMap utf16CharUnits

/-- The number of UTF-16 code units of a list of characters. -/
def utf16Length (cs : List Char) : Nat := (cs.map utf16Size).sum

@[simp] lemma utf16Units_append (as bs : List Char) :
    utf16Units (as ++ bs) = utf16Units as ++ utf16Units bs := List.flatMap_append

@[simp] lemma utf16Length_nil : utf16Length [] = 0 := rfl

@[simp] lemma utf16Length_cons (c : Char) (cs : List Char) :
    utf16Length (c :: cs) = utf16Size c + utf16Length cs := by
  simp [utf16Length]

@[simp] lemma utf16Length_append (as bs : List Char) :
    utf16Length (as ++ bs) = utf16Length as + utf16Length bs := by
  simp [utf16Length]

lemma length_utf16CharUnits (c : Char) : (utf16CharUnits c).length = utf16Size c := by
  rw [utf16CharUnits, utf16Size]
  split <;> rfl

lemma length_utf16Units (cs : List Char) : (utf16Units cs).length = utf16Length cs := by
  induction cs with
  | nil => rfl
  | cons c cs ih =>
    rw [utf16Units, List.flatMap_cons, List.length_append, length_utf16CharUnits, utf16Length_cons]
    exact congrArg (utf16Size c + ·) ih

lemma utf16Size_pos (c : Char) : 0 < utf16Size c := by
  rw [utf16Size]
  split <;> omega

/-- No character has more UTF-16 code units than bytes. -/
lemma utf16Size_le_utf8Size (c : Char) : utf16Size c ≤ c.utf8Size := by
  have hpos := c.utf8Size_pos
  rw [utf16Size]
  split
  case isTrue => omega
  case isFalse h =>
    have hone : c.utf8Size ≠ 1 := fun hone => h (UInt32.lt_of_le_of_lt
      (Char.utf8Size_eq_one_iff.mp hone) (by decide))
    omega

/-! ## ASCII texts -/

/-- An ASCII character has one byte and one code unit. -/
lemma sizes_of_isAscii {c : Char} (h : isAscii c = true) :
    c.utf8Size = 1 ∧ utf16Size c = 1 := by
  have hlow : c.val < 128 := by simpa [isAscii] using h
  have hone : c.val ≤ 127 := by
    rw [UInt32.lt_iff_toNat_lt] at hlow
    rw [UInt32.le_iff_toNat_le]
    exact Nat.le_of_lt_succ hlow
  exact ⟨Char.utf8Size_eq_one_iff.mpr hone, if_pos (UInt32.lt_trans hlow (by decide))⟩

/-! ## From bytes to code units -/

lemma utf16OfByteFrom_add (start : Nat) (cs : List Char) (p : Nat) :
    utf16OfByteFrom start cs p = start + utf16OfByteFrom 0 cs p := by
  induction cs generalizing start p with
  | nil => rfl
  | cons c cs ih =>
    rw [utf16OfByteFrom, utf16OfByteFrom]
    split
    · rfl
    · rw [ih, ih (0 + utf16Size c)]
      omega

/-- In an ASCII text the walk ends at the offset where it is to end. -/
lemma utf16OfByteFrom_of_isAscii {cs : List Char} (h : cs.all isAscii = true) (p : Nat) :
    utf16OfByteFrom 0 cs p = min p (byteLength cs) := by
  induction cs generalizing p with
  | nil => exact (Nat.min_zero p).symm
  | cons c cs ih =>
    rw [List.all_cons, Bool.and_eq_true] at h
    obtain ⟨hbytes, hunits⟩ := sizes_of_isAscii h.1
    rw [utf16OfByteFrom, byteLength_cons, hbytes, hunits]
    split
    · omega
    · rw [utf16OfByteFrom_add, ih h.2]
      omega

/-- The walk gives the UTF-16 offset of any text, ASCII or not. -/
lemma utf16OfByteFrom_eq (start : Nat) (cs : List Char) (p : Nat) :
    utf16OfByteFrom start cs p = start + utf16OfByte cs p := by
  rw [utf16OfByteFrom_add, utf16OfByte]
  split
  case isTrue h => rw [utf16OfByteFrom_of_isAscii h]
  case isFalse => rfl

@[simp] lemma utf16OfByte_nil (p : Nat) : utf16OfByte [] p = 0 := Nat.min_zero p

@[simp] lemma utf16OfByte_zero (cs : List Char) : utf16OfByte cs 0 = 0 := by
  cases cs with
  | nil => exact utf16OfByte_nil 0
  | cons c cs =>
    have hwalk := utf16OfByteFrom_eq 0 (c :: cs) 0
    rw [utf16OfByteFrom, if_pos rfl] at hwalk
    omega

lemma utf16OfByte_cons (c : Char) (cs : List Char) {p : Nat} (hp : p ≠ 0) :
    utf16OfByte (c :: cs) p = utf16Size c + utf16OfByte cs (p - c.utf8Size) := by
  have hwalk := utf16OfByteFrom_eq 0 (c :: cs) p
  rw [utf16OfByteFrom, if_neg hp, utf16OfByteFrom_eq] at hwalk
  omega

/-- A byte offset further on has no smaller UTF-16 offset, wherever the two lie. -/
lemma utf16OfByte_mono (cs : List Char) {p q : Nat} (h : p ≤ q) :
    utf16OfByte cs p ≤ utf16OfByte cs q := by
  induction cs generalizing p q with
  | nil => simp
  | cons c cs ih =>
    by_cases hp : p = 0
    · simp [hp]
    · rw [utf16OfByte_cons c cs hp, utf16OfByte_cons c cs (by omega)]
      exact Nat.add_le_add_left (ih (Nat.sub_le_sub_right h _)) _

lemma utf16OfByte_le_byteLength (cs : List Char) (p : Nat) :
    utf16OfByte cs p ≤ byteLength cs := by
  induction cs generalizing p with
  | nil => simp
  | cons c cs ih =>
    by_cases hp : p = 0
    · simp [hp]
    · rw [utf16OfByte_cons c cs hp, byteLength_cons]
      exact Nat.add_le_add (utf16Size_le_utf8Size c) (ih _)

lemma Source.utf16OfByte_le_size (s : Source) (p : Nat) : utf16OfByte s.chars p ≤ s.size :=
  s.size_eq ▸ utf16OfByte_le_byteLength s.chars p

/-- The UTF-16 offset of a place behind some characters. -/
lemma utf16OfByte_append_add (as bs : List Char) (p : Nat) :
    utf16OfByte (as ++ bs) (byteLength as + p) = utf16Length as + utf16OfByte bs p := by
  induction as with
  | nil => simp
  | cons a as ih =>
    have ha := a.utf8Size_pos
    have hpassed : byteLength (a :: as) + p - a.utf8Size = byteLength as + p := by
      rw [byteLength_cons]
      omega
    rw [List.cons_append, utf16OfByte_cons a _ (by rw [byteLength_cons]; omega), hpassed, ih,
      utf16Length_cons, Nat.add_assoc]

/-- The UTF-16 offset behind some characters. -/
lemma utf16OfByte_append (as bs : List Char) :
    utf16OfByte (as ++ bs) (byteLength as) = utf16Length as := by
  simpa using utf16OfByte_append_add as bs 0

/-! ## From code units to bytes -/

lemma byteOfUtf16From_add (start : Nat) (cs : List Char) (n : Nat) :
    byteOfUtf16From start cs n = start + byteOfUtf16From 0 cs n := by
  induction cs generalizing start n with
  | nil => rfl
  | cons c cs ih =>
    rw [byteOfUtf16From, byteOfUtf16From]
    split
    · rfl
    · rw [ih, ih (0 + c.utf8Size)]
      omega

/-- In an ASCII text the walk ends at the offset where it is to end. -/
lemma byteOfUtf16From_of_isAscii {cs : List Char} (h : cs.all isAscii = true) (n : Nat) :
    byteOfUtf16From 0 cs n = min n (byteLength cs) := by
  induction cs generalizing n with
  | nil => exact (Nat.min_zero n).symm
  | cons c cs ih =>
    rw [List.all_cons, Bool.and_eq_true] at h
    obtain ⟨hbytes, hunits⟩ := sizes_of_isAscii h.1
    rw [byteOfUtf16From, byteLength_cons, hbytes, hunits]
    split
    · omega
    · rw [byteOfUtf16From_add, ih h.2]
      omega

/-- The walk gives the byte offset of any text, ASCII or not. -/
lemma byteOfUtf16From_eq (start : Nat) (cs : List Char) (n : Nat) :
    byteOfUtf16From start cs n = start + byteOfUtf16 cs n := by
  rw [byteOfUtf16From_add, byteOfUtf16]
  split
  case isTrue h => rw [byteOfUtf16From_of_isAscii h]
  case isFalse => rfl

@[simp] lemma byteOfUtf16_nil (n : Nat) : byteOfUtf16 [] n = 0 := Nat.min_zero n

lemma byteOfUtf16_cons (c : Char) (cs : List Char) (n : Nat) :
    byteOfUtf16 (c :: cs) n =
      if n < utf16Size c then 0 else c.utf8Size + byteOfUtf16 cs (n - utf16Size c) := by
  have hwalk := byteOfUtf16From_eq 0 (c :: cs) n
  rw [byteOfUtf16From, byteOfUtf16From_eq, Nat.zero_add, Nat.zero_add] at hwalk
  exact hwalk.symm

/-- The byte offset of a place behind some characters. -/
lemma byteOfUtf16_append_add (as bs : List Char) (n : Nat) :
    byteOfUtf16 (as ++ bs) (utf16Length as + n) = byteLength as + byteOfUtf16 bs n := by
  induction as with
  | nil => simp
  | cons a as ih =>
    have hpassed : utf16Length (a :: as) + n - utf16Size a = utf16Length as + n := by
      rw [utf16Length_cons]
      omega
    rw [List.cons_append, byteOfUtf16_cons, if_neg (by rw [utf16Length_cons]; omega), hpassed, ih,
      byteLength_cons, Nat.add_assoc]

@[simp] lemma byteOfUtf16_zero (cs : List Char) : byteOfUtf16 cs 0 = 0 := by
  cases cs with
  | nil => simp
  | cons c cs => rw [byteOfUtf16_cons, if_pos (utf16Size_pos c)]

/-- The byte offset behind some characters. -/
lemma byteOfUtf16_append (as bs : List Char) :
    byteOfUtf16 (as ++ bs) (utf16Length as) = byteLength as := by
  simpa using byteOfUtf16_append_add as bs 0

/-! ## Cuts -/

namespace Source.IsCut

variable {s : Source} {p q : Nat}

/-- At a cut of the text no conversion rounds. -/
lemma byteOfUtf16_utf16OfByte (h : s.IsCut p) :
    byteOfUtf16 s.chars (utf16OfByte s.chars p) = p := by
  obtain ⟨front, behind, hchars, rfl⟩ := Source.isCut_iff.mp h
  rw [hchars, utf16OfByte_append, byteOfUtf16_append]

/-- The code units between the UTF-16 offsets of two cuts are those of the text between them. -/
theorem take_utf16Units (hp : s.IsCut p) (hq : s.IsCut q) (h : p ≤ q) :
    ((utf16Units s.chars).drop (utf16OfByte s.chars p)).take
        (utf16OfByte s.chars q - utf16OfByte s.chars p) = utf16Units (s.slice p q) := by
  obtain ⟨front, between, behind, hchars, rfl, rfl, hslice⟩ := hp.exists_append hq h
  have hstart : utf16OfByte s.chars (byteLength front) = (utf16Units front).length := by
    rw [hchars, List.append_assoc, utf16OfByte_append, length_utf16Units]
  have hstop : utf16OfByte s.chars (byteLength (front ++ between)) =
      (utf16Units front).length + (utf16Units between).length := by
    rw [hchars, utf16OfByte_append, utf16Length_append, length_utf16Units, length_utf16Units]
  rw [hstart, hstop, hslice, hchars, Nat.add_sub_cancel_left, List.append_assoc,
    utf16Units_append, List.drop_left, utf16Units_append, List.take_left]

end Source.IsCut

end InlineValues
