import InlineValues.Proofs.Text.Utf16
import Mathlib.Order.GaloisConnection.Basic

/-!
# UTF-16 offsets and byte offsets are adjoint

Between the cuts of a text and the UTF-16 offsets the two conversions form a Galois connection
(`Source.gc_utf16`): a cut lies at or before the byte offset of `n` just when its own UTF-16 offset
is at most `n`.  All rounding follows from that.  A UTF-16 offset goes back to the last cut before
it, and a byte offset counts as the next cut does (`Source.isLeast_nextCut`).

`Source.ConvertsOffsets` collects what an editor may rely on, and `Source.convertsOffsets` is the
proof for every text.
-/

namespace InlineValues

/-- A place behind some characters is not behind the byte offset of `n` just when these characters
have no more than `n` code units. -/
lemma byteLength_le_byteOfUtf16 (front behind : List Char) (n : Nat) :
    byteLength front ≤ byteOfUtf16 (front ++ behind) n ↔ utf16Length front ≤ n := by
  induction front generalizing n with
  | nil => simp
  | cons c front ih =>
    have hpos := c.utf8Size_pos
    have hrest := ih (n - utf16Size c)
    rw [List.cons_append, byteOfUtf16_cons, byteLength_cons, utf16Length_cons]
    split <;> omega

lemma exists_append_byteOfUtf16 (cs : List Char) (n : Nat) :
    ∃ front behind, cs = front ++ behind ∧ byteLength front = byteOfUtf16 cs n := by
  induction cs generalizing n with
  | nil => exact ⟨[], [], rfl, (byteOfUtf16_nil n).symm⟩
  | cons c cs ih =>
    rw [byteOfUtf16_cons]
    split
    · exact ⟨[], c :: cs, rfl, rfl⟩
    · obtain ⟨front, behind, hcs, hfront⟩ := ih (n - utf16Size c)
      exact ⟨c :: front, behind, congrArg (c :: ·) hcs, by rw [byteLength_cons, hfront]⟩

/-- Going to code units and back leads to no place in front. -/
lemma le_byteOfUtf16_utf16OfByte {cs : List Char} {p : Nat} (h : p ≤ byteLength cs) :
    p ≤ byteOfUtf16 cs (utf16OfByte cs p) := by
  induction cs generalizing p with
  | nil => simpa using h
  | cons c cs ih =>
    by_cases hp : p = 0
    · omega
    · have hrest := ih (p := p - c.utf8Size) (by rw [byteLength_cons] at h; omega)
      rw [utf16OfByte_cons c cs hp, byteOfUtf16_cons, if_neg (by omega), Nat.add_sub_cancel_left]
      omega

/-- In a part at the front of a text an offset is held at the end of the part. -/
lemma byteOfUtf16_front (front behind : List Char) (n : Nat) :
    byteOfUtf16 front n = min (byteLength front) (byteOfUtf16 (front ++ behind) n) := by
  induction front generalizing n with
  | nil => simp
  | cons c front ih =>
    have hrest := ih (n - utf16Size c)
    rw [List.cons_append, byteOfUtf16_cons, byteOfUtf16_cons, byteLength_cons]
    split <;> omega

/-- A UTF-16 offset comes back from the bytes as the last one before it that is not inside a
surrogate pair, held at the end. -/
lemma isGreatest_lastUnits (cs : List Char) (n : Nat) :
    IsGreatest {m | m ≤ min n (utf16Length cs) ∧ ∃ front, front <+: cs ∧ utf16Length front = m}
      (utf16OfByte cs (byteOfUtf16 cs n)) := by
  obtain ⟨front, behind, hcs, hfront⟩ := exists_append_byteOfUtf16 cs n
  have hlast : utf16OfByte cs (byteOfUtf16 cs n) = utf16Length front := by
    rw [← hfront, hcs, utf16OfByte_append]
  have hle : utf16Length front ≤ n := by
    rw [← byteLength_le_byteOfUtf16 front behind, ← hcs, hfront]
  have hend : utf16Length front ≤ utf16Length cs := by
    rw [hcs, utf16Length_append]
    exact Nat.le_add_right _ _
  refine ⟨⟨?_, front, ⟨behind, hcs.symm⟩, hlast.symm⟩, ?_⟩
  · rw [hlast]
    exact Nat.le_min.mpr ⟨hle, hend⟩
  · rintro m ⟨hm, before, ⟨rest, hrest⟩, rfl⟩
    have hbefore := (byteLength_le_byteOfUtf16 before rest n).mpr (Nat.le_min.mp hm).1
    rw [hrest] at hbefore
    calc utf16Length before = utf16OfByte cs (byteLength before) := by
          rw [← hrest, utf16OfByte_append]
      _ ≤ utf16OfByte cs (byteOfUtf16 cs n) := utf16OfByte_mono cs hbefore

namespace Source

variable (s : Source)

lemma isCut_byteOfUtf16 (n : Nat) : s.IsCut (byteOfUtf16 s.chars n) :=
  isCut_iff.mpr (exists_append_byteOfUtf16 s.chars n)

lemma IsCut.utf16OfByte_le_iff {s : Source} {p : Nat} (h : s.IsCut p) (n : Nat) :
    utf16OfByte s.chars p ≤ n ↔ p ≤ byteOfUtf16 s.chars n := by
  obtain ⟨front, behind, hchars, rfl⟩ := isCut_iff.mp h
  rw [hchars, utf16OfByte_append, byteLength_le_byteOfUtf16]

/-- The conversions between the cuts of a text and the UTF-16 offsets are adjoint. -/
theorem gc_utf16 : GaloisConnection (fun p : {p // s.IsCut p} => utf16OfByte s.chars p)
    fun n => ⟨byteOfUtf16 s.chars n, s.isCut_byteOfUtf16 n⟩ :=
  fun p n => p.2.utf16OfByte_le_iff n

lemma byteOfUtf16_mono {m n : Nat} (h : m ≤ n) :
    byteOfUtf16 s.chars m ≤ byteOfUtf16 s.chars n := s.gc_utf16.monotone_u h

/-- A byte offset comes back from the code units as the next cut, if it does not lie past the
end. -/
theorem isLeast_nextCut {p : Nat} (h : p ≤ s.size) :
    IsLeast {q | s.IsCut q ∧ p ≤ q} (byteOfUtf16 s.chars (utf16OfByte s.chars p)) := by
  refine ⟨⟨s.isCut_byteOfUtf16 _, le_byteOfUtf16_utf16OfByte (s.size_eq ▸ h)⟩, ?_⟩
  rintro q ⟨hq, hle⟩
  have hback := s.byteOfUtf16_mono (utf16OfByte_mono s.chars hle)
  rwa [hq.byteOfUtf16_utf16OfByte] at hback

/-- How byte offsets and UTF-16 offsets of a text are converted into each other. -/
structure ConvertsOffsets : Prop where
  /-- The byte offset of a UTF-16 offset lies between two characters. -/
  cut : ∀ n, s.IsCut (byteOfUtf16 s.chars n)
  /-- The two conversions are adjoint on the cuts. -/
  adjoint : ∀ n p, s.IsCut p → (utf16OfByte s.chars p ≤ n ↔ p ≤ byteOfUtf16 s.chars n)
  /-- On a cut, nothing is lost. -/
  inverse : ∀ p, s.IsCut p → byteOfUtf16 s.chars (utf16OfByte s.chars p) = p
  byte_mono : Monotone (byteOfUtf16 s.chars)
  utf16_mono : Monotone (utf16OfByte s.chars)
  /-- An offset inside a surrogate pair goes back to the start of the character. -/
  inside_pair : ∀ front c behind, s.chars = front ++ c :: behind → utf16Size c = 2 →
    byteOfUtf16 s.chars (utf16Length front + 1) = byteLength front
  /-- A UTF-16 offset past the end is held at the end. -/
  byte_end : ∀ n, utf16Length s.chars ≤ n → byteOfUtf16 s.chars n = s.size
  /-- A byte offset past the end is held at the end. -/
  utf16_end : ∀ p, s.size ≤ p → utf16OfByte s.chars p = utf16Length s.chars
  /-- An offset inside a character counts as the next cut. -/
  inside_char : ∀ p q, IsLeast {q | s.IsCut q ∧ p ≤ q} q →
    utf16OfByte s.chars p = utf16OfByte s.chars q
  /-- No offset is larger than the text has bytes. -/
  bounded : ∀ n, byteOfUtf16 s.chars n ≤ s.size ∧ utf16OfByte s.chars n ≤ s.size
  /-- The short way through an ASCII text and the walk over the characters give the same. -/
  walk : ∀ n, byteOfUtf16 s.chars n = byteOfUtf16From 0 s.chars n ∧
    utf16OfByte s.chars n = utf16OfByteFrom 0 s.chars n

/-- **Byte offsets and UTF-16 offsets are adjoint.**  For every text, to convert a byte offset
between two characters into UTF-16 code units and to convert code units back is a Galois connection,
in which nothing is lost on the way to the code units and back.  An offset inside a surrogate pair
goes back to the start of the character, one inside a character in bytes counts as the next cut, and
one past the end is held there. -/
theorem convertsOffsets : s.ConvertsOffsets where
  cut := s.isCut_byteOfUtf16
  adjoint n p hp := hp.utf16OfByte_le_iff n
  inverse p hp := hp.byteOfUtf16_utf16OfByte
  byte_mono _ _ := s.byteOfUtf16_mono
  utf16_mono _ _ := utf16OfByte_mono s.chars
  inside_pair front c behind hchars hpair := by
    rw [hchars, byteOfUtf16_append_add, byteOfUtf16_cons, hpair]
    rfl
  byte_end n hn := by
    have hend := byteOfUtf16_append_add s.chars [] (n - utf16Length s.chars)
    rwa [List.append_nil, Nat.add_sub_cancel' hn, byteOfUtf16_nil, ← s.size_eq] at hend
  utf16_end p hp := by
    have hend := utf16OfByte_append_add s.chars [] (p - byteLength s.chars)
    rwa [List.append_nil, Nat.add_sub_cancel' (s.size_eq ▸ hp), utf16OfByte_nil] at hend
  inside_char p q hq := by
    have hnext := s.isLeast_nextCut (hq.1.2.trans hq.1.1.le_size)
    refine le_antisymm (utf16OfByte_mono s.chars hq.1.2) ?_
    exact (hq.1.1.utf16OfByte_le_iff _).mpr (hq.2 hnext.1)
  bounded n := ⟨(s.isCut_byteOfUtf16 n).le_size, s.utf16OfByte_le_size n⟩
  walk n := by simp [byteOfUtf16From_eq, utf16OfByteFrom_eq]

-- `é` has two bytes and one code unit, `𝒳` has four bytes and two.
example : (List.range 9).map (utf16OfByte ['é', '𝒳', 'z']) = [0, 1, 1, 3, 3, 3, 3, 4, 4] ∧
    (List.range 6).map (byteOfUtf16 ['é', '𝒳', 'z']) = [0, 2, 2, 6, 7, 7] := by decide

end Source

end InlineValues
