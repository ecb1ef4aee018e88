/-!
# Byte offsets into a list of characters

Source text is held as a list of characters and addressed by byte offsets into its UTF-8 form.
`byteLength` measures a list, `dropBytes?` cuts it at an offset and `takeBytes` is the other side
of the cut.  An offset strictly inside a character, or past the end, has no cut: `dropBytes?` is
`none` there, and exactly there.
-/

namespace InlineValues

/-- The length in bytes of the UTF-8 form of a list of characters. -/
def byteLength (cs : List Char) : Nat := cs.foldl (fun n c => n + c.utf8Size) 0

/-- What is left of `cs` from byte `p` on, if `p` lies between two characters or at an end. -/
def dropBytes? : List Char → Nat → Option (List Char)
  | cs, 0 => some cs
  | [], _ + 1 => none
  | c :: cs, p + 1 => if p + 1 < c.utf8Size then none else dropBytes? cs (p + 1 - c.utf8Size)

/-- The characters of `cs` that start before byte `n`, behind the reverse of `taken`. -/
def takeBytesOnto (taken : List Char) : List Char → Nat → List Char
  | [], _ => taken.reverse
  | c :: cs, n =>
    if n = 0 then taken.reverse else takeBytesOnto (c :: taken) cs (n - c.utf8Size)

/-- The characters of `cs` that start before byte `n`. -/
def takeBytes (cs : List Char) (n : Nat) : List Char := takeBytesOnto [] cs n

theorem foldl_utf8Size (cs : List Char) (n : Nat) :
    cs.foldl (fun n c => n + c.utf8Size) n = n + byteLength cs := by
  induction cs generalizing n with
  | nil => rfl
  | cons c cs ih =>
    rw [byteLength, List.foldl_cons, List.foldl_cons, ih, ih]
    omega

@[simp] theorem byteLength_nil : byteLength [] = 0 := rfl

@[simp] theorem byteLength_cons (c : Char) (cs : List Char) :
    byteLength (c :: cs) = c.utf8Size + byteLength cs := by
  rw [byteLength, List.foldl_cons, foldl_utf8Size]
  omega

@[simp] theorem byteLength_append (as bs : List Char) :
    byteLength (as ++ bs) = byteLength as + byteLength bs := by
  induction as with
  | nil => simp
  | cons a as ih =>
    simp only [List.cons_append, byteLength_cons, ih]
    omega

theorem byteLength_eq_zero {cs : List Char} : byteLength cs = 0 ↔ cs = [] := by
  cases cs with
  | nil => simp
  | cons c cs => simp [Nat.ne_of_gt c.utf8Size_pos]

@[simp] theorem dropBytes?_zero (cs : List Char) : dropBytes? cs 0 = some cs := by
  cases cs <;> rfl

theorem takeBytesOnto_eq (taken cs : List Char) (n : Nat) :
    takeBytesOnto taken cs n = taken.reverse ++ takeBytes cs n := by
  induction cs generalizing taken n with
  | nil => simp [takeBytes, takeBytesOnto]
  | cons c cs ih =>
    by_cases hn : n = 0
    · simp [takeBytes, takeBytesOnto, hn]
    · rw [takeBytes, takeBytesOnto, takeBytesOnto, if_neg hn, if_neg hn, ih, ih [c]]
      simp

@[simp] theorem takeBytes_nil (n : Nat) : takeBytes [] n = [] := rfl

@[simp] theorem takeBytes_zero (cs : List Char) : takeBytes cs 0 = [] := by
  cases cs <;> simp [takeBytes, takeBytesOnto]

theorem takeBytes_cons (c : Char) (cs : List Char) {n : Nat} (hn : n ≠ 0) :
    takeBytes (c :: cs) n = c :: takeBytes cs (n - c.utf8Size) := by
  rw [takeBytes, takeBytesOnto, if_neg hn, takeBytesOnto_eq]
  rfl

/-- Taking as many bytes as a list has leaves out what follows it. -/
theorem takeBytes_append (as bs : List Char) : takeBytes (as ++ bs) (byteLength as) = as := by
  induction as with
  | nil => simp
  | cons a as ih =>
    have ha := a.utf8Size_pos
    rw [List.cons_append, takeBytes_cons _ _ (by simp only [byteLength_cons]; omega),
      byteLength_cons, Nat.add_sub_cancel_left, ih]

/-- Cutting after a prefix leaves what follows it. -/
theorem dropBytes?_append (as bs : List Char) :
    dropBytes? (as ++ bs) (byteLength as) = some bs := by
  induction as with
  | nil => simp
  | cons a as ih =>
    have ha := a.utf8Size_pos
    obtain ⟨k, hk⟩ : ∃ k, byteLength (a :: as) = k + 1 := ⟨a.utf8Size - 1 + byteLength as, by
      simp only [byteLength_cons]; omega⟩
    have hlen := byteLength_cons a as
    rw [hk, List.cons_append, dropBytes?, if_neg (by omega), ← ih]
    congr 1
    omega

/-- A cut splits the list: what is before it has the offset's length in bytes. -/
theorem eq_append_of_dropBytes? {cs rest : List Char} {p : Nat} (h : dropBytes? cs p = some rest) :
    ∃ before, cs = before ++ rest ∧ byteLength before = p := by
  induction cs generalizing p with
  | nil =>
    cases p with
    | zero => exact ⟨[], by simpa [dropBytes?] using h, rfl⟩
    | succ p => simp [dropBytes?] at h
  | cons c cs ih =>
    cases p with
    | zero => exact ⟨[], by simpa [dropBytes?] using h, rfl⟩
    | succ p =>
      rw [dropBytes?] at h
      split at h
      · simp at h
      · obtain ⟨before, hcs, hlen⟩ := ih h
        refine ⟨c :: before, by rw [hcs, List.cons_append], ?_⟩
        rw [byteLength_cons, hlen]
        omega

end InlineValues
