import InlineValues.Text.Bytes

/-!
# Source text with random access

The lexer walks a list of characters, while the editor, the token lookup and the printer ask for
the text at arbitrary byte offsets.  A `Source` holds the characters together with a table of the
suffix that starts at each byte, so that `Source.suffix?` answers in constant time; the table is
tied to `dropBytes?` by a field of the type, so that nothing reasons about it again.
-/

namespace InlineValues

/-- A source text: its characters, their length in bytes, and the suffix at every byte offset. -/
structure Source where
  chars : List Char
  size : Nat
  suffixes : Array (Option (List Char))
  size_eq : size = byteLength chars
  suffixes_eq : ∀ p, suffixes[p]?.join = dropBytes? chars p

namespace Source

/-! ## The table of suffixes -/

/-- The suffixes of `cs` by byte offset, `none` inside a character. -/
def suffixList : List Char → List (Option (List Char))
  | [] => [some []]
  | c :: cs => some (c :: cs) :: (List.replicate (c.utf8Size - 1) none ++ suffixList cs)

/-- `suffixList`, pushed onto an array. -/
def pushSuffixes (table : Array (Option (List Char))) : List Char → Array (Option (List Char))
  | [] => table.push (some [])
  | c :: cs =>
    pushSuffixes (table.push (some (c :: cs)) ++ Array.replicate (c.utf8Size - 1) none) cs

theorem toList_pushSuffixes (table : Array (Option (List Char))) (cs : List Char) :
    (pushSuffixes table cs).toList = table.toList ++ suffixList cs := by
  induction cs generalizing table with
  | nil => simp [pushSuffixes, suffixList]
  | cons c cs ih => simp [pushSuffixes, suffixList, ih]

theorem suffixList_join (cs : List Char) (p : Nat) :
    (suffixList cs)[p]?.join = dropBytes? cs p := by
  induction cs generalizing p with
  | nil => cases p <;> simp [suffixList, dropBytes?]
  | cons c cs ih =>
    have hc := c.utf8Size_pos
    cases p with
    | zero => simp [suffixList]
    | succ p =>
      simp only [suffixList, List.getElem?_cons_succ, dropBytes?, List.getElem?_append,
        List.length_replicate, List.getElem?_replicate]
      by_cases h : p < c.utf8Size - 1
      · rw [if_pos h, if_pos h, if_pos (by omega)]
        rfl
      · rw [if_neg h, if_neg (by omega), ih]
        congr 1
        omega

/-- The source text made of the given characters. -/
def ofChars (cs : List Char) : Source where
  chars := cs
  size := byteLength cs
  suffixes := pushSuffixes #[] cs
  size_eq := rfl
  suffixes_eq p := by
    rw [← suffixList_join cs p, ← Array.getElem?_toList, toList_pushSuffixes]
    simp

/-- The source text of a string. -/
def ofString (s : String) : Source := ofChars s.toList

/-- The text as a string. -/
def toString (s : Source) : String := String.ofList s.chars

/-! ## Access by byte offset -/

/-- The text from byte `p` on, if `p` lies between two characters or at an end. -/
def suffix? (s : Source) (p : Nat) : Option (List Char) := s.suffixes[p]?.join

@[simp] theorem suffix?_eq (s : Source) (p : Nat) : s.suffix? p = dropBytes? s.chars p :=
  s.suffixes_eq p

/-- The text from byte `p` on; empty where there is none. -/
def suffix (s : Source) (p : Nat) : List Char := (s.suffix? p).getD []

/-- The text of `[start, stop)`, if both offsets are cuts of the text and in order. -/
def slice? (s : Source) (start stop : Nat) : Option (List Char) :=
  if stop < start then none
  else match s.suffix? start, s.suffix? stop with
    | some rest, some _ => some (takeBytes rest (stop - start))
    | _, _ => none

/-- The text of `[start, stop)`; empty where there is none. -/
def slice (s : Source) (start stop : Nat) : List Char := (s.slice? start stop).getD []

@[simp] theorem chars_ofChars (cs : List Char) : (ofChars cs).chars = cs := rfl

@[simp] theorem size_ofChars (cs : List Char) : (ofChars cs).size = byteLength cs := rfl

end Source

end InlineValues
