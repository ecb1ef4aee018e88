import InlineValues.Json.Reader
import InlineValues.Json.Writer
import InlineValues.Proofs.Text.Digits
import Mathlib.Data.List.TakeDrop

/-!
# JSON that is read back

What `Json.render` writes for a value, `Json.parse?` reads as this value (`parse?_render`), as long
as the value is plain: it holds no literal that denotes nothing, and all its numbers are natural
ones of 64 bits.  Other numbers are kept as they are written and would be read back too, but nothing
writes them.

The characters of a value are given by recursion on it (`Json.chars`), those of the further items of
an array and of the further members of an object together with the bracket that closes it.  So every
value stands in front of a comma or a bracket, or at the end, and no number goes on there
(`EndsNumber`).  The reader spends one unit of fuel for each value, item and member; none of them is
empty, so that twice the number of characters is enough.
-/

namespace InlineValues
namespace Json

/-! ## The characters of a value -/

/-- A string with its quotes. -/
def quoted (s : String) : List Char :=
  '\x22' :: (s.toList.flatMap fun c => (escape c).toList) ++ ['\x22']

mutual

/-- The characters of a value. -/
def chars : Json → List Char
  | null | unrepresentable => ['n', 'u', 'l', 'l']
  | bool true => ['t', 'r', 'u', 'e']
  | bool false => ['f', 'a', 'l', 's', 'e']
  | natural value => Nat.toDigits 10 value
  | number text => text.toList
  | string value => quoted value
  | array [] => ['[', ']']
  | array (item :: items) => '[' :: (item.chars ++ itemsChars items)
  | object [] => ['\x7b', '\x7d']
  | object ((name, value) :: members) =>
    '\x7b' :: (quoted name ++ ':' :: (value.chars ++ membersChars members))

/-- The characters of the further items of an array, up to its end. -/
def itemsChars : List Json → List Char
  | [] => [']']
  | item :: items => ',' :: (item.chars ++ itemsChars items)

/-- The characters of the further members of an object, up to its end. -/
def membersChars : List (String × Json) → List Char
  | [] => ['\x7d']
  | (name, value) :: members =>
    ',' :: (quoted name ++ ':' :: (value.chars ++ membersChars members))

end

mutual

/-- Whether a value denotes something throughout and its numbers are natural ones of 64 bits. -/
def isPlain : Json → Bool
  | null | bool _ | string _ => true
  | natural value => value < 2 ^ 64
  | number _ | unrepresentable => false
  | array items => allPlain items
  | object members => allMembersPlain members

/-- `isPlain` for every item. -/
def allPlain : List Json → Bool
  | [] => true
  | item :: items => item.isPlain && allPlain items

/-- `isPlain` for the value of every member. -/
def allMembersPlain : List (String × Json) → Bool
  | [] => true
  | (_, value) :: members => value.isPlain && allMembersPlain members

end

/-! ## Writing -/

lemma toList_renderStringOnto (out s : String) :
    (renderStringOnto out s).toList = out.toList ++ quoted s := by
  have hchars (cs : List Char) (out : String) :
      (cs.foldl (fun out c => out ++ escape c) out).toList =
        out.toList ++ cs.flatMap fun c => (escape c).toList := by
    induction cs generalizing out with
    | nil => simp
    | cons c cs ih => rw [List.foldl_cons, ih]; simp
  simp [renderStringOnto, quoted, hchars]

mutual

lemma toList_renderOnto (out : String) : ∀ v : Json,
    (renderOnto out v).toList = out.toList ++ v.chars
  | null | unrepresentable => by simp [renderOnto, chars]
  | bool true | bool false => by simp [renderOnto, chars]
  | natural value => by simp [renderOnto, chars]
  | number text => by simp [renderOnto, chars]
  | string value => toList_renderStringOnto out value
  | array [] => by simp [renderOnto, chars]
  | array (item :: items) => by
    rw [renderOnto, String.toList_push, toList_renderItemsOnto, toList_renderOnto]
    simp [chars]
  | object [] => by simp [renderOnto, chars]
  | object ((name, value) :: members) => by
    rw [renderOnto, String.toList_push, toList_renderMembersOnto, toList_renderOnto,
      String.toList_push, toList_renderStringOnto]
    simp [chars]

lemma toList_renderItemsOnto (out : String) : ∀ items : List Json,
    (renderItemsOnto out items).toList ++ [']'] = out.toList ++ itemsChars items
  | [] => by simp [renderItemsOnto, itemsChars]
  | item :: items => by
    rw [renderItemsOnto, toList_renderItemsOnto, toList_renderOnto]
    simp [itemsChars]

lemma toList_renderMembersOnto (out : String) : ∀ members : List (String × Json),
    (renderMembersOnto out members).toList ++ ['\x7d'] = out.toList ++ membersChars members
  | [] => by simp [renderMembersOnto, membersChars]
  | (name, value) :: members => by
    rw [renderMembersOnto, toList_renderMembersOnto, toList_renderOnto, String.toList_push,
      toList_renderStringOnto]
    simp [membersChars]

end

lemma toList_render (v : Json) : v.render.toList = v.chars := toList_renderOnto "" v

/-! ## One line -/

/-- What is written for a character: a letter behind a backslash, the code of a control character,
or the character. -/
lemma escape_cases (c : Char) :
    (∃ e, (escape c).toList = ['\\', e] ∧ unescape? e = some c ∧ e ≠ 'u' ∧ e ≠ '\n') ∨
      (c.val < 0x20 ∧ (escape c).toList =
        ['\\', 'u', '0', '0', hexDigit (c.val.toNat / 16), hexDigit (c.val.toNat % 16)]) ∨
      ((escape c).toList = [c] ∧ c ≠ '\x22' ∧ c ≠ '\\' ∧ ¬ c.val < 0x20) := by
  unfold escape
  split
  case isTrue h => exact .inl ⟨'\x22', by simp, by rw [eq_of_beq h]; rfl, by decide, by decide⟩
  split
  case isTrue h => exact .inl ⟨'\\', by simp, by rw [eq_of_beq h]; rfl, by decide, by decide⟩
  split
  case isTrue h => exact .inl ⟨'n', by simp, by rw [eq_of_beq h]; rfl, by decide, by decide⟩
  split
  case isTrue h => exact .inl ⟨'r', by simp, by rw [eq_of_beq h]; rfl, by decide, by decide⟩
  split
  case isTrue h => exact .inl ⟨'t', by simp, by rw [eq_of_beq h]; rfl, by decide, by decide⟩
  split
  case isTrue h => exact .inl ⟨'b', by simp, by rw [eq_of_beq h]; rfl, by decide, by decide⟩
  split
  case isTrue h => exact .inl ⟨'f', by simp, by rw [eq_of_beq h]; rfl, by decide, by decide⟩
  split
  case isTrue h => exact .inr (.inl ⟨h, by simp⟩)
  case isFalse hquote hbackslash _ _ _ _ _ hcontrol =>
    rw [beq_iff_eq] at hquote hbackslash
    exact .inr (.inr ⟨by simp, hquote, hbackslash, hcontrol⟩)

lemma linefeed_notMem_escape (c : Char) : '\n' ∉ (escape c).toList := by
  have hhex : ∀ n < 32, '\n' ≠ hexDigit (n / 16) ∧ '\n' ≠ hexDigit (n % 16) := by decide
  obtain ⟨e, hchars, -, -, he⟩ | ⟨hcontrol, hchars⟩ | ⟨hchars, -, -, hcontrol⟩ := escape_cases c
  · simp [hchars, Ne.symm he]
  · obtain ⟨hhigh, hlow⟩ := hhex _ (UInt32.lt_iff_toNat_lt.mp hcontrol)
    rw [hchars]
    simpa using ⟨hhigh, hlow⟩
  · rw [hchars, List.mem_singleton]
    rintro rfl
    exact hcontrol (by decide)

lemma linefeed_notMem_quoted (s : String) : '\n' ∉ quoted s := by
  simp [quoted, linefeed_notMem_escape]

mutual

/-- A plain value is written on one line. -/
lemma linefeed_notMem_chars : ∀ v : Json, v.isPlain = true → '\n' ∉ v.chars
  | null, _ | bool true, _ | bool false, _ => by simp [chars]
  | natural value, _ => fun hmem =>
    absurd (isDecimalDigit_of_mem_toDigits hmem) (by decide)
  | string value, _ => linefeed_notMem_quoted value
  | array [], _ | object [], _ => by simp [chars]
  | array (item :: items), h => by
    simp only [isPlain, allPlain, Bool.and_eq_true] at h
    simp [chars, linefeed_notMem_chars item h.1, linefeed_notMem_itemsChars items h.2]
  | object ((name, value) :: members), h => by
    simp only [isPlain, allMembersPlain, Bool.and_eq_true] at h
    simp [chars, linefeed_notMem_quoted, linefeed_notMem_chars value h.1,
      linefeed_notMem_membersChars members h.2]
  | number _, h | unrepresentable, h => by cases h

lemma linefeed_notMem_itemsChars :
    ∀ items : List Json, allPlain items = true → '\n' ∉ itemsChars items
  | [], _ => by simp [itemsChars]
  | item :: items, h => by
    simp only [allPlain, Bool.and_eq_true] at h
    simp [itemsChars, linefeed_notMem_chars item h.1, linefeed_notMem_itemsChars items h.2]

lemma linefeed_notMem_membersChars :
    ∀ members : List (String × Json), allMembersPlain members = true → '\n' ∉ membersChars members
  | [], _ => by simp [membersChars]
  | (name, value) :: members, h => by
    simp only [allMembersPlain, Bool.and_eq_true] at h
    simp [membersChars, linefeed_notMem_quoted, linefeed_notMem_chars value h.1,
      linefeed_notMem_membersChars members h.2]

end

/-! ## Reading strings -/

/-- A character that is written as it is is read as itself. -/
lemma readString_cons {c : Char} (hquote : c ≠ '\x22') (hbackslash : c ≠ '\\')
    (hcontrol : ¬ c.val < 0x20) (s : Spelled) (rest : List Char) :
    readString s (c :: rest) = readString (s.push c) rest := by
  rw [readString, if_neg (by simp [hcontrol, hbackslash])]
  · exact hquote
  all_goals
    intros
    exact absurd ‹c = '\\'› hbackslash

/-- A control character is read back from its code. -/
lemma readString_control {c : Char} (hcontrol : c.val < 0x20) (taken rest : List Char) :
    readString ⟨taken, none, true⟩ ('\\' :: 'u' :: '0' :: '0' ::
      hexDigit (c.val.toNat / 16) :: hexDigit (c.val.toNat % 16) :: rest) =
      readString ⟨c :: taken, none, true⟩ rest := by
  have hcodes : ∀ n < 32, codeUnit? '0' '0' (hexDigit (n / 16)) (hexDigit (n % 16)) = some n := by
    decide
  have hsmall : ∀ n < 32, Spelled.pushUnit ⟨taken, none, true⟩ n =
      ⟨Char.ofNat n :: taken, none, true⟩ := fun n hn => by
    have hhigh : ¬ 0xD800 ≤ n := by omega
    have hlow : ¬ 0xDC00 ≤ n := by omega
    simp [Spelled.pushUnit, Spelled.push, hhigh, hlow]
  have hlt : c.val.toNat < 32 := UInt32.lt_iff_toNat_lt.mp hcontrol
  rw [readString, hcodes _ hlt]
  dsimp only
  rw [hsmall _ hlt]
  congr 3
  exact Char.ofNat_toNat c

/-- A character is read back from what is written for it. -/
lemma readString_escape (c : Char) (taken rest : List Char) :
    readString ⟨taken, none, true⟩ ((escape c).toList ++ rest) =
      readString ⟨c :: taken, none, true⟩ rest := by
  obtain ⟨e, hchars, hescape, hcode, -⟩ | ⟨hcontrol, hchars⟩ |
    ⟨hchars, hquote, hbackslash, hplain⟩ := escape_cases c
  · rw [hchars, List.cons_append, List.singleton_append, readString]
    · rw [hescape]
      rfl
    · intros
      exact absurd ‹e = 'u'› hcode
  · rw [hchars]
    exact readString_control hcontrol taken rest
  · rw [hchars]
    exact readString_cons hquote hbackslash hplain _ rest

/-- A string is read back from behind its opening quote. -/
lemma readString_quoted (cs taken rest : List Char) :
    readString ⟨taken, none, true⟩
      ((cs.flatMap fun c => (escape c).toList) ++ '\x22' :: rest) =
      some (some (String.ofList (taken.reverse ++ cs)), rest) := by
  induction cs generalizing taken with
  | nil => simp [readString, Spelled.finish?]
  | cons c cs ih =>
    rw [List.flatMap_cons, List.append_assoc, readString_escape, ih]
    simp

lemma readString_name (s : String) (rest : List Char) :
    readString ⟨[], none, true⟩ ((s.toList.flatMap fun c => (escape c).toList) ++ '\x22' :: rest) =
      some (some s, rest) := by
  rw [readString_quoted, List.reverse_nil, List.nil_append, String.ofList_toList]

/-! ## Reading numbers -/

/-- A text in front of which a number ends. -/
def EndsNumber (rest : List Char) : Prop :=
  ∀ c ∈ rest.head?, isDecimalDigit c = false ∧ c ≠ '.' ∧ c ≠ 'e' ∧ c ≠ 'E'

lemma spanDigits_toDigits (n : Nat) {rest : List Char} (h : EndsNumber rest) :
    spanDigits (Nat.toDigits 10 n ++ rest) = (Nat.toDigits 10 n, rest) := by
  have hdigits : ∀ c ∈ Nat.toDigits 10 n, isDecimalDigit c = true := fun c hc =>
    isDecimalDigit_of_mem_toDigits hc
  rw [spanDigits, List.span_eq_takeWhile_dropWhile, List.takeWhile_append_of_pos hdigits,
    List.dropWhile_append_of_pos hdigits]
  cases rest with
  | nil => simp
  | cons c rest =>
    have hc : isDecimalDigit c = false := (h c rfl).1
    simp [hc]

lemma readWhole_toDigits (n : Nat) {rest : List Char} (h : EndsNumber rest) :
    readWhole (Nat.toDigits 10 n ++ rest) = some (Nat.toDigits 10 n, rest) := by
  cases n with
  | zero => rw [Nat.toDigits_zero]; rfl
  | succ n =>
    have hzero := head?_toDigits_ne (Nat.succ_pos n)
    have hspan := spanDigits_toDigits (n + 1) h
    cases hdigits : Nat.toDigits 10 (n + 1) with
    | nil => exact absurd hdigits Nat.toDigits_ne_nil
    | cons d digits =>
      rw [hdigits] at hzero hspan
      have hd : d ≠ '0' := fun heq => hzero (by rw [heq]; rfl)
      rw [List.cons_append] at hspan ⊢
      simp [readWhole, hd, hspan]

lemma readFraction_of_ends {rest : List Char} (h : EndsNumber rest) :
    readFraction rest = some ([], rest) := by
  cases rest with
  | nil => rfl
  | cons c rest =>
    rw [readFraction]
    rintro _ ⟨⟩
    exact (h '.' rfl).2.1 rfl

lemma readExponent_of_ends {rest : List Char} (h : EndsNumber rest) :
    readExponent rest = some ([], [], rest) := by
  cases rest with
  | nil => rfl
  | cons c rest =>
    obtain ⟨-, -, hsmall, hcapital⟩ := h c rfl
    simp [readExponent, hsmall, hcapital]

/-- A number is read back from its digits. -/
lemma readNumber_toDigits {n : Nat} (hn : n < 2 ^ 64) {rest : List Char} (h : EndsNumber rest) :
    readNumber (Nat.toDigits 10 n ++ rest) = some (natural n, rest) := by
  have hwhole := readWhole_toDigits n h
  have hvalue := digitsValue_toDigits n
  cases hdigits : Nat.toDigits 10 n with
  | nil => exact absurd hdigits Nat.toDigits_ne_nil
  | cons d digits =>
    have hd : isDecimalDigit d = true :=
      isDecimalDigit_of_mem_toDigits (hdigits ▸ List.mem_cons_self)
    have hminus : d ≠ '-' := by rintro rfl; exact absurd hd (by decide)
    rw [hdigits, List.cons_append] at hwhole
    rw [hdigits] at hvalue
    have hlt : n < 18446744073709551616 := hn
    simp [readNumber, hminus, hwhole, readFraction_of_ends h, readExponent_of_ends h, hvalue, hlt]

/-! ## Reading values -/

lemma skipBlanks_of_front {c : Char} (h : c ∉ [' ', '\n', '\t', '\r']) (cs : List Char) :
    skipBlanks (c :: cs) = c :: cs := by
  simp only [List.mem_cons, List.not_mem_nil, or_false, not_or] at h
  simp [skipBlanks, h]

/-- A digit is no blank and no closing bracket. -/
lemma notMem_blanks_of_isDecimalDigit {d : Char} (h : isDecimalDigit d = true) :
    d ∉ [' ', '\n', '\t', '\r', ']', '\x7d'] := by
  simp only [List.mem_cons, List.not_mem_nil, or_false]
  rintro (rfl | rfl | rfl | rfl | rfl | rfl) <;> exact absurd h (by decide)

/-- No value is empty, and no blank and no closing bracket stands at its front. -/
lemma exists_chars_eq {v : Json} (h : v.isPlain = true) :
    ∃ c cs, v.chars = c :: cs ∧ c ∉ [' ', '\n', '\t', '\r', ']', '\x7d'] := by
  cases v with
  | null => exact ⟨_, _, rfl, by decide⟩
  | bool value => cases value <;> exact ⟨_, _, rfl, by decide⟩
  | natural value =>
    cases hdigits : Nat.toDigits 10 value with
    | nil => exact absurd hdigits Nat.toDigits_ne_nil
    | cons d digits =>
      exact ⟨d, digits, hdigits, notMem_blanks_of_isDecimalDigit
        (isDecimalDigit_of_mem_toDigits (hdigits ▸ List.mem_cons_self))⟩
  | number text => cases h
  | string value => exact ⟨_, _, rfl, by decide⟩
  | array items => cases items <;> exact ⟨_, _, rfl, by decide⟩
  | object members => cases members <;> exact ⟨_, _, rfl, by decide⟩
  | unrepresentable => cases h

lemma endsNumber_itemsChars (items : List Json) (rest : List Char) :
    EndsNumber (itemsChars items ++ rest) := by
  cases items <;> rintro c ⟨⟩ <;> decide

lemma endsNumber_membersChars (members : List (String × Json)) (rest : List Char) :
    EndsNumber (membersChars members ++ rest) := by
  rcases members with _ | ⟨⟨name, value⟩, members⟩ <;> rintro c ⟨⟩ <;> decide

lemma readValue_natural {n : Nat} (hn : n < 2 ^ 64) (fuel : Nat) {rest : List Char}
    (h : EndsNumber rest) :
    readValue (fuel + 1) (Nat.toDigits 10 n ++ rest) = some (natural n, rest) := by
  rw [← readNumber_toDigits hn h]
  cases hdigits : Nat.toDigits 10 n with
  | nil => exact absurd hdigits Nat.toDigits_ne_nil
  | cons d digits =>
    have hd : isDecimalDigit d = true :=
      isDecimalDigit_of_mem_toDigits (hdigits ▸ List.mem_cons_self)
    have hblank : d ∉ [' ', '\n', '\t', '\r'] := fun hmem =>
      notMem_blanks_of_isDecimalDigit hd (List.mem_append_left [']', '\x7d'] hmem)
    have hskip : skipBlanks (d :: digits ++ rest) = d :: digits ++ rest :=
      skipBlanks_of_front hblank _
    rw [readValue, hskip]
    split
    case h_7 => rfl
    all_goals
      next heq =>
        cases heq
        exact absurd hd (by decide)

lemma readValue_string (s : String) (fuel : Nat) (rest : List Char) :
    readValue (fuel + 1) (quoted s ++ rest) = some (string s, rest) := by
  simp [readValue, quoted, skipBlanks, readString_name]

/-- With some fuel, whatever is not too long for it is read back, and nothing of what follows. -/
structure ReadsBack (fuel : Nat) : Prop where
  value : ∀ (v : Json) (rest : List Char), v.isPlain = true → 2 * v.chars.length ≤ fuel →
    EndsNumber rest → readValue fuel (v.chars ++ rest) = some (v, rest)
  items : ∀ (item : Json) (items before : List Json) (rest : List Char), item.isPlain = true →
    allPlain items = true → 2 * (item.chars ++ itemsChars items).length ≤ fuel →
    readItems fuel before (item.chars ++ itemsChars items ++ rest) =
      some (array (before.reverse ++ item :: items), rest)
  members : ∀ (name : String) (value : Json) (members before : List (String × Json))
    (rest : List Char), value.isPlain = true → allMembersPlain members = true →
    2 * (quoted name ++ ':' :: (value.chars ++ membersChars members)).length ≤ fuel →
    readMembers fuel true before
      (quoted name ++ ':' :: (value.chars ++ membersChars members) ++ rest) =
      some (object (before.reverse ++ (name, value) :: members), rest)

namespace ReadsBack

variable {fuel : Nat} (h : ReadsBack fuel)
include h

lemma value_succ (v : Json) (rest : List Char) (hv : v.isPlain = true)
    (hfuel : 2 * v.chars.length ≤ fuel + 1) (hrest : EndsNumber rest) :
    readValue (fuel + 1) (v.chars ++ rest) = some (v, rest) := by
  match v with
  | null => simp [readValue, chars, skipBlanks, afterWord?]
  | bool true => simp [readValue, chars, skipBlanks, afterWord?]
  | bool false => simp [readValue, chars, skipBlanks, afterWord?]
  | natural n => exact readValue_natural (by simpa [isPlain] using hv) fuel hrest
  | string s => exact readValue_string s fuel rest
  | array [] => simp [readValue, chars, skipBlanks]
  | array (item :: items) =>
    simp only [isPlain, allPlain, Bool.and_eq_true] at hv
    have hitems := h.items item items [] rest hv.1 hv.2
      (by simp only [chars, List.length_cons] at hfuel; omega)
    obtain ⟨c, cs, hfront, hc⟩ := exists_chars_eq hv.1
    simp only [List.mem_cons, List.not_mem_nil, or_false, not_or] at hc
    rw [hfront] at hitems
    simpa [chars, hfront, readValue, skipBlanks, hc] using hitems
  | object [] => simp [readValue, chars, skipBlanks]
  | object ((name, value) :: members) =>
    simp only [isPlain, allMembersPlain, Bool.and_eq_true] at hv
    have hmembers := h.members name value members [] rest hv.1 hv.2
      (by simp only [chars, List.length_cons] at hfuel; omega)
    simpa [chars, readValue, skipBlanks, quoted] using hmembers

lemma items_succ (item : Json) (items before : List Json) (rest : List Char)
    (hitem : item.isPlain = true) (hitems : allPlain items = true)
    (hfuel : 2 * (item.chars ++ itemsChars items).length ≤ fuel + 1) :
    readItems (fuel + 1) before (item.chars ++ itemsChars items ++ rest) =
      some (array (before.reverse ++ item :: items), rest) := by
  simp only [List.length_append] at hfuel
  have hpos : 0 < (itemsChars items).length := by cases items <;> simp [itemsChars]
  rw [readItems, List.append_assoc,
    h.value item (itemsChars items ++ rest) hitem (by omega) (endsNumber_itemsChars items rest)]
  cases items with
  | nil => simp [itemsChars, skipBlanks]
  | cons next items =>
    simp only [allPlain, Bool.and_eq_true] at hitems
    have hmore := h.items next items (item :: before) rest hitems.1 hitems.2
      (by simp only [itemsChars, List.length_cons, List.length_append] at hfuel ⊢; omega)
    simpa [itemsChars, skipBlanks] using hmore

lemma members_succ (name : String) (value : Json) (members before : List (String × Json))
    (rest : List Char) (hvalue : value.isPlain = true) (hmembers : allMembersPlain members = true)
    (hfuel : 2 * (quoted name ++ ':' :: (value.chars ++ membersChars members)).length ≤ fuel + 1) :
    readMembers (fuel + 1) true before
      (quoted name ++ ':' :: (value.chars ++ membersChars members) ++ rest) =
      some (object (before.reverse ++ (name, value) :: members), rest) := by
  simp only [List.length_append, List.length_cons] at hfuel
  have hfirst := h.value value (membersChars members ++ rest) hvalue (by omega)
    (endsNumber_membersChars members rest)
  rcases members with _ | ⟨⟨next, other⟩, members⟩
  · rw [membersChars, List.singleton_append] at hfirst
    simp [membersChars, readMembers, quoted, skipBlanks, readString_name, hfirst]
  · simp only [allMembersPlain, Bool.and_eq_true] at hmembers
    have hmore := h.members next other members ((name, value) :: before) rest hmembers.1 hmembers.2
      (by simp only [membersChars, List.length_cons, List.length_append] at hfuel ⊢; omega)
    simp only [membersChars, List.cons_append, List.append_assoc] at hmore hfirst ⊢
    generalize quoted next ++ ':' :: (other.chars ++ (membersChars members ++ rest)) = behind
      at hmore hfirst ⊢
    simp [readMembers, quoted, skipBlanks, readString_name, hfirst, hmore]

end ReadsBack

/-- Whatever is not too long for the fuel is read back. -/
lemma readsBack (fuel : Nat) : ReadsBack fuel := by
  induction fuel with
  | zero =>
    constructor
    case value =>
      intro v rest hv hfuel
      obtain ⟨c, cs, hchars, -⟩ := exists_chars_eq hv
      simp [hchars] at hfuel
    case items =>
      intro item items before rest hitem hitems hfuel
      obtain ⟨c, cs, hchars, -⟩ := exists_chars_eq hitem
      simp [hchars] at hfuel
    case members =>
      intro name value members before rest hvalue hmembers hfuel
      simp at hfuel
  | succ fuel ih => exact ⟨ih.value_succ, ih.items_succ, ih.members_succ⟩

/-- **What is written for a plain value is read back as this value**, also if a line ends behind
it. -/
theorem parse?_render {v : Json} (hv : v.isPlain = true) {rest : List Char}
    (hrest : rest = [] ∨ rest = ['\n']) :
    parse? (String.ofList (v.render.toList ++ rest)) = some v := by
  have hends : EndsNumber rest := by
    rcases hrest with rfl | rfl <;> simp [EndsNumber, isDecimalDigit]
  have hblank : (skipBlanks rest).isEmpty = true := by rcases hrest with rfl | rfl <;> rfl
  have hread := (readsBack (2 * (v.chars ++ rest).length + 2)).value v rest hv
    (by simp only [List.length_append]; omega) hends
  rw [parse?, String.toList_ofList, toList_render]
  simp only [hread, hblank, if_true]

end Json
end InlineValues
