import InlineValues.Proofs.Token.Lexer
import Mathlib.Data.List.Chain

/-!
# The lexer tiles its text

Whatever is asked of a lexer, in any order, it stays in its text: the trivia, the start and the end
of the current token follow each other at places between two characters, and both the token and
its value are slices of the text (`Lexer.InRange`).  The invariant behind this is `Lexer.Steady`.
Either a token was read, and `Lexer.Sound` holds, or the lexer has been put somewhere and has read
nothing since (`Lexer.Idle`).

Read one after the other from the start, the tokens cover the text without gaps (`Lexer.Tiles`).
`Lexer.ReadsOn` follows the recursion of `Lexer.scanAll`, and every part of the tiling is an
induction on it.
-/

namespace InlineValues
namespace Lexer

/-! ## Operations -/

/-- What can be asked of a lexer. -/
inductive Operation where
  | scan
  | rescanGreater
  | rescanSlash
  | rescanTemplate
  | skipShebang
  | setPosition (pos : Nat)
  | save
  /-- Come back to the state that was remembered as the one with this index. -/
  | restore (index : Nat)
  deriving DecidableEq, Repr

/-- A lexer and the states of it that were remembered, the first one in front. -/
structure History where
  lexer : Lexer
  saved : List Snapshot

namespace History

/-- A lexer at the start of a text, of which nothing was remembered yet. -/
def start (s : Source) : History := ⟨.start s, []⟩

/-- Carry out an operation, if it is allowed.  A template goes on behind a closing brace only, a
lexer is put between two characters only, and a state is remembered before it is restored. -/
def perform? (h : History) : Operation → Option History
  | .scan => some { h with lexer := h.lexer.scan }
  | .rescanGreater => some { h with lexer := h.lexer.rescanGreater }
  | .rescanSlash => some { h with lexer := h.lexer.rescanSlash }
  | .rescanTemplate =>
    if h.lexer.token.kind = .closeBrace then some { h with lexer := h.lexer.rescanTemplate }
    else none
  | .skipShebang => some { h with lexer := h.lexer.skipShebang }
  | .setPosition pos =>
    if (h.lexer.source.suffix? (min pos h.lexer.source.size)).isSome then
      some { h with lexer := h.lexer.setPosition pos }
    else none
  | .save => some { h with saved := h.saved ++ [h.lexer.save] }
  | .restore index => h.saved[index]?.map fun k => { h with lexer := h.lexer.restore k }

/-- Carry out operations one after the other. -/
def run? (h : History) (operations : List Operation) : Option History :=
  operations.foldlM perform? h

end History

/-! ## What holds of a lexer at any time -/

/-- The current token lies in the text, and so does its value. -/
structure InRange (s : Source) (l : Lexer) : Prop where
  fullStart_cut : s.IsCut l.token.fullStart
  start_cut : s.IsCut l.token.start
  stop_cut : s.IsCut l.stop
  fullStart_le : l.token.fullStart ≤ l.token.start
  start_le : l.token.start ≤ l.stop
  stop_le : l.stop ≤ s.size
  text : s.slice? l.token.start l.stop = some l.text
  value : ∃ p q, l.token.start ≤ p ∧ p ≤ q ∧ q ≤ l.stop ∧ s.slice? p q = some l.token.value

/-- A lexer that was put at a cut of the text and has read nothing since.  It may have passed a
first line that begins with `#!`. -/
structure Idle (s : Source) (l : Lexer) : Prop where
  source : l.source = s
  cursor : l.cursor.On s
  token : l.token = .blank l.token.start
  start : s.IsCut l.token.start
  before : (s.cursor l.token.start).Before l.cursor
  front : ∀ a ∈ ((s.cursor l.token.start).textTo l.cursor).head?, a = '#'

/-- What holds of a lexer, whatever was asked of it. -/
def Steady (s : Source) (l : Lexer) : Prop := l.Sound s ∨ l.Idle s

/-- A part of the text between two cursors is a slice. -/
lemma exists_slice {s : Source} {c d : Cursor} (hc : c.On s) (h : c.Before d) {v : List Char}
    (hv : v <:+: c.textTo d) : ∃ p q, c.pos ≤ p ∧ p ≤ q ∧ q ≤ d.pos ∧ s.slice? p q = some v := by
  obtain ⟨front, back, hsplit⟩ := hv
  have hrest : c.rest = front ++ (v ++ (back ++ d.rest)) := by
    rw [h.rest_eq, ← hsplit]
    simp
  have hfront : c.Before ⟨v ++ (back ++ d.rest), c.pos + byteLength front⟩ := ⟨front, hrest, rfl⟩
  have hvalue : Cursor.Before ⟨v ++ (back ++ d.rest), c.pos + byteLength front⟩
      ⟨back ++ d.rest, c.pos + byteLength front + byteLength v⟩ := ⟨v, rfl, rfl⟩
  have hp := hc.of_before hfront
  have hq := hp.of_before hvalue
  have hlen := h.pos_eq
  rw [← hsplit, byteLength_append, byteLength_append] at hlen
  refine ⟨_, _, hfront.pos_le, hvalue.pos_le, by simp only; omega, ?_⟩
  rw [hp.isCut.slice?_eq hq.isCut hvalue.pos_le, hp.slice_eq hq hvalue.pos_le]
  exact congrArg some (Cursor.textTo_append v (back ++ d.rest) _)

namespace Steady

variable {s : Source} {l l' : Lexer}

lemma source (h : l.Steady s) : l.source = s := h.elim Sound.source Idle.source

lemma cursor (h : l.Steady s) : l.cursor.On s := h.elim Sound.cursor Idle.cursor

lemma congr (h : l.Steady s) (hsource : l'.source = l.source) (htoken : l'.token = l.token)
    (hcursor : l'.cursor = l.cursor) : l'.Steady s := by
  refine h.imp (fun h => h.congr hsource htoken hcursor) fun h => ?_
  constructor
  case source => rw [hsource, h.source]
  case cursor => rw [hcursor]; exact h.cursor
  case token => rw [htoken]; exact h.token
  case start => rw [htoken]; exact h.start
  case before => rw [htoken, hcursor]; exact h.before
  case front => rw [htoken, hcursor]; exact h.front

lemma inRange (h : l.Steady s) : l.InRange s := by
  have hfull : s.IsCut l.token.fullStart ∧ l.token.fullStart ≤ l.token.start := by
    rcases h with h | h
    · exact ⟨h.fullStart, h.fullStart_le⟩
    · have hblank : l.token.fullStart = l.token.start := by rw [h.token]; rfl
      exact ⟨hblank ▸ h.start, Nat.le_of_eq hblank⟩
  have hstart : s.IsCut l.token.start := h.elim Sound.start Idle.start
  have hbefore : (s.cursor l.token.start).Before l.cursor := h.elim Sound.before Idle.before
  have hvalue : l.token.value <:+: (s.cursor l.token.start).textTo l.cursor := by
    rcases h with h | h
    · exact h.value
    · rw [h.token]
      exact List.nil_infix
  constructor
  case fullStart_cut => exact hfull.1
  case start_cut => exact hstart
  case stop_cut => exact h.cursor.isCut
  case fullStart_le => exact hfull.2
  case start_le => exact hbefore.pos_le
  case stop_le => exact h.cursor.isCut.le_size
  case text => rw [text, h.source]; exact hstart.slice?_eq h.cursor.isCut hbefore.pos_le
  case value => exact exists_slice (Cursor.on_cursor hstart) hbefore hvalue

/-! ## One operation -/

/-- A lexer that has just been put at a cut has passed nothing. -/
lemma idle_of_blank {p : Nat} (hp : s.IsCut p) (hsource : l.source = s)
    (htoken : l.token = .blank p) (hcursor : l.cursor = s.cursor p) : l.Idle s := by
  have hstart : l.token.start = p := by rw [htoken]; rfl
  constructor
  case source => exact hsource
  case cursor => rw [hcursor]; exact Cursor.on_cursor hp
  case token => rw [hstart]; exact htoken
  case start => rw [hstart]; exact hp
  case before => rw [hstart, hcursor]; exact .refl _
  case front =>
    rw [hstart, hcursor, Cursor.textTo_self]
    nofun

lemma start (s : Source) : (Lexer.start s).Steady s :=
  .inr (idle_of_blank s.isCut_zero rfl rfl rfl)

lemma scanned (h : l.Steady s) : l.scan.Sound s := sound_scan h.source h.cursor

lemma scan (h : l.Steady s) : l.scan.Steady s := .inl h.scanned

/-- Before the end of the text, the next token ends behind the current one. -/
lemma stop_lt_scan (h : l.Steady s) (hne : l.scan.token.kind ≠ .endOfFile) :
    l.stop < l.scan.stop := by
  have hmoves := h.scanned.fullStart_lt hne
  rwa [fullStart_scan] at hmoves

/-- What has not been read cannot be read in another way. -/
lemma kind_of_idle (h : l.Idle s) : l.token.kind = .unknown := by
  rw [h.token]
  rfl

lemma rescanGreater (h : l.Steady s) : l.rescanGreater.Steady s := by
  rcases h with h | h
  · exact .inl h.rescanGreater
  · rw [Lexer.rescanGreater, if_neg (by simp [kind_of_idle h])]
    exact .inr h

lemma rescanSlash (h : l.Steady s) : l.rescanSlash.Steady s := by
  rcases h with h | h
  · exact .inl h.rescanSlash
  · rw [Lexer.rescanSlash, if_neg (by simp [kind_of_idle h])]
    exact .inr h

lemma rescanTemplate (h : l.Steady s) (hkind : l.token.kind = .closeBrace) :
    l.rescanTemplate.Steady s := by
  rcases h with h | h
  · exact .inl (h.rescanTemplate hkind)
  · rw [kind_of_idle h] at hkind
    cases hkind

/-- A token that ends where the text begins is the end of an empty text. -/
lemma size_eq_zero_of_sound (h : l.Sound s) (hpos : l.cursor.pos = 0) : s.size = 0 := by
  have hend : l.token.kind = .endOfFile := by
    refine Decidable.byContradiction fun hne => ?_
    have := h.moves hne
    omega
  rw [← h.stop_of_endOfFile hend, hpos]

lemma skipShebang (h : l.Steady s) : l.skipShebang.Steady s := by
  unfold Lexer.skipShebang
  split
  case h_1 rest hpos hchars =>
    rw [h.source] at hchars
    rcases h with h | h
    · have hsize := size_eq_zero_of_sound h hpos
      rw [s.size_eq, byteLength_eq_zero, hchars] at hsize
      cases hsize
    · have hzero : l.token.start = 0 := Nat.le_zero.mp (hpos ▸ h.before.pos_le)
      have hline := (s.cursor 0).before_skipWhile fun c => !endsLine c
      rw [h.source]
      refine .inr ⟨rfl, (Cursor.on_cursor s.isCut_zero).of_before hline, h.token, h.start, ?_, ?_⟩
      · rwa [hzero]
      · intro a ha
        simp only [hzero] at ha
        have hfront : a ∈ (s.cursor 0).rest.head? := by
          rw [hline.rest_eq]
          exact List.mem_head?_append_of_mem_head? ha
        rw [Source.cursor, Source.suffix_zero, hchars] at hfront
        exact (Option.some.inj hfront).symm
  case h_2 => exact h

lemma setPosition (h : l.Steady s) {pos : Nat}
    (hcut : (l.source.suffix? (min pos l.source.size)).isSome = true) :
    (l.setPosition pos).Steady s := by
  have hsource := h.source
  subst hsource
  rw [Source.suffix?_eq, Option.isSome_iff_exists] at hcut
  exact .inr (idle_of_blank hcut rfl rfl rfl)

end Steady

/-! ## Any operations -/

/-- What holds of a lexer holds of the states that were remembered, too. -/
structure History.Steady (s : Source) (h : History) : Prop where
  lexer : h.lexer.Steady s
  saved : ∀ k ∈ h.saved, ((Lexer.start s).restore k).Steady s

namespace History

variable {s : Source} {h h' : History}

lemma steady_start (s : Source) : (History.start s).Steady s :=
  ⟨Lexer.Steady.start s, by simp [History.start]⟩

/-- One operation keeps what holds of a lexer. -/
lemma Steady.perform (hs : h.Steady s) {operation : Operation}
    (hperform : h.perform? operation = some h') : h'.Steady s := by
  cases operation with
  | scan => cases hperform; exact ⟨hs.lexer.scan, hs.saved⟩
  | rescanGreater => cases hperform; exact ⟨hs.lexer.rescanGreater, hs.saved⟩
  | rescanSlash => cases hperform; exact ⟨hs.lexer.rescanSlash, hs.saved⟩
  | rescanTemplate =>
    obtain ⟨hkind, ⟨⟩⟩ := Option.ite_none_right_eq_some.mp hperform
    exact ⟨hs.lexer.rescanTemplate hkind, hs.saved⟩
  | skipShebang => cases hperform; exact ⟨hs.lexer.skipShebang, hs.saved⟩
  | setPosition pos =>
    obtain ⟨hcut, ⟨⟩⟩ := Option.ite_none_right_eq_some.mp hperform
    exact ⟨hs.lexer.setPosition hcut, hs.saved⟩
  | save =>
    cases hperform
    refine ⟨hs.lexer, fun k hk => ?_⟩
    rcases List.mem_append.mp hk with hk | hk
    · exact hs.saved k hk
    · rw [List.mem_singleton.mp hk]
      exact hs.lexer.congr hs.lexer.source.symm rfl rfl
  | restore index =>
    obtain ⟨k, hk, rfl⟩ := Option.map_eq_some_iff.mp hperform
    exact ⟨(hs.saved k (List.mem_of_getElem? hk)).congr hs.lexer.source rfl rfl, hs.saved⟩

/-- And so do any operations, one after the other. -/
lemma Steady.run (hs : h.Steady s) {operations : List Operation}
    (hrun : h.run? operations = some h') : h'.Steady s := by
  induction operations generalizing h with
  | nil => cases hrun; exact hs
  | cons operation operations ih =>
    rw [run?, List.foldlM_cons] at hrun
    obtain ⟨next, hperform, hrest⟩ := Option.bind_eq_some_iff.mp hrun
    exact ih (hs.perform hperform) hrest

end History

/-! ## Reading to the end -/

/-- The tokens from `l` on are read by the lexers `ls`, and the last of them is the end of the
file. -/
inductive ReadsOn : (l : Lexer) → (ls : List Lexer) → Prop
  | last {l : Lexer} : l.scan.token.kind = .endOfFile → ReadsOn l [l.scan]
  | more {l : Lexer} {ls : List Lexer} :
    l.scan.token.kind ≠ .endOfFile → ReadsOn l.scan ls → ReadsOn l (l.scan :: ls)

section

variable {s : Source} {l : Lexer} {ls : List Lexer}

/-- What is left of the text gets shorter with each token, so that it bounds their number. -/
lemma readsOn_scanAll {fuel : Nat} (hs : l.Steady s) (hfuel : s.size ≤ l.stop + fuel) :
    l.ReadsOn (l.scanAll fuel) := by
  induction fuel generalizing l with
  | zero =>
    refine .last (Decidable.byContradiction fun hne => ?_)
    have hmoves := hs.stop_lt_scan hne
    have hle := hs.scan.inRange.stop_le
    omega
  | succ fuel ih =>
    simp only [scanAll]
    split
    case isTrue hkind => exact .last (eq_of_beq hkind)
    case isFalse hkind =>
      have hne : l.scan.token.kind ≠ .endOfFile := fun h => hkind (by simp [h])
      have hmoves := hs.stop_lt_scan hne
      exact .more hne (ih hs.scan (by omega))

namespace ReadsOn

/-- The lexers read on from each other. -/
lemma getElem_eq (h : l.ReadsOn ls) (i : Nat) (hi : i < ls.length) : ls[i] = scan^[i + 1] l := by
  induction h generalizing i with
  | last => simp only [List.length_singleton, Nat.lt_one_iff] at hi; subst hi; rfl
  | more _ _ ih =>
    cases i with
    | zero => rfl
    | succ i => exact ih i (Nat.lt_of_succ_lt_succ hi)

/-- Each token starts where the last one ended. -/
lemma joined (h : l.ReadsOn ls) :
    (l :: ls).IsChain fun l l' => l'.token.fullStart = l.stop := by
  induction h with
  | last => exact .cons_cons (fullStart_scan _) (.singleton _)
  | more _ _ ih => exact .cons_cons (fullStart_scan _) ih

/-- Only the last token is the end of the file. -/
lemma kind_of_mem_dropLast (h : l.ReadsOn ls) :
    ∀ l' ∈ ls.dropLast, l'.token.kind ≠ .endOfFile := by
  induction h with
  | last => simp
  | more hne h ih =>
    rw [List.dropLast_cons_of_ne_nil (by cases h <;> simp)]
    exact List.forall_mem_cons.mpr ⟨hne, ih⟩

lemma kind_of_getLast? (h : l.ReadsOn ls) :
    ∃ l' ∈ ls.getLast?, l'.token.kind = .endOfFile := by
  induction h with
  | last hkind => exact ⟨_, rfl, hkind⟩
  | more _ h ih =>
    obtain ⟨l', hlast, hkind⟩ := ih
    exact ⟨l', by rw [List.getLast?_cons, hlast]; rfl, hkind⟩

lemma sound (hs : l.Steady s) (h : l.ReadsOn ls) : ∀ l' ∈ ls, l'.Sound s := by
  induction h with
  | last => simpa using hs.scanned
  | more _ _ ih => exact List.forall_mem_cons.mpr ⟨hs.scanned, ih hs.scan⟩

/-- Each token takes at least one byte of what is left. -/
lemma length_le (hs : l.Steady s) (h : l.ReadsOn ls) : ls.length + l.stop ≤ s.size + 1 := by
  induction h with
  | last => have := hs.inRange.stop_le; simp only [List.length_singleton]; omega
  | more hne _ ih =>
    have hmoves := hs.stop_lt_scan hne
    have := ih hs.scan
    rw [List.length_cons]
    omega

/-- The tokens with their trivia make up what is left of the text. -/
lemma text (hs : l.Steady s) (h : l.ReadsOn ls) :
    ls.flatMap (fun l' => s.slice l'.token.fullStart l'.stop) = l.cursor.rest := by
  have hpass {l : Lexer} (hs : l.Steady s) :
      s.slice l.scan.token.fullStart l.scan.stop ++ l.scan.cursor.rest = l.cursor.rest := by
    have hbefore : l.cursor.Before l.scan.cursor := by
      have hfront := Trivia.before_stop l.cursor
      have hself := (hs.cursor.of_before hfront).eq_cursor
      have hback := hs.scanned.before
      rw [token_scan, hself] at hback
      exact hfront.trans hback
    rw [fullStart_scan, stop, hs.cursor.slice_eq hs.scan.cursor hbefore.pos_le, ← hbefore.rest_eq]
  induction h with
  | @last l hkind =>
    have hsize := hs.scanned.cursor.size_eq
    rw [hs.scanned.stop_of_endOfFile hkind] at hsize
    have hrest : l.scan.cursor.rest = [] := byteLength_eq_zero.mp (by omega)
    rw [← hpass hs, hrest]
    simp
  | more _ _ ih => rw [List.flatMap_cons, ih hs.scan, hpass hs]

end ReadsOn

end

/-- The lexers `ls` read the tokens of a text one after the other, and the tokens with their trivia
make up the text. -/
structure Tiles (s : Source) (ls : List Lexer) : Prop where
  scans : ∀ i (h : i < ls.length), ls[i] = scan^[i + 1] (Lexer.start s)
  first : ∀ l ∈ ls.head?, l.token.fullStart = 0
  joined : ls.IsChain fun l l' => l'.token.fullStart = l.stop
  filled : ∀ l ∈ ls.dropLast, l.token.kind ≠ .endOfFile ∧ l.token.start < l.stop
  last : ∃ l ∈ ls.getLast?, l.token.kind = .endOfFile ∧ l.stop = s.size
  length_le : ls.length ≤ s.size + 1
  inRange : ∀ l ∈ ls, l.InRange s
  text : ls.flatMap (fun l => s.slice l.token.fullStart l.stop) = s.chars

lemma ReadsOn.tiles {s : Source} {ls : List Lexer} (h : (Lexer.start s).ReadsOn ls) :
    Tiles s ls := by
  have hs := Steady.start s
  have hjoined := List.isChain_cons.mp h.joined
  constructor
  case scans => exact h.getElem_eq
  case first => exact hjoined.1
  case joined => exact hjoined.2
  case filled =>
    intro l hl
    have hne := h.kind_of_mem_dropLast l hl
    exact ⟨hne, (h.sound hs l ((List.dropLast_sublist ls).subset hl)).moves hne⟩
  case last =>
    obtain ⟨l, hlast, hkind⟩ := h.kind_of_getLast?
    exact ⟨l, hlast, hkind, (h.sound hs l (List.mem_of_getLast? hlast)).stop_of_endOfFile hkind⟩
  case length_le => exact h.length_le hs
  case inRange => exact fun l hl => Steady.inRange (.inl (h.sound hs l hl))
  case text =>
    rw [h.text hs]
    simp [Lexer.start, Source.cursor, Source.suffix]

/-- **Tokens are slices that cover the text.**  Whatever is asked of a lexer from the start of any
text on, its token and the value of it are slices of the text, with the trivia in front.

Read one after the other from the start, the tokens with their trivia cover the text without a gap,
none of them is empty but the end of the file, and there are not more of them than the text has
bytes, besides this one. -/
theorem inRange_and_tiles (s : Source) :
    (∀ (operations : List Operation) (h : History),
      (History.start s).run? operations = some h → h.lexer.InRange s) ∧
    Tiles s ((Lexer.start s).scanAll s.size) := by
  refine ⟨fun operations h hrun => ?_, ?_⟩
  · exact ((History.steady_start s).run hrun).lexer.inRange
  · exact (readsOn_scanAll (Steady.start s) (Nat.le_add_left _ _)).tiles

/-- Back from a regular expression to the operator in front of it, and from there behind the two
bytes of the first character. -/
theorem inRange_and_tiles_regularExpression :
    ∃ h, (History.start (.ofChars ['é', '>', '>', '=', '/', 'a', '/'])).run?
        [.skipShebang, .scan, .scan, .rescanGreater, .save, .scan, .rescanSlash, .restore 0,
          .setPosition 2, .scan] = some h ∧
      h.lexer.token.kind = .greaterThan ∧
      h.lexer.InRange (.ofChars ['é', '>', '>', '=', '/', 'a', '/']) := by
  have hkind : ((History.start (.ofChars ['é', '>', '>', '=', '/', 'a', '/'])).run?
      [.skipShebang, .scan, .scan, .rescanGreater, .save, .scan, .rescanSlash, .restore 0,
        .setPosition 2, .scan]).map (·.lexer.token.kind) = some .greaterThan := by
    decide +kernel
  obtain ⟨h, hrun, hkind⟩ := Option.map_eq_some_iff.mp hkind
  exact ⟨h, hrun, hkind, (inRange_and_tiles _).1 _ h hrun⟩

end Lexer
end InlineValues
