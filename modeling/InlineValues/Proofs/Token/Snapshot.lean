import InlineValues.Proofs.Token.Fault

/-!
# Snapshots are exact

A snapshot holds the token and the cursor of a lexer, but of its diagnostics only how many there
were.  That is enough because nothing that a lexer is asked for takes a report back or changes it.
From `l` to any later lexer the diagnostics have only grown (`Lexer.Extends`), and a snapshot made
meanwhile counts no fewer of them than there were in `l`.  So coming back to `l` cuts off what was
added since, and nothing else (`Lexer.Extends.restore_save`).

`Lexer.Excursion` is a lexer with the snapshots it still has to come back to, the latest one in
front, so that a snapshot and coming back to it are a pair, and pairs lie one inside the other.
Whatever is done between the two of a pair, with any pairs inside, is as if it had not been done
(`Lexer.save_restore_exact`).
-/

namespace InlineValues

/-- What was added may be forgotten in part. -/
lemma AddsTo.shrink {P : Diagnostic → Prop} {ds ds' : Array Diagnostic} (h : AddsTo P ds ds')
    {n : Nat} (hn : ds.size ≤ n) : AddsTo P ds (ds'.shrink n) := by
  obtain ⟨more, hmore, hall⟩ := h
  refine ⟨more.take (n - ds.size), ?_, fun d hd => hall d (List.mem_of_mem_take hd)⟩
  rw [Array.toList_shrink, hmore, List.take_append, Array.length_toList,
    List.take_of_length_le (by rwa [Array.length_toList])]

namespace Lexer

/-! ## Reports are kept -/

/-- The lexer `l'` reads the text of `l`, and it has kept what `l` has reported. -/
structure Extends (l l' : Lexer) : Prop where
  source : l'.source = l.source
  diagnostics : AddsTo (fun _ => True) l.diagnostics l'.diagnostics

namespace Extends

variable {l l' l'' : Lexer}

lemma refl (l : Lexer) : l.Extends l := ⟨rfl, .refl _ _⟩

lemma trans (h : l.Extends l') (h' : l'.Extends l'') : l.Extends l'' :=
  ⟨h'.source.trans h.source, h.diagnostics.trans h'.diagnostics⟩

/-- Nothing was reported. -/
lemma of_eq (hsource : l'.source = l.source) (hdiagnostics : l'.diagnostics = l.diagnostics) :
    l.Extends l' := by
  refine ⟨hsource, ?_⟩
  rw [hdiagnostics]
  exact .refl _ _

lemma report (l : Lexer) (fault : Option Diagnostic) : l.Extends (l.report fault) := by
  cases fault with
  | none => exact .refl l
  | some d => exact ⟨rfl, .push trivial _⟩

/-- A lexer that goes on from one that has kept the reports. -/
lemma then_report {fault : Option Diagnostic} (hsource : l'.source = l.source)
    (hdiagnostics : l'.diagnostics = l.diagnostics) : l.Extends (l'.report fault) :=
  (of_eq hsource hdiagnostics).trans (report l' fault)

lemma scan (l : Lexer) : l.Extends l.scan := by
  -- A comment that is not closed is reported before the token is read.
  have hcomment : l.Extends
      (if (Trivia.before l.cursor).unclosed then
        l.report (some ⟨l.source.size, 0, .commentEndExpected⟩) else l) := by
    split
    · exact report l _
    · exact refl l
  exact hcomment.trans (then_report rfl rfl)

lemma replaceToken (l : Lexer) (t : Scanned) : l.Extends (l.replaceToken t) := then_report rfl rfl

lemma rescanGreater (l : Lexer) : l.Extends l.rescanGreater :=
  of_eq (source_rescanGreater l) (diagnostics_rescanGreater l)

lemma rescanSlash (l : Lexer) : l.Extends l.rescanSlash := by
  rw [Lexer.rescanSlash]
  split
  · exact replaceToken l _
  · exact refl l

lemma rescanTemplate (l : Lexer) : l.Extends l.rescanTemplate := replaceToken l _

lemma skipShebang (l : Lexer) : l.Extends l.skipShebang := by
  refine of_eq ?_ (diagnostics_skipShebang l)
  rw [Lexer.skipShebang]
  split <;> rfl

lemma setPosition (l : Lexer) (pos : Nat) : l.Extends (l.setPosition pos) := of_eq rfl rfl

/-- Coming back to a snapshot that counts no fewer reports keeps them. -/
lemma restore (h : l.Extends l') {k : Snapshot} (hk : l.diagnostics.size ≤ k.diagnosticCount) :
    l.Extends (l'.restore k) :=
  ⟨h.source, h.diagnostics.shrink hk⟩

/-- Coming back is exact: the text is the same, the token and the cursor are those of the snapshot,
and what was reported since is cut off. -/
theorem restore_save (h : l.Extends l') : l'.restore l.save = l := by
  obtain ⟨source, token, cursor, diagnostics⟩ := l
  obtain ⟨source', token', cursor', diagnostics'⟩ := l'
  obtain rfl : source' = source := h.source
  have hshrink : diagnostics'.shrink diagnostics.size = diagnostics := h.diagnostics.shrink_eq
  simp only [Lexer.restore, save, hshrink]

end Extends

/-! ## Snapshots inside snapshots -/

/-- What can be done with a lexer that remembers its states.  It comes back to the latest of them
that it has not come back to yet. -/
inductive Move where
  | scan
  | rescanGreater
  | rescanSlash
  | rescanTemplate
  | skipShebang
  | setPosition (pos : Nat)
  | save
  | restore
  deriving DecidableEq, Repr

/-- A lexer and the snapshots it still has to come back to, the latest one in front. -/
structure Excursion where
  lexer : Lexer
  saved : List Snapshot

namespace Excursion

/-- Carry out a move, if it is allowed.  A template goes on behind a closing brace only, and a state
is remembered before it is come back to. -/
def perform? (e : Excursion) : Move → Option Excursion
  | .scan => some { e with lexer := e.lexer.scan }
  | .rescanGreater => some { e with lexer := e.lexer.rescanGreater }
  | .rescanSlash => some { e with lexer := e.lexer.rescanSlash }
  | .rescanTemplate =>
    if e.lexer.token.kind = .closeBrace then some { e with lexer := e.lexer.rescanTemplate }
    else none
  | .skipShebang => some { e with lexer := e.lexer.skipShebang }
  | .setPosition pos => some { e with lexer := e.lexer.setPosition pos }
  | .save => some { e with saved := e.lexer.save :: e.saved }
  | .restore =>
    match e.saved with
    | [] => none
    | k :: saved => some ⟨e.lexer.restore k, saved⟩

/-- Carry out moves one after the other. -/
def run? (e : Excursion) (moves : List Move) : Option Excursion := moves.foldlM perform? e

variable {l l' : Lexer} {e e' : Excursion} {saved saved' : List Snapshot}

lemma run?_cons (e : Excursion) (move : Move) (moves : List Move) :
    e.run? (move :: moves) = (e.perform? move).bind fun e' => e'.run? moves := by
  rw [run?, List.foldlM_cons]
  rfl

lemma run?_append (e : Excursion) (moves more : List Move) :
    e.run? (moves ++ more) = (e.run? moves).bind fun e' => e'.run? more := by
  rw [run?, List.foldlM_append]
  rfl

/-- The reports of `l` are kept, and coming back to any of the snapshots will keep them. -/
structure Keeps (l : Lexer) (e : Excursion) : Prop where
  lexer : l.Extends e.lexer
  saved : ∀ k ∈ e.saved, l.diagnostics.size ≤ k.diagnosticCount

/-- One move keeps the reports. -/
lemma Keeps.perform (h : e.Keeps l) {move : Move} (hperform : e.perform? move = some e') :
    e'.Keeps l := by
  cases move with
  | scan => cases hperform; exact ⟨h.lexer.trans (.scan _), h.saved⟩
  | rescanGreater => cases hperform; exact ⟨h.lexer.trans (.rescanGreater _), h.saved⟩
  | rescanSlash => cases hperform; exact ⟨h.lexer.trans (.rescanSlash _), h.saved⟩
  | rescanTemplate =>
    obtain ⟨-, ⟨⟩⟩ := Option.ite_none_right_eq_some.mp hperform
    exact ⟨h.lexer.trans (.rescanTemplate _), h.saved⟩
  | skipShebang => cases hperform; exact ⟨h.lexer.trans (.skipShebang _), h.saved⟩
  | setPosition pos => cases hperform; exact ⟨h.lexer.trans (.setPosition _ pos), h.saved⟩
  | save =>
    cases hperform
    exact ⟨h.lexer, List.forall_mem_cons.mpr ⟨h.lexer.diagnostics.size_le, h.saved⟩⟩
  | restore =>
    obtain ⟨lexer, saved⟩ := e
    cases saved with
    | nil => cases hperform
    | cons k saved =>
      cases hperform
      obtain ⟨hk, hsaved⟩ := List.forall_mem_cons.mp h.saved
      exact ⟨h.lexer.restore hk, hsaved⟩

/-- And so do any moves, one after the other. -/
lemma Keeps.run (h : e.Keeps l) {moves : List Move} (hrun : e.run? moves = some e') :
    e'.Keeps l := by
  induction moves generalizing e with
  | nil => cases hrun; exact h
  | cons move moves ih =>
    rw [run?_cons] at hrun
    obtain ⟨next, hperform, hrest⟩ := Option.bind_eq_some_iff.mp hrun
    exact ih (h.perform hperform) hrest

/-- A move that is allowed does not depend on the snapshots below those it needs. -/
lemma perform?_below {move : Move}
    (h : perform? ⟨l, saved⟩ move = some ⟨l', saved'⟩) (below : List Snapshot) :
    perform? ⟨l, saved ++ below⟩ move = some ⟨l', saved' ++ below⟩ := by
  cases move with
  | rescanTemplate =>
    obtain ⟨hkind, ⟨⟩⟩ := Option.ite_none_right_eq_some.mp h
    exact if_pos hkind
  | restore =>
    cases saved with
    | nil => cases h
    | cons k saved => cases h; rfl
  | _ => cases h; rfl

lemma run?_below {moves : List Move} (h : run? ⟨l, saved⟩ moves = some ⟨l', saved'⟩)
    (below : List Snapshot) :
    run? ⟨l, saved ++ below⟩ moves = some ⟨l', saved' ++ below⟩ := by
  induction moves generalizing l saved with
  | nil => cases h; rfl
  | cons move moves ih =>
    rw [run?_cons] at h ⊢
    obtain ⟨⟨next, nextSaved⟩, hperform, hrest⟩ := Option.bind_eq_some_iff.mp h
    rw [perform?_below hperform below]
    exact ih hrest

end Excursion

/-- **To come back is to forget.**  Work that has come back to all the snapshots made in it, and to
no others, is forgotten by coming back to the snapshot from before it.  The lexer is the one that
made the snapshot, diagnostics and all, and whatever is done next goes on as if the work had not
been done.

The work may be of any length and make snapshots of its own, which it comes back to in the order of
a stack, as looking ahead does. -/
theorem save_restore_exact {l l' : Lexer} {work : List Move}
    (hwork : Excursion.run? ⟨l, []⟩ work = some ⟨l', []⟩) :
    l'.restore l.save = l ∧ ∀ (saved : List Snapshot) (continuation : List Move),
      Excursion.run? ⟨l, saved⟩ (.save :: (work ++ .restore :: continuation)) =
        Excursion.run? ⟨l, saved⟩ continuation := by
  have hkeeps : Excursion.Keeps l ⟨l, []⟩ := ⟨.refl l, List.forall_mem_nil _⟩
  have hback : l'.restore l.save = l := (hkeeps.run hwork).lexer.restore_save
  refine ⟨hback, fun saved continuation => ?_⟩
  have hinner : Excursion.run? ⟨l, l.save :: saved⟩ work = some ⟨l', l.save :: saved⟩ :=
    Excursion.run?_below hwork (l.save :: saved)
  calc Excursion.run? ⟨l, saved⟩ (.save :: (work ++ .restore :: continuation))
      = Excursion.run? ⟨l, l.save :: saved⟩ (work ++ .restore :: continuation) := rfl
    _ = Excursion.run? ⟨l', l.save :: saved⟩ (.restore :: continuation) := by
        rw [Excursion.run?_append, hinner]
        rfl
    _ = Excursion.run? ⟨l'.restore l.save, saved⟩ continuation := rfl
    _ = Excursion.run? ⟨l, saved⟩ continuation := by rw [hback]

/-- The string was reported before the snapshot.  Behind it the brace is read as a template without
an end, that is taken back, and then the comment without an end is read instead. -/
theorem save_restore_exact_template : ∃ l l' : Lexer,
    l = (Lexer.start (.ofChars ['"', '\n', '}', '/', '*'])).scan ∧
    Excursion.run? ⟨l, []⟩ [.scan, .save, .rescanTemplate, .scan, .restore, .scan] =
      some ⟨l', []⟩ ∧
    l.diagnostics.size = 1 ∧ l'.diagnostics.size = 2 ∧ l'.restore l.save = l := by
  have hends : (Excursion.run? ⟨(Lexer.start (.ofChars ['"', '\n', '}', '/', '*'])).scan, []⟩
      [.scan, .save, .rescanTemplate, .scan, .restore, .scan]).map
        (fun e => (e.lexer.diagnostics.size, e.saved)) = some (2, []) := by
    decide +kernel
  obtain ⟨⟨l', saved⟩, hrun, hend⟩ := Option.map_eq_some_iff.mp hends
  obtain ⟨hsize, hsaved⟩ := Prod.mk.inj hend
  obtain rfl : saved = [] := hsaved
  exact ⟨_, l', rfl, hrun, by decide +kernel, hsize, (save_restore_exact hrun).1⟩

end Lexer
end InlineValues
