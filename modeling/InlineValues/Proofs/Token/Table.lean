import InlineValues.Token.Lexer
import Mathlib.Data.List.Basic

/-!
# The tables agree

What is written for a kind and what is read as one are separate tables: the characters of a kind
(`TokenKind.spelling`), the words that are keywords (`TokenKind.words`), and the punctuation with
the number of characters that each row takes (`TokenKind.punctuation`).  Nothing in their
definitions keeps them from drifting apart.  Here they are compared row by row, and what is read is
told by the characters of the kinds alone: a word is a keyword just if it is spelled like it
(`ofWord?_eq_some_iff`), and punctuation is read as the first kind whose characters stand there, all
of them and nothing more (`operator?_eq`).

Everything else about words and punctuation rests on these two statements and opens no table.
-/

namespace InlineValues
namespace TokenKind

/-! ## Words -/

/-- The keywords, in the order of their numbers. -/
def keywords : List TokenKind :=
  [breakKeyword, caseKeyword, catchKeyword, classKeyword, constKeyword, continueKeyword,
    debuggerKeyword, defaultKeyword, deleteKeyword, doKeyword, elseKeyword, enumKeyword,
    exportKeyword, extendsKeyword, falseKeyword, finallyKeyword, forKeyword, functionKeyword,
    ifKeyword, importKeyword, inKeyword, instanceOfKeyword, newKeyword, nullKeyword,
    returnKeyword, superKeyword, switchKeyword, thisKeyword, throwKeyword, trueKeyword,
    tryKeyword, typeOfKeyword, varKeyword, voidKeyword, whileKeyword, withKeyword,
    implementsKeyword, interfaceKeyword, letKeyword, packageKeyword, privateKeyword,
    protectedKeyword, publicKeyword, staticKeyword, yieldKeyword, abstractKeyword,
    accessorKeyword, asKeyword, assertsKeyword, anyKeyword, asyncKeyword, awaitKeyword,
    booleanKeyword, constructorKeyword, declareKeyword, getKeyword, inferKeyword, isKeyword,
    keyOfKeyword, moduleKeyword, namespaceKeyword, neverKeyword, readonlyKeyword, numberKeyword,
    objectKeyword, satisfiesKeyword, setKeyword, stringKeyword, symbolKeyword, typeKeyword,
    undefinedKeyword, uniqueKeyword, unknownKeyword, usingKeyword, fromKeyword, globalKeyword,
    bigIntKeyword, overrideKeyword, ofKeyword]

/-- Every row has the characters of its keyword. -/
lemma row_words : ∀ row ∈ words, row.2 ∈ keywords ∧ row.2.spelling = row.1.toList := by
  decide +kernel

/-- Every keyword has a row, and no row in front of it has the same characters; its characters are
also such that they are looked up. -/
lemma ofWord?_spelling : ∀ k ∈ keywords, ofWord? k.spelling = some k := by decide +kernel

/-- A word is a keyword just if it is spelled like it. -/
theorem ofWord?_eq_some_iff {word : List Char} {k : TokenKind} :
    ofWord? word = some k ↔ k ∈ keywords ∧ k.spelling = word := by
  constructor
  · intro h
    have hlookup : words.lookup (String.ofList word) = some k := by
      simp only [ofWord?, Option.ite_none_right_eq_some] at h
      exact h.2
    obtain ⟨before, behind, hwords, -⟩ := List.lookup_eq_some_iff.mp hlookup
    obtain ⟨hmem, hspelling⟩ := row_words (String.ofList word, k) (by rw [hwords]; simp)
    exact ⟨hmem, hspelling.trans String.toList_ofList⟩
  · rintro ⟨hk, rfl⟩
    exact ofWord?_spelling k hk

lemma mem_keywords_of_ofWord? {word : List Char} {k : TokenKind} (h : ofWord? word = some k) :
    k ∈ keywords := (ofWord?_eq_some_iff.mp h).1

lemma spelling_of_ofWord? {word : List Char} {k : TokenKind} (h : ofWord? word = some k) :
    k.spelling = word := (ofWord?_eq_some_iff.mp h).2

/-! ## Punctuation -/

/-- The punctuation that is read in one step, in the order in which it is looked for. -/
def operators : List TokenKind := punctuation.map fun row => row.2.1

/-- Whether punctuation stands at the front of a text.  A `?.` in front of a digit does not count,
since the point then belongs to a number. -/
def standsAt (kind : TokenKind) (cs : List Char) : Bool :=
  kind.spelling.isPrefixOf cs &&
    !(kind == questionDot && (cs.drop 2).head?.any isDecimalDigit)

/-- Every row has the characters of its kind, and takes as many as there are. -/
lemma punctuation_eq :
    punctuation = operators.map fun k => (k.spelling, k, k.spelling.length) := by
  decide +kernel

/-- What is read is the first kind that stands at the front of the text, as long as its characters
are. -/
theorem operator?_eq (cs : List Char) : operator? cs =
    (operators.find? (·.standsAt cs)).map fun k => (k, k.spelling.length) := by
  rw [operator?, punctuation_eq, List.find?_map, Option.map_map]
  rfl

/-- What is read as punctuation stands there, with all of its characters. -/
lemma stands_of_operator? {cs : List Char} {k : TokenKind} {length : Nat}
    (h : operator? cs = some (k, length)) :
    k ∈ operators ∧ k.spelling <+: cs ∧ length = k.spelling.length := by
  rw [operator?_eq, Option.map_eq_some_iff] at h
  obtain ⟨k', hfind, heq⟩ := h
  cases heq
  have hstands := List.find?_some hfind
  simp only [standsAt, Bool.and_eq_true] at hstands
  exact ⟨List.mem_of_find?_eq_some hfind, List.isPrefixOf_iff_prefix.mp hstands.1, rfl⟩

/-! ## What begins with `>` -/

/-- What begins with `>`. -/
def greaterKinds : List TokenKind :=
  [greaterThan, greaterThanEquals, greaterThanGreaterThan, greaterThanGreaterThanEquals,
    greaterThanGreaterThanGreaterThan, greaterThanGreaterThanGreaterThanEquals]

/-- The characters behind a `>` extend it to an operator that begins with it. -/
lemma greaterOperator_mem (cs : List Char) : (Lexer.greaterOperator cs).1 ∈ greaterKinds := by
  unfold Lexer.greaterOperator
  split <;> decide

/-- A `>` is extended by characters that stand behind it, all that its kind has more and nothing
else. -/
lemma greaterOperator_extends (cs : List Char) : ∃ tail, tail <+: cs ∧
    (Lexer.greaterOperator cs).1.spelling = '>' :: tail ∧
      (Lexer.greaterOperator cs).2 = tail.length := by
  unfold Lexer.greaterOperator
  split <;> exact ⟨_, ⟨_, rfl⟩, rfl, rfl⟩

end TokenKind
end InlineValues
