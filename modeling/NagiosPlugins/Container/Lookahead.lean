import NagiosPlugins.Container.Basic
import NagiosPlugins.Json.Search

/-!
# The token behind a match

Both searches read the token behind the one that they have found. Behind the last token of a text
there is none.
-/

namespace NagiosPlugins

open Libc

variable {json : CString} {tokens : List JsmnTok}

lemma searchLoop_inBounds_iff (token : CString) (convert : CString → CString)
    (increment : UInt64) (tokens : List JsmnTok) (hashtable : HashtableT) :
    searchLoop json token convert increment tokens hashtable ≠ .error .outOfBounds ↔
      ∀ t ∈ tokens.getLast?, jsonTokenStreq json t token = false := by
  induction tokens generalizing hashtable with
  | nil => simp [searchLoop]
  | cons t tokens ih =>
    cases tokens with
    | nil => cases hstreq : jsonTokenStreq json t token <;> simp [searchLoop, hstreq]
    | cons t' tokens =>
      rw [List.getLast?_cons_cons, searchLoop]
      split_ifs
      · exact ih _
      · exact ih _

/-- The search for a token stays within the array exactly if the last token, unless it is the
first one, is another. -/
lemma dockerJsonParserSearch_inBounds_iff {n : ℕ}
    (h : jsonTokenise json = .ok (some (tokens, n))) (token : CString)
    (convert : CString → CString) (increment : UInt64) :
    dockerJsonParserSearch json token convert increment ≠ .error .outOfBounds ↔
      ∀ t ∈ tokens.tail.getLast?, jsonTokenStreq json t token = false := by
  have hrun : dockerJsonParserSearch json token convert increment
      = searchLoop json token convert increment tokens.tail counterCreate >>=
          fun hashtable => .ok (some hashtable) := by
    rw [dockerJsonParserSearch, h]
    rfl
  rw [← searchLoop_inBounds_iff token convert increment tokens.tail counterCreate, hrun]
  cases searchLoop json token convert increment tokens.tail counterCreate with
  | error stop => simp
  | ok hashtable => simp

/-- The search for a label stays within the array exactly if the label that it finds is not the
last token. -/
lemma jsonSearch_inBounds_iff {n : ℕ} (h : jsonTokenise json = .ok (some (tokens, n)))
    {path object label : CString} (hpath : pathNames path = some (object, label))
    (value : Option CString) :
    jsonSearch json path value ≠ .error .outOfBounds ↔
      (tokensFromLabel json object label tokens).length ≠ 1 := by
  rw [jsonSearch, h, Except.ok_bind, hpath]
  simp only [Option.map_some, Option.getD_some, labelLoop_eq]
  rcases tokensFromLabel json object label tokens with _ | ⟨t, _ | ⟨next, rest⟩⟩
  · simp [pure, Except.pure]
  · simp
  · simp [pure, Except.pure]

/-- The searches in a text with `n` tokens access no index from `n` on: the one for a token, unless
the last token is another string that spells it than the first token of all; the one for a label,
unless the first label behind the first object is the last token. -/
theorem lookahead_iff {n : ℕ} (h : jsonTokenise json = .ok (some (tokens, n))) :
    tokens.length = n ∧
    (∀ token convert increment,
      dockerJsonParserSearch json token convert increment ≠ .error .outOfBounds ↔
        ∀ t ∈ tokens.tail.getLast?, jsonTokenStreq json t token = false) ∧
    ∀ path object label value, pathNames path = some (object, label) →
      (jsonSearch json path value ≠ .error .outOfBounds ↔
        (tokensFromLabel json object label tokens).length ≠ 1) := by
  refine ⟨length_of_jsonTokenise h, ?_, ?_⟩
  · intro token convert increment
    exact dockerJsonParserSearch_inBounds_iff h token convert increment
  · intro path object label value hpath
    exact jsonSearch_inBounds_iff h hpath value

/-- The searches of `check_container`, both with a match. -/
theorem found_lookahead :
    dockerJsonParserSearch (ascii "[\x7b\"Image\":\"nginx\",\"Id\":7\x7d]") (ascii "Image")
        imageShortname 1 ≠ .error .outOfBounds ∧
      jsonSearch (ascii "\x7b\"memory_stats\":\x7b\"usage\":8\x7d\x7d")
        (ascii ".memory_stats.usage") none ≠ .error .outOfBounds := by
  have himages : jsonTokenise (ascii "[\x7b\"Image\":\"nginx\",\"Id\":7\x7d]")
      = .ok (some ([⟨.array, 0, 26, 1⟩, ⟨.object, 1, 25, 2⟩, ⟨.string, 3, 8, 1⟩,
          ⟨.string, 11, 16, 0⟩, ⟨.string, 19, 21, 1⟩, ⟨.primitive, 23, 24, 0⟩], 6)) := by
    decide +kernel
  have hmemory : jsonTokenise (ascii "\x7b\"memory_stats\":\x7b\"usage\":8\x7d\x7d")
      = .ok (some ([⟨.object, 0, 28, 1⟩, ⟨.string, 2, 14, 1⟩, ⟨.object, 16, 27, 1⟩,
          ⟨.string, 18, 23, 1⟩, ⟨.primitive, 25, 26, 0⟩], 5)) := by
    decide +kernel
  have hpath : pathNames (ascii ".memory_stats.usage")
      = some (ascii "memory_stats", ascii "usage") := by
    decide +kernel
  exact ⟨((lookahead_iff himages).2.1 _ _ _).2 (by decide +kernel),
    ((lookahead_iff hmemory).2.2 _ _ _ _ hpath).2 (by decide +kernel)⟩

/-- Elements of arrays that are taken for a name. -/
theorem lastElement_outOfBounds :
    (∃ tokens, jsonTokenise (ascii "[\"Image\"]") = .ok (some (tokens, 2))) ∧
    dockerJsonParserSearch (ascii "[\"Image\"]") (ascii "Image") imageShortname 1
      = .error .outOfBounds ∧
    jsonSearch (ascii "[\"a\",\"b\"]") (ascii ".a.b") none = .error .outOfBounds := by
  have h : jsonTokenise (ascii "[\"Image\"]")
      = .ok (some ([⟨.array, 0, 9, 1⟩, ⟨.string, 2, 7, 0⟩], 2)) := by decide +kernel
  refine ⟨⟨_, h⟩, ?_, ?_⟩
  · rw [dockerJsonParserSearch, h]
    rfl
  · decide +kernel

end NagiosPlugins
