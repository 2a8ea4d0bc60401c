import Mathlib.Order.Lattice.Nat
import NagiosPlugins.Data.JsonMembers
import NagiosPlugins.Json.Search

/-!
# Members of objects and the search for a label

`json_search` is meant to find a member of a named object. It finds the first string that spells
the label behind one that spells the object, wherever these strings stand.
-/

namespace NagiosPlugins

open Libc JsonText

/-- Two different names that a path can hold. -/
structure PathOf where
  object : CString
  label : CString
  object_ne_nil : object ≠ []
  label_ne_nil : label ≠ []
  dot_not_mem_object : ('.' : UInt8) ∉ object
  dot_not_mem_label : ('.' : UInt8) ∉ label
  distinct : object ≠ label

namespace PathOf

variable (p : PathOf)

/-- `.object.label` -/
def path : CString := ('.' : UInt8) :: (p.object ++ ('.' : UInt8) :: p.label)

lemma pathNames_path : pathNames p.path = some (p.object, p.label) := by
  have hobject : strtok '.' p.path = some (p.object, p.label) := by
    rw [path, strtok_cons]
    exact strtok_append p.object_ne_nil p.dot_not_mem_object (by simp)
  have hlabel : strtok '.' p.label = some (p.label, []) := by
    have h : strtok '.' (p.label ++ []) = some (p.label, ([] : CString).tail) :=
      strtok_append p.label_ne_nil p.dot_not_mem_label (by simp)
    rwa [List.append_nil] at h
  simp only [pathNames, hobject, hlabel, Option.bind_eq_bind, Option.bind_some]
  rfl

end PathOf

/-! ### The search in a document -/

/-- A string `label` behind a string `object`, when one has been found in front of the tokens or
not. -/
def BehindFrom (object label : CString) (foundObject : Bool) (xs : List Token) (n : ℕ) : Prop :=
  xs[n]? = some ⟨.string, label⟩ ∧ (foundObject ∨ ∃ m < n, xs[m]? = some ⟨.string, object⟩)

lemma behindFrom_false {object label : CString} {xs : List Token} :
    BehindFrom object label false xs = Behind object label xs := by
  funext n
  simp [BehindFrom, Behind]

lemma behindFrom_cons_of_eq {object label : CString} {x : Token} (hx : x = ⟨.string, object⟩)
    (foundObject : Bool) (xs : List Token) (n : ℕ) :
    BehindFrom object label foundObject (x :: xs) (n + 1) ↔ BehindFrom object label true xs n := by
  have hfront : ∃ m < n + 1, (x :: xs)[m]? = some ⟨.string, object⟩ :=
    ⟨0, Nat.succ_pos n, congrArg some hx⟩
  rw [BehindFrom, BehindFrom, List.getElem?_cons_succ]
  exact ⟨fun h => ⟨h.1, .inl rfl⟩, fun h => ⟨h.1, .inr hfront⟩⟩

lemma behindFrom_cons_of_ne {object label : CString} {x : Token} (hx : x ≠ ⟨.string, object⟩)
    (foundObject : Bool) (xs : List Token) (n : ℕ) :
    BehindFrom object label foundObject (x :: xs) (n + 1) ↔
      BehindFrom object label foundObject xs n := by
  have hfront : (∃ m < n + 1, (x :: xs)[m]? = some ⟨.string, object⟩) ↔
      ∃ m < n, xs[m]? = some ⟨.string, object⟩ := by
    rw [Nat.exists_lt_succ_left]
    simp [hx]
  rw [BehindFrom, BehindFrom, hfront, List.getElem?_cons_succ]

lemma behindFrom_cons_zero {object label : CString} {x : Token} {foundObject : Bool}
    {xs : List Token} :
    BehindFrom object label foundObject (x :: xs) 0 ↔
      foundObject = true ∧ x = ⟨.string, label⟩ := by
  simp [BehindFrom, and_comm]

/-- A set of numbers without zero has the least element of the set one below, plus one. -/
lemma isLeast_succ_iff {S T : ℕ → Prop} (hzero : ¬ S 0) (hsucc : ∀ n, S (n + 1) ↔ T n) (n : ℕ) :
    IsLeast {n | S n} n ↔ ∃ m, IsLeast {n | T n} m ∧ m + 1 = n := by
  constructor
  · rintro ⟨hn, hle⟩
    cases n with
    | zero => exact absurd hn hzero
    | succ n =>
      refine ⟨n, ⟨(hsucc n).1 hn, ?_⟩, rfl⟩
      intro k hk
      exact Nat.le_of_succ_le_succ (hle ((hsucc k).2 hk))
  · rintro ⟨m, ⟨hm, hle⟩, rfl⟩
    refine ⟨(hsucc m).2 hm, ?_⟩
    intro k hk
    cases k with
    | zero => exact absurd hk hzero
    | succ k => exact Nat.succ_le_succ (hle ((hsucc k).1 hk))

section Search

variable {text : CString} {tokens : List JsmnTok} {xs : List Token}

/-- The loop breaks at the first string `label` behind a string `object`. -/
lemma labelIndex_eq_some_iff (p : PathOf) (h : List.Forall₂ (JsmnTok.Spells text) tokens xs)
    (foundObject : Bool) (n : ℕ) :
    labelIndex text p.object p.label tokens foundObject = some n ↔
      IsLeast {n | BehindFrom p.object p.label foundObject xs n} n := by
  induction h generalizing foundObject n with
  | nil => simp [labelIndex, BehindFrom, IsLeast]
  | @cons t x tokens xs ht h ih =>
    have hstring : jsonTokenStreq text t p.label → t.type = .string := by
      intro hlabel
      rw [jsonTokenStreq, decide_eq_true_iff] at hlabel
      exact hlabel.1
    have hobjectIff : jsonTokenStreq text t p.object = true ↔ x = ⟨.string, p.object⟩ := by
      rw [ht.streq, decide_eq_true_iff]
    have hlabelIff : jsonTokenStreq text t p.label = true ↔ x = ⟨.string, p.label⟩ := by
      rw [ht.streq, decide_eq_true_iff]
    rw [labelIndex]
    by_cases hobject : x = ⟨.string, p.object⟩
    · have hzero : ¬ BehindFrom p.object p.label foundObject (x :: xs) 0 := by
        rw [behindFrom_cons_zero, hobject]
        exact fun h => p.distinct (congrArg Token.text h.2)
      rw [if_pos (hobjectIff.2 hobject), Option.map_eq_some_iff,
        isLeast_succ_iff hzero (behindFrom_cons_of_eq hobject foundObject xs)]
      simp only [ih]
    · rw [if_neg (mt hobjectIff.1 hobject)]
      by_cases hlabel : foundObject = true ∧ x = ⟨.string, p.label⟩
      · have hstreq := hlabelIff.2 hlabel.2
        rw [if_pos ⟨hlabel.1, hstring hstreq, hstreq⟩, Option.some.injEq]
        have hzero : IsLeast {n | BehindFrom p.object p.label foundObject (x :: xs) n} 0 :=
          ⟨behindFrom_cons_zero.2 hlabel, fun k _ => Nat.zero_le k⟩
        constructor
        · rintro rfl
          exact hzero
        · exact hzero.unique
      · rw [if_neg (fun hthis => hlabel ⟨hthis.1, hlabelIff.1 hthis.2.2⟩), Option.map_eq_some_iff,
          isLeast_succ_iff (mt behindFrom_cons_zero.1 hlabel)
            (behindFrom_cons_of_ne hobject foundObject xs)]
        simp only [ih]

/-- The search stops at the first string `label` behind a string `object`, and takes the text of the
token behind it. -/
lemma jsonSearch_document (d : Document) (p : PathOf) :
    ∃ i, jsonSearchIndex d.text p.path = .ok i ∧
      (∀ n, i = some n ↔ IsLeast {n | Behind p.object p.label d.value.tokens n} n) ∧
      ∀ value, jsonSearch d.text p.path value
        = match i with
          | none => .ok (0, value)
          | some n =>
            match d.value.tokens[n + 1]? with
            | none => .error .outOfBounds
            | some x => .ok (0, some x.text) := by
  obtain ⟨tokens, htokenise, hspells⟩ := jsonTokenise_document d
  refine ⟨labelIndex d.text p.object p.label tokens false, ?_, ?_, ?_⟩
  · rw [jsonSearchIndex, htokenise, Except.ok_bind, p.pathNames_path]
    rfl
  · intro n
    rw [labelIndex_eq_some_iff p hspells, behindFrom_false]
  · intro value
    rw [jsonSearch, htokenise, Except.ok_bind, p.pathNames_path]
    simp only [Option.map_some, Option.getD_some, labelLoop_eq_labelIndex]
    cases labelIndex d.text p.object p.label tokens false with
    | none => rfl
    | some n =>
      have hnext := List.forall₂_drop (n + 1) hspells
      simp only [← List.head?_drop]
      revert hnext
      generalize tokens.drop (n + 1) = ts
      generalize d.value.tokens.drop (n + 1) = xs
      intro hnext
      cases hnext with
      | nil => rfl
      | cons hx _ =>
        simp only [List.head?_cons, hx.text]
        rfl

end Search

/-! ### Finding a member -/

/-- `*value` is the text of a member `label` of an object that is the value of a key `object`, taken
from behind the name of this member, if there is such a member, and keeps its value otherwise. -/
def FindsMember (d : Document) (p : PathOf) : Prop :=
  ∀ value,
    (d.value.membersOf p.object p.label 0 = [] →
      jsonSearch d.text p.path value = .ok (0, value)) ∧
    (d.value.membersOf p.object p.label 0 ≠ [] →
      ∃ m ∈ d.value.membersOf p.object p.label 0,
        jsonSearchIndex d.text p.path = .ok (some m.1) ∧
        jsonSearch d.text p.path value = .ok (0, some m.2.text))

lemma exists_isLeast_behind {object label : CString} {xs : List Token} {n : ℕ}
    (h : Behind object label xs n) : ∃ k, IsLeast {n | Behind object label xs n} k :=
  ⟨_, isLeast_csInf ⟨n, h⟩⟩

/-- The search finds a member as it should exactly if no string in the text spells the label behind
one that spells the object, unless one of these members has its name there or in front of it. -/
theorem findsMember_iff (d : Document) (p : PathOf) :
    FindsMember d p ↔ BehindMember p.object p.label d.value := by
  obtain ⟨i, hindex, hleast, hsearch⟩ := jsonSearch_document d p
  constructor
  · intro h n hn
    obtain ⟨hnone, hsome⟩ := h none
    obtain ⟨k, hk⟩ := exists_isLeast_behind hn
    have hi := (hleast k).2 hk
    by_cases hnil : d.value.membersOf p.object p.label 0 = []
    · have hkept := hnone hnil
      rw [hsearch, hi] at hkept
      cases hnext : d.value.tokens[k + 1]? <;> simp [hnext] at hkept
    · obtain ⟨m, hm, hfound, -⟩ := hsome hnil
      rw [hindex, Except.ok.injEq, hi, Option.some.injEq] at hfound
      exact ⟨m, hm, hfound ▸ hk.2 hn⟩
  · intro h value
    constructor
    · intro hnil
      have hi : i = none := by
        rw [Option.eq_none_iff_forall_ne_some]
        intro n hn
        obtain ⟨m, hm, -⟩ := h n ((hleast n).1 hn).1
        rw [hnil] at hm
        cases hm
      rw [hsearch, hi]
    · intro hmembers
      obtain ⟨m₀, hm₀⟩ := List.exists_mem_of_ne_nil _ hmembers
      obtain ⟨k, hk⟩ := exists_isLeast_behind (Json.memberAt_of_mem _ hm₀).behind
      -- the member that stands in front of the first label has its name there
      obtain ⟨m, hm, hle⟩ := h k hk.1
      have hmember := Json.memberAt_of_mem _ hm
      have heq : m.1 = k := le_antisymm hle (hk.2 hmember.behind)
      obtain ⟨x, hx, htext⟩ := hmember.exists_next
      rw [heq] at hx
      have hi := (hleast k).2 hk
      refine ⟨m, hm, by rw [hindex, hi, heq], ?_⟩
      rw [hsearch, hi, ← htext]
      simp only [hx]

/-- Two members side by side. -/
def flatDocument : Document :=
  let a : Str := ⟨ascii "a", .of_plain (by decide +kernel)⟩
  let b : Str := ⟨ascii "b", .of_plain (by decide +kernel)⟩
  let one : Literal := ⟨ascii "1", by simp [ascii], by decide +kernel⟩
  let two : Literal := ⟨ascii "2", by simp [ascii], by decide +kernel⟩
  { before := .none
    value := .object .none (.cons .none a .none .none (.literal one) .none
      (.cons .none b .none .none (.literal two) .none .nil))
    after := .none }

/-- The path `.a.b`. -/
def pathAB : PathOf where
  object := ascii "a"
  label := ascii "b"
  object_ne_nil := by simp [ascii]
  label_ne_nil := by simp [ascii]
  dot_not_mem_object := by decide
  dot_not_mem_label := by decide
  distinct := by decide

theorem flatDocument_not_findsMember :
    flatDocument.text = ascii "\x7b\"a\":1,\"b\":2\x7d" ∧ pathAB.path = ascii ".a.b" ∧
      jsonSearch flatDocument.text pathAB.path none = .ok (0, some (ascii "2")) ∧
      ¬ FindsMember flatDocument pathAB := by
  have hfound : jsonSearch flatDocument.text pathAB.path none = .ok (0, some (ascii "2")) := by
    decide +kernel
  refine ⟨rfl, rfl, hfound, ?_⟩
  intro h
  have hkept := (h none).1 (by rfl)
  rw [hfound] at hkept
  cases hkept

end NagiosPlugins
