import NagiosPlugins.Data.JsonText

/-!
# Members of named objects

The members with a label of the objects that are themselves values of a key, at any depth, and where
their names stand among the tokens. Names are compared as they are spelled.
-/

namespace JsonText

open Libc

/-- The text of a value, which for a string is what stands between its quotes. -/
def Json.text : Json → CString
  | .literal l => l.text
  | .string s => s.bytes
  | .array ws items => (Json.array ws items).render
  | .object ws members => (Json.object ws members).render

/-! ### Members -/

/-- The values of the members with a name, each with the number of the token that is this name; `n`
tokens stand before the first member. -/
def Members.named (name : CString) (n : ℕ) : Members → List (ℕ × Json)
  | .nil => []
  | .cons _ name' _ _ value _ rest =>
    (if name'.bytes = name then [(n, value)] else [])
      ++ rest.named name (n + (value.tokens.length + 1))

/-- The members with a name, if the value is an object; `n` tokens stand before it. -/
def Json.named (name : CString) (n : ℕ) : Json → List (ℕ × Json)
  | .object _ members => members.named name (n + 1)
  | _ => []

mutual

/-- The members `label` of objects that are values of a key `object`; `n` tokens stand before the
value. -/
def Json.membersOf (object label : CString) (n : ℕ) : Json → List (ℕ × Json)
  | .literal _ => []
  | .string _ => []
  | .array _ items => items.membersOf object label (n + 1)
  | .object _ members => members.membersOf object label (n + 1)

def Items.membersOf (object label : CString) (n : ℕ) : Items → List (ℕ × Json)
  | .nil => []
  | .cons _ value _ rest =>
    value.membersOf object label n ++ rest.membersOf object label (n + value.tokens.length)

def Members.membersOf (object label : CString) (n : ℕ) : Members → List (ℕ × Json)
  | .nil => []
  | .cons _ name _ _ value _ rest =>
    (if name.bytes = object then value.named label (n + 1) else [])
      ++ (value.membersOf object label (n + 1)
        ++ rest.membersOf object label (n + (value.tokens.length + 1)))

end

/-! ### Strings behind each other -/

/-- The token number `n` is a string `label` behind a string `object`, whatever these are. -/
def Behind (object label : CString) (tokens : List Token) (n : ℕ) : Prop :=
  tokens[n]? = some ⟨.string, label⟩ ∧ ∃ m < n, tokens[m]? = some ⟨.string, object⟩

/-- Every string `label` behind a string `object` is the name of a member `label` of an object that
is the value of a key `object`, or stands behind such a name. -/
def BehindMember (object label : CString) (v : Json) : Prop :=
  ∀ n, Behind object label v.tokens n → ∃ m ∈ v.membersOf object label 0, m.1 ≤ n

/-! ### The tokens of a member -/

/-- Behind `n` tokens these ones have the name `label` at the number `k`, and the tokens of the
value follow it. -/
def NamedAt (label : CString) (tokens : List Token) (n k : ℕ) (value : Json) (before : List Token) :
    Prop :=
  ∃ after, tokens = before ++ ⟨.string, label⟩ :: (value.tokens ++ after) ∧ k = n + before.length

variable {object label : CString}

lemma NamedAt.append {tokens before A : List Token} {n k : ℕ} {value : Json}
    (h : NamedAt label tokens (n + A.length) k value before) (back : List Token) :
    NamedAt label (A ++ (tokens ++ back)) n k value (A ++ before) := by
  obtain ⟨after, rfl, rfl⟩ := h
  refine ⟨after ++ back, ?_, ?_⟩
  · simp
  · rw [List.length_append, Nat.add_assoc]

lemma Members.namedAt_of_mem {n k : ℕ} {w : Json} (members : Members)
    (h : (k, w) ∈ members.named label n) : ∃ before, NamedAt label members.tokens n k w before := by
  match members with
  | .nil => simp [Members.named] at h
  | .cons _ name _ _ value _ rest =>
    rw [Members.named, List.mem_append, List.mem_ite_nil_right, List.mem_singleton] at h
    rw [Members.tokens]
    rcases h with ⟨rfl, heq⟩ | h
    · cases heq
      exact ⟨[], rest.tokens, rfl, rfl⟩
    · obtain ⟨before, hbefore⟩ := Members.namedAt_of_mem rest h
      have happend := NamedAt.append (A := ⟨.string, name.bytes⟩ :: value.tokens) hbefore []
      rw [List.append_nil] at happend
      exact ⟨_, happend⟩

lemma Json.namedAt_of_mem {n k : ℕ} {v w : Json} (h : (k, w) ∈ v.named label n) :
    ∃ before, NamedAt label v.tokens n k w before := by
  cases v with
  | object ws members =>
    obtain ⟨before, hbefore⟩ := members.namedAt_of_mem h
    have happend := NamedAt.append (A := [⟨.object, (Json.object ws members).render⟩])
      hbefore []
    rw [List.append_nil] at happend
    exact ⟨_, happend⟩
  | literal l => simp [Json.named] at h
  | string s => simp [Json.named] at h
  | array ws items => simp [Json.named] at h

/-- Behind `n` tokens these ones have the name `label` at the number `k`, behind a string
`object`. -/
def MemberAt (object label : CString) (tokens : List Token) (n k : ℕ) (value : Json) : Prop :=
  ∃ before, NamedAt label tokens n k value before ∧ ⟨.string, object⟩ ∈ before

lemma MemberAt.append {tokens A : List Token} {n k : ℕ} {value : Json}
    (h : MemberAt object label tokens (n + A.length) k value) (back : List Token) :
    MemberAt object label (A ++ (tokens ++ back)) n k value := by
  obtain ⟨before, hbefore, hobject⟩ := h
  exact ⟨A ++ before, hbefore.append back, List.mem_append_right _ hobject⟩

mutual

/-- A member of a named object has its name behind the one of the object, and its value behind that
name. -/
lemma Json.memberAt_of_mem {n k : ℕ} {w : Json} (v : Json)
    (h : (k, w) ∈ v.membersOf object label n) : MemberAt object label v.tokens n k w := by
  match v with
  | .literal l => simp [Json.membersOf] at h
  | .string s => simp [Json.membersOf] at h
  | .array ws items =>
    have happend := MemberAt.append (A := [⟨.array, (Json.array ws items).render⟩])
      (Items.memberAt_of_mem items h) []
    rwa [List.append_nil] at happend
  | .object ws members =>
    have happend := MemberAt.append (A := [⟨.object, (Json.object ws members).render⟩])
      (Members.memberAt_of_mem members h) []
    rwa [List.append_nil] at happend

lemma Items.memberAt_of_mem {n k : ℕ} {w : Json} (items : Items)
    (h : (k, w) ∈ items.membersOf object label n) :
    MemberAt object label items.tokens n k w := by
  match items with
  | .nil => simp [Items.membersOf] at h
  | .cons _ value _ rest =>
    rw [Items.membersOf, List.mem_append] at h
    rw [Items.tokens]
    rcases h with h | h
    · exact MemberAt.append (A := []) (Json.memberAt_of_mem value h) rest.tokens
    · have happend := MemberAt.append (Items.memberAt_of_mem rest h) []
      rwa [List.append_nil] at happend

lemma Members.memberAt_of_mem {n k : ℕ} {w : Json} (members : Members)
    (h : (k, w) ∈ members.membersOf object label n) :
    MemberAt object label members.tokens n k w := by
  match members with
  | .nil => simp [Members.membersOf] at h
  | .cons _ name _ _ value _ rest =>
    rw [Members.membersOf, List.mem_append, List.mem_append, List.mem_ite_nil_right] at h
    rw [Members.tokens]
    rcases h with ⟨rfl, h⟩ | h | h
    · -- the name of the object itself stands in front
      obtain ⟨before, hbefore⟩ := Json.namedAt_of_mem h
      have happend := NamedAt.append (A := [⟨.string, name.bytes⟩]) hbefore rest.tokens
      exact ⟨_, happend, List.mem_append_left _ (List.mem_singleton_self _)⟩
    · exact MemberAt.append (A := [⟨.string, name.bytes⟩]) (Json.memberAt_of_mem value h)
        rest.tokens
    · have happend := MemberAt.append (A := ⟨.string, name.bytes⟩ :: value.tokens)
        (Members.memberAt_of_mem rest h) []
      rwa [List.append_nil] at happend

end

/-- The first token of a value has its text. -/
lemma Json.exists_tokens_eq (v : Json) : ∃ x rest, v.tokens = x :: rest ∧ x.text = v.text := by
  cases v with
  | literal l => exact ⟨_, [], rfl, rfl⟩
  | string s => exact ⟨_, [], rfl, rfl⟩
  | array ws items => exact ⟨_, items.tokens, rfl, rfl⟩
  | object ws members => exact ⟨_, members.tokens, rfl, rfl⟩

lemma MemberAt.behind {tokens : List Token} {k : ℕ} {value : Json}
    (h : MemberAt object label tokens 0 k value) : Behind object label tokens k := by
  obtain ⟨before, ⟨after, rfl, rfl⟩, hobject⟩ := h
  rw [Nat.zero_add]
  obtain ⟨m, hm, heq⟩ := List.getElem_of_mem hobject
  refine ⟨by simp, m, hm, ?_⟩
  rw [List.getElem?_append_left hm, List.getElem?_eq_getElem hm, heq]

lemma MemberAt.exists_next {tokens : List Token} {k : ℕ} {value : Json}
    (h : MemberAt object label tokens 0 k value) :
    ∃ x, tokens[k + 1]? = some x ∧ x.text = value.text := by
  obtain ⟨before, ⟨after, rfl, rfl⟩, -⟩ := h
  obtain ⟨x, rest, hvalue, htext⟩ := value.exists_tokens_eq
  refine ⟨x, ?_, htext⟩
  rw [Nat.zero_add, List.getElem?_append_right (Nat.le_add_right _ 1), Nat.add_sub_cancel_left,
    hvalue]
  rfl

end JsonText
