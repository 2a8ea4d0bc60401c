import Mathlib.Data.Nat.Notation
import Mathlib.Logic.Function.Basic

/-!
# Two slots that are filled in turn

A new value goes into the slot that is not the latest one, so that the two last values are at hand.
-/

/-- Two slots, and which of them was filled last. -/
structure TwoSlots (α : Type*) where
  tog : Bool
  slots : Bool → α

namespace TwoSlots

variable {α : Type*}

/-- The first value; the other slot holds whatever it held. -/
def start (slot first : α) : TwoSlots α where
  tog := false
  slots := Function.update (fun _ => slot) false first

def push (s : TwoSlots α) (x : α) : TwoSlots α where
  tog := !s.tog
  slots := Function.update s.slots (!s.tog) x

def latest (s : TwoSlots α) : α := s.slots s.tog

def other (s : TwoSlots α) : α := s.slots (!s.tog)

@[simp] lemma latest_start (slot first : α) : (start slot first).latest = first := by
  simp [latest, start]

@[simp] lemma latest_push (s : TwoSlots α) (x : α) : (s.push x).latest = x := by
  simp [latest, push]

/-- The value before the last one is kept. -/
@[simp] lemma other_push (s : TwoSlots α) (x : α) : (s.push x).other = s.latest := by
  have hne : s.tog ≠ !s.tog := by cases s.tog <;> decide
  simp only [other, push, latest, Bool.not_not, Function.update_of_ne hne]

/-- The slots after `n` further values of a sequence. -/
def after (slot : α) (f : ℕ → α) : ℕ → TwoSlots α
  | 0 => start slot (f 0)
  | n + 1 => (after slot f n).push (f (n + 1))

@[simp] lemma push_after (slot : α) (f : ℕ → α) (n : ℕ) :
    (after slot f n).push (f (n + 1)) = after slot f (n + 1) := rfl

@[simp] lemma latest_after (slot : α) (f : ℕ → α) (n : ℕ) : (after slot f n).latest = f n := by
  cases n with
  | zero => exact latest_start slot (f 0)
  | succ n => exact latest_push _ _

@[simp] lemma other_after_succ (slot : α) (f : ℕ → α) (n : ℕ) :
    (after slot f (n + 1)).other = f n := by
  rw [after, other_push, latest_after]

end TwoSlots
