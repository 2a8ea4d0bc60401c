import Mathlib.Tactic

/-!
# A meter with a high-water mark

The readings of a counter should only grow, but may run backwards for a while. A meter credits
the steps of the readings; what they run back becomes a debt, which is paid before anything
else is credited. It then credits exactly what lies above the highest reading so far.
-/

namespace HighWater

variable {α : Type*} [AddCommGroup α] [LinearOrder α]

/-- What a meter has credited, and its debt, which is not positive. -/
structure Meter (α : Type*) where
  total : α
  debt : α

namespace Meter

/-- A meter before the first step. -/
def start : Meter α := ⟨0, 0⟩

/-- The amount that a step credits. -/
def credit (m : Meter α) (step : α) : α := max 0 (m.debt + step)

/-- A step of the readings. -/
def tick (m : Meter α) (step : α) : Meter α where
  total := m.total + m.credit step
  debt := min 0 (m.debt + step)

/-- The steps from a reading over further ones. -/
def run (m : Meter α) (reading : α) : List α → Meter α
  | [] => m
  | next :: rest => (m.tick (next - reading)).run next rest

variable (m : Meter α)

/-- Nothing gets lost in a step. -/
lemma tick_total_add_debt (step : α) :
    (m.tick step).total + (m.tick step).debt = m.total + m.debt + step := by
  simp only [tick, credit]
  rw [add_assoc, add_comm (max _ _), min_add_max, zero_add, add_assoc]

lemma tick_debt_nonpos (step : α) : (m.tick step).debt ≤ 0 := min_le_left _ _

/-- The credited total and the debt add up to the way from the first reading to the last. -/
theorem run_total_add_debt (reading : α) (rest : List α) :
    (m.run reading rest).total + (m.run reading rest).debt
      = m.total + m.debt + (rest.getLastD reading - reading) := by
  induction rest generalizing m reading with
  | nil => simp [run]
  | cons next rest ih =>
    rw [run, ih, tick_total_add_debt, List.getLastD_cons]
    abel

theorem run_debt_nonpos {m : Meter α} (h : m.debt ≤ 0) (reading : α) (rest : List α) :
    (m.run reading rest).debt ≤ 0 := by
  induction rest generalizing m reading with
  | nil => exact h
  | cons next rest ih => exact ih (m.tick_debt_nonpos _) next

end Meter

end HighWater
