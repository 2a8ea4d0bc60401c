import Mathlib.Data.UInt
import NagiosPlugins.Interrupts.Basic

/-!
# The layout of `/proc/interrupts`

A header and one row for each interrupt: a label, up to one counter for each CPU, and a
description.
-/

namespace NagiosPlugins

open Libc

/-- A counter, with the blanks in front of it. -/
structure InterruptCounter where
  gap : ℕ
  digits : List UInt8
  isDigits : ∀ c ∈ digits, isdigit c
  nonempty : digits ≠ []
  lt : natOfDigits 10 digits < 2 ^ 64

namespace InterruptCounter

variable (c : InterruptCounter)

def render : CString := List.replicate c.gap (' ' : UInt8) ++ c.digits

def value : UInt64 := UInt64.ofNat (natOfDigits 10 c.digits)

def width : ℕ := c.gap + c.digits.length

end InterruptCounter

/-- A row with counters for at most `ncpus` CPUs. -/
structure InterruptRow (ncpus : ℕ) where
  label : CString
  counters : List InterruptCounter
  description : CString
  isLabel : ∀ c ∈ label, c ≠ ':' ∧ c ≠ '\n' ∧ c ≠ 0
  isDescription : ∀ c ∈ description, c ≠ '\n' ∧ c ≠ 0
  blank : ∀ c ∈ description.head?, c = ' '
  length_le : counters.length ≤ ncpus
  padded : ∀ c ∈ counters, 10 ≤ c.width
  /-- The blank that separates a counter from the one before is not part of its padding. -/
  separated : ∀ c ∈ counters.tail, 0 < c.gap ∧ 10 < c.width

namespace InterruptRow

variable {ncpus : ℕ} (row : InterruptRow ncpus)

/-- What stands behind the counters. -/
def ending : CString := row.description ++ [('\n' : UInt8)]

def render : CString :=
  row.label ++ (':' : UInt8) :: (row.counters.flatMap InterruptCounter.render ++ row.ending)

/-- The counter of a CPU, 0 if the row has none. -/
def counter (k : ℕ) : UInt64 := (row.counters[k]?.map InterruptCounter.value).getD 0

end InterruptRow

/-- The file: the header and the rows. -/
structure InterruptTable (ncpus : ℕ) where
  header : CString
  isHeader : ('\n' : UInt8) ∉ header
  rows : List (InterruptRow ncpus)

namespace InterruptTable

variable {ncpus : ℕ} (table : InterruptTable ncpus)

def render : List UInt8 :=
  table.header ++ ('\n' : UInt8) :: table.rows.flatMap InterruptRow.render

/-- The sum of a column. -/
def columnSum (k : ℕ) : UInt64 := (table.rows.map fun row => row.counter k).sum

/-- The function returns the sum of each column. -/
def SumsColumns : Prop :=
  ∃ vintr, procInterruptsGetNintrPerCpu (some table.render) ncpus = .ok (some vintr) ∧
    vintr.length = ncpus ∧ ∀ k < ncpus, vintr[k]? = some (table.columnSum k)

end InterruptTable

end NagiosPlugins
