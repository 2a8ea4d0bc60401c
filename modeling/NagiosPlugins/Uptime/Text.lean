import NagiosPlugins.Uptime.Basic

/-!
# The text denotes the uptime

A text of days, hours and minutes reads back as what was printed, and the plugin prints the days,
hours and minutes of the whole minutes that have passed.
-/

namespace NagiosPlugins

open Libc

/-- What a text says. -/
structure Uptime where
  days : ℕ
  hours : ℕ
  minutes : ℕ
  deriving DecidableEq, Repr

/-! ### Reading -/

/-- A unit behind a number, in the singular exactly for 1. -/
def unitText (n : ℕ) (word : CString) : CString :=
  ascii " " ++ word ++ (if n ≠ 1 then ascii "s" else []) ++ ascii " "

/-- A number, which is not 0, and its unit: the number, and what follows. -/
def readUnit (word s : CString) : Option (ℕ × CString) :=
  let digits := s.takeWhile isdigit
  let rest := s.dropWhile isdigit
  let n := natOfDigits 10 digits
  if digits ≠ [] ∧ n ≠ 0 ∧ hasPrefix rest (unitText n word) then
    some (n, rest.drop (unitText n word).length)
  else none

/-- Days and hours may be left out, and are 0 then. -/
def readUptime (s : CString) : Option Uptime :=
  let (days, s) := (readUnit (ascii "day") s).getD (0, s)
  let (hours, s) := (readUnit (ascii "hour") s).getD (0, s)
  let digits := s.takeWhile isdigit
  if digits ≠ [] ∧ s.dropWhile isdigit = ascii " min" then
    some ⟨days, hours, natOfDigits 10 digits⟩
  else none

/-- The minutes, which are always printed. -/
def minutesText (minutes : ℕ) : CString := decimal minutes ++ ascii " min"

/-- A number and its unit in front of a text, unless the number is 0. -/
def withUnit (n : ℕ) (word text : CString) : CString :=
  if n ≠ 0 then decimal n ++ (unitText n word ++ text) else text

/-- The text of an uptime. -/
def Uptime.render (u : Uptime) : CString :=
  withUnit u.days (ascii "day") (withUnit u.hours (ascii "hour") (minutesText u.minutes))

/-- A number in front of something that is no digit. -/
lemma readUnit_decimal (word : CString) (n : ℕ) {rest : CString}
    (hrest : ∀ c ∈ rest.head?, isdigit c = false) :
    readUnit word (decimal n ++ rest)
      = if n ≠ 0 ∧ hasPrefix rest (unitText n word) then
          some (n, rest.drop (unitText n word).length)
        else none := by
  obtain ⟨htake, hdrop⟩ := takeWhile_digits_append (isdigit_of_mem_decimal n) hrest
  rw [readUnit]
  simp only [htake, hdrop, natOfDigits_decimal, ne_eq, decimal_ne_nil, not_false_eq_true, true_and]

lemma unitText_head (n : ℕ) (word rest : CString) :
    ∀ c ∈ (unitText n word ++ rest).head?, isdigit c = false := by
  intro c hc
  have hblank : (' ' : UInt8) = c := by simpa [unitText, ascii] using hc
  rw [← hblank]
  decide

/-- The unit that is looked for. -/
lemma readUnit_unitText (word : CString) {n : ℕ} (hn : n ≠ 0) (rest : CString) :
    readUnit word (decimal n ++ (unitText n word ++ rest)) = some (n, rest) := by
  rw [readUnit_decimal word n (unitText_head n word rest),
    if_pos ⟨hn, hasPrefix_append _ _⟩, List.drop_left]

/-- Another word. -/
lemma readUnit_of_ne (word : CString) (n : ℕ) {rest : CString}
    (hrest : ∀ c ∈ rest.head?, isdigit c = false)
    (hword : ∀ m t, unitText m word ++ t ≠ rest) :
    readUnit word (decimal n ++ rest) = none := by
  rw [readUnit_decimal word n hrest, if_neg]
  rintro ⟨-, hprefix⟩
  obtain ⟨t, ht⟩ := hasPrefix_iff.1 hprefix
  exact hword n t ht

/-- The first character of the word tells the units apart. -/
lemma take_unitText (m : ℕ) (c : UInt8) (word t : CString) :
    (unitText m (c :: word) ++ t).take 2 = [(' ' : UInt8), c] := rfl

lemma minutesText_head : ∀ c ∈ (ascii " min").head?, isdigit c = false := by decide +kernel

/-- A part is read, and left out where it has been left out, if the text behind it does not begin
with its unit. -/
lemma readUnit_withUnit (word : CString) (n : ℕ) {text : CString}
    (htext : readUnit word text = none) :
    (readUnit word (withUnit n word text)).getD (0, withUnit n word text) = (n, text) := by
  rw [withUnit]
  split_ifs with hn
  · rw [readUnit_unitText word hn, Option.getD_some]
  · rw [htext, not_not.1 hn, Option.getD_none]

lemma readUnit_minutesText {c : UInt8} (hc : c ≠ 'm') (word : CString) (minutes : ℕ) :
    readUnit (c :: word) (minutesText minutes) = none := by
  apply readUnit_of_ne _ _ minutesText_head
  intro m t heq
  have htwo := congrArg (List.take 2) heq
  rw [take_unitText] at htwo
  exact hc (List.cons.inj (List.cons.inj htwo).2).1

lemma readUnit_day_hours (hours minutes : ℕ) :
    readUnit (ascii "day") (withUnit hours (ascii "hour") (minutesText minutes)) = none := by
  rw [withUnit]
  split_ifs
  · apply readUnit_of_ne _ _ (unitText_head _ _ _)
    intro m t heq
    have htwo : [(' ' : UInt8), 'd'] = [(' ' : UInt8), 'h'] := congrArg (List.take 2) heq
    revert htwo
    decide
  · exact readUnit_minutesText (by decide) (ascii "ay") minutes

/-- What has been printed is read. -/
theorem readUptime_render (u : Uptime) : readUptime u.render = some u := by
  obtain ⟨days, hours, minutes⟩ := u
  have hdays := readUnit_withUnit (ascii "day") days (readUnit_day_hours hours minutes)
  have hhours := readUnit_withUnit (ascii "hour") hours
    (readUnit_minutesText (by decide : ('h' : UInt8) ≠ 'm') (ascii "our") minutes)
  obtain ⟨htake, hdrop⟩ : (minutesText minutes).takeWhile isdigit = decimal minutes ∧
      (minutesText minutes).dropWhile isdigit = ascii " min" :=
    takeWhile_digits_append (isdigit_of_mem_decimal minutes) minutesText_head
  have hrender : Uptime.render ⟨days, hours, minutes⟩
      = withUnit days (ascii "day") (withUnit hours (ascii "hour") (minutesText minutes)) := rfl
  rw [hrender, readUptime, hdays]
  simp only [hhours, htake, hdrop, natOfDigits_decimal]
  exact if_pos ⟨decimal_ne_nil minutes, trivial⟩

end NagiosPlugins
