import NagiosPlugins.Data.Except
import NagiosPlugins.Uptime.Text

/-!
# What the plugin prints

`sprint_uptime` leaves in the buffer the text of the whole minutes that have passed.
-/

namespace NagiosPlugins

open Libc

/-- Whole minutes as days, hours and minutes. -/
def uptimeOf (minutes : ℕ) : Uptime := ⟨minutes / 1440, minutes / 60 % 24, minutes % 60⟩

/-! ### The parts of the text -/

lemma signedDecimal_natCast (n : ℕ) : signedDecimal (n : ℤ) = decimal n := by
  rw [signedDecimal, if_neg (Int.not_lt.2 (Int.natCast_nonneg n)), Int.natAbs_natCast]

lemma countText_natCast (n : ℕ) (unit : CString) :
    countText n unit ++ ascii " " = decimal n ++ unitText n unit := by
  have hone : ((n : ℤ) ≠ 1) ↔ n ≠ 1 := by norm_cast
  simp only [countText, unitText, signedDecimal_natCast, hone, List.append_assoc]

lemma hoursText_natCast (hours minutes : ℕ) :
    hoursText hours minutes = withUnit hours (ascii "hour") (minutesText minutes) := by
  have hzero : ((hours : ℤ) ≠ 0) ↔ hours ≠ 0 := by norm_cast
  simp only [hoursText, withUnit, hzero, signedDecimal_natCast, minutesText]
  split_ifs with hhours
  · rw [countText_natCast, List.append_assoc, List.append_assoc]
  · rfl

lemma withUnit_append (n : ℕ) (word text : CString) :
    withUnit n word text = withUnit n word [] ++ text := by
  simp only [withUnit]
  split_ifs
  · simp only [List.append_nil, List.append_assoc]
  · rfl

/-! ### There is room, and no NUL -/

lemma length_unitText_le (n : ℕ) (word : CString) :
    (unitText n word).length ≤ word.length + 3 := by
  have hs : (if n ≠ 1 then ascii "s" else []).length ≤ 1 := by split_ifs <;> decide
  have hblank : (ascii " ").length = 1 := rfl
  simp only [unitText, List.length_append, hblank]
  omega

lemma length_withUnit_le {n k : ℕ} (h : n < 10 ^ (k + 1)) (word text : CString) :
    (withUnit n word text).length ≤ k + 1 + (word.length + 3) + text.length := by
  have hdigits := length_decimal_le h
  have hunit := length_unitText_le n word
  rw [withUnit]
  split_ifs
  · simp only [List.length_append]
    omega
  · omega

lemma length_minutesText_le {minutes : ℕ} (h : minutes < 60) :
    (minutesText minutes).length ≤ 6 := by
  have hdigits : (decimal minutes).length ≤ 1 + 1 := length_decimal_le (by omega)
  have hmin : (ascii " min").length = 4 := rfl
  rw [minutesText, List.length_append]
  omega

lemma decimal_ne_zero (n : ℕ) : ∀ c ∈ decimal n, c ≠ 0 := by
  intro c hc hzero
  have hdigit := isdigit_of_mem_decimal n c hc
  rw [hzero] at hdigit
  exact absurd hdigit (by decide)

lemma minutesText_ne_zero (minutes : ℕ) : ∀ c ∈ minutesText minutes, c ≠ 0 := by
  have hmin : ∀ c ∈ ascii " min", c ≠ 0 := by decide +kernel
  exact List.forall_mem_append.2 ⟨decimal_ne_zero minutes, hmin⟩

lemma withUnit_ne_zero (n : ℕ) {word text : CString} (hword : ∀ c ∈ word, c ≠ 0)
    (htext : ∀ c ∈ text, c ≠ 0) : ∀ c ∈ withUnit n word text, c ≠ 0 := by
  have hblank : ∀ c ∈ ascii " ", c ≠ 0 := by decide +kernel
  have hs : ∀ c ∈ (if n ≠ 1 then ascii "s" else []), c ≠ 0 := by split_ifs <;> decide +kernel
  rw [withUnit]
  split_ifs
  · simp only [unitText, List.forall_mem_append]
    exact ⟨decimal_ne_zero n, ⟨⟨⟨hblank, hword⟩, hs⟩, hblank⟩, htext⟩
  · exact htext

lemma Uptime.render_ne_zero (u : Uptime) : ∀ c ∈ u.render, c ≠ 0 :=
  withUnit_ne_zero _ (by decide +kernel)
    (withUnit_ne_zero _ (by decide +kernel) (minutesText_ne_zero _))

/-! ### The buffer -/

/-- The days are printed at the beginning of the buffer. -/
lemma printDays_eq {buf : List UInt8} (hbuf : buf.length = bufsize + 1) {days : ℕ}
    (hdays : days < 10 ^ 5) :
    ∃ buf', printDays buf days = .ok (buf', (withUnit days (ascii "day") []).length) ∧
      buf'.length = buf.length ∧
      buf'.take (withUnit days (ascii "day") []).length = withUnit days (ascii "day") [] := by
  have hlength := length_withUnit_le hdays (ascii "day") []
  have hday : (ascii "day").length = 3 := rfl
  have hzero : ((days : ℤ) ≠ 0) ↔ days ≠ 0 := by norm_cast
  rw [bufsize] at hbuf
  simp only [printDays, hzero]
  split_ifs with hne
  · have htext : countText days (ascii "day") ++ ascii " " = withUnit days (ascii "day") [] := by
      rw [countText_natCast, withUnit, if_pos hne, List.append_nil]
    rw [htext]
    generalize withUnit days (ascii "day") [] = text at hlength ⊢
    have hsize : text.length < bufsize := by
      rw [bufsize]
      simp only [List.length_nil] at hlength
      omega
    have hroom : 0 + text.length < buf.length := by
      rw [bufsize] at hsize
      omega
    rw [printInto, snprintf_eq hsize hroom]
    refine ⟨_, rfl, ?_, ?_⟩
    · simp only [List.take_zero, List.nil_append, List.length_append, List.length_cons,
        List.length_drop]
      omega
    · rw [List.take_zero, List.nil_append, List.take_left]
  · rw [withUnit, if_neg hne]
    exact ⟨buf, rfl, rfl, rfl⟩

/-- The text behind the days. -/
lemma printInto_eq {buf : List UInt8} (hbuf : buf.length = bufsize + 1) {pos : ℕ} {text : CString}
    (htext : pos + text.length < bufsize) :
    ∃ buf', printInto buf pos (sizeLeft pos) text = .ok (buf', text.length) ∧
      buf'.length = buf.length ∧ ∃ rest, buf' = buf.take pos ++ (text ++ 0 :: rest) := by
  have hleft : sizeLeft pos = bufsize - pos := by
    rw [sizeLeft, ← Nat.cast_sub (by omega), toUnsigned_natCast]
    refine UInt64.toNat_ofNat_of_lt' ?_
    rw [bufsize, UInt64.size]
    omega
  have hroom : pos + text.length < buf.length := by omega
  rw [printInto, hleft, snprintf_eq (by omega) hroom]
  refine ⟨_, rfl, ?_, _, rfl⟩
  simp only [List.length_append, List.length_take, List.length_cons, List.length_drop]
  omega

/-- The days, and what is printed behind them. -/
lemma render_uptimeOf (s : ℕ) :
    (uptimeOf (s / 60)).render = withUnit (s / 86400) (ascii "day") []
      ++ withUnit (s / 60 / 60 % 24) (ascii "hour") (minutesText (s / 60 % 60)) := by
  rw [← withUnit_append, show s / 86400 = s / 60 / 1440 by omega]
  rfl

lemma length_render_lt {s : ℕ} (hs : s < 2 ^ 31) :
    (uptimeOf (s / 60)).render.length < bufsize := by
  have hdays : s / 86400 < 10 ^ 5 := by omega
  have hhours : s / 60 / 60 % 24 < 10 ^ 2 := by omega
  have hday := length_withUnit_le hdays (ascii "day") []
  have hhour := length_withUnit_le hhours (ascii "hour") (minutesText (s / 60 % 60))
  have hminutes : (minutesText (s / 60 % 60)).length ≤ 6 := length_minutesText_le (by omega)
  have hwords : (ascii "day").length = 3 ∧ (ascii "hour").length = 4 := ⟨rfl, rfl⟩
  simp only [hwords, List.length_nil] at hday hhour
  rw [render_uptimeOf, List.length_append, bufsize]
  omega

/-- The buffer holds the text of the whole minutes. -/
lemma sprintUptime_eq {buf : List UInt8} (hbuf : buf.length = bufsize + 1) {s : ℕ}
    (hs : s < 2 ^ 31) :
    ∃ buf', sprintUptime buf (.fin s) = .ok buf' ∧ buf'.length = buf.length ∧
      stringAt buf' = (uptimeOf (s / 60)).render := by
  have hrender := render_uptimeOf s
  have hfits := length_render_lt hs
  rw [hrender, List.length_append] at hfits
  have hdays : s / 86400 < 10 ^ 5 := by omega
  obtain ⟨buf₁, hprint, hlen₁, htake⟩ := printDays_eq hbuf hdays
  obtain ⟨buf₂, hprint', hlen₂, rest, hbuf₂⟩ := printInto_eq (hlen₁.trans hbuf) hfits
  refine ⟨buf₂, ?_, hlen₂.trans hlen₁, ?_⟩
  · have hd : (s : ℤ).tdiv (60 * 60 * 24) = (s / 86400 : ℕ) := (Int.ofNat_tdiv s 86400).symm
    have hm : (s : ℤ).tdiv 60 = (s / 60 : ℕ) := (Int.ofNat_tdiv s 60).symm
    have hh : ((s / 60 : ℕ) : ℤ).tdiv 60 = (s / 60 / 60 : ℕ) := (Int.ofNat_tdiv _ 60).symm
    have hh' : ((s / 60 / 60 : ℕ) : ℤ).tmod 24 = (s / 60 / 60 % 24 : ℕ) :=
      (Int.ofNat_tmod _ 24).symm
    have hm' : ((s / 60 : ℕ) : ℤ).tmod 60 = (s / 60 % 60 : ℕ) := (Int.ofNat_tmod _ 60).symm
    rw [sprintUptime, Double.toInt32?_natCast hs]
    simp only [hd, hm, hh, hh', hm', hprint, hoursText_natCast, hprint', Except.ok_bind]
    rfl
  · rw [hbuf₂, htake, ← List.append_assoc, ← hrender]
    exact stringAt_append (Uptime.render_ne_zero _) rest

/-! ### The text and the minutes -/

/-- A text says that so many whole minutes have passed. -/
structure Uptime.Denotes (text : CString) (minutes : ℕ) (u : Uptime) : Prop where
  /-- Days and hours are left out exactly where they are 0, and a unit is in the singular exactly
  for 1. -/
  text_eq : text = u.render
  read_eq : readUptime text = some u
  minutes_eq : 1440 * u.days + 60 * u.hours + u.minutes = minutes
  hours_lt : u.hours < 24
  minutes_lt : u.minutes < 60

lemma denotes_uptimeOf (minutes : ℕ) :
    Uptime.Denotes (uptimeOf minutes).render minutes (uptimeOf minutes) where
  text_eq := rfl
  read_eq := readUptime_render _
  minutes_eq := by
    show 1440 * (minutes / 1440) + 60 * (minutes / 60 % 24) + minutes % 60 = minutes
    omega
  hours_lt := Nat.mod_lt _ (by norm_num)
  minutes_lt := Nat.mod_lt _ (by norm_num)

/-- A text tells the minutes apart. -/
lemma render_uptimeOf_inj {m n : ℕ} : (uptimeOf m).render = (uptimeOf n).render ↔ m = n := by
  refine ⟨fun heq => ?_, fun heq => heq ▸ rfl⟩
  have hread : some (uptimeOf m) = some (uptimeOf n) := by
    rw [← readUptime_render, heq, readUptime_render]
  have hm := (denotes_uptimeOf m).minutes_eq
  rw [Option.some.inj hread] at hm
  exact hm.symm.trans (denotes_uptimeOf n).minutes_eq

/-- Whatever an earlier call has left in the buffer, the text that is printed denotes the uptime and
fits, and two uptimes have one text exactly if they have the same number of whole minutes. -/
theorem uptime_text_denotes {buf : List UInt8} (hbuf : buf.length = bufsize + 1) {s : ℕ}
    (hs : s < 2 ^ 31) :
    ∃ buf', sprintUptime buf (.fin s) = .ok buf' ∧ buf'.length = buf.length ∧
      (stringAt buf').length < bufsize ∧ (∃ u, Uptime.Denotes (stringAt buf') (s / 60) u) ∧
      ∀ old new : List UInt8, ∀ t : ℕ, old.length = bufsize + 1 → t < 2 ^ 31 →
        sprintUptime old (.fin t) = .ok new →
          (stringAt new = stringAt buf' ↔ t / 60 = s / 60) := by
  obtain ⟨buf', hprint, hlen, htext⟩ := sprintUptime_eq hbuf hs
  refine ⟨buf', hprint, hlen, htext ▸ length_render_lt hs,
    ⟨_, htext ▸ denotes_uptimeOf (s / 60)⟩, ?_⟩
  intro old new t hold ht hnew
  obtain ⟨new', hprint', -, htext'⟩ := sprintUptime_eq hold ht
  obtain rfl : new' = new := Except.ok.inj (hprint'.symm.trans hnew)
  rw [htext, htext']
  exact render_uptimeOf_inj

/-- A day and a minute, after a longer text. -/
theorem dayAndMinute_uptime_text :
    ∃ buf', sprintUptime (List.replicate 129 (120 : UInt8)) (.fin (86460 : ℕ)) = .ok buf' ∧
      (stringAt buf').length < bufsize ∧ ∃ u, Uptime.Denotes (stringAt buf') 1441 u := by
  have hbuf : (List.replicate 129 (120 : UInt8)).length = bufsize + 1 := by
    rw [List.length_replicate, bufsize]
  have hs : 86460 < 2 ^ 31 := by norm_num
  obtain ⟨buf', hprint, -, hfits, hdenotes, -⟩ := uptime_text_denotes hbuf hs
  exact ⟨buf', hprint, hfits, hdenotes⟩

end NagiosPlugins
