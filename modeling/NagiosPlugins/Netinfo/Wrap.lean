import NagiosPlugins.Netinfo.Rates

/-!
# Counters that wrap around

A counter of 32 bits may wrap around between the two snapshots. If both list the same interfaces,
every entry is returned with the rates of all its counters.
-/

namespace NagiosPlugins

open Libc

/-! ### Rounding -/

/-- A `double` holds every multiple of 2 ^ -20 up to 2 ^ 32, and rounding keeps the order. For a
delay that the plugin accepts, the rounded quotient has the same ceiling as the exact one. -/
theorem ceil_round_div {round : ℚ → ℚ} (hmono : Monotone round)
    (hround : ∀ n : ℕ, n ≤ 2 ^ 52 → round (n / 2 ^ 20) = n / 2 ^ 20) {x seconds : ℕ}
    (hx : x < 2 ^ 32) (hpos : 0 < seconds) (hdelay : seconds ≤ 60) :
    ⌈round ((x : ℚ) / seconds)⌉₊ = ⌈(x : ℚ) / seconds⌉₊ := by
  have hseconds : (0 : ℚ) < seconds := Nat.cast_pos.2 hpos
  obtain ⟨n, hn⟩ : ∃ n, ⌈(x : ℚ) / seconds⌉₊ = n := ⟨_, rfl⟩
  have hle : n ≤ x := hn ▸ ceil_div_le x seconds hpos
  have hinteger : round n = n := by
    have h := hround (n * 2 ^ 20) (by omega)
    rwa [Nat.cast_mul, Nat.cast_pow, Nat.cast_ofNat, mul_div_cancel_right₀ _ (by norm_num)] at h
  have hupper : round ((x : ℚ) / seconds) ≤ n := by
    rw [← hinteger]
    exact hmono (hn ▸ Nat.le_ceil _)
  rw [hn]
  cases n with
  | zero => exact Nat.ceil_eq_zero.2 (hupper.trans_eq Nat.cast_zero)
  | succ n =>
    rw [Nat.ceil_eq_iff n.succ_ne_zero, Nat.succ_eq_add_one, Nat.add_sub_cancel]
    refine ⟨?_, hupper⟩
    -- a quotient above n is so by at least a sixtieth
    have hlt : n * seconds < x := by
      have h := ((Nat.ceil_eq_iff n.succ_ne_zero).1 hn).1
      rw [Nat.succ_eq_add_one, Nat.add_sub_cancel, lt_div_iff₀ hseconds] at h
      exact_mod_cast h
    have hstep : ((n * 2 ^ 20 + 1 : ℕ) : ℚ) / 2 ^ 20 ≤ (x : ℚ) / seconds := by
      rw [div_le_div_iff₀ (by norm_num) hseconds]
      have h : (n * 2 ^ 20 + 1) * seconds ≤ x * 2 ^ 20 := by nlinarith
      exact_mod_cast h
    calc
      (n : ℚ) < ((n * 2 ^ 20 + 1 : ℕ) : ℚ) / 2 ^ 20 := by
        rw [lt_div_iff₀ (by norm_num)]
        push_cast
        linarith
      _ = round (((n * 2 ^ 20 + 1 : ℕ) : ℚ) / 2 ^ 20) := (hround _ (by omega)).symm
      _ ≤ round ((x : ℚ) / seconds) := hmono hstep

/-! ### The entries -/

variable {options seconds : UInt32} {snapshot snapshot2 : List Iflist}

/-- With the same names in both snapshots, no pair of entries ends the loop. -/
lemma firstStop_eq_none (hnames : snapshot.map (·.ifname) = snapshot2.map (·.ifname))
    (hstats : ∀ p ∈ snapshot.zip snapshot2, p.1.stats.isSome → p.2.stats.isSome)
    (hlink : ∀ ifl ∈ snapshot, linkFails options ifl.flags = false) :
    firstStop options snapshot snapshot2 = none := by
  induction snapshot generalizing snapshot2 with
  | nil => exact firstStop_nil_left options snapshot2
  | cons ifl iflhead ih =>
    cases snapshot2 with
    | nil => exact firstStop_nil_right options _
    | cons ifl2 iflhead2 =>
      rw [List.map_cons, List.map_cons, List.cons.injEq] at hnames
      rw [List.zip_cons_cons, List.forall_mem_cons] at hstats
      rw [List.forall_mem_cons] at hlink
      have hstats' : ¬ StatsMissing ifl ifl2 := by
        rintro ⟨-, hsome, hnone⟩
        have hsome2 := hstats.1 hsome
        rw [hnone] at hsome2
        exact absurd hsome2 (by decide)
      rw [firstStop_cons, if_pos ⟨hnames.1, hstats', hlink.1⟩]
      exact ih hnames.2 hstats.2 hlink.2

/-- Both snapshots list the same interfaces, so each entry is returned with its rates. -/
theorem netinfo_hasWrappedRates (hseconds : 0 < seconds)
    (hnames : snapshot.map (·.ifname) = snapshot2.map (·.ifname))
    (hstats : ∀ p ∈ snapshot.zip snapshot2, p.1.stats.isSome → p.2.stats.isSome)
    (hlink : ∀ ifl ∈ snapshot, linkFails options ifl.flags = false) (ninterfaces : ℕ) :
    ∃ iflhead, netinfo options none seconds snapshot snapshot2 ninterfaces
        = .ok (iflhead, iflhead.length) ∧
      iflhead.map (·.ifname) = snapshot.map (·.ifname) ∧
      List.Forall₂ (fun ifl p => HasWrappedRates seconds ifl p.1 p.2) iflhead
        (snapshot.zip snapshot2) := by
  have hlen : snapshot.length = snapshot2.length := by
    have h := congrArg List.length hnames
    rwa [List.length_map, List.length_map] at h
  have hrates : List.Forall₂ (fun ifl p => HasWrappedRates seconds ifl p.1 p.2)
      (List.zipWith (Iflist.converted seconds) snapshot snapshot2) (snapshot.zip snapshot2) := by
    rw [← List.map_uncurry_zip_eq_zipWith, List.forall₂_map_left_iff, List.forall₂_same]
    intro p hp
    exact hasWrappedRates_converted hseconds (hstats p hp)
  refine ⟨_, ?_, ?_, hrates⟩
  · rw [netinfo, if_pos hseconds, netinfoLoop_of_none (firstStop_eq_none hnames hstats hlink),
      List.drop_eq_nil_of_le hlen.le, List.append_nil, List.length_zipWith]
  · rw [← List.map_uncurry_zip_eq_zipWith, List.map_map]
    have hfst : (snapshot.zip snapshot2).map (·.1) = snapshot := List.map_fst_zip hlen.le
    conv_rhs => rw [← hfst, List.map_map]
    rfl

/-- The counters of the second interface wrap around. -/
theorem netinfo_hasWrappedRates_eth0 :
    ∃ iflhead, netinfo 0 none 4
        [upInterface (ascii "lo") 10, upInterface (ascii "eth0") 4294967290]
        [upInterface (ascii "lo") 12, upInterface (ascii "eth0") 10] 0
        = .ok (iflhead, iflhead.length) ∧
      iflhead.map (·.ifname)
        = [upInterface (ascii "lo") 10, upInterface (ascii "eth0") 4294967290].map (·.ifname) ∧
      List.Forall₂ (fun ifl p => HasWrappedRates 4 ifl p.1 p.2) iflhead
        ([upInterface (ascii "lo") 10, upInterface (ascii "eth0") 4294967290].zip
          [upInterface (ascii "lo") 12, upInterface (ascii "eth0") 10]) :=
  netinfo_hasWrappedRates (by decide) (by decide) (by decide) (by decide) 0

end NagiosPlugins
