import NagiosPlugins.Data.Lists
import NagiosPlugins.Network.Basic

/-!
# Metric keys

`--ifname-debug` and the performance data take their keys from the same families. One is driven
by the bits of the options, the other by variables of their own, and two of the bits are the same.
-/

namespace NagiosPlugins

open Libc

/-- The options that omit counters. -/
def omitOptions : List NetworkOption :=
  [.noBytes, .noCollisions, .noDrops, .noErrors, .noMulticast, .noPackets]

/-- The keys of an interface behind its name. -/
def keySuffixes (pdBytes pdCollisions pdDrops pdErrors pdMulticast pdPackets : Bool) :
    List CString :=
  (if pdBytes then [ascii "_txbyte/s", ascii "_rxbyte/s"] else [])
    ++ (if pdErrors then [ascii "_txerr/s", ascii "_rxerr/s"] else [])
    ++ (if pdDrops then [ascii "_txdrop/s", ascii "_rxdrop/s"] else [])
    ++ (if pdPackets then [ascii "_txpck/s", ascii "_rxpck/s"] else [])
    ++ (if pdCollisions then [ascii "_coll/s"] else [])
    ++ (if pdMulticast then [ascii "_mcast/s"] else [])

/-! ### Both lists of keys -/

lemma labels_interfaceEntries (ratio : UInt32 → UInt64 → ℚ) (s : NetworkSettings) (ifl : Iflist)
    (speed : UInt64) :
    (interfaceEntries ratio s ifl speed).map (·.label)
      = (keySuffixes s.pdBytes s.pdCollisions s.pdDrops s.pdErrors s.pdMulticast
          s.pdPackets).map (ifl.ifname ++ ·) := by
  have htx : ascii "_txbyte/s" = ascii "_" ++ (ascii "txbyte" ++ ascii "/s") := by decide
  have hrx : ascii "_rxbyte/s" = ascii "_" ++ (ascii "rxbyte" ++ ascii "/s") := by decide
  rw [interfaceEntries, keySuffixes]
  simp only [List.map_append, apply_ite (List.map _), List.map_cons, List.map_nil,
    fmtPerfdataBytes, counterEntry, List.append_assoc, htx, hrx]

lemma printfTxRx_eq (ifname metric : CString) :
    printfTxRx ifname metric false false
      = [ifname ++ (ascii "_tx" ++ metric), ifname ++ (ascii "_rx" ++ metric)] := by
  simp [printfTxRx]

/-- The key lines of `--ifname-debug` if both directions are printed. -/
lemma flatten_ifnameDebugLines {options : UInt32} {ifl : Iflist} (hstats : ifl.stats.isSome)
    (hrx : options &&& rxOnly = 0) (htx : options &&& txOnly = 0) :
    (ifnameDebugLines options ifl).flatten
      = (keySuffixes (options &&& noBytes ≠ noBytes) (options &&& noCollisions ≠ noCollisions)
          (options &&& noDrops ≠ noDrops) (options &&& noErrors ≠ noErrors)
          (options &&& noMulticast ≠ noMulticast)
          (options &&& noPackets ≠ noPackets)).map (ifl.ifname ++ ·) := by
  rw [ifnameDebugLines, keySuffixes]
  simp only [hstats, hrx, htx, if_true, ne_eq, not_true_eq_false, decide_false, printfTxRx_eq,
    List.flatten_append, List.map_append, apply_ite List.flatten, apply_ite (List.map _),
    List.flatten_cons, List.flatten_nil, List.map_cons, List.map_nil, List.append_nil,
    decide_eq_true_eq]
  rfl

/-! ### The options -/

/-- The options word for the counters that are printed. -/
def omitBits (pdBytes pdCollisions pdDrops pdErrors pdMulticast pdPackets : Bool) : UInt32 :=
  (if pdBytes then 0 else noBytes) ||| (if pdCollisions then 0 else noCollisions)
    ||| (if pdDrops then 0 else noDrops) ||| (if pdErrors then 0 else noErrors)
    ||| (if pdMulticast then 0 else noMulticast) ||| (if pdPackets then 0 else noPackets)

/-- Omitting a counter sets its bit. -/
lemma omitBits_or (b C d e m p : Bool) :
    omitBits b C d e m p ||| noBytes = omitBits false C d e m p ∧
      omitBits b C d e m p ||| noCollisions = omitBits b false d e m p ∧
      omitBits b C d e m p ||| noDrops = omitBits b C false e m p ∧
      omitBits b C d e m p ||| noErrors = omitBits b C d false m p ∧
      omitBits b C d e m p ||| noMulticast = omitBits b C d e false p ∧
      omitBits b C d e m p ||| noPackets = omitBits b C d e m false := by
  revert b C d e m p
  decide +kernel

/-- Only counters have been omitted so far. -/
def OnlyOmits (s : NetworkSettings) : Prop :=
  s.reportPerc = false ∧ s.options = omitBits s.pdBytes s.pdCollisions s.pdDrops s.pdErrors
    s.pdMulticast s.pdPackets

lemma OnlyOmits.set {s : NetworkSettings} (h : OnlyOmits s) {opt : NetworkOption}
    (hopt : opt ∈ omitOptions) : OnlyOmits (s.set opt) := by
  obtain ⟨hperc, hoptions⟩ := h
  obtain ⟨hb, hC, hd, he, hm, hp⟩ := omitBits_or s.pdBytes s.pdCollisions s.pdDrops s.pdErrors
    s.pdMulticast s.pdPackets
  simp only [omitOptions, List.mem_cons, List.not_mem_nil, or_false] at hopt
  rcases hopt with rfl | rfl | rfl | rfl | rfl | rfl
  · exact ⟨hperc, (congrArg (· ||| noBytes) hoptions).trans hb⟩
  · exact ⟨hperc, (congrArg (· ||| noCollisions) hoptions).trans hC⟩
  · exact ⟨hperc, (congrArg (· ||| noDrops) hoptions).trans hd⟩
  · exact ⟨hperc, (congrArg (· ||| noErrors) hoptions).trans he⟩
  · exact ⟨hperc, (congrArg (· ||| noMulticast) hoptions).trans hm⟩
  · exact ⟨hperc, (congrArg (· ||| noPackets) hoptions).trans hp⟩

lemma onlyOmits_foldl {opts : List NetworkOption} (hopts : ∀ opt ∈ opts, opt ∈ omitOptions)
    {s : NetworkSettings} (h : OnlyOmits s) : OnlyOmits (opts.foldl NetworkSettings.set s) := by
  induction opts generalizing s with
  | nil => exact h
  | cons opt opts ih =>
    obtain ⟨hopt, hopts⟩ := List.forall_mem_cons.1 hopts
    exact ih hopts (h.set hopt)

/-- The bits that `print_ifname_debug` looks at: collisions and drops share one. -/
lemma omitBits_and (b C d e m p : Bool) :
    omitBits b C d e m p &&& rxOnly = 0 ∧ omitBits b C d e m p &&& txOnly = 0 ∧
      decide (omitBits b C d e m p &&& noBytes ≠ noBytes) = b ∧
      decide (omitBits b C d e m p &&& noCollisions ≠ noCollisions) = (C && d) ∧
      decide (omitBits b C d e m p &&& noDrops ≠ noDrops) = (C && d) ∧
      decide (omitBits b C d e m p &&& noErrors ≠ noErrors) = e ∧
      decide (omitBits b C d e m p &&& noMulticast ≠ noMulticast) = m ∧
      decide (omitBits b C d e m p &&& noPackets ≠ noPackets) = p := by
  revert b C d e m p
  decide +kernel

lemma foldl_pdCollisions (opts : List NetworkOption) (s : NetworkSettings) :
    (opts.foldl NetworkSettings.set s).pdCollisions
      = (s.pdCollisions && .noCollisions ∉ opts) := by
  induction opts generalizing s with
  | nil => simp
  | cons opt opts ih =>
    rw [List.foldl_cons, ih]
    cases opt <;> simp [NetworkSettings.set]

lemma foldl_pdDrops (opts : List NetworkOption) (s : NetworkSettings) :
    (opts.foldl NetworkSettings.set s).pdDrops = (s.pdDrops && .noDrops ∉ opts) := by
  induction opts generalizing s with
  | nil => simp
  | cons opt opts ih =>
    rw [List.foldl_cons, ih]
    cases opt <;> simp [NetworkSettings.set]

/-! ### The keys agree -/

/-- The keys that `--ifname-debug` prints for an interface are those of its performance data. -/
def SameKeys (opts : List NetworkOption) (ifl : Iflist) : Prop :=
  ∃ entries, interfacePerfdata ratioOverSpeedRounded (networkSettings opts) ifl = .ok entries ∧
    ∀ key, key ∈ (ifnameDebugLines (networkSettings opts).options ifl).flatten
      ↔ key ∈ entries.map (·.label)

/-- A bit that two families share hides both or none of them. -/
lemma keySuffixes_shared_iff (b C d e m p : Bool) :
    (∀ key, key ∈ keySuffixes b (C && d) (C && d) e m p ↔ key ∈ keySuffixes b C d e m p)
      ↔ C = d := by
  simp only [iff_iff_implies_and_implies, forall_and]
  revert b C d e m p
  decide +kernel

lemma sameKeys_iff {opts : List NetworkOption} (hopts : ∀ opt ∈ opts, opt ∈ omitOptions)
    {ifl : Iflist} (hstats : ifl.stats.isSome) :
    SameKeys opts ifl ↔ (.noCollisions ∈ opts ↔ .noDrops ∈ opts) := by
  obtain ⟨hperc, hoptions⟩ : OnlyOmits (networkSettings opts) := onlyOmits_foldl hopts ⟨rfl, rfl⟩
  obtain ⟨hrx, htx, hb, hC, hd, he, hm, hp⟩ := omitBits_and (networkSettings opts).pdBytes
    (networkSettings opts).pdCollisions (networkSettings opts).pdDrops
    (networkSettings opts).pdErrors (networkSettings opts).pdMulticast
    (networkSettings opts).pdPackets
  rw [← hoptions] at hrx htx hb hC hd he hm hp
  have hcollisions : (networkSettings opts).pdCollisions = decide (.noCollisions ∉ opts) :=
    (foldl_pdCollisions opts {}).trans (Bool.true_and _)
  have hdrops : (networkSettings opts).pdDrops = decide (.noDrops ∉ opts) :=
    (foldl_pdDrops opts {}).trans (Bool.true_and _)
  have hperfdata : ∃ speed, interfacePerfdata ratioOverSpeedRounded (networkSettings opts) ifl
      = .ok (interfaceEntries ratioOverSpeedRounded (networkSettings opts) ifl speed) := by
    simp [interfacePerfdata, hperc]
  obtain ⟨speed, hperfdata⟩ := hperfdata
  have hinj : Function.Injective (ifl.ifname ++ ·) := fun _ _ => List.append_cancel_left
  calc
    SameKeys opts ifl ↔ ∀ key, key ∈ (ifnameDebugLines (networkSettings opts).options ifl).flatten
        ↔ key ∈ (interfaceEntries ratioOverSpeedRounded (networkSettings opts) ifl speed).map
          (·.label) := by
      simp [SameKeys, hperfdata]
    _ ↔ (networkSettings opts).pdCollisions = (networkSettings opts).pdDrops := by
      rw [flatten_ifnameDebugLines hstats hrx htx, labels_interfaceEntries, hb, hC, hd, he, hm, hp,
        List.forall_mem_map_iff hinj]
      exact keySuffixes_shared_iff _ _ _ _ _ _
    _ ↔ (.noCollisions ∈ opts ↔ .noDrops ∈ opts) := by
      rw [hcollisions, hdrops, decide_eq_decide, not_iff_not]

/-- The keys agree for every interface exactly if the collisions and the drops are both omitted or
both printed. -/
theorem sameKeys_all_iff {opts : List NetworkOption} (hopts : ∀ opt ∈ opts, opt ∈ omitOptions)
    {iflhead : List Iflist} (hstats : ∀ ifl ∈ iflhead, ifl.stats.isSome) :
    (∀ ifl ∈ iflhead, SameKeys opts ifl) ↔
      iflhead = [] ∨ (.noCollisions ∈ opts ↔ .noDrops ∈ opts) := by
  have hkeys : ∀ ifl ∈ iflhead, SameKeys opts ifl ↔ (.noCollisions ∈ opts ↔ .noDrops ∈ opts) :=
    fun ifl hifl => sameKeys_iff hopts (hstats ifl hifl)
  rw [forall₂_congr hkeys]
  cases iflhead with
  | nil => simp
  | cons ifl iflhead =>
    simp only [List.cons_ne_nil, false_or]
    exact ⟨fun h => h ifl (List.mem_cons_self ..), fun h _ _ => h⟩

/-- An interface with statistics. -/
def idleInterface : Iflist where
  ifname := ascii "eth0"
  duplex := .full
  speed := 1000
  flags := iffUp ||| iffRunning
  stats := some ⟨0, 0, 0, 0, 0, 0, 0, 0, 0, 0⟩

theorem sameKeys_all_noErrors :
    (∀ ifl ∈ [idleInterface], SameKeys [.noErrors, .noBytes] ifl) ↔
      [idleInterface] = [] ∨
        (.noCollisions ∈ [NetworkOption.noErrors, .noBytes] ↔
          .noDrops ∈ [NetworkOption.noErrors, .noBytes]) :=
  sameKeys_all_iff (by decide) (by decide)

/-- Omitting the collisions also hides the keys of the dropped packets. -/
theorem noCollisions_not_sameKeys :
    ¬ ∀ ifl ∈ [idleInterface], SameKeys [.noCollisions] ifl := by
  intro h
  have hkeys := h idleInterface (List.mem_singleton_self _)
  rw [sameKeys_iff (by decide) (by decide)] at hkeys
  exact absurd hkeys (by decide)

end NagiosPlugins
