import NagiosPlugins.Netinfo.Dump
import NagiosPlugins.Netinfo.Wrap
import NagiosPlugins.Network.Metric
import NagiosPlugins.Network.Speed
import NagiosPlugins.Perfdata.Representable
import NagiosPlugins.Strton.Delay

/-!
# A run of the network plugin

`main` of `plugins/check_network.c` and the part of `netinfo` that asks the kernel for the two
snapshots. What is reported are the rates between two dumps of the links.
-/

namespace NagiosPlugins

open Libc

/-! ### The plugin -/

/-- The command line; `delay` is the argument behind the options. -/
structure NetworkCommand where
  programName : CString
  opts : List NetworkOption
  delay : Option CString

/-- The delay, unless the usage is printed. -/
def networkDelay (s : NetworkSettings) (arg : Option CString) : Except Stop (Option UInt64) :=
  match arg with
  | none => .ok (some (if s.ifnameDebug then 0 else delayDefault))
  | some arg =>
    if s.ifnameDebug then .ok none
    else do return some (← delayArgument arg)

/-- The check that the name of the program asks for, and `plugin_progname`, unless the usage is
printed. -/
def networkCheck (programName : CString) (s : NetworkSettings) :
    Except Stop (Option (NetworkCheck × CString)) :=
  if 6 < programName.length ∧ hasPrefix programName (ascii "check_") then
    let p := programName.drop 6
    if hasPrefix p (ascii "network_collisions") then
      .ok (if s.pdCollisions then some (.collisions, ascii "network collisions") else none)
    else if hasPrefix p (ascii "network_dropped") then
      .ok (if s.pdDrops then some (.dropped, ascii "network dropped") else none)
    else if hasPrefix p (ascii "network_errors") then
      .ok (if s.pdErrors then some (.errors, ascii "network errors") else none)
    else if hasPrefix p (ascii "network_multicast") then
      .ok (if s.pdMulticast then some (.multicast, ascii "network multicast") else none)
    else .ok (some (.bytes, ascii "network"))
  else .error (.pluginError .unknown "bug: the plugin does not have a standard name")

/-- `netinfo` with the replies to both requests; without a result it still waits for one. -/
def netinfoRun (sys sys' : LinkSystem) (options : UInt32) (regerror : Option String)
    (seconds : UInt32) (answers answers' : List (Option (List UInt8))) :
    Except Stop (Option (List Iflist × ℕ)) :=
  match regerror with
  | some msgbuf => do return some (← netinfo options (some msgbuf) seconds [] [] 0)
  | none => do
    match ← getNetinfoSnapshot sys options answers with
    | none => return none
    | some iflhead =>
      if seconds > 0 then
        match ← getNetinfoSnapshot sys' options answers' with
        | none => return none
        | some iflhead2 => return some (← netinfo options none seconds iflhead iflhead2 0)
      else return some (← netinfo options none seconds iflhead [] 0)

/-- `MAX_PRINTED_INTERFACES`. -/
def maxPrintedInterfaces : ℕ := 5

/-- The loop that prints the names, from the one with number `i` on. -/
def printedNames : ℕ → List CString → CString
  | _, [] => []
  | i, ifname :: names =>
    if i < maxPrintedInterfaces then
      (if i + 1 < 2 then [] else ascii ",") ++ ifname ++ printedNames (i + 1) names
    else ascii ",..."

/-- How a run ends. -/
inductive NetworkOutcome where
  | usage
  | waits
  | debug (interfaces : List IfnameDebug)
  | found (progname : CString) (status : Nagstatus) (ninterfaces : ℕ) (ifnames : CString)
      (perfdata : List NetworkEntry)

/-- `main`, on a system that answers `sys` while the first snapshot is taken and `sys'` while the
second one is. -/
def checkNetworkRun (sys sys' : LinkSystem) (command : NetworkCommand) (regerror : Option String)
    (answers answers' : List (Option (List UInt8))) : Except Stop NetworkOutcome := do
  let s := networkSettings command.opts
  match ← networkDelay s command.delay with
  | none => return .usage
  | some delay =>
    if s.txOnly && s.rxOnly then return .usage
    else
      match ← networkCheck command.programName s with
      | none => return .usage
      | some (check, progname) =>
        match ← netinfoRun sys sys' s.options regerror delay.toUInt32 answers answers' with
        | none => return .waits
        | some (iflhead, ninterfaces) =>
          if s.ifnameDebug then return .debug (printIfnameDebug iflhead s.options)
          else
            let (status, myThreshold) := setThresholdsRounded none s.warning s.critical
            if status = npRangeUnparseable then return .usage
            else
              match myThreshold with
              | none => throw .undefined
              | some myThreshold =>
                let (status, perfdata) ← checkNetwork s check myThreshold iflhead ninterfaces
                return .found progname status ninterfaces
                  (printedNames 0 (iflhead.map (·.ifname))) perfdata

/-! ### What is measured -/

section Measured

variable (s : NetworkSettings) (check : NetworkCheck) (seconds : UInt32)

/-- The counters that the check adds. -/
def NetworkCheck.measured : NetworkCheck → List (Iflist → UInt32)
  | .bytes => directed iflistGetTxBytes iflistGetRxBytes
  | .collisions => [iflistGetCollisions]
  | .dropped => directed iflistGetTxDropped iflistGetRxDropped
  | .errors => directed iflistGetTxErrors iflistGetRxErrors
  | .multicast => [iflistGetMulticast]
where
  directed (tx rx : Iflist → UInt32) : List (Iflist → UInt32) :=
    (if s.txOnly then [] else [rx]) ++ if s.rxOnly then [] else [tx]

/-- The sum of their rates between two entries for one interface. -/
def NetworkCheck.rate (p : Iflist × Iflist) : ℤ :=
  ((check.measured s).map fun counter => wrappedRate seconds (counter p.1) (counter p.2)).sum

/-- The rate as it is compared with the thresholds: of bytes, the percentage of what the link can
transfer if that is asked for and known, where the quotient and the product are rounded to doubles.
-/
def NetworkCheck.metric (p : Iflist × Iflist) : ℚ :=
  if check = .bytes ∧ s.reportPerc = true ∧ 1 ≤ p.1.speed then
    Double.toPlace (Double.toPlace (100 / p.1.bytesPerSecond) * check.rate s seconds p)
  else check.rate s seconds p

/-- An interface without a speed is in the way if percentages are compared. -/
def NetworkSettings.NeedsSpeed (ifl : Iflist) : Prop :=
  s.reportPerc = true ∧ (s.warning.isSome ∨ s.critical.isSome) ∧ ifl.speed = 0

instance (ifl : Iflist) : Decidable (s.NeedsSpeed ifl) := inferInstanceAs (Decidable (_ ∧ _))

/-- The names of the first interfaces. -/
def namesText (names : List CString) : CString :=
  (ascii ",").intercalate (names.take maxPrintedInterfaces)
    ++ if names.length ≤ maxPrintedInterfaces then [] else ascii ",..."

/-- The entries of an interface with its rates, at the true speed of its link. -/
def rateEntries (p : Iflist × Iflist) : List NetworkEntry :=
  interfaceEntries ratioOverSpeedRounded s (p.1.converted seconds p.2)
    (UInt64.ofNat p.1.bytesPerSecond)

/-- How a run ends that finds these interfaces, as they are before and after the delay. -/
def networkOutcome (progname : CString) (threshold : Thresholds)
    (links : List (Iflist × Iflist)) : Except Stop NetworkOutcome :=
  match links.find? fun p => linkFails s.options p.1.flags with
  | some p =>
    .error (.pluginError .critical (text p.1.ifname ++
      " matches the given regular expression but is not UP and RUNNING!"))
  | none =>
    match links.find? fun p => s.NeedsSpeed p.1 with
    | some p =>
      .error (.pluginError .unknown ("metrics of " ++ text p.1.ifname
        ++ " cannot be converted into percentages"
        ++ if ifFlagsUp p.1.flags && ifFlagsRunning p.1.flags then
            ": physical speed is not available"
          else ": link is not UP/RUNNING"))
    | none =>
      let statuses := links.map fun p => getStatus (.fin (check.metric s seconds p)) threshold
      let status := if links = [] then .unknown else statuses.foldl max .ok
      .ok (.found progname status links.length (namesText (links.map (·.1.ifname)))
        (links.flatMap (rateEntries s seconds)))

end Measured

/-! ### The names -/

/-- The names behind the first one. -/
lemma append_printedNames (first : CString) {i : ℕ} (hi : 1 ≤ i) (names : List CString) :
    first ++ printedNames i names
      = (ascii ",").intercalate (first :: names.take (maxPrintedInterfaces - i))
        ++ if names.length ≤ maxPrintedInterfaces - i then [] else ascii ",..." := by
  induction names generalizing first i with
  | nil => simp [printedNames]
  | cons ifname names ih =>
    rw [printedNames]
    by_cases hlt : i < maxPrintedInterfaces
    · obtain ⟨k, hk⟩ : ∃ k, maxPrintedInterfaces - i = k + 1 :=
        ⟨maxPrintedInterfaces - i - 1, by omega⟩
      have hk' : maxPrintedInterfaces - (i + 1) = k := by omega
      have hrest := ih ifname (Nat.le_add_right_of_le hi : 1 ≤ i + 1)
      have hsecond : ¬ i + 1 < 2 := by omega
      rw [hk'] at hrest
      rw [if_pos hlt, if_neg hsecond, List.append_assoc, hrest, hk, List.take_succ_cons,
        List.intercalate_cons_cons]
      simp only [List.length_cons, Nat.add_le_add_iff_right, List.append_assoc]
    · have hzero : maxPrintedInterfaces - i = 0 := by omega
      rw [if_neg hlt, hzero, List.take_zero, List.intercalate_singleton, if_neg (by simp)]

lemma printedNames_zero (names : List CString) : printedNames 0 names = namesText names := by
  cases names with
  | nil => rfl
  | cons ifname names =>
    have hrest := append_printedNames ifname le_rfl names
    have hle : names.length + 1 ≤ maxPrintedInterfaces
        ↔ names.length ≤ maxPrintedInterfaces - 1 := by
      rw [maxPrintedInterfaces]
      omega
    rw [printedNames, if_pos (by decide), if_pos (by decide), List.nil_append, hrest, namesText,
      List.length_cons]
    simp only [hle]
    rfl

/-! ### Rates -/

section Rates

variable {seconds : UInt32} {snapshot snapshot2 : List Iflist}

/-- Only a link that is reported stops a loop over the same names. -/
lemma firstStop_eq_find? (options : UInt32)
    (hnames : snapshot.map (·.ifname) = snapshot2.map (·.ifname))
    (hstats : ∀ ifl ∈ snapshot2, ifl.stats.isSome) :
    firstStop options snapshot snapshot2
      = (snapshot.zip snapshot2).find? fun p => linkFails options p.1.flags := by
  induction snapshot generalizing snapshot2 with
  | nil => rfl
  | cons ifl iflhead ih =>
    cases snapshot2 with
    | nil => rfl
    | cons ifl2 iflhead2 =>
      rw [List.map_cons, List.map_cons, List.cons.injEq] at hnames
      rw [List.forall_mem_cons] at hstats
      have hstats' : ¬ StatsMissing ifl ifl2 := by
        rintro ⟨-, -, hnone⟩
        exact absurd hstats.1 (by simp [hnone])
      have htaken : Taken options ifl ifl2 ↔ linkFails options ifl.flags = false :=
        ⟨fun h => h.2.2, fun h => ⟨hnames.1, hstats', h⟩⟩
      rw [firstStop_cons, List.zip_cons_cons, List.find?_cons, ih hnames.2 hstats.2]
      cases hlink : linkFails options ifl.flags with
      | true => rw [if_neg (by simp [htaken, hlink])]
      | false => rw [if_pos (htaken.2 hlink)]

lemma ifname_eq_of_mem_zip (hnames : snapshot.map (·.ifname) = snapshot2.map (·.ifname)) :
    ∀ p ∈ snapshot.zip snapshot2, p.1.ifname = p.2.ifname := by
  have hsame : List.Forall₂ (· = ·) (snapshot.map (·.ifname)) (snapshot2.map (·.ifname)) := by
    rw [List.forall₂_eq_eq_eq]
    exact hnames
  rw [List.forall₂_map_left_iff, List.forall₂_map_right_iff] at hsame
  intro p hp
  exact List.forall₂_zip hsame hp

/-- The result over the same names, unless a link is reported. -/
lemma netinfo_eq (options : UInt32) (hseconds : 0 < seconds)
    (hnames : snapshot.map (·.ifname) = snapshot2.map (·.ifname))
    (hstats : ∀ ifl ∈ snapshot2, ifl.stats.isSome) (n : ℕ) :
    netinfo options none seconds snapshot snapshot2 n
      = match (snapshot.zip snapshot2).find? fun p => linkFails options p.1.flags with
        | some p => .error (.pluginError .critical (text p.1.ifname ++
            " matches the given regular expression but is not UP and RUNNING!"))
        | none => .ok ((snapshot.zip snapshot2).map fun p => p.1.converted seconds p.2,
            (snapshot.zip snapshot2).length) := by
  have hlen : snapshot.length = snapshot2.length := by
    have h := congrArg List.length hnames
    rwa [List.length_map, List.length_map] at h
  have hfirst := firstStop_eq_find? options hnames hstats
  rw [netinfo, if_pos hseconds, ← hfirst]
  cases hstop : firstStop options snapshot snapshot2 with
  | none =>
    rw [netinfoLoop_of_none hstop, List.drop_eq_nil_of_le hlen.le, List.append_nil,
      ← List.map_uncurry_zip_eq_zipWith, List.length_zip]
    rfl
  | some p =>
    rw [hfirst] at hstop
    have hmem := List.mem_of_find?_eq_some hstop
    have hlink := List.find?_some hstop
    have hname := ifname_eq_of_mem_zip hnames p hmem
    have hstats' : ¬ StatsMissing p.1 p.2 := by
      rintro ⟨-, -, hnone⟩
      exact absurd (hstats p.2 (List.of_mem_zip hmem).2) (by simp [hnone])
    apply netinfoLoop_of_some (hfirst.trans hstop)
    rw [netinfoEntry, if_neg (not_not.2 hname), convertStats_of_not_statsMissing hname hstats',
      Except.ok_bind]
    exact if_pos hlink

lemma isSome_stats_of_mem {sys : LinkSystem} {options : UInt32} {dump : List LinkMessage}
    {entries : List Iflist} (h : IsSnapshot sys options dump entries) {ifl : Iflist}
    (hifl : ifl ∈ entries) : ifl.stats.isSome := by
  rw [isSnapshot_iff] at h
  rw [h] at hifl
  obtain ⟨m, -, rfl⟩ := List.mem_map.1 hifl
  rfl

/-- What a run finds out about the interfaces. -/
lemma netinfoRun_eq {sys sys' : LinkSystem} (options : UInt32) (hseconds : 0 < seconds)
    {chunks chunks' : List (Option (List (Tlv.Record nlmsg)))} {dump dump' : List LinkMessage}
    (hdump : IsDump chunks dump) (hdump' : IsDump chunks' dump') {old new : List Iflist}
    (hold : IsSnapshot sys options dump old) (hnew : IsSnapshot sys' options dump' new)
    (hnames : old.map (·.ifname) = new.map (·.ifname)) :
    let links := old.zip new
    netinfoRun sys sys' options none seconds (replies chunks) (replies chunks')
      = match links.find? fun p => linkFails options p.1.flags with
        | some p => .error (.pluginError .critical (text p.1.ifname ++
            " matches the given regular expression but is not UP and RUNNING!"))
        | none => .ok (some (links.map fun p => p.1.converted seconds p.2, links.length)) := by
  intro links
  have hnetinfo := netinfo_eq options hseconds hnames (fun ifl => isSome_stats_of_mem hnew) 0
  rw [isSnapshot_iff] at hold hnew
  rw [netinfoRun, getNetinfoSnapshot_of_isDump sys options hdump, ← hold, Except.ok_bind]
  simp only [gt_iff_lt, hseconds, if_true, getNetinfoSnapshot_of_isDump sys' options hdump',
    ← hnew, Except.ok_bind, hnetinfo]
  cases links.find? fun p => linkFails options p.1.flags with
  | none => rfl
  | some p => rfl

end Rates

/-! ### The speed of the links -/

section Speed

variable {ifl : Iflist}

/-- The speed that the iteration works with, if it fits in 32 bits. -/
lemma toNat_iterationSpeed_of_fits (hfits : ifl.speed.toNat * 10 ^ 6 < 2 ^ 32) :
    (iterationSpeed ifl).toNat = ifl.bytesPerSecond := by
  by_cases hspeed : 1 ≤ ifl.speed
  · exact (toNat_iterationSpeed_eq_iff hspeed).2 hfits
  · have hzero : ifl.speed = 0 := by
      rw [UInt32.le_iff_toNat_le, not_le] at hspeed
      exact UInt32.toNat_inj.1 (Nat.lt_one_iff.1 hspeed)
    simp [iterationSpeed, linkSpeed, Iflist.bytesPerSecond, hzero]

lemma iterationSpeed_eq (hfits : ifl.speed.toNat * 10 ^ 6 < 2 ^ 32) :
    iterationSpeed ifl = UInt64.ofNat ifl.bytesPerSecond := by
  rw [← toNat_iterationSpeed_of_fits hfits, UInt64.ofNat_toNat]

lemma iterationSpeed_pos_iff (hfits : ifl.speed.toNat * 10 ^ 6 < 2 ^ 32) :
    iterationSpeed ifl > 0 ↔ 1 ≤ ifl.speed := by
  rw [gt_iff_lt, UInt64.lt_iff_toNat_lt, UInt64.toNat_zero, toNat_iterationSpeed_of_fits hfits,
    UInt32.le_iff_toNat_le, UInt32.toNat_one, Iflist.bytesPerSecond]
  split_ifs <;> omega

lemma linkSpeed_pos_iff (hfits : ifl.speed.toNat * 10 ^ 6 < 2 ^ 32) :
    linkSpeed ifl > 0 ↔ ifl.speed ≠ 0 := by
  constructor
  · rintro hpos hzero
    rw [linkSpeed, if_neg (by simp [hzero])] at hpos
    exact absurd hpos (by decide)
  · intro hne
    have hspeed : 1 ≤ ifl.speed.toNat :=
      Nat.one_le_iff_ne_zero.2 fun h => hne (UInt32.toNat_inj.1 h)
    have hlt : ifl.speed.toNat * 1000000 < 2 ^ 32 := hfits
    rw [gt_iff_lt, UInt64.lt_iff_toNat_lt, toNat_linkSpeed (UInt32.le_iff_toNat_le.2 hspeed),
      Nat.mod_eq_of_lt hlt, UInt64.toNat_zero]
    omega

/-- What an iteration adds to the performance data. -/
lemma interfacePerfdata_eq (s : NetworkSettings) (ifl : Iflist)
    (hfits : ifl.speed.toNat * 10 ^ 6 < 2 ^ 32) :
    interfacePerfdata ratioOverSpeedRounded s ifl
      = if s.NeedsSpeed ifl then
          .error (.pluginError .unknown ("metrics of " ++ text ifl.ifname
            ++ " cannot be converted into percentages"
            ++ if ifFlagsUp ifl.flags && ifFlagsRunning ifl.flags then
                ": physical speed is not available"
              else ": link is not UP/RUNNING"))
        else .ok (interfaceEntries ratioOverSpeedRounded s ifl (UInt64.ofNat ifl.bytesPerSecond)) :=
    by
  have hneeds : (s.reportPerc && (s.warning.isSome || s.critical.isSome) && !(linkSpeed ifl > 0))
      = decide (s.NeedsSpeed ifl) := by
    rw [Bool.eq_iff_iff, decide_eq_true_iff, NetworkSettings.NeedsSpeed]
    simp only [Bool.and_eq_true, Bool.or_eq_true, Bool.not_eq_true', decide_eq_false_iff_not,
      linkSpeed_pos_iff hfits, ne_eq, not_not, and_assoc]
  rw [interfacePerfdata, hneeds, ← iterationSpeed_eq hfits]
  by_cases h : s.NeedsSpeed ifl
  · simp only [h, decide_true, if_true]
  · simp only [h, decide_false, Bool.false_eq_true, if_false]
    rfl

end Speed

/-! ### The metric -/

section Metric

variable {s : NetworkSettings} {check : NetworkCheck} {seconds : UInt32} {p : Iflist × Iflist}

/-- Both entries have counters. -/
def HasStats (p : Iflist × Iflist) : Prop := p.1.stats.isSome ∧ p.2.stats.isSome

/-- A counter that is reported is the rate. -/
lemma iflistGet_converted (hseconds : 0 < seconds) (hstats : HasStats p)
    {metric : Ifstats → UInt32} (hmetric : metric ∈ Ifstats.metrics) :
    ((iflistGet metric (p.1.converted seconds p.2)).toNat : ℤ)
      = wrappedRate seconds (iflistGet metric p.1) (iflistGet metric p.2) := by
  obtain ⟨stats, hold⟩ := Option.isSome_iff_exists.1 hstats.1
  obtain ⟨stats2, hnew⟩ := Option.isSome_iff_exists.1 hstats.2
  have hconverted : (p.1.converted seconds p.2).stats = some (stats.rates seconds stats2) := by
    rw [Iflist.converted, hold, hnew]
    rfl
  rw [iflistGet, iflistGet, iflistGet, hconverted, hold, hnew]
  have hrate := congrArg (fun x : UInt32 => (x.toNat : ℤ))
    (rates_metric hmetric seconds stats stats2)
  exact hrate.trans (toNat_divCeil hseconds _ _)

/-- The sum over the directions does not wrap around. -/
lemma toNat_metric_directed {tx rx : Iflist → UInt32} {ifl : Iflist}
    (htx : ((tx ifl).toNat : ℤ) = wrappedRate seconds (tx p.1) (tx p.2))
    (hrx : ((rx ifl).toNat : ℤ) = wrappedRate seconds (rx p.1) (rx p.2))
    (hfits : ((NetworkCheck.measured.directed s tx rx).map fun counter =>
      wrappedRate seconds (counter p.1) (counter p.2)).sum < 2 ^ 32) :
    ((getThresholdMetric (tx ifl) (rx ifl) s.txOnly s.rxOnly).toNat : ℤ)
      = ((NetworkCheck.measured.directed s tx rx).map fun counter =>
          wrappedRate seconds (counter p.1) (counter p.2)).sum := by
  have htraffic : (traffic (tx ifl) (rx ifl) s.txOnly s.rxOnly : ℤ)
      = ((NetworkCheck.measured.directed s tx rx).map fun counter =>
          wrappedRate seconds (counter p.1) (counter p.2)).sum := by
    rw [traffic, NetworkCheck.measured.directed]
    cases s.txOnly <;> cases s.rxOnly <;> simp [← htx, ← hrx]
  rw [← htraffic] at hfits ⊢
  rw [toNat_getThresholdMetric, Nat.mod_eq_of_lt (by exact_mod_cast hfits)]

/-- What is compared with the thresholds is the metric. -/
lemma thresholdCounter_converted (hseconds : 0 < seconds) (hstats : HasStats p)
    (hspeed : p.1.speed.toNat * 10 ^ 6 < 2 ^ 32) (hfits : check.rate s seconds p < 2 ^ 32) :
    thresholdCounter ratioOverSpeedRounded s check (iterationSpeed (p.1.converted seconds p.2))
      (p.1.converted seconds p.2) = check.metric s seconds p := by
  have hget := fun {metric : Ifstats → UInt32} (h : metric ∈ Ifstats.metrics) =>
    iflistGet_converted hseconds hstats h
  have hcast : ∀ {x : UInt32} {r : ℤ}, (x.toNat : ℤ) = r → (x.toNat : ℚ) = r := by
    intro x r h
    rw [← h, Int.cast_natCast]
  -- only the bytes are related to the speed
  have hunit : check ≠ .bytes → check.metric s seconds p = check.rate s seconds p := by
    intro hcheck
    rw [NetworkCheck.metric, if_neg (fun h => hcheck h.1)]
  cases check with
  | bytes =>
    have hrate := hcast (toNat_metric_directed (hget (by simp [Ifstats.metrics]))
      (hget (by simp [Ifstats.metrics])) hfits)
    have hpos : iterationSpeed (p.1.converted seconds p.2) > 0 ↔ 1 ≤ p.1.speed :=
      iterationSpeed_pos_iff hspeed
    have hvalue : (iterationSpeed (p.1.converted seconds p.2)).toNat = p.1.bytesPerSecond :=
      toNat_iterationSpeed_of_fits hspeed
    simp only [thresholdCounter, NetworkCheck.metric, Bool.and_eq_true, decide_eq_true_eq, hpos,
      true_and]
    by_cases hperc : s.reportPerc = true ∧ 1 ≤ p.1.speed
    · rw [if_pos hperc, if_pos hperc, ratioOverSpeedRounded, hvalue]
      exact congrArg (fun r => Double.toPlace (Double.toPlace (100 / p.1.bytesPerSecond) * r)) hrate
    · rw [if_neg hperc, if_neg hperc]
      exact hrate
  | collisions =>
    rw [hunit (by decide), NetworkCheck.rate, NetworkCheck.measured, List.map_singleton,
      List.sum_singleton]
    exact hcast (hget (by simp [Ifstats.metrics]))
  | dropped =>
    rw [hunit (by decide)]
    exact hcast (toNat_metric_directed (hget (by simp [Ifstats.metrics]))
      (hget (by simp [Ifstats.metrics])) hfits)
  | errors =>
    rw [hunit (by decide)]
    exact hcast (toNat_metric_directed (hget (by simp [Ifstats.metrics]))
      (hget (by simp [Ifstats.metrics])) hfits)
  | multicast =>
    rw [hunit (by decide), NetworkCheck.rate, NetworkCheck.measured, List.map_singleton,
      List.sum_singleton]
    exact hcast (hget (by simp [Ifstats.metrics]))

end Metric

/-! ### The run -/

section Run

variable {s : NetworkSettings} {check : NetworkCheck} {seconds : UInt32}
  {links : List (Iflist × Iflist)} {threshold : Thresholds}

/-- The speeds and the sums of the rates fit in 32 bits. -/
structure Fits32 (s : NetworkSettings) (check : NetworkCheck) (seconds : UInt32)
    (p : Iflist × Iflist) : Prop where
  speed_lt : p.1.speed.toNat * 10 ^ 6 < 2 ^ 32
  rate_lt : check.rate s seconds p < 2 ^ 32

/-- The iteration for an interface. -/
lemma networkIteration_converted (hseconds : 0 < seconds) {p : Iflist × Iflist}
    (hstats : HasStats p) (hfits : Fits32 s check seconds p) :
    networkIteration s check threshold (p.1.converted seconds p.2)
      = if s.NeedsSpeed p.1 then
          .error (.pluginError .unknown ("metrics of " ++ text p.1.ifname
            ++ " cannot be converted into percentages"
            ++ if ifFlagsUp p.1.flags && ifFlagsRunning p.1.flags then
                ": physical speed is not available"
              else ": link is not UP/RUNNING"))
        else .ok (getStatus (.fin (check.metric s seconds p)) threshold, rateEntries s seconds p)
    := by
  have hperfdata := interfacePerfdata_eq s (p.1.converted seconds p.2) hfits.speed_lt
  have hneeds : s.NeedsSpeed (p.1.converted seconds p.2) = s.NeedsSpeed p.1 := rfl
  rw [networkIteration, thresholdCounter_converted hseconds hstats hfits.speed_lt hfits.rate_lt,
    hperfdata]
  simp only [hneeds]
  by_cases h : s.NeedsSpeed p.1
  · rw [if_pos h, if_pos h]
    rfl
  · rw [if_neg h, if_neg h]
    rfl

/-- The loop over the interfaces, by induction on those that are left. -/
lemma networkLoop_converted (hseconds : 0 < seconds) (hstats : ∀ p ∈ links, HasStats p)
    (hfits : ∀ p ∈ links, Fits32 s check seconds p) (status : Nagstatus) :
    networkLoop s check threshold (links.map fun p => p.1.converted seconds p.2) status
      = match links.find? fun p => s.NeedsSpeed p.1 with
        | some p =>
          .error (.pluginError .unknown ("metrics of " ++ text p.1.ifname
            ++ " cannot be converted into percentages"
            ++ if ifFlagsUp p.1.flags && ifFlagsRunning p.1.flags then
                ": physical speed is not available"
              else ": link is not UP/RUNNING"))
        | none =>
          .ok ((links.map fun p => getStatus (.fin (check.metric s seconds p)) threshold).foldl max
            status, links.flatMap (rateEntries s seconds)) := by
  induction links generalizing status with
  | nil => rfl
  | cons p links ih =>
    rw [List.forall_mem_cons] at hstats hfits
    have hrest := ih hstats.2 hfits.2
      (max status (getStatus (.fin (check.metric s seconds p)) threshold))
    rw [List.map_cons, networkLoop, networkIteration_converted hseconds hstats.1 hfits.1,
      List.find?_cons]
    by_cases h : s.NeedsSpeed p.1
    · simp only [h, if_true, decide_true]
      rfl
    · simp only [h, if_false, decide_false, Except.ok_bind, gt_iff_lt, ← max_def_lt, hrest]
      cases links.find? fun p => s.NeedsSpeed p.1 with
      | some p => rfl
      | none => rfl

variable {sys sys' : LinkSystem} {chunks chunks' : List (Option (List (Tlv.Record nlmsg)))}
  {dump dump' : List LinkMessage}

lemma hasStats_of_mem_zip {options : UInt32} {old new : List Iflist}
    (hold : IsSnapshot sys options dump old) (hnew : IsSnapshot sys' options dump' new) :
    ∀ p ∈ old.zip new, HasStats p := by
  intro p hp
  obtain ⟨hmem, hmem'⟩ := List.of_mem_zip hp
  exact ⟨isSome_stats_of_mem hold hmem, isSome_stats_of_mem hnew hmem'⟩

lemma networkDelay_pos {arg : Option CString} {delay : UInt64} (hdebug : s.ifnameDebug = false)
    (h : networkDelay s arg = .ok (some delay)) : 0 < delay.toUInt32 := by
  have hdelay : 1 ≤ delay.toNat ∧ delay.toNat ≤ 60 := by
    cases arg with
    | none =>
      rw [networkDelay, hdebug] at h
      cases h
      decide
    | some arg =>
      rw [networkDelay, hdebug] at h
      obtain ⟨delay', hdelay', hresult⟩ := Except.bind_eq_ok.1 h
      cases hresult
      exact delayArgument_eq_ok hdelay'
  rw [UInt32.lt_iff_toNat_lt, UInt64.toNat_toUInt32, UInt32.toNat_zero]
  omega

end Run

end NagiosPlugins
