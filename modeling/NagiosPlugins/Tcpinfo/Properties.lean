import NagiosPlugins.Data.Except
import NagiosPlugins.Data.Latch
import NagiosPlugins.Data.Lists
import NagiosPlugins.Tcpinfo.Basic

/-!
# Malformed lines

The state of a malformed line is the one that was read last, before the line or in it. The counters
count the well-formed lines exactly if none of these states is one that is counted.
-/

namespace NagiosPlugins

open Libc

/-! ### Lines -/

/-- A line on which fewer than eleven fields are converted. -/
def Malformed (line : CString) : Prop := (sscanf tcpFormat line).1 < 11

instance (line : CString) : Decidable (Malformed line) := inferInstanceAs (Decidable (_ < _))

lemma malformed_iff {line : CString} : Malformed line ↔ (sscanf tcpFormat line).2.length < 11 := by
  have heof : (scan tcpFormat line).eof → (scan tcpFormat line).args = [] := scan_args_of_eof
  simp only [Malformed, sscanf]
  split_ifs with h
  · simp [heof h]
  · omega

/-- The state field is the sixth. -/
lemma stateField_isSome_iff {line : CString} :
    (stateField line).isSome ↔ 6 ≤ (sscanf tcpFormat line).2.length := by
  have hkinds := kinds_scan tcpFormat line
  simp only [stateField, sscanf]
  by_cases hlength : 6 ≤ (scan tcpFormat line).args.length
  · have hlt : 5 < (scan tcpFormat line).args.length := hlength
    have hkind : ((scan tcpFormat line).args[5]).kind = .unsignedInt := by
      have hsixth := hkinds.getElem (i := 5) (by simpa using hlt)
      rw [List.getElem_map] at hsixth
      exact hsixth.trans rfl
    rw [List.getElem?_eq_getElem hlt]
    cases harg : (scan tcpFormat line).args[5] with
    | unsignedInt state => simp [hlength]
    | unsignedLong n => simp [harg, Arg.kind] at hkind
    | chars s => simp [harg, Arg.kind] at hkind
  · have hnone : (scan tcpFormat line).args[5]? = none := by
      rw [List.getElem?_eq_none]
      omega
    simp [hnone, hlength]

/-! ### Counters -/

/-- The eleven states. -/
def tcpStates : List TcpStatus :=
  [.established, .synSent, .synRecv, .finWait1, .finWait2, .timeWait, .close, .closeWait, .lastAck,
    .listen, .closing]

lemma TcpStatus.value_injective : Function.Injective TcpStatus.value := by
  intro k k' h
  revert h
  cases k <;> cases k' <;> decide

lemma procTcpGet_countState (data : ProcTcptableData) (state : UInt32) (k : TcpStatus) :
    procTcpGet (countState data state) k
      = procTcpGet data k + if state = k.value then 1 else 0 := by
  by_cases hstate : ∃ k', state = TcpStatus.value k'
  · obtain ⟨k', rfl⟩ := hstate
    simp only [TcpStatus.value_injective.eq_iff]
    cases k' <;> cases k <;> rfl
  · have hne : ∀ k', state ≠ TcpStatus.value k' := fun k' h => hstate ⟨k', h⟩
    simp [countState, hne]

/-- The loop counts every line, with the state that is in effect there. -/
lemma procTcpGet_loop (lines : List CString) (state : UInt32) (data : ProcTcptableData)
    (stderr : List CString) (k : TcpStatus) :
    procTcpGet (procparserTcpLoop lines state data stderr).1 k
      = procTcpGet data k + Latch.count stateField (fun _ s => s = k.value) state lines := by
  induction lines generalizing state data stderr with
  | nil => rfl
  | cons line lines ih =>
    rw [procparserTcpLoop, ih, procTcpGet_countState, Latch.count, Nat.add_assoc]
    simp only [decide_eq_true_eq]

/-- The well-formed lines with a state. -/
def wellFormedCount (lines : List CString) (k : TcpStatus) : ℕ :=
  lines.countP fun line => ¬ Malformed line ∧ stateField line = some k.value

/-- The malformed lines are counted on top of the well-formed ones. -/
lemma count_eq_wellFormedCount_add (lines : List CString) (state : UInt32) (k : TcpStatus) :
    Latch.count stateField (fun _ s => s = k.value) state lines
      = wellFormedCount lines k
        + Latch.count stateField (fun line s => Malformed line ∧ s = k.value) state lines := by
  have hwell : ∀ line s, (decide (¬ Malformed line) && decide ((stateField line).getD s = k.value))
      = decide (¬ Malformed line ∧ stateField line = some k.value) := by
    intro line s
    by_cases hmalformed : Malformed line
    · simp [hmalformed]
    · have hlength := mt malformed_iff.2 hmalformed
      have hfield : (stateField line).isSome := stateField_isSome_iff.2 (by omega)
      obtain ⟨state, hstate⟩ := Option.isSome_iff_exists.1 hfield
      simp [hmalformed, hstate]
  rw [Latch.count_add_count_not stateField _ (fun line => ¬ Malformed line),
    Latch.count_eq_countP stateField hwell]
  simp only [wellFormedCount, decide_not, Bool.not_not, Bool.decide_and]

/-! ### Files -/

/-- The lines of a file behind its heading. -/
def tcpLines (content : List UInt8) : List CString := (getlines content).tail

/-- Whatever `state` holds at first, each counter grows by the number of well-formed lines with its
state, and all of them together by the number of well-formed lines with one of the states. -/
structure CountsWellFormed (content : List UInt8) : Prop where
  each : ∀ procfile state data, ∃ data' stderr,
    procparserTcp procfile (some content) state data = .ok (data', stderr) ∧
      ∀ k, procTcpGet data' k = procTcpGet data k + wellFormedCount (tcpLines content) k
  total : ∀ procfile state data, ∃ data' stderr,
    procparserTcp procfile (some content) state data = .ok (data', stderr) ∧
      (tcpStates.map (procTcpGet data')).sum = (tcpStates.map (procTcpGet data)).sum
        + (tcpLines content).countP fun line =>
            ¬ Malformed line ∧ ∃ k ∈ tcpStates, stateField line = some k.value
  independent : ∀ procfile state state' data data' stderr data'' stderr',
    procparserTcp procfile (some content) state data = .ok (data', stderr) →
    procparserTcp procfile (some content) state' data = .ok (data'', stderr') →
      ∀ k, procTcpGet data' k = procTcpGet data'' k

/-- The state that is in effect on each malformed line was read, and is none of those that are
counted. -/
def MalformedUncounted (content : List UInt8) : Prop :=
  ∀ A line B, tcpLines content = A ++ line :: B → Malformed line →
    ∃ state, Latch.last? stateField (A ++ [line]) = some state ∧
      ∀ k : TcpStatus, state ≠ k.value

/-- Every counter counts the well-formed lines, and the malformed ones with its state in effect. -/
lemma procparserTcp_ok (procfile : String) (content : List UInt8) (state : UInt32)
    (data : ProcTcptableData) :
    ∃ data' stderr, procparserTcp procfile (some content) state data = .ok (data', stderr) ∧
      ∀ k, procTcpGet data' k = procTcpGet data k + wellFormedCount (tcpLines content) k
        + Latch.count stateField (fun line s => Malformed line ∧ s = k.value) state
            (tcpLines content) := by
  refine ⟨_, _, rfl, ?_⟩
  intro k
  rw [procTcpGet_loop, Nat.add_assoc]
  exact congrArg (procTcpGet data k + ·) (count_eq_wellFormedCount_add (tcpLines content) state k)

/-- No malformed line is counted, whatever `state` holds at first. -/
lemma malformedUncounted_iff {content : List UInt8} :
    MalformedUncounted content ↔ ∀ state (k : TcpStatus),
      Latch.count stateField (fun line s => Malformed line ∧ s = k.value) state
        (tcpLines content) = 0 := by
  simp only [Latch.count_eq_zero_iff]
  constructor
  · intro h state k A line B heq hcounted
    obtain ⟨hmalformed, hstate⟩ : Malformed line ∧ _ := by simpa using hcounted
    obtain ⟨state', hlast, hne⟩ := h A line B heq hmalformed
    rw [hlast] at hstate
    exact hne k hstate
  · intro h A line B heq hmalformed
    cases hlast : Latch.last? stateField (A ++ [line]) with
    | none =>
      -- an unset variable may hold any state
      have hset := h TcpStatus.established.value .established A line B heq
      simp [hlast, hmalformed] at hset
    | some state =>
      refine ⟨state, rfl, ?_⟩
      intro k hk
      have hcounted := h 0 k A line B heq
      simp [hlast, hmalformed, hk] at hcounted

/-- The counters of all states. -/
lemma sum_wellFormedCount (lines : List CString) :
    (tcpStates.map (wellFormedCount lines)).sum
      = lines.countP fun line =>
          ¬ Malformed line ∧ ∃ k ∈ tcpStates, stateField line = some k.value := by
  have hdisjoint : tcpStates.Pairwise fun k k' => ∀ line,
      decide (¬ Malformed line ∧ stateField line = some k.value) →
        ¬ decide (¬ Malformed line ∧ stateField line = some k'.value) := by
    have hne : tcpStates.Pairwise (· ≠ ·) := by decide
    apply hne.imp
    intro k k' hne line hk hk'
    simp only [decide_eq_true_eq] at hk hk'
    exact hne (TcpStatus.value_injective (Option.some.inj (hk.2.symm.trans hk'.2)))
  refine (List.sum_map_countP hdisjoint lines).trans (List.countP_congr fun line _ => ?_)
  simp only [List.any_eq_true, decide_eq_true_eq]
  exact ⟨fun ⟨k, hk, hwell, hstate⟩ => ⟨hwell, k, hk, hstate⟩,
    fun ⟨hwell, k, hk, hstate⟩ => ⟨k, hk, hwell, hstate⟩⟩

lemma CountsWellFormed.malformedUncounted {content : List UInt8} (h : CountsWellFormed content) :
    MalformedUncounted content := by
  apply malformedUncounted_iff.2
  intro state k
  obtain ⟨data, stderr, hok, hget⟩ := procparserTcp_ok "" content state {}
  obtain ⟨data', stderr', hok', hget'⟩ := h.each "" state {}
  rw [hok] at hok'
  cases hok'
  have hk := (hget k).symm.trans (hget' k)
  omega

/-- Without a malformed line that is counted each counter is known. -/
lemma MalformedUncounted.procparserTcp_ok {content : List UInt8} (h : MalformedUncounted content)
    (procfile : String) (state : UInt32) (data : ProcTcptableData) :
    ∃ data' stderr, procparserTcp procfile (some content) state data = .ok (data', stderr) ∧
      ∀ k, procTcpGet data' k = procTcpGet data k + wellFormedCount (tcpLines content) k := by
  obtain ⟨data', stderr, hok, hget⟩ := NagiosPlugins.procparserTcp_ok procfile content state data
  refine ⟨data', stderr, hok, ?_⟩
  intro k
  rw [hget k, malformedUncounted_iff.1 h state k, Nat.add_zero]

/-- The counters count the well-formed lines exactly if no malformed line has a state in effect
that is counted. -/
theorem countsWellFormed_iff (content : List UInt8) :
    CountsWellFormed content ↔ MalformedUncounted content := by
  constructor
  · exact CountsWellFormed.malformedUncounted
  · intro h
    refine ⟨h.procparserTcp_ok, ?_, ?_⟩
    · intro procfile state data
      obtain ⟨data', stderr, hok, hget⟩ := h.procparserTcp_ok procfile state data
      refine ⟨data', stderr, hok, ?_⟩
      rw [List.map_congr_left fun k _ => hget k, List.sum_map_add, sum_wellFormedCount]
    · intro procfile state state' data data' stderr data'' stderr' hok hok' k
      obtain ⟨_, _, h₁, hget₁⟩ := h.procparserTcp_ok procfile state data
      obtain ⟨_, _, h₂, hget₂⟩ := h.procparserTcp_ok procfile state' data
      rw [hok] at h₁
      rw [hok'] at h₂
      cases h₁
      cases h₂
      rw [hget₁ k, hget₂ k]

/-- A listening socket and a line that is cut off. -/
def cutOffTable : List UInt8 :=
  ascii "  sl  local_address\n"
    ++ ascii "   0: 0100007F:0CEA 00000000:0000" ++ ascii " 0A 00000000:00000000"
    ++ ascii " 00:00000000 00000000" ++ ascii "   100        0 21163\n"
    ++ ascii "   1: 0100007F:0277 0000\n"

/-- The line that is cut off counts as another listening socket. -/
theorem cutOffTable_not_countsWellFormed : ¬ CountsWellFormed cutOffTable := by
  intro h
  have hcount := malformedUncounted_iff.1 h.malformedUncounted 0 .listen
  exact absurd hcount (by decide +kernel)

/-! ### Both tables -/

/-- Reading both tables adds up their sockets. -/
theorem procTcptableRead_ok {tcp tcp6 : List UInt8} (h4 : MalformedUncounted tcp)
    (h6 : MalformedUncounted tcp6) (state4 state6 : UInt32) (data : ProcTcptableData)
    {flags : UInt32} (hflags4 : flags &&& tcpV4 ≠ 0) (hflags6 : flags &&& tcpV6 ≠ 0) :
    ∃ data', procTcptableRead (some tcp) (some tcp6) state4 state6 (some data) flags
        = .ok (some data') ∧
      ∀ k, procTcpGet data' k = procTcpGet data k
        + wellFormedCount (tcpLines tcp) k + wellFormedCount (tcpLines tcp6) k := by
  obtain ⟨data4, stderr4, hok4, hget4⟩ := h4.procparserTcp_ok "/proc/net/tcp" state4 data
  obtain ⟨data6, stderr6, hok6, hget6⟩ := h6.procparserTcp_ok "/proc/net/tcp6" state6 data4
  refine ⟨data6, ?_, fun k => by rw [hget6, hget4]⟩
  simp only [procTcptableRead, hflags4, hflags6, hok4, hok6, Except.ok_bind, ne_eq,
    not_false_eq_true, if_true, pure, Except.pure]

end NagiosPlugins
