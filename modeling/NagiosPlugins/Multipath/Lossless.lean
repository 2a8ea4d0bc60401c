import NagiosPlugins.Multipath.Basic

/-!
# Nothing is lost

However the calls cut a transfer into parts, and however often they are interrupted, `read_all` puts
the bytes that are received at the beginning of the memory, and `write_all` sends the beginning of
the memory.
-/

namespace NagiosPlugins

open Libc Transfer

section
variable {α σ : Type*} {size : α → ℕ} {move : σ → ℕ → α → σ}

/-- The loop behind calls that go on. `stateOf` says what their effect is as a whole. -/
structure Loop.After (size : α → ℕ) (stateOf : List (CallResult ℕ α) → σ) (len : ℕ)
    (used : List (CallResult ℕ α)) (l : Loop σ) : Prop where
  state_eq : l.state = stateOf used
  buf_eq : l.buf = amount size used
  len_eq : l.len + amount size used = len
  total_eq : l.total = amount size used

/-- The effect of the calls as a whole is the effect of one call after the other. -/
structure Effect (size : α → ℕ) (move : σ → ℕ → α → σ) (len : ℕ)
    (stateOf : List (CallResult ℕ α) → σ) : Prop where
  failed : ∀ used errno, stateOf (used ++ [.failed errno]) = stateOf used
  moved : ∀ used n, amount size used + size n ≤ len →
    stateOf (used ++ [.moved n]) = move (stateOf used) (amount size used) n

variable {len : ℕ} {stateOf : List (CallResult ℕ α) → σ}

lemma Loop.After.failed (heffect : Effect size move len stateOf) {used : List (CallResult ℕ α)}
    {l : Loop σ} (h : l.After size stateOf len used) (errno : ℕ) :
    l.After size stateOf len (used ++ [.failed errno]) where
  state_eq := by rw [heffect.failed, h.state_eq]
  buf_eq := by simpa [CallResult.amount] using h.buf_eq
  len_eq := by simpa [CallResult.amount] using h.len_eq
  total_eq := by simpa [CallResult.amount] using h.total_eq

lemma Loop.After.advance (heffect : Effect size move len stateOf) {used : List (CallResult ℕ α)}
    {l : Loop σ} (h : l.After size stateOf len used) {n : α}
    (hn : amount size used + size n ≤ len) :
    (l.advance size move n).After size stateOf len (used ++ [.moved n]) := by
  have hamount : amount size (used ++ [CallResult.moved (ε := ℕ) n])
      = amount size used + size n := by
    rw [amount_append, amount_cons, amount_nil]
    rfl
  have hlen := h.len_eq
  constructor
  · rw [heffect.moved used n hn, ← h.state_eq, ← h.buf_eq]
    rfl
  · rw [hamount, ← h.buf_eq]
    rfl
  · rw [hamount]
    show l.len - size n + (amount size used + size n) = len
    omega
  · rw [hamount, ← h.total_eq]
    rfl

/-! ### The end of the loop -/

lemma Loop.run_complete {l : Loop σ} (hlen : l.len = 0) (replies : List (CallResult ℕ α)) :
    l.run size move replies = .returned l.total l.state replies := by
  rw [Loop.run.eq_def]
  cases replies <;> exact if_pos hlen

lemma Loop.run_stopped {l : Loop σ} (hlen : l.len ≠ 0) {reply : CallResult ℕ α}
    (hstop : ¬ reply.GoesOn size callAgain) (replies : List (CallResult ℕ α)) :
    l.run size move (reply :: replies) = .returned l.total l.state replies := by
  cases reply with
  | failed errno =>
    rw [Loop.run, if_neg hlen]
    exact if_neg hstop
  | moved n =>
    rw [Loop.run, if_neg hlen]
    exact if_pos (not_not.1 hstop)

/-- The loop ends where the transfer ends. -/
lemma Loop.After.ends (heffect : Effect size move len stateOf)
    {before used rest : List (CallResult ℕ α)} {l : Loop σ} (h : l.After size stateOf len before)
    (hused : Used size callAgain len (before ++ used))
    (hend : amount size (before ++ used) = len ∨ amount size (before ++ used) < len ∧
      (rest = [] ∨ ∃ r rest', rest = r :: rest' ∧ ¬ r.GoesOn size callAgain)) :
    Ends size callAgain len (before ++ used) (stateOf (before ++ used)) rest
      (l.run size move (used ++ rest)) := by
  have hlen := h.len_eq
  induction used generalizing before l with
  | nil =>
    rw [List.append_nil] at hend ⊢
    rw [List.nil_append, ← h.state_eq]
    rcases hend with hcomplete | ⟨hlt, rfl | ⟨r, rest', rfl, hstop⟩⟩
    · rw [Loop.run_complete (by omega), h.total_eq, hcomplete]
      exact .complete hcomplete
    · have hne : l.len ≠ 0 := by omega
      rw [Loop.run, if_neg hne, h.total_eq]
      exact .waiting hlt
    · rw [Loop.run_stopped (by omega) hstop, h.total_eq]
      exact .stopped hlt hstop
  | cons r used ih =>
    have hasked : amount size before < len := hused.asked before r used rfl
    have hne : l.len ≠ 0 := by omega
    have hgoes : r.GoesOn size callAgain := hused.goesOn r (by simp)
    rw [List.append_cons] at hused hend ⊢
    rw [List.cons_append]
    cases r with
    | failed errno =>
      have hafter := h.failed heffect errno
      have hagain : callAgain errno = true := hgoes
      rw [Loop.run, if_neg hne, if_pos hagain]
      exact ih hafter hused hend hafter.len_eq
    | moved n =>
      have hn : amount size before + size n ≤ len := by
        have hle := (Used.of_append hused).amount_le
        rw [amount_append, amount_cons, amount_nil] at hle
        exact hle
      have hafter := h.advance heffect hn
      have hmoved : size n ≠ 0 := hgoes
      rw [Loop.run, if_neg hne, if_neg hmoved]
      exact ih hafter hused hend hafter.len_eq

/-- A transfer uses some of the replies, and the loop ends behind them. -/
lemma Loop.run_ends (heffect : Effect size move len stateOf) {replies : List (CallResult ℕ α)}
    (hwithin : Within size callAgain len replies) :
    ∃ used rest, replies = used ++ rest ∧ Used size callAgain len used ∧
      Ends size callAgain len used (stateOf used) rest
        (Loop.run size move ⟨stateOf [], 0, len, 0⟩ replies) := by
  obtain ⟨used, rest, rfl, hused, hend⟩ := exists_used hwithin
  have hstart : Loop.After size stateOf len [] ⟨stateOf [], 0, len, 0⟩ := ⟨rfl, rfl, rfl, rfl⟩
  exact ⟨used, rest, rfl, hused, hstart.ends heffect hused hend⟩

end

/-! ### What the calls have an effect on -/

/-- The bytes that are received, in order. -/
def received : List (CallResult ℕ (List UInt8)) → List UInt8
  | [] => []
  | .moved bytes :: replies => bytes ++ received replies
  | .failed _ :: replies => received replies

@[simp] lemma length_received (replies : List (CallResult ℕ (List UInt8))) :
    (received replies).length = amount List.length replies := by
  induction replies with
  | nil => rfl
  | cons reply replies ih =>
    cases reply with
    | moved bytes => rw [received, List.length_append, ih, amount_cons, CallResult.amount]
    | failed errno => rw [received, ih, amount_cons, CallResult.amount, Nat.zero_add]

lemma received_append (rs rs' : List (CallResult ℕ (List UInt8))) :
    received (rs ++ rs') = received rs ++ received rs' := by
  induction rs with
  | nil => rfl
  | cons reply replies ih =>
    cases reply with
    | moved bytes => rw [List.cons_append, received, received, ih, List.append_assoc]
    | failed errno => rw [List.cons_append, received, received, ih]

/-- The memory after `read` has stored the bytes. -/
def memoryWith (buf : List UInt8) (used : List (CallResult ℕ (List UInt8))) : List UInt8 :=
  received used ++ buf.drop (received used).length

lemma effect_store (buf : List UInt8) (len : ℕ) :
    Effect List.length store len (memoryWith buf) where
  failed used errno := by simp [memoryWith, received_append, received]
  moved used bytes hle := by
    have hlength := length_received used
    have hall : received (used ++ [.moved bytes]) = received used ++ bytes := by
      rw [received_append, received, received, List.append_nil]
    have htake : (memoryWith buf used).take (amount List.length used) = received used := by
      rw [memoryWith, ← hlength, List.take_left]
    have hdrop : (memoryWith buf used).drop (amount List.length used + bytes.length)
        = buf.drop ((received used).length + bytes.length) := by
      rw [memoryWith, ← hlength, List.drop_length_add_append, List.drop_drop]
    rw [store, htake, hdrop, memoryWith, hall, List.length_append]

lemma effect_send (buf : List UInt8) (len : ℕ) :
    Effect id (fun sent pos n => sent ++ (buf.drop pos).take n) len
      (fun used : List (CallResult ℕ ℕ) => buf.take (amount id used)) where
  failed used errno := by simp [CallResult.amount]
  moved used n hle := by simp [CallResult.amount, List.take_add]

/-- `read_all` and `write_all` lose nothing: some of the replies are used, the bytes that these
have moved are the first bytes of the memory, in order, everything else is as it was, and what is
returned is their number, which is the whole length exactly if everything has been moved. Of the
errors only `EINTR` and `EAGAIN` do not end a transfer. -/
theorem transfers_lossless (buf : List UInt8) {len : ℕ} {reads : List (CallResult ℕ (List UInt8))}
    {writes : List (CallResult ℕ ℕ)}
    (hreads : Within List.length (fun errno => errno = eintr || errno = eagain) len reads)
    (hwrites : Within id (fun errno => errno = eintr || errno = eagain) len writes) :
    (∃ used rest, reads = used ++ rest ∧
      Used List.length (fun errno => errno = eintr || errno = eagain) len used ∧
      Ends List.length (fun errno => errno = eintr || errno = eagain) len used
        (received used ++ buf.drop (received used).length) rest (readAll buf len reads) ∧
      ∀ total mem left, readAll buf len reads = .returned total mem left →
        (total = len ↔ (received used).length = len)) ∧
    ∃ used rest, writes = used ++ rest ∧
      Used id (fun errno => errno = eintr || errno = eagain) len used ∧
      Ends id (fun errno => errno = eintr || errno = eagain) len used
        (buf.take (amount id used)) rest (writeAll buf len writes) ∧
      ∀ total sent left, writeAll buf len writes = .returned total sent left →
        (total = len ↔ amount id used = len) := by
  obtain ⟨used, rest, hsplit, hused, hends⟩ := Loop.run_ends (effect_store buf len) hreads
  obtain ⟨used', rest', hsplit', hused', hends'⟩ := Loop.run_ends (effect_send buf len) hwrites
  refine ⟨⟨used, rest, hsplit, hused, hends, ?_⟩, used', rest', hsplit', hused', hends', ?_⟩
  · intro total mem left hreturned
    rw [hends.returned_eq hreturned, length_received]
  · intro total sent left hreturned
    rw [hends'.returned_eq hreturned]

/-- Five bytes that are received in two parts, with interruptions. -/
def interruptedReads : List (CallResult ℕ (List UInt8)) :=
  [.failed eintr, .moved [1, 2], .failed eagain, .moved [3, 4, 5], .moved []]

/-- Two bytes that are sent before an error. -/
def brokenWrites : List (CallResult ℕ ℕ) := [.moved 2, .failed eintr, .failed 32]

theorem interrupted_lossless :
    (∃ used rest, interruptedReads = used ++ rest ∧
      readAll [9, 8, 7, 6, 5, 4] 5 interruptedReads = .returned 5 [1, 2, 3, 4, 5, 4] [.moved []] ∧
      received used ++ [9, 8, 7, 6, 5, 4].drop (received used).length = [1, 2, 3, 4, 5, 4] ∧
      (received used).length = 5) ∧
    ∃ used rest, brokenWrites = used ++ rest ∧
      writeAll [9, 8, 7, 6, 5, 4] 5 brokenWrites = .returned 2 [9, 8] [] ∧ amount id used ≠ 5 := by
  have hreads : Within List.length (fun errno => errno = eintr || errno = eagain) 5
      interruptedReads := by
    iterate 5 apply Within.cons _ (by decide)
    exact within_nil _
  have hwrites : Within id (fun errno => errno = eintr || errno = eagain) 5 brokenWrites := by
    iterate 3 apply Within.cons _ (by decide)
    exact within_nil _
  obtain ⟨⟨used, rest, hsplit, -, hends, hread⟩, used', rest', hsplit', -, -, hwrite⟩ :=
    transfers_lossless [9, 8, 7, 6, 5, 4] hreads hwrites
  have hreturned : readAll [9, 8, 7, 6, 5, 4] 5 interruptedReads
      = .returned 5 [1, 2, 3, 4, 5, 4] [.moved []] := by decide
  have hreturned' : writeAll [9, 8, 7, 6, 5, 4] 5 brokenWrites = .returned 2 [9, 8] [] := by decide
  have hmemory := (hends.of_complete hreturned).1.symm
  exact ⟨⟨used, rest, hsplit, hreturned, hmemory, (hread _ _ _ hreturned).1 rfl⟩, used', rest',
    hsplit', hreturned', mt (hwrite _ _ _ hreturned').2 (by decide)⟩

end NagiosPlugins
