import NagiosPlugins.Collection.Basic
import NagiosPlugins.Data.Tally

/-!
# The dictionary refines a tally

A table filled by `counter_put` is determined by the tally of its puts: each bucket holds the
keys of its hash value with their totals, and the array of keys lists them in the order of
their first occurrence.
-/

namespace NagiosPlugins

open Libc

/-- The puts with their increments as natural numbers. -/
def amounts (puts : List (CString × UInt64)) : List (CString × ℕ) :=
  puts.map fun p => (p.1, p.2.toNat)

@[simp] lemma amounts_nil : amounts [] = [] := rfl

@[simp] lemma amounts_concat (puts : List (CString × UInt64)) (k : CString) (inc : UInt64) :
    amounts (puts ++ [(k, inc)]) = amounts puts ++ [(k, inc.toNat)] := by
  simp [amounts]

@[simp] lemma length_amounts (puts : List (CString × UInt64)) :
    (amounts puts).length = puts.length := by
  simp [amounts]

/-- The node of a key. -/
def node (t : List (CString × ℕ)) (k : CString) : HashableT where
  key := k
  count := UInt64.ofNat (Tally.total t k)

/-- The nodes of a bucket: its keys, the newest first. -/
def chain (t : List (CString × ℕ)) (i : Fin hashsize) : List HashableT :=
  ((Tally.keys t).filter fun k => hash k = i).reverse.map (node t)

/-- The table that holds a tally. -/
def ofTally (t : List (CString × ℕ)) : HashtableT where
  capacity := 101
  elements := UInt32.ofNat t.length
  uniq := UInt32.ofNat (Tally.keys t).length
  table := chain t
  keys := if Tally.keys t = [] then [none] else (Tally.keys t).map some

/-! ### The parts of a table -/

lemma find_map_node (t : List (CString × ℕ)) (key : CString) (ks : List CString) :
    (ks.map (node t)).find? (fun np => key = np.key)
      = if key ∈ ks then some (node t key) else none := by
  induction ks with
  | nil => simp
  | cons k ks ih =>
    by_cases h : key = k
    · subst h
      simp [node]
    · simp [ih, node, h]

theorem counterLookup_ofTally (t : List (CString × ℕ)) (key : CString) :
    counterLookup (ofTally t) key
      = if key ∈ Tally.keys t then some (node t key) else none := by
  simp only [counterLookup, ofTally, chain, find_map_node]
  simp

/-! ### One put -/

lemma node_concat_of_ne (t : List (CString × ℕ)) {k k' : CString} (h : k' ≠ k) (n : ℕ) :
    node (t ++ [(k, n)]) k' = node t k' := by
  simp [node, Tally.total_concat, Ne.symm h]

lemma node_concat_self (t : List (CString × ℕ)) (k : CString) (inc : UInt64) :
    node (t ++ [(k, inc.toNat)]) k = { node t k with count := (node t k).count + inc } := by
  simp [node, Tally.total_concat, UInt64.ofNat_add]

lemma map_node_concat (t : List (CString × ℕ)) {k : CString} (n : ℕ) {ks : List CString}
    (hk : k ∉ ks) : ks.map (node (t ++ [(k, n)])) = ks.map (node t) := by
  refine List.map_congr_left fun k' hk' => node_concat_of_ne t ?_ n
  rintro rfl
  exact hk hk'

/-- Putting a new key prepends its node to the chain of its hash value. -/
lemma chain_concat_new {t : List (CString × ℕ)} {k : CString} (hk : k ∉ Tally.keys t)
    (inc : UInt64) :
    chain (t ++ [(k, inc.toNat)])
      = Function.update (chain t) (hash k) (⟨k, inc⟩ :: chain t (hash k)) := by
  have hmap : ∀ i, (((Tally.keys t).filter fun k' => hash k' = i).reverse).map
      (node (t ++ [(k, inc.toNat)])) = chain t i := fun i =>
    map_node_concat t _ (by simp [hk])
  funext i
  simp only [chain, Tally.keys_concat, if_neg hk, List.filter_append, List.reverse_append,
    List.map_append, hmap]
  by_cases hi : hash k = i
  · subst hi
    have hnode := node_concat_self t k inc
    simp only [node, Tally.total_eq_zero hk] at hnode
    simp [hnode, node]
  · simp [Function.update_of_ne (Ne.symm hi), hi, chain]

/-- In a chain without duplicates one node takes the increment. -/
lemma addToNode_map_node (t : List (CString × ℕ)) (k : CString) (inc : UInt64)
    {ks : List CString} (hnd : ks.Nodup) :
    addToNode k inc (ks.map (node t)) = ks.map (node (t ++ [(k, inc.toNat)])) := by
  induction ks with
  | nil => rfl
  | cons k' ks ih =>
    rw [List.nodup_cons] at hnd
    simp only [List.map_cons, addToNode]
    by_cases h : k = k'
    · subst h
      rw [map_node_concat t _ hnd.1, node_concat_self]
      simp [node]
    · rw [ih hnd.2, node_concat_of_ne t (Ne.symm h), if_neg (by simpa [node] using h)]

/-- Putting a known key changes its node only. -/
lemma chain_concat_known {t : List (CString × ℕ)} {k : CString} (hk : k ∈ Tally.keys t)
    (inc : UInt64) :
    chain (t ++ [(k, inc.toNat)])
      = Function.update (chain t) (hash k) (addToNode k inc (chain t (hash k))) := by
  have hnd : ∀ i, ((Tally.keys t).filter fun k' => hash k' = i).reverse.Nodup := fun i =>
    List.nodup_reverse.mpr ((Tally.nodup_keys t).filter _)
  funext i
  simp only [chain, Tally.keys_concat, if_pos hk]
  by_cases hi : hash k = i
  · subst hi
    rw [Function.update_self, addToNode_map_node t k inc (hnd _)]
  · rw [Function.update_of_ne (Ne.symm hi), map_node_concat, chain]
    simp [hi]

/-- Growing the array by one element and setting that element appends the key. -/
lemma set_xrealloc (ks : List CString) (k : CString) :
    (xrealloc (if ks = [] then [none] else ks.map some) (ks.length + 1)).set ks.length (some k)
      = (ks ++ [k]).map some := by
  cases ks with
  | nil => rfl
  | cons k' ks =>
    have htake : (some k' :: ks.map some).take (ks.length + 1 + 1) = some k' :: ks.map some :=
      List.take_of_length_le (by simp)
    simp [xrealloc, htake]

/-- `counter_put` records one more put in the tally. -/
theorem counterPut_ofTally (t : List (CString × ℕ)) (k : CString) (inc : UInt64)
    (hlen : t.length + 1 < 2 ^ 32) :
    (counterPut (ofTally t) k inc).2 = ofTally (t ++ [(k, inc.toNat)]) := by
  have huniq : (Tally.keys t).length + 1 < 2 ^ 32 :=
    lt_of_le_of_lt (Nat.succ_le_succ (Tally.length_keys_le t)) hlen
  have hof : (UInt32.ofNat (Tally.keys t).length).toNat = (Tally.keys t).length :=
    UInt32.toNat_ofNat_of_lt' (Nat.lt_of_succ_lt huniq)
  have hof' : (UInt32.ofNat (Tally.keys t).length + 1).toNat = (Tally.keys t).length + 1 := by
    rw [UInt32.toNat_add, hof]
    exact Nat.mod_eq_of_lt huniq
  simp only [counterPut, counterLookup_ofTally]
  by_cases hk : k ∈ Tally.keys t
  · simp [hk, ofTally, chain_concat_known hk, Tally.keys_concat, List.ne_nil_of_mem hk]
  · simp only [hk, if_false, ofTally, hof, hof', set_xrealloc, chain_concat_new hk,
      Tally.keys_concat]
    simp

/-! ### All puts -/

lemma keys_amounts (puts : List (CString × UInt64)) :
    Tally.keys (amounts puts) = Tally.keys puts := by
  simp [Tally.keys, amounts, Function.comp_def]

/-- After fewer than `2 ^ 32` puts the table holds their tally. -/
theorem putAll_eq_ofTally (puts : List (CString × UInt64)) (hlen : puts.length < 2 ^ 32) :
    putAll counterCreate puts = ofTally (amounts puts) := by
  induction puts using List.reverseRecOn with
  | nil => rfl
  | append_singleton puts p ih =>
    rw [List.length_append, List.length_singleton] at hlen
    obtain ⟨k, inc⟩ := p
    have ih := ih (Nat.lt_of_succ_lt hlen)
    simp only [putAll, List.foldl_append, List.foldl_cons, List.foldl_nil] at ih ⊢
    rw [ih, amounts_concat]
    exact counterPut_ofTally (amounts puts) k inc (by rwa [length_amounts])

/-- A key has one node, in the chain of its hash value. -/
lemma countP_chain (t : List (CString × ℕ)) (k : CString) (i : Fin hashsize) :
    (chain t i).countP (fun np => np.key = k)
      = if k ∈ Tally.keys t ∧ hash k = i then 1 else 0 := by
  have hcount : (chain t i).countP (fun np => np.key = k)
      = ((Tally.keys t).filter fun k' => hash k' = i).count k := by
    rw [chain, List.countP_map, List.countP_reverse, List.count]
    apply List.countP_congr
    intro k' _
    rw [beq_iff_eq]
    exact decide_eq_true_iff
  rw [hcount, ((Tally.nodup_keys t).filter _).count]
  simp

/-- The dictionary is a finite map from keys to totals that remembers the order of first
insertion. -/
theorem putAll_refines (puts : List (CString × UInt64)) (hlen : puts.length < 2 ^ 32) :
    let h := putAll counterCreate puts
    (∀ k, counterLookup h k = none ↔ k ∉ puts.map Prod.fst) ∧
    (∀ k np, counterLookup h k = some np →
      np.key = k ∧ np.count.toNat = Tally.total (amounts puts) k % 2 ^ 64) ∧
    counterKeys h = (if puts = [] then none else some ((Tally.keys puts).map some)) ∧
    (counterGetUniqueElements h).toNat = (Tally.keys puts).length ∧
    (counterGetElements h).toNat = puts.length ∧
    ∀ k i, (h.table i).countP (fun np => np.key = k)
      = if k ∈ puts.map Prod.fst ∧ hash k = i then 1 else 0 := by
  have hmem : ∀ k, k ∈ Tally.keys (amounts puts) ↔ k ∈ puts.map Prod.fst := fun k => by
    rw [keys_amounts, Tally.mem_keys]
  have huniq : (UInt32.ofNat (Tally.keys puts).length).toNat = (Tally.keys puts).length :=
    UInt32.toNat_ofNat_of_lt' (lt_of_le_of_lt (Tally.length_keys_le puts) hlen)
  simp only [putAll_eq_ofTally puts hlen, counterLookup_ofTally]
  refine ⟨fun k => ?_, fun k np h => ?_, ?_, ?_, ?_, fun k i => ?_⟩
  · simp [hmem]
  · split_ifs at h
    cases h
    exact ⟨rfl, by simp [node]⟩
  · by_cases hp : puts = []
    · subst hp
      rfl
    · obtain ⟨p, ps, rfl⟩ := List.exists_cons_of_ne_nil hp
      have hk : p.1 ∈ Tally.keys (p :: ps) := Tally.mem_keys.mpr (by simp)
      rw [counterKeys, if_neg, if_neg hp]
      · simp [ofTally, keys_amounts, List.ne_nil_of_mem hk]
      · simp only [ofTally, keys_amounts, UInt32.lt_iff_toNat_lt, huniq]
        simpa using List.ne_nil_of_mem hk
  · simpa [counterGetUniqueElements, ofTally, keys_amounts] using huniq
  · simpa [counterGetElements, ofTally] using UInt32.toNat_ofNat_of_lt' hlen
  · simp only [ofTally, countP_chain, hmem]

theorem putAll_refines_images :
    let h := putAll counterCreate [(ascii "nginx", 1), (ascii "redis", 1), (ascii "nginx", 1)]
    counterKeys h = some [some (ascii "nginx"), some (ascii "redis")] ∧
      (counterGetElements h).toNat = 3 := by
  obtain ⟨-, -, hkeys, -, helements, -⟩ :=
    putAll_refines [(ascii "nginx", 1), (ascii "redis", 1), (ascii "nginx", 1)] (by decide)
  exact ⟨hkeys, helements⟩

end NagiosPlugins
