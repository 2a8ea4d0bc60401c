import NagiosPlugins.Common

/-!
# A simple dictionary for counting strings

The chained hash table of `lib/collection.c`. A bucket is the list of its nodes, the newest
first; the array `keys` holds a pointer to the key of each node, here the key itself.
-/

namespace NagiosPlugins

open Libc

/-- `HASHSIZE`. -/
def hashsize : ℕ := 101

/-- `hashable_t`: a table entry. -/
structure HashableT where
  key : CString
  count : UInt64
  deriving DecidableEq, Repr

/-- `hashtable_t`. An element of `keys` is NULL as long as it has not been set. -/
structure HashtableT where
  capacity : UInt32
  elements : UInt32
  uniq : UInt32
  table : Fin hashsize → List HashableT
  keys : List (Option CString)

/-- A `char` as the `int` it is promoted to. -/
def charToInt (c : UInt8) : ℤ := if c < 128 then c.toNat else c.toNat - 256

/-- The loop of `hash`. -/
def hashLoop (hashval : UInt32) : CString → UInt32
  | [] => hashval
  | c :: s => hashLoop (UInt32.ofInt (charToInt c) + 31 * hashval) s

/-- Form hash value for string `s`. -/
def hash (s : CString) : Fin hashsize :=
  ⟨(hashLoop 0 s % 101).toNat, by
    simpa [UInt32.toNat_mod, hashsize] using Nat.mod_lt _ (by decide)⟩

/-- `calloc` leaves every bucket empty and the single element of `keys` NULL. -/
def counterCreate : HashtableT where
  capacity := 101
  elements := 0
  uniq := 0
  table _ := []
  keys := [none]

/-- Look for a key in the hash table. -/
def counterLookup (hashtable : HashtableT) (key : CString) : Option HashableT :=
  (hashtable.table (hash key)).find? fun np => key = np.key

/-- `np->count += increment` on the node that `counter_lookup` finds in a bucket. -/
def addToNode (key : CString) (increment : UInt64) : List HashableT → List HashableT
  | [] => []
  | np :: next =>
    if key = np.key then { np with count := np.count + increment } :: next
    else np :: addToNode key increment next

/-- An array grown or cut to `n` elements. -/
def xrealloc (keys : List (Option CString)) (n : ℕ) : List (Option CString) :=
  keys.take n ++ List.replicate (n - keys.length) none

/-- Insert the element `key` into the hash table: set its count to `increment` if it was not
present, or increment the counter by `increment` otherwise. -/
def counterPut (hashtable : HashtableT) (key : CString) (increment : UInt64) :
    HashableT × HashtableT :=
  match counterLookup hashtable key with
  | none =>
    let np := { key, count := increment }
    let hashval := hash key
    (np, { hashtable with
      elements := hashtable.elements + 1
      uniq := hashtable.uniq + 1
      table := Function.update hashtable.table hashval (np :: hashtable.table hashval)
      keys := (xrealloc hashtable.keys (hashtable.uniq + 1).toNat).set hashtable.uniq.toNat
        (some key) })
  | some np =>
    ({ np with count := np.count + increment }, { hashtable with
      elements := hashtable.elements + 1
      table := Function.update hashtable.table (hash key)
        (addToNode key increment (hashtable.table (hash key))) })

def counterGetElements (hashtable : HashtableT) : UInt32 := hashtable.elements

def counterGetUniqueElements (hashtable : HashtableT) : UInt32 := hashtable.uniq

/-- The array of the keys, NULL for an empty table. -/
def counterKeys (hashtable : HashtableT) : Option (List (Option CString)) :=
  if hashtable.uniq < 1 then none else some hashtable.keys

/-- A sequence of `counter_put` calls. -/
def putAll (hashtable : HashtableT) (puts : List (CString × UInt64)) : HashtableT :=
  puts.foldl (fun h p => (counterPut h p.1 p.2).2) hashtable

end NagiosPlugins
