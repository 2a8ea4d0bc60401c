import NagiosPlugins.Common
import NagiosPlugins.Data.Except
import NagiosPlugins.Libc.Alloc

/-!
# Collecting a reply

libcurl hands the body of a reply to a callback, block by block. The callback terminates what it
has collected; nothing terminates the memory before its first call.
-/

namespace NagiosPlugins

open Libc

/-- `chunk_t`; no memory stands for NULL. -/
structure Chunk where
  memory : Option Memory
  size : ℕ
  deriving DecidableEq, Repr

/-- The arguments of one call of the callback. -/
structure Block where
  contents : List UInt8
  size : ℕ
  nmemb : ℕ
  length_eq : contents.length = size * nmemb

section Callback

-- whether so many bytes of memory can be had
variable (available : ℕ → Bool)

/-- The memory that `docker_init` sets up. -/
def dockerInit : Chunk where
  memory := if available 1 then some (Memory.malloc 1) else none
  size := 0

/-- `write_memory_callback`: the return value and the chunk. -/
def writeMemoryCallback (block : Block) (mem : Chunk) : Except Stop (ℕ × Chunk) :=
  let realsize := block.size * block.nmemb
  if available (mem.size + realsize + 1) then
    let memory := (mem.memory.getD []).realloc (mem.size + realsize + 1)
    let memory := memory.memcpy mem.size block.contents
    let size := mem.size + realsize
    .ok (realsize, ⟨some (memory.set size (some 0)), size⟩)
  else .error (.pluginError .unknown "memory exhausted")

/-- The chunk after a sequence of calls. -/
def collect : List Block → Chunk → Except Stop Chunk
  | [], mem => .ok mem
  | block :: blocks, mem => do
    let (_, mem) ← writeMemoryCallback available block mem
    collect blocks mem

end Callback

/-- The bytes that the calls deliver. -/
def delivered (blocks : List Block) : List UInt8 := blocks.flatMap Block.contents

/-! ### What the callback keeps -/

/-- The chunk has collected these bytes. -/
def Chunk.Has (mem : Chunk) (bytes : List UInt8) : Prop :=
  mem.size = bytes.length ∧ (mem.memory.getD []).StartsWith bytes

/-- The chunk has collected these bytes and terminated them. -/
def Chunk.Terminated (mem : Chunk) (bytes : List UInt8) : Prop :=
  mem = ⟨some (bytes.map some ++ [some 0]), bytes.length⟩

variable {available : ℕ → Bool} {mem mem' : Chunk} {bytes : List UInt8}

lemma dockerInit_has : (dockerInit available).Has [] := ⟨rfl, Memory.startsWith_nil _⟩

lemma Chunk.Terminated.has (h : mem.Terminated bytes) : mem.Has bytes := by
  rw [h]
  exact ⟨rfl, List.prefix_append _ _⟩

/-- A call appends its block and terminates the memory. -/
lemma writeMemoryCallback_terminated (hmem : mem.Has bytes) {block : Block} {realsize : ℕ}
    (h : writeMemoryCallback available block mem = .ok (realsize, mem')) :
    mem'.Terminated (bytes ++ block.contents) := by
  obtain ⟨hsize, hstart⟩ := hmem
  have hlen : bytes.length ≤ bytes.length + block.contents.length + 1 := by omega
  have hgrown := Memory.length_realloc (mem.memory.getD [])
    (bytes.length + block.contents.length + 1)
  have hset := (hstart.realloc hlen).memcpy_set hgrown 0
  simp only [writeMemoryCallback, hsize, ← block.length_eq] at h
  split_ifs at h
  obtain ⟨-, rfl⟩ := Prod.mk.inj (Except.ok.inj h)
  rw [Chunk.Terminated, hset, List.length_append]

/-- Once the memory is terminated, every further call keeps it so. -/
lemma collect_terminated {blocks : List Block} (hmem : mem.Terminated bytes)
    (h : collect available blocks mem = .ok mem') :
    mem'.Terminated (bytes ++ delivered blocks) := by
  induction blocks generalizing mem bytes with
  | nil =>
    cases h
    rwa [delivered, List.flatMap_nil, List.append_nil]
  | cons block blocks ih =>
    rw [collect] at h
    obtain ⟨⟨realsize, mem₁⟩, hcall, hrest⟩ := Except.bind_eq_ok.1 h
    have hall := ih (writeMemoryCallback_terminated hmem.has hcall) hrest
    rwa [List.append_assoc] at hall

/-! ### The collected body -/

/-- The memory holds the body as a string: its bytes in order, and the terminator behind them, so
that reading the string is well defined. -/
structure Chunk.Holds (mem : Chunk) (body : List UInt8) : Prop where
  size_eq : mem.size = body.length
  starts : ∀ i, i < mem.size → (mem.memory.getD [])[i]? = (body[i]?).map some
  terminator : (mem.memory.getD [])[mem.size]? = some (some 0)
  readable : (mem.memory.getD []).readString = .ok (body.takeWhile (· ≠ 0))

lemma Chunk.Terminated.holds (h : mem.Terminated bytes) : mem.Holds bytes := by
  rw [h]
  refine ⟨rfl, ?_, ?_, Memory.readString_terminated bytes⟩
  · intro i hi
    rw [Option.getD_some, List.getElem?_append_left (by simpa using hi), List.getElem?_map]
  · simp

/-- After `docker_init`, the calls leave the body as a string. -/
def Collected (available : ℕ → Bool) (blocks : List Block) : Prop :=
  ∀ mem, collect available blocks (dockerInit available) = .ok mem → mem.Holds (delivered blocks)

lemma not_collected_nil : ¬ Collected available [] := by
  intro h
  have hterminator := (h _ rfl).terminator
  rw [dockerInit] at hterminator
  split_ifs at hterminator
  · cases hterminator
  · cases hterminator

/-- The body is collected as a string exactly if the callback is called at all. -/
theorem collected_iff (available : ℕ → Bool) (blocks : List Block) :
    Collected available blocks ↔ blocks ≠ [] := by
  constructor
  · rintro h rfl
    exact not_collected_nil h
  · intro hne mem hcollect
    cases blocks with
    | nil => exact absurd rfl hne
    | cons block blocks =>
      rw [collect] at hcollect
      obtain ⟨⟨realsize, mem₁⟩, hcall, hrest⟩ := Except.bind_eq_ok.1 hcollect
      have hfirst := writeMemoryCallback_terminated dockerInit_has hcall
      exact (collect_terminated hfirst hrest).holds

/-- Without a body the byte that the parser reads was never written. -/
theorem empty_reply_not_collected :
    (dockerInit fun _ => true).memory.map Memory.readString = some (.error .unwritten) ∧
      ¬ Collected (fun _ => true) [] :=
  ⟨rfl, not_collected_nil⟩

end NagiosPlugins
