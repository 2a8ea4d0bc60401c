import NagiosPlugins.Container.Chunk
import NagiosPlugins.Data.UrlEncoding

/-!
# Requests to the API

`url_encode` of `lib/url_encode.c`, and what `lib/container.c` does around libcurl: the socket, the
URL of a request and the string that the callback has collected. libcurl itself is a parameter.
-/

namespace NagiosPlugins

open Libc UrlEncoding

/-! ### Encoding a filter -/

/-- Converts a hex character to its integer value. -/
def fromHex (ch : UInt8) : UInt8 := if isdigit ch then ch - '0' else tolower ch - 'a' + 10

/-- Converts an integer value to its hex character. -/
def toHex (code : UInt8) : UInt8 :=
  let hex := ascii "0123456789abcdef"
  hex.getD (code &&& 15).toNat 0

/-- The bytes that `url_encode` copies. -/
def urlPlain (c : UInt8) : Bool :=
  isalnum c || c == '-' || c == '_' || c == '.' || c == '~'

/-- The loop of `url_encode`: the buffer, and where `pbuf` points to. -/
def urlEncodeLoop : CString → Memory → ℕ → Except MemoryFault (Memory × ℕ)
  | [], buf, pbuf => .ok (buf, pbuf)
  | c :: pstr, buf, pbuf => do
    let stored :=
      if urlPlain c then [c]
      else if c = ' ' then [('+' : UInt8)]
      -- the bits that the shift of a negative `char` copies are masked
      else [('%' : UInt8), toHex (c >>> 4), toHex (c &&& 15)]
    let (buf, pbuf) ← buf.put pbuf stored
    urlEncodeLoop pstr buf pbuf

/-- `url_encode`, where there is enough memory. -/
def urlEncode (str : CString) : Except MemoryFault Memory := do
  let (buf, pbuf) ← urlEncodeLoop str (Memory.malloc (str.length * 3 + 1)) 0
  let (buf, _) ← buf.put pbuf [0]
  return buf

/-- The encoding of `url_encode`; it has no function that decodes, but the digits are those of
`from_hex`. -/
def urlCode : Code where
  plain := urlPlain
  digit := toHex
  value := fromHex
  plain_percent := by decide +kernel
  plain_plus := by decide +kernel
  value_digit := by decide +kernel

lemma urlEncodeLoop_eq (str : CString) {bytes : CString} {buf : Memory} (h : buf.StartsWith bytes)
    (hfits : bytes.length + str.length * 3 + 1 ≤ buf.length) :
    ∃ buf', urlEncodeLoop str buf bytes.length = .ok (buf', (bytes ++ urlCode.encode str).length) ∧
      buf'.StartsWith (bytes ++ urlCode.encode str) ∧ buf'.length = buf.length := by
  induction str generalizing bytes buf with
  | nil => exact ⟨buf, by simp [urlEncodeLoop, Code.encode], by simpa [Code.encode] using h, rfl⟩
  | cons c str ih =>
    have hbyte := urlCode.length_encodeByte_le c
    rw [List.length_cons] at hfits
    obtain ⟨buf', hput, hstarts, hlength⟩ := h.put (urlCode.encodeByte c) (by omega)
    have hrest : (bytes ++ urlCode.encodeByte c).length + str.length * 3 + 1 ≤ buf'.length := by
      rw [hlength, List.length_append]
      omega
    obtain ⟨buf'', hloop, hstarts', hlength'⟩ := ih hstarts hrest
    have hencode : bytes ++ urlCode.encode (c :: str)
        = bytes ++ urlCode.encodeByte c ++ urlCode.encode str := by
      rw [Code.encode, List.flatMap_cons, List.append_assoc]
      rfl
    refine ⟨buf'', ?_, hencode ▸ hstarts', hlength'.trans hlength⟩
    have hstep : urlEncodeLoop (c :: str) buf bytes.length
        = buf.put bytes.length (urlCode.encodeByte c) >>= fun p => urlEncodeLoop str p.1 p.2 := rfl
    rw [hstep, hput, hencode]
    exact hloop

lemma not_safe_zero : ¬ urlCode.Safe 0 := by
  rintro (h | h | h | ⟨n, hn, h⟩)
  · revert h
    decide +kernel
  · revert h
    decide
  · revert h
    decide
  · have hdigit : ∀ n < 16, toHex n ≠ 0 := by decide +kernel
    exact hdigit n hn h.symm

/-- The encoded text, as it stands in the buffer. -/
theorem urlEncode_eq (str : CString) :
    ∃ buf, urlEncode str = .ok buf ∧ buf.readString = .ok (urlCode.encode str) := by
  have hmalloc := Memory.length_malloc (str.length * 3 + 1)
  obtain ⟨buf, hloop, hstarts, hlength⟩ := urlEncodeLoop_eq str
    (Memory.startsWith_nil (Memory.malloc (str.length * 3 + 1)))
    (by rw [hmalloc, List.length_nil]; omega)
  have hencode := urlCode.length_encode_le str
  rw [List.nil_append] at hloop hstarts
  rw [hmalloc] at hlength
  obtain ⟨buf', hput, hstarts', -⟩ := hstarts.put [0]
    (by rw [hlength, List.length_singleton]; omega)
  have hzero : (0 : UInt8) ∉ urlCode.encode str := fun h =>
    not_safe_zero (urlCode.safe_of_mem_encode 0 h)
  refine ⟨buf', ?_, hstarts'.readString hzero⟩
  rw [urlEncode, ← List.length_nil (α := UInt8), hloop]
  simp only [Except.ok_bind, hput]
  rfl

/-- The bytes of an encoded text: none of them separates the parts of a URL. -/
def IsUrlByte (c : UInt8) : Prop := isalnum c ∨ c ∈ ascii "-_.~+%"

/-- The buffer is large enough, what stands in it can be part of a URL, and it is decoded to the
string. -/
theorem urlEncode_decodes (str : CString) :
    ∃ buf s, urlEncode str = .ok buf ∧ buf.readString = .ok s ∧ (∀ c ∈ s, IsUrlByte c) ∧
      urlCode.decode s = some str := by
  obtain ⟨buf, hencode, hread⟩ := urlEncode_eq str
  refine ⟨buf, urlCode.encode str, hencode, hread, ?_, urlCode.decode_encode str⟩
  intro c hc
  rcases urlCode.safe_of_mem_encode c hc with h | rfl | rfl | ⟨n, hn, rfl⟩
  · have hplain : ∀ c, urlPlain c → IsUrlByte c := by
      unfold IsUrlByte
      decide +kernel
    exact hplain c h
  · exact .inr (by decide)
  · exact .inr (by decide)
  · have hdigit : ∀ n < 16, isalnum (toHex n) := by decide +kernel
    exact .inl (hdigit n hn)

/-! ### Requests -/

/-- The variables of the environment that are read. -/
structure DockerEnv where
  dockerHost : Option CString
  dockerApiVersion : Option CString

/-- `DOCKER_CONTAINERS_JSON`, and `DOCKER_STATS_JSON` with the container that it is for. -/
inductive DockerQuery where
  | containersJson
  | statsJson (id : CString)

/-- libcurl: whether a session can be started, the transfer from a URL over a socket, and the texts
of its codes. The transfer calls the callback for each of the blocks. -/
structure Curl where
  started : Bool
  perform : CString → CString → ℕ × List Block
  strerror : ℕ → String

/-- `CURLE_OK`. -/
def curleOk : ℕ := 0

/-- What the parser reads of a block of memory. -/
def readMemory (memory : Memory) : Except Stop CString :=
  match memory.readString with
  | .ok s => .ok s
  | .error .unwritten => .error .uninitialised
  | .error .behind => .error .outOfBounds

section Api

variable (env : DockerEnv) (curl : Curl) (available : ℕ → Bool)

/-- The URL of `docker_get`. -/
def dockerUrl : DockerQuery → Except Stop CString
  | .containersJson => do
    let running := ascii "\x7b\"status\":\x7b\"running\":true\x7d\x7d"
    -- the memory of the encoded text is written to without a test
    if ¬ available (running.length * 3 + 1) then throw .undefined
    let filter ←
      match urlEncode running with
      | .ok filter => readMemory filter
      | .error _ => .error .outOfBounds
    return ascii "http://v" ++ env.dockerApiVersion.getD (ascii "1.24")
      ++ ascii "/containers/json?filters=" ++ filter
  | .statsJson id =>
    return ascii "http://v" ++ env.dockerApiVersion.getD (ascii "1.24") ++ ascii "/containers/"
      ++ id ++ ascii "/stats?stream=false"

/-- `docker_init` and `docker_get`, and the string that `chunk.memory` holds then. -/
def dockerFetch (socket : Option CString) (query : DockerQuery) : Except Stop CString := do
  let socket ←
    match socket.or env.dockerHost with
    | some socket => .ok socket
    | none => .error (.pluginError .unknown
        "the socket path was not set, nor was the environment variable DOCKER_HOST")
  if ¬ curl.started then throw (.pluginError .unknown "cannot start a libcurl easy session")
  let (res, blocks) := curl.perform socket (← dockerUrl env available query)
  let chunk ← collect available blocks (dockerInit available)
  if res ≠ curleOk then throw (.pluginError .unknown (curl.strerror res))
  match chunk.memory with
  | none => throw .assertion
  | some memory => readMemory memory

end Api

end NagiosPlugins
