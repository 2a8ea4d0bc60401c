import NagiosPlugins.Collection.Basic
import NagiosPlugins.Json.Helpers

/-!
# Containers

The part of `lib/container.c` that counts the running Docker or Podman containers from the
reply of the API.
-/

namespace NagiosPlugins

open Libc

/-- The last portion of the given container image. -/
def imageShortname (image : CString) : CString :=
  match strrchr image '/' with
  | none => image
  | some strip => strip.tail

/-- The loop of `docker_json_parser_search` from the token `i` on: `rest` are the tokens
`buffer[i..]`. The value is the text of the token behind the matching one. -/
def searchLoop (json token : CString) (convert : CString → CString) (increment : UInt64) :
    List JsmnTok → HashtableT → Except Stop HashtableT
  | [], hashtable => .ok hashtable
  | tok :: rest, hashtable =>
    if jsonTokenStreq json tok token then
      match rest with
      | [] => .error .outOfBounds
      | next :: _ =>
        searchLoop json token convert increment rest
          (counterPut hashtable (convert (tokenText json next)) increment).2
    else searchLoop json token convert increment rest hashtable

/-- Parse the json stream returned by the Docker/Podman API into the hashtable of the values of
the discovered tokens. `none` stands for NULL; a NULL `convert` is the identity. -/
def dockerJsonParserSearch (json token : CString) (convert : CString → CString)
    (increment : UInt64) : Except Stop (Option HashtableT) := do
  match ← jsonTokenise json with
  -- the test `i < ntoken` reads the variable that `json_tokenise` has not set
  | none => .error .uninitialised
  | some (buffer, _) =>
    let hashtable ← searchLoop json token convert increment buffer.tail counterCreate
    return some hashtable

/-- One `label=value` of the performance data. -/
structure PerfEntry where
  label : CString
  value : ℕ
  deriving DecidableEq, Repr

/-- `containers_%s=`. -/
def containersEntry (name : CString) (value : ℕ) : PerfEntry where
  label := ascii "containers_" ++ name
  value := value

/-- The loop over the keys: each one must be in the table. -/
def perfLoop (hashtable : HashtableT) : List (Option CString) → Except Stop (List PerfEntry)
  | [] => .ok []
  | key :: keys =>
    match key.bind (counterLookup hashtable) with
    | none => .error .assertion
    | some np => do
      let entries ← perfLoop hashtable keys
      return containersEntry (imageShortname (key.getD [])) np.count.toNat :: entries

/-- Returns the number of running Docker/Podman containers grouped by images: `*count` and the
entries of the performance data. `json` is the reply of the API. -/
def dockerRunningContainers (json : CString) (image : Option CString) :
    Except Stop (UInt32 × List PerfEntry) := do
  match ← dockerJsonParserSearch json (ascii "Image") imageShortname 1 with
  | none =>
    .error (.pluginError .unknown "unable to parse the json data for \"Image\"s")
  | some hashtable =>
    match image with
    | some image =>
      let runningContainers : UInt32 :=
        match counterLookup hashtable image with
        | some np => np.count.toUInt32
        | none => 0
      return (runningContainers,
        [containersEntry (imageShortname image) runningContainers.toNat])
    | none =>
      let runningContainers := counterGetElements hashtable
      let perfdata ← perfLoop hashtable (hashtable.keys.take hashtable.uniq.toNat)
      return (runningContainers,
        perfdata ++ [containersEntry (ascii "total") hashtable.elements.toNat])

end NagiosPlugins
