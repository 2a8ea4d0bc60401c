import NagiosPlugins.Container.Request
import NagiosPlugins.Container.Search
import NagiosPlugins.Json.Members
import NagiosPlugins.Libc.Printf
import NagiosPlugins.Perfdata.Representable
import NagiosPlugins.Strton.Properties

/-!
# The memory of the containers

`docker_running_containers_memory` of `lib/container.c` and `plugins/check_container.c`: a request
for the list of the containers and one for the statistics of each of them. The replies arrive in
blocks, and the number of bytes is read with `sizetollint`, which looks at the byte behind the
string.
-/

namespace NagiosPlugins

open Libc JsonText

/-! ### The plugin -/

section Plugin

-- `heap id` is what follows the string that is found in the statistics of the container
variable (env : DockerEnv) (curl : Curl) (available : ℕ → Bool) (unspecified : Double → Int64)
  (heap : CString → ℕ → UInt8)

/-- `docker_container_memory`: what `*memory` holds afterwards. -/
def dockerContainerMemory (socket : Option CString) (id : CString) (memory : Int64) :
    Except Stop Int64 := do
  let json ← dockerFetch env curl available socket (.statsJson id)
  let (_, value) ← jsonSearch json (ascii ".memory_stats.usage") none
  let converted :=
    sizetollint unspecified (value.map fun value => Stored.ofBytes value (heap id)) memory none
  if converted.code < 0 then
    throw (.pluginError .unknown
      ("failed to convert container memory value: " ++ text (converted.errmesg.getD [])))
  return converted.result

/-- The loop over the keys: `memory_usage` and `*memory`. -/
def memoryLoop (socket : Option CString) :
    List (Option CString) → Int64 → UInt64 → Except Stop UInt64
  | [], _, memory => .ok memory
  | none :: _, _, _ => .error .undefined
  | some id :: keys, memoryUsage, memory => do
    let memoryUsage ←
      dockerContainerMemory env curl available unspecified heap socket id memoryUsage
    memoryLoop socket keys memoryUsage (memory + (memoryUsage.toUInt64 >>> 10))

/-- Returns the memory usage of running Docker/Podman containers; `memoryUsage` is what the
variable holds before it is set. -/
def dockerRunningContainersMemory (socket : Option CString) (memoryUsage : Int64) :
    Except Stop UInt64 := do
  let json ← dockerFetch env curl available socket .containersJson
  match ← dockerJsonParserSearch json (ascii "Id") id 1 with
  | none => throw (.pluginError .unknown "unable to parse the json data for \"Id\"s")
  | some hashtable =>
    memoryLoop env curl available unspecified heap socket
      (hashtable.keys.take hashtable.uniq.toNat) memoryUsage 0

/-- The options of the command line. -/
structure ContainerOptions where
  image : Option CString
  socket : Option CString
  checkMemory : Bool
  shift : UnitShift
  warning : Option CString
  critical : Option CString

/-- What the plugin reports: the memory used, or the containers and the performance data. -/
inductive ContainerReport where
  | memory (status : Nagstatus) (used : UInt64)
  | containers (status : Nagstatus) (containers : UInt32) (perfdata : List PerfEntry)
  deriving DecidableEq

/-- `main`; there is no report if the usage is printed instead. -/
def checkContainer (options : ContainerOptions) (memoryUsage : Int64) :
    Except Stop (Option ContainerReport) := do
  if options.checkMemory ∧ options.image.isSome then return none
  let (status, myThreshold) := setThresholdsRounded none options.warning options.critical
  if status = npRangeUnparseable then return none
  match myThreshold with
  | none => throw .undefined
  | some myThreshold =>
    if options.checkMemory then
      let total ← dockerRunningContainersMemory env curl available unspecified heap options.socket
        memoryUsage
      let used := unitConvert total options.shift
      return some (.memory (getStatus (.ofUInt64 used) myThreshold) used)
    else
      let json ← dockerFetch env curl available options.socket .containersJson
      let (containers, perfdata) ← dockerRunningContainers json options.image
      return some (.containers (getStatus (.nearest containers.toNat) myThreshold) containers
        perfdata)

end Plugin

/-! ### Replies -/

section Replies

variable {env : DockerEnv} {curl : Curl} {available : ℕ → Bool} {socket : Option CString}

/-- The URL of a query. -/
def urlOf (env : DockerEnv) : DockerQuery → CString
  | .containersJson =>
    ascii "http://v" ++ env.dockerApiVersion.getD (ascii "1.24")
      ++ ascii "/containers/json?filters="
      ++ urlCode.encode (ascii "\x7b\"status\":\x7b\"running\":true\x7d\x7d")
  | .statsJson id =>
    ascii "http://v" ++ env.dockerApiVersion.getD (ascii "1.24") ++ ascii "/containers/"
      ++ id ++ ascii "/stats?stream=false"

/-- The API answers a query with a body, in some blocks. -/
def Answers (env : DockerEnv) (curl : Curl) (socket : Option CString) (query : DockerQuery)
    (body : CString) : Prop :=
  ∃ path blocks, socket.or env.dockerHost = some path ∧
    curl.perform path (urlOf env query) = (curleOk, blocks) ∧ delivered blocks = body

lemma dockerUrl_eq (havailable : ∀ n, available n) (query : DockerQuery) :
    dockerUrl env available query = .ok (urlOf env query) := by
  cases query with
  | statsJson id => rfl
  | containersJson =>
    obtain ⟨buf, hencode, hread⟩ :=
      urlEncode_eq (ascii "\x7b\"status\":\x7b\"running\":true\x7d\x7d")
    simp only [dockerUrl, havailable, not_true_eq_false, if_false, hencode, readMemory, hread]
    rfl

lemma exists_collect (havailable : ∀ n, available n) (blocks : List Block) (mem : Chunk) :
    ∃ mem', collect available blocks mem = .ok mem' := by
  induction blocks generalizing mem with
  | nil => exact ⟨mem, rfl⟩
  | cons block blocks ih =>
    rw [collect, writeMemoryCallback]
    simp only [havailable, if_true, Except.ok_bind]
    exact ih _

/-- However the body is cut into blocks, the parser reads all of it. -/
lemma dockerFetch_eq {query : DockerQuery} {body : CString} (havailable : ∀ n, available n)
    (hstarted : curl.started) (hanswers : Answers env curl socket query body) (hne : body ≠ [])
    (hbody : ∀ c ∈ body, c ≠ 0) : dockerFetch env curl available socket query = .ok body := by
  obtain ⟨path, blocks, hsocket, hperform, rfl⟩ := hanswers
  obtain ⟨mem, hcollect⟩ := exists_collect havailable blocks (dockerInit available)
  have hterminated : mem.Terminated (delivered blocks) := by
    cases blocks with
    | nil => exact absurd rfl hne
    | cons block blocks =>
      have hcollect' := hcollect
      rw [collect] at hcollect'
      obtain ⟨⟨realsize, mem₁⟩, hcall, hrest⟩ := Except.bind_eq_ok.1 hcollect'
      exact collect_terminated (writeMemoryCallback_terminated dockerInit_has hcall) hrest
  have hread : readMemory (mem.memory.getD []) = .ok (delivered blocks) := by
    rw [readMemory, hterminated.holds.readable, List.takeWhile_eq_self_iff.2]
    exact fun c hc => decide_eq_true (hbody c hc)
  have hmemory : mem.memory = some (mem.memory.getD []) := by
    rw [hterminated]
    rfl
  rw [dockerFetch, hsocket]
  simp only [hstarted, not_true_eq_false, if_false, dockerUrl_eq havailable, Except.ok_bind,
    hperform, hcollect, ne_eq]
  rw [hmemory]
  exact hread

end Replies

/-! ### The list of the containers -/

/-- An object with a member of this name, whose value is a string; the name stands nowhere else in
it. -/
def NamesItself (name : CString) (v : Json) (s : CString) : Prop :=
  (∃ ws members str, v = .object ws members ∧ .string str ∈ members.valuesOf name ∧
    str.bytes = s) ∧
  v.tokens.count ⟨.string, name⟩ = 1

/-- A reply that lists containers, with the identifier of each. -/
structure IdReply extends Reply where
  ws : Ws
  items : Items
  ids : List CString
  value_eq : value = .array ws items
  containers : List.Forall₂ (NamesItself (ascii "Id")) items.values ids

/-- The search goes on behind an element that it finds something in. -/
lemma stringsBehind_namesItself {name : CString} {v : Json} {s : CString}
    (h : NamesItself name v s) (ys : List Token) :
    stringsBehind name (v.tokens ++ ys) = (stringsBehind name ys).map (s :: ·) := by
  obtain ⟨⟨ws, members, str, rfl, hmem, rfl⟩, hone⟩ := h
  obtain ⟨A, B, hAB⟩ := members.tokens_of_mem_valuesOf hmem
  rw [Json.tokens, hAB, ← List.cons_append] at hone ⊢
  rw [List.count_append, List.count_cons_self] at hone
  have hA : (⟨.object, (Json.object ws members).render⟩ :: A).count ⟨.string, name⟩ = 0 := by
    omega
  have hB : (⟨.string, str.bytes⟩ :: B).count ⟨.string, name⟩ = 0 := by omega
  rw [List.append_assoc, stringsBehind_append hA, List.cons_append, List.cons_append,
    stringsBehind_cons_self, ← List.cons_append, stringsBehind_append hB]

lemma stringsBehind_items_namesItself {name : CString} (items : Items) {ids : List CString}
    (h : List.Forall₂ (NamesItself name) items.values ids) :
    stringsBehind name items.tokens = some ids := by
  match items with
  | .nil =>
    cases h
    rfl
  | .cons before v after rest =>
    obtain ⟨id, ids, hv, hrest, rfl⟩ := List.forall₂_cons_left_iff.1 h
    rw [Items.tokens, stringsBehind_namesItself hv, stringsBehind_items_namesItself rest hrest]
    rfl

namespace IdReply

variable (r : IdReply)

lemma tokens_tail : r.value.tokens.tail = r.items.tokens := by
  rw [r.value_eq]
  rfl

lemma length_ids_lt : r.ids.length < 2 ^ 31 := by
  rw [length_stringsBehind (stringsBehind_items_namesItself r.items r.containers),
    ← r.tokens_tail]
  refine lt_of_le_of_lt List.count_le_length (lt_of_le_of_lt ?_ r.length_tokens)
  rw [List.length_tail]
  exact Nat.sub_le _ _

/-- The table of the identifiers. -/
lemma dockerJsonParserSearch_ids :
    dockerJsonParserSearch r.text (ascii "Id") id 1
      = .ok (some (ofTally (Tally.ones r.ids))) := by
  obtain ⟨tokens, htokenise, hspells⟩ := jsonTokenise_document r.toDocument
  have htail : List.Forall₂ (JsmnTok.Spells r.text) tokens.tail r.value.tokens.tail := by
    simpa only [List.drop_one] using List.forall₂_drop 1 hspells
  have hbehind := stringsBehind_items_namesItself r.items r.containers
  have hlength := r.length_ids_lt
  have hputs : putAll counterCreate (r.ids.map fun v => (id v, 1))
      = ofTally (Tally.ones r.ids) := by
    rw [putAll_eq_ofTally _ (by rw [List.length_map]; omega)]
    simp [amounts, Tally.ones, Function.comp_def]
  rw [dockerJsonParserSearch, htokenise, Except.ok_bind]
  simp only [searchLoop_spells id 1 htail counterCreate, r.tokens_tail, hbehind, hputs]
  rfl

/-- The identifiers, each once, in the order in which they are first listed. -/
def distinctIds : List CString := Tally.keys (Tally.ones r.ids)

/-- The loop runs over them. -/
lemma keys_ids :
    (ofTally (Tally.ones r.ids)).keys.take (ofTally (Tally.ones r.ids)).uniq.toNat
      = r.distinctIds.map some := by
  have hlength : (Tally.keys (Tally.ones r.ids)).length < 2 ^ 31 := by
    refine lt_of_le_of_lt (Tally.length_keys_le _) ?_
    simpa [Tally.ones] using r.length_ids_lt
  simp only [ofTally, distinctIds, toNat_ofNat_of_lt hlength]
  split_ifs with hnil
  · simp [hnil]
  · rw [← List.length_map some, List.take_length]

end IdReply

/-! ### The statistics of a container -/

/-- `.memory_stats.usage` -/
def usagePath : PathOf where
  object := ascii "memory_stats"
  label := ascii "usage"
  object_ne_nil := by simp [ascii]
  label_ne_nil := by simp [ascii]
  dot_not_mem_object := by decide +kernel
  dot_not_mem_label := by decide +kernel
  distinct := by decide +kernel

/-- The members `usage` of the values of `memory_stats`. -/
def usages (v : Json) : List Json :=
  (v.membersOf usagePath.object usagePath.label 0).map Prod.snd

/-- A reply with the statistics of a container: the bytes in use are a number that a `double` holds,
and it follows the first string `usage` behind a string `memory_stats`. -/
structure StatsReply extends Document where
  usage : ℕ
  usage_lt : usage < 2 ^ 53
  usages_ne_nil : usages value ≠ []
  text_usages : ∀ v ∈ usages value, v.text = decimal usage
  first : ∀ n, IsLeast {n | Behind usagePath.object usagePath.label value.tokens n} n →
    value.tokens[n + 1]?.map Token.text = some (decimal usage)

lemma StatsReply.jsonSearch_usage (r : StatsReply) :
    jsonSearch r.text (ascii ".memory_stats.usage") none = .ok (0, some (decimal r.usage)) := by
  obtain ⟨i, -, hleast, hsearch⟩ := jsonSearch_document r.toDocument usagePath
  obtain ⟨v, hv⟩ := List.exists_mem_of_ne_nil _ r.usages_ne_nil
  obtain ⟨m, hm, -⟩ := List.mem_map.1 hv
  obtain ⟨n, hn⟩ := exists_isLeast_behind (Json.memberAt_of_mem r.value hm).behind
  have hi := (hleast n).2 hn
  obtain ⟨x, hx, htext⟩ := Option.map_eq_some_iff.1 (r.first n hn)
  have hfound := hsearch none
  rw [hi] at hfound
  simp only [hx, htext] at hfound
  exact hfound

/-- A whole number that a `double` holds is read. -/
lemma readsNumber_decimal {n : ℕ} (hn : n < 2 ^ 53) : ReadsNumber (decimal n) (.fin n) [] := by
  let d : Decimal := ⟨.none, decimal n, none, none, by simpa using isdigit_of_mem_decimal n,
    by simpa using decimal_ne_nil n⟩
  have hrender : d.render = decimal n := by
    simp [d, Decimal.render, Decimal.renderUnsigned, Decimal.renderExponent, Sign.render]
  have hvalue : d.value = n := by
    simp [d, Decimal.value, Decimal.scale, Sign.apply]
  have hends : EndsNumeral [] := by
    intro c hc
    cases hc
  have hread := d.strtod_render hends
  rw [hrender, hvalue, List.append_nil] at hread
  refine ⟨hread, (decimal_ne_nil n).symm, ?_⟩
  have hcast : (n : ℚ) < 2 ^ 53 := by exact_mod_cast hn
  have habs : |(n : ℚ)| = n := abs_of_nonneg (Nat.cast_nonneg n)
  have hsmall : ¬ (2 : ℚ) ^ 1024 - 2 ^ 970 ≤ |(n : ℚ)| := by
    have hone : (1 : ℚ) ≤ 2 ^ 970 := one_le_pow₀ (by norm_num)
    have hpow : (2 : ℚ) ^ 1024 = 2 ^ 970 * 2 ^ 54 := pow_add 2 970 54
    rw [habs, not_le, hpow]
    calc (n : ℚ) < 2 ^ 53 := hcast
      _ ≤ 2 ^ 54 - 1 := by norm_num
      _ ≤ 2 ^ 970 * (2 ^ 54 - 1) := le_mul_of_one_le_left (by norm_num) hone
      _ = 2 ^ 970 * 2 ^ 54 - 2 ^ 970 := mul_sub_one _ _
  have hden : ((n : ℚ) * 2 ^ 1074).den = 1 := by
    have hint : ((n * 2 ^ 1074 : ℕ) : ℚ) = (n : ℚ) * 2 ^ 1074 := by
      rw [Nat.cast_mul, Nat.cast_pow, Nat.cast_ofNat]
    rw [← hint, Rat.den_natCast]
  rw [Double.rangeError, decide_eq_false_iff_not]
  rintro (h | ⟨-, h⟩)
  · exact hsmall h
  · exact h hden

/-- How the conversion ends at a number that another byte follows in memory. -/
def trailingStop (n : ℕ) (c : UInt8) : Stop :=
  .pluginError .unknown ("failed to convert container memory value: "
    ++ text (ascii "invalid trailing character `" ++ c :: ascii "' in `" ++ decimal n
      ++ ascii "'"))

section Loop

variable {env : DockerEnv} {curl : Curl} {available : ℕ → Bool} {unspecified : Double → Int64}
  {heap : CString → ℕ → UInt8} {socket : Option CString}

lemma scaledResult_natCast {n : ℕ} (hn : n < 2 ^ 53) :
    scaledResult unspecified Double.natMul (.fin n) 1 = Int64.ofNat n := by
  have hlt : (n : ℚ) < 2 ^ 63 := by
    have hcast : (n : ℚ) < 2 ^ 53 := by exact_mod_cast hn
    exact hcast.trans (by norm_num)
  have hnonneg : (0 : ℚ) ≤ n := Nat.cast_nonneg _
  have hrange : -2 ^ 63 - 1 < (n : ℚ) ∧ (n : ℚ) < 2 ^ 63 := ⟨by linarith, hlt⟩
  have hmul : (Double.fin n).natMul 1 = .fin n := by
    rw [Double.natMul, Nat.cast_one, one_mul]
  rw [scaledResult, hmul, Double.toInt64?, if_pos hrange, Option.getD_some, Double.truncate,
    if_neg (not_lt.2 hnonneg), Int.floor_natCast]
  rfl

/-- A number is converted, whatever is behind it; the byte after its end decides on success. -/
lemma sizetollint_decimal {n : ℕ} (hn : n < 2 ^ 53) (following : ℕ → UInt8) (memory : Int64) :
    sizetollint unspecified (some (.ofBytes (decimal n) following)) memory none
      = if following 0 = 0 then ⟨0, Int64.ofNat n, none⟩
        else ⟨-1, Int64.ofNat n, some (ascii "invalid trailing character `"
          ++ following 0 :: ascii "' in `" ++ decimal n ++ ascii "'")⟩ := by
  have hzero : (0 : UInt8) ∉ decimal n := by
    intro h
    have hdigit := isdigit_of_mem_decimal n 0 h
    revert hdigit
    decide
  let s := Stored.ofBytes (decimal n) following
  have htext : s.text = decimal n := Stored.text_ofBytes hzero _
  have hreads : ReadsNumber s.text (.fin n) [] := htext ▸ readsNumber_decimal hn
  obtain ⟨hsuffix, hbehind⟩ := hreads.bytes
  have hscaled : scaledResult unspecified Double.natMul (.fin n) 1 = Int64.ofNat n :=
    scaledResult_natCast hn
  have hfactor : sizeFactor 0 = some 1 := rfl
  have hfollowing : byteBehind s [] = following 0 := rfl
  rw [sizetollint, strtollint_of_reads _ memory none hreads, hsuffix, hbehind, htext, hfollowing]
  simp only [sizemultiplier, multiplier, List.head?_nil, Option.getD_none, hfactor]
  by_cases hnul : following 0 = 0
  · simp only [hnul, if_true, ne_eq, not_true_eq_false, if_false, ← hscaled]
    rfl
  · simp only [hnul, ne_eq, not_false_eq_true, if_true, if_false, ← hscaled]
    rfl

/-- The number of bytes is found unless there is something behind it in memory. -/
lemma dockerContainerMemory_eq (havailable : ∀ n, available n) (hstarted : curl.started)
    {id : CString} {r : StatsReply} (hanswers : Answers env curl socket (.statsJson id) r.text)
    (memory : Int64) :
    dockerContainerMemory env curl available unspecified heap socket id memory
      = if heap id 0 = 0 then .ok (Int64.ofNat r.usage)
        else .error (trailingStop r.usage (heap id 0)) := by
  have hfetch := dockerFetch_eq havailable hstarted hanswers r.text_ne_nil r.ne_zero
  rw [dockerContainerMemory, hfetch, Except.ok_bind, r.jsonSearch_usage, Except.ok_bind]
  simp only [Option.map_some]
  rw [sizetollint_decimal r.usage_lt]
  by_cases hnul : heap id 0 = 0
  · rw [if_pos hnul, if_pos hnul]
    rfl
  · rw [if_neg hnul, if_neg hnul]
    rfl

/-- The loop adds up the kilobytes of every container, up to the first that is not converted. -/
lemma memoryLoop_eq (havailable : ∀ n, available n) (hstarted : curl.started)
    {stats : CString → StatsReply} {ids : List CString}
    (hstats : ∀ id ∈ ids, Answers env curl socket (.statsJson id) (stats id).text)
    (memoryUsage : Int64) (memory : UInt64) :
    memoryLoop env curl available unspecified heap socket (ids.map some) memoryUsage memory
      = match ids.find? fun id => heap id 0 ≠ 0 with
        | some id => .error (trailingStop (stats id).usage (heap id 0))
        | none => .ok (memory + UInt64.ofNat (ids.map fun id => (stats id).usage / 1024).sum) := by
  induction ids generalizing memoryUsage memory with
  | nil => simp [memoryLoop]
  | cons id ids ih =>
    rw [List.forall_mem_cons] at hstats
    rw [List.map_cons, memoryLoop, dockerContainerMemory_eq havailable hstarted hstats.1]
    by_cases hnul : heap id 0 = 0
    · have hshift : (Int64.ofNat (stats id).usage).toUInt64 >>> 10
          = UInt64.ofNat ((stats id).usage / 1024) := by
        have hlt : (stats id).usage < 2 ^ 64 := (stats id).usage_lt.trans (by norm_num)
        have hdiv : (stats id).usage / 1024 < 2 ^ 64 := (Nat.div_le_self _ _).trans_lt hlt
        have hcast : (Int64.ofNat (stats id).usage).toUInt64 = UInt64.ofNat (stats id).usage := rfl
        rw [← UInt64.toNat_inj, hcast, UInt64.toNat_shiftRight, UInt64.toNat_ofNat_of_lt' hlt,
          UInt64.toNat_ofNat_of_lt' hdiv]
        exact Nat.shiftRight_eq_div_pow _ 10
      rw [if_pos hnul, Except.ok_bind, ih hstats.2, hshift,
        List.find?_cons_of_neg (by simp [hnul])]
      cases ids.find? fun id => heap id 0 ≠ 0 with
      | some id => rfl
      | none => rw [List.map_cons, List.sum_cons, UInt64.ofNat_add, UInt64.add_assoc]
    · rw [if_neg hnul, List.find?_cons_of_pos (by simp [hnul])]
      rfl

end Loop

/-- The plugin adds up the memory of all containers, in kilobytes, as long as nothing follows the
numbers in memory. The first number that is followed by another byte ends it. -/
theorem checkContainer_memory {env : DockerEnv} {curl : Curl} {available : ℕ → Bool}
    {unspecified : Double → Int64} {heap : CString → ℕ → UInt8} {options : ContainerOptions}
    (hmemory : options.checkMemory) (himage : options.image = none)
    (havailable : ∀ n, available n) (hstarted : curl.started) {r : IdReply}
    (hlist : Answers env curl options.socket .containersJson r.text)
    {stats : CString → StatsReply}
    (hstats : ∀ id ∈ r.ids, Answers env curl options.socket (.statsJson id) (stats id).text)
    {status : ℕ} {myThreshold : Thresholds}
    (hthreshold : setThresholdsRounded none options.warning options.critical
      = (status, some myThreshold))
    (hstatus : status ≠ npRangeUnparseable) (memoryUsage : Int64) :
    checkContainer env curl available unspecified heap options memoryUsage
      = match r.distinctIds.find? fun id => heap id 0 ≠ 0 with
        | some id => .error (trailingStop (stats id).usage (heap id 0))
        | none =>
          let total := UInt64.ofNat (r.distinctIds.map fun id => (stats id).usage / 1024).sum
          let used := unitConvert total options.shift
          .ok (some (.memory (getStatus (.ofUInt64 used) myThreshold) used)) := by
  have hdistinct : ∀ id ∈ r.distinctIds,
      Answers env curl options.socket (.statsJson id) (stats id).text :=
    fun id hid => hstats id (Tally.mem_keys_ones.1 hid)
  have htotal : dockerRunningContainersMemory env curl available unspecified heap options.socket
      memoryUsage
        = match r.distinctIds.find? fun id => heap id 0 ≠ 0 with
          | some id => .error (trailingStop (stats id).usage (heap id 0))
          | none =>
            .ok (UInt64.ofNat (r.distinctIds.map fun id => (stats id).usage / 1024).sum) := by
    rw [dockerRunningContainersMemory,
      dockerFetch_eq havailable hstarted hlist r.text_ne_nil r.ne_zero, Except.ok_bind,
      r.dockerJsonParserSearch_ids, Except.ok_bind]
    simp only [r.keys_ids, memoryLoop_eq havailable hstarted hdistinct, UInt64.zero_add]
  rw [checkContainer, hthreshold]
  simp only [hmemory, himage, hstatus, htotal]
  cases r.distinctIds.find? fun id => heap id 0 ≠ 0 with
  | some id => rfl
  | none => rfl

/-! ### Two containers -/

/-- A container with nothing but its identifier. -/
def onlyId (id : Str) : Json :=
  .object .none (.cons .none ⟨ascii "Id", .of_plain (by decide +kernel)⟩ .none .none (.string id)
    .none .nil)

def idA : Str := ⟨ascii "8dfa", .of_plain (by decide +kernel)⟩

def idB : Str := ⟨ascii "9cd8", .of_plain (by decide +kernel)⟩

lemma onlyId_namesItself {id : Str} (h : id.bytes ≠ ascii "Id") :
    NamesItself (ascii "Id") (onlyId id) id.bytes := by
  refine ⟨⟨_, _, id, rfl, ?_, rfl⟩, ?_⟩
  · rw [Members.valuesOf, if_pos rfl]
    exact List.mem_cons_self
  · simp [onlyId, Json.tokens, Members.tokens, h]

def twoIds : IdReply where
  before := .none
  value := .array .none (.cons .none (onlyId idA) .none (.cons .none (onlyId idB) .none .nil))
  after := .none
  fits := by decide +kernel
  ws := .none
  items := .cons .none (onlyId idA) .none (.cons .none (onlyId idB) .none .nil)
  ids := [idA.bytes, idB.bytes]
  value_eq := rfl
  containers := .cons (onlyId_namesItself (by decide)) (.cons (onlyId_namesItself (by decide)) .nil)

def fourKilobytesJson : Json :=
  .object .none (.cons .none ⟨ascii "memory_stats", .of_plain (by decide +kernel)⟩ .none .none
    (.object .none (.cons .none ⟨ascii "usage", .of_plain (by decide +kernel)⟩ .none .none
      (.literal ⟨ascii "4096", by simp [ascii], by decide +kernel⟩) .none .nil)) .none .nil)

/-- Four kilobytes are in use. -/
def fourKilobytes : StatsReply where
  before := .none
  value := fourKilobytesJson
  after := .none
  usage := 4096
  usage_lt := by norm_num
  usages_ne_nil := List.cons_ne_nil _ _
  text_usages v hv := by
    rw [List.mem_singleton.1 hv]
    rfl
  first n hn := by
    obtain ⟨⟨hlabel, -⟩, -⟩ := hn
    -- the only string `usage` is the fourth token
    have hfour : n = 3 := by
      rcases n with _ | _ | _ | _ | _ | n
      · cases hlabel
      · cases hlabel
      · cases hlabel
      · rfl
      · cases hlabel
      · cases hlabel
    rw [hfour]
    rfl

def blockOf (contents : List UInt8) : Block := ⟨contents, 1, contents.length, (one_mul _).symm⟩

/-- The API sends the list of the containers in two blocks. -/
def twoContainers : Curl where
  started := true
  perform _ url :=
    if url = urlOf ⟨none, none⟩ .containersJson then
      (curleOk, [blockOf (twoIds.text.take 5), blockOf (twoIds.text.drop 5)])
    else (curleOk, [blockOf fourKilobytes.text])
  strerror _ := "an error"

theorem checkContainer_memory_two :
    checkContainer ⟨none, none⟩ twoContainers (fun _ => true) (fun _ => 0) (fun _ _ => 0)
        ⟨none, some (ascii "/run/docker.sock"), true, .kShift, none, none⟩ 0
      = .ok (some (.memory .ok 8)) := by
  have hlist : Answers ⟨none, none⟩ twoContainers (some (ascii "/run/docker.sock"))
      .containersJson twoIds.text := by
    refine ⟨_, [blockOf (twoIds.text.take 5), blockOf (twoIds.text.drop 5)], rfl, ?_, ?_⟩
    · simp only [twoContainers, if_true]
    · simp [delivered, blockOf]
  have hstats : ∀ id ∈ twoIds.ids, Answers ⟨none, none⟩ twoContainers
      (some (ascii "/run/docker.sock")) (.statsJson id) fourKilobytes.text := by
    intro id hid
    have hurl : urlOf ⟨none, none⟩ (.statsJson id) ≠ urlOf ⟨none, none⟩ .containersJson := by
      revert id
      decide +kernel
    refine ⟨_, [blockOf fourKilobytes.text], rfl, ?_, ?_⟩
    · simp only [twoContainers, hurl, if_false]
    · simp [delivered, blockOf]
  refine (checkContainer_memory rfl rfl (fun _ => rfl) rfl hlist hstats rfl (by decide) 0).trans ?_
  rfl

end NagiosPlugins
