import NagiosPlugins.Container.Search

/-!
# Counting containers

What `check_container` reports for the replies of the API: the counts by image, the count of
one image, and what becomes of a reply that is no JSON.
-/

namespace NagiosPlugins

open Libc JsonText

/-- The value of the first entry `containers_name`, 0 if there is none. -/
def valueOf (entries : List PerfEntry) (name : CString) : ℕ :=
  ((entries.find? fun e => e.label = ascii "containers_" ++ name).map PerfEntry.value).getD 0

lemma valueOf_cons (name' : CString) (n : ℕ) (entries : List PerfEntry) (name : CString) :
    valueOf (containersEntry name' n :: entries) name
      = if name' = name then n else valueOf entries name := by
  by_cases h : name' = name <;> simp [valueOf, containersEntry, h]

lemma valueOf_map (f : CString → ℕ) (ks : List CString) (entries : List PerfEntry)
    (name : CString) :
    valueOf ((ks.map fun k => containersEntry k (f k)) ++ entries) name
      = if name ∈ ks then f name else valueOf entries name := by
  induction ks with
  | nil => simp
  | cons k ks ih =>
    rw [List.map_cons, List.cons_append, valueOf_cons, ih]
    by_cases h : k = name
    · simp [h]
    · simp [h, Ne.symm h]

/-! ### Container lists -/

/-- The string that the search looks for. -/
abbrev imageToken : Token := ⟨.string, ascii "Image"⟩

/-- An object with one direct member `Image`, whose value is the string `image`. -/
def IsContainer (v : Json) (image : CString) : Prop :=
  ∃ ws members s, v = .object ws members ∧
    members.valuesOf (ascii "Image") = [.string s] ∧ s.bytes = image

/-- A reply that lists containers, with the image of each. -/
structure ContainerReply extends Reply where
  ws : Ws
  items : Items
  images : List CString
  value_eq : value = .array ws items
  containers : List.Forall₂ IsContainer items.values images

/-- Around its image, a container has tokens of any kind. -/
lemma IsContainer.tokens_eq {v : Json} {image : CString} (h : IsContainer v image) :
    ∃ A B, v.tokens = A ++ imageToken :: ⟨.string, image⟩ :: B := by
  obtain ⟨ws, members, s, rfl, hvalues, rfl⟩ := h
  obtain ⟨A, B, hAB⟩ := members.tokens_of_mem_valuesOf (s := s) (by rw [hvalues]; simp)
  refine ⟨⟨.object, (Json.object ws members).render⟩ :: A, B, ?_⟩
  rw [Json.tokens, hAB, List.cons_append]

/-- Every container has the string `Image`; there are as many as containers only if each has it
once. -/
lemma count_imageToken (items : Items) {images : List CString}
    (h : List.Forall₂ IsContainer items.values images) :
    images.length ≤ items.tokens.count imageToken ∧
      (items.tokens.count imageToken = images.length ↔
        ∀ v ∈ items.values, v.tokens.count imageToken = 1) := by
  match items with
  | .nil =>
    cases h
    simp [Items.tokens, Items.values]
  | .cons before v after rest =>
    obtain ⟨image, images, hv, hrest, rfl⟩ := List.forall₂_cons_left_iff.1 h
    obtain ⟨hle, hiff⟩ := count_imageToken rest hrest
    obtain ⟨A, B, hAB⟩ := hv.tokens_eq
    have hpos : 1 ≤ v.tokens.count imageToken := by
      rw [List.one_le_count_iff, hAB]
      simp
    simp only [Items.tokens, Items.values, List.count_append, List.length_cons,
      List.forall_mem_cons, ← hiff]
    omega

/-- When no container has the string `Image` twice, the search finds the images. -/
lemma stringsBehind_items (items : Items) {images : List CString}
    (h : List.Forall₂ IsContainer items.values images)
    (hone : ∀ v ∈ items.values, v.tokens.count imageToken = 1) :
    stringsBehind (ascii "Image") items.tokens = some images := by
  match items with
  | .nil =>
    cases h
    rfl
  | .cons before v after rest =>
    obtain ⟨image, images, hv, hrest, rfl⟩ := List.forall₂_cons_left_iff.1 h
    rw [Items.values, List.forall_mem_cons] at hone
    have ih := stringsBehind_items rest hrest hone.2
    obtain ⟨A, B, hAB⟩ := hv.tokens_eq
    have hcount := hone.1
    rw [hAB, List.count_append, List.count_cons_self] at hcount
    have hA : A.count imageToken = 0 := by omega
    have hB : (⟨.string, image⟩ :: B : List Token).count imageToken = 0 := by omega
    have hrestB : stringsBehind (ascii "Image") (⟨.string, image⟩ :: (B ++ rest.tokens))
        = some images := by
      rw [← List.cons_append, stringsBehind_append hB, ih]
    rw [Items.tokens, hAB, List.append_assoc, stringsBehind_append hA, List.cons_append,
      List.cons_append, stringsBehind_cons_self, hrestB]
    rfl

namespace ContainerReply

variable (r : ContainerReply)

/-- The reply is reported as it should be: in front of the total, the entry of every short name
has the number of containers with such an image. -/
def Counted : Prop :=
  ∃ count entries, dockerRunningContainers r.text none
      = .ok (count, entries ++ [containersEntry (ascii "total") r.images.length]) ∧
    count.toNat = r.images.length ∧
    ∀ s, valueOf entries s = (r.images.map imageShortname).count s

lemma tokens_tail : r.value.tokens.tail = r.items.tokens := by
  rw [r.value_eq]
  rfl

/-- The containers are counted exactly if none has the string `Image` a second time, as a name
or as a value at any depth. -/
theorem counted_iff :
    r.Counted ↔ ∀ v ∈ r.items.values, v.tokens.count ⟨.string, ascii "Image"⟩ = 1 := by
  constructor
  · rintro ⟨count, entries, hrun, hcount, -⟩
    cases hnames : r.shortnames with
    | none =>
      rw [Reply.dockerRunningContainers_outOfBounds hnames] at hrun
      cases hrun
    | some names =>
      rw [Reply.dockerRunningContainers_none hnames] at hrun
      have hlen := Reply.length_shortnames_lt hnames
      have hnat : names.length = r.images.length := by
        have hfst : UInt32.ofNat names.length = count := congrArg Prod.fst (Except.ok.inj hrun)
        rw [← hcount, ← hfst]
        exact (toNat_ofNat_of_lt hlen).symm
      rw [Reply.length_shortnames hnames, tokens_tail] at hnat
      exact (count_imageToken r.items r.containers).2.1 hnat
  · intro hone
    have hnames : r.shortnames = some (r.images.map imageShortname) := by
      rw [Reply.shortnames, tokens_tail, stringsBehind_items r.items r.containers hone]
      rfl
    have hlen := Reply.length_shortnames_lt hnames
    have hrun := Reply.dockerRunningContainers_none hnames
    rw [List.length_map] at hlen hrun
    refine ⟨_, _, hrun, toNat_ofNat_of_lt hlen, ?_⟩
    intro s
    have hvalue := valueOf_map (r.images.map imageShortname).count
      (Tally.keys (Tally.ones (r.images.map imageShortname))) [] s
    rw [List.append_nil] at hvalue
    rw [hvalue]
    split_ifs with hs
    · rfl
    · rw [Tally.mem_keys_ones] at hs
      exact (List.count_eq_zero.2 hs).symm

end ContainerReply

/-- A container with a label that is called `Image`, too. -/
def labelledReply : ContainerReply :=
  let name : Str := ⟨ascii "Image", .of_plain (by decide +kernel)⟩
  let image : Str := ⟨ascii "nginx", .of_plain (by decide +kernel)⟩
  let labels : Str := ⟨ascii "Labels", .of_plain (by decide +kernel)⟩
  let label : Str := ⟨ascii "x", .of_plain (by decide +kernel)⟩
  let items : Items := .cons .none (.object .none
    (.cons .none name .none .none (.string image) .none
      (.cons .none labels .none .none (.object .none
        (.cons .none name .none .none (.string label) .none .nil)) .none .nil))) .none .nil
  { before := .none
    value := .array .none items
    after := .none
    fits := by decide
    ws := .none
    items
    images := [image.bytes]
    value_eq := rfl
    containers := .cons ⟨_, _, image, rfl, rfl, rfl⟩ .nil }

theorem labelledReply_not_counted :
    labelledReply.text = ascii "[\x7b\"Image\":\"nginx\",\"Labels\":\x7b\"Image\":\"x\"\x7d\x7d]" ∧
      ¬ labelledReply.Counted := by
  refine ⟨rfl, ?_⟩
  rintro ⟨count, entries, hrun, hcount, -⟩
  have htwo : dockerRunningContainers labelledReply.text none
      = .ok (2, [containersEntry (ascii "nginx") 1, containersEntry (ascii "x") 1,
          containersEntry (ascii "total") 2]) := rfl
  rw [htwo] at hrun
  have hfst : 2 = count := congrArg Prod.fst (Except.ok.inj hrun)
  rw [← hfst] at hcount
  exact absurd hcount (by decide)

/-! ### The count of one image -/

/-- Counting the containers of one image gives the value that the list of all images has for the
short name of that image. -/
def FilterAgrees (r : Reply) (image : CString) : Prop :=
  ∃ count entry total entries,
    dockerRunningContainers r.text (some image) = .ok (count, [entry]) ∧
    dockerRunningContainers r.text none = .ok (total, entries) ∧
    entry.label = ascii "containers_" ++ imageShortname image ∧
    count.toNat = valueOf entries (imageShortname image)

lemma count_eq_zero_of_slash {names : List CString} (hslash : ∀ k ∈ names, ('/' : UInt8) ∉ k)
    {image : CString} (h : ('/' : UInt8) ∈ image) : names.count image = 0 := by
  apply List.count_eq_zero.2
  intro hmem
  exact hslash image hmem h

/-- The counts agree exactly if an image that is there is asked for without a prefix, and the
label of an image that is not there is not that of the total. -/
theorem filterAgrees_iff (r : Reply) (image : CString) :
    FilterAgrees r image ↔ ∃ names, r.shortnames = some names ∧
      (imageShortname image ∈ names → ('/' : UInt8) ∉ image) ∧
      (imageShortname image ∉ names → imageShortname image = ascii "total" → names = []) := by
  cases hnames : r.shortnames with
  | none =>
    refine iff_of_false ?_ (by simp)
    rintro ⟨count, entry, total, entries, hrun, -⟩
    rw [Reply.dockerRunningContainers_outOfBounds hnames] at hrun
    cases hrun
  | some names =>
    have hlen := Reply.length_shortnames_lt hnames
    have hslash := Reply.slash_not_mem_of_shortnames hnames
    have hcount : (UInt32.ofNat (names.count image)).toNat = names.count image :=
      toNat_ofNat_of_lt (lt_of_le_of_lt List.count_le_length hlen)
    have hprinted : valueOf
        ((Tally.keys (Tally.ones names)).map (fun k => containersEntry k (names.count k))
          ++ [containersEntry (ascii "total") names.length]) (imageShortname image)
        = if imageShortname image ∈ names then names.count (imageShortname image)
          else if ascii "total" = imageShortname image then names.length else 0 := by
      rw [valueOf_map, valueOf_cons]
      simp only [Tally.mem_keys_ones]
      rfl
    have hagrees : FilterAgrees r image ↔ names.count image
        = if imageShortname image ∈ names then names.count (imageShortname image)
          else if ascii "total" = imageShortname image then names.length else 0 := by
      rw [← hprinted, ← hcount]
      constructor
      · rintro ⟨count, entry, total, entries, hsome, hnone, -, hvalue⟩
        rw [Reply.dockerRunningContainers_some hnames] at hsome
        rw [Reply.dockerRunningContainers_none hnames] at hnone
        cases Except.ok.inj hsome
        cases Except.ok.inj hnone
        exact hvalue
      · intro hvalue
        exact ⟨_, _, _, _, Reply.dockerRunningContainers_some hnames image,
          Reply.dockerRunningContainers_none hnames, rfl, hvalue⟩
    have hsome : (∃ names', some names = some names' ∧
        (imageShortname image ∈ names' → ('/' : UInt8) ∉ image) ∧
        (imageShortname image ∉ names' → imageShortname image = ascii "total" → names' = []))
        ↔ (imageShortname image ∈ names → ('/' : UInt8) ∉ image) ∧
          (imageShortname image ∉ names → imageShortname image = ascii "total" → names = []) := by
      simp
    rw [hagrees, hsome]
    by_cases hmem : imageShortname image ∈ names
    · simp only [hmem, if_true, forall_const, not_true_eq_false, false_implies, and_true]
      constructor
      · intro hcounts hprefix
        rw [count_eq_zero_of_slash hslash hprefix] at hcounts
        exact List.count_eq_zero.1 hcounts.symm hmem
      · intro hprefix
        rw [imageShortname_of_not_mem hprefix]
    · have hzero : names.count image = 0 := by
        by_cases hprefix : ('/' : UInt8) ∈ image
        · exact count_eq_zero_of_slash hslash hprefix
        · rw [imageShortname_of_not_mem hprefix] at hmem
          exact List.count_eq_zero.2 hmem
      simp only [hmem, if_false, hzero, false_implies, true_and, not_false_eq_true, forall_const]
      split_ifs with htotal
      · rw [eq_comm, List.length_eq_zero_iff]
        exact ⟨fun h _ => h, fun h => h htotal.symm⟩
      · exact ⟨fun _ h => absurd h.symm htotal, fun _ => rfl⟩

/-- A container whose image is spelled with a prefix. -/
def prefixedReply : Reply :=
  let name : Str := ⟨ascii "Image", .of_plain (by decide +kernel)⟩
  let image : Str := ⟨ascii "prom/prometheus", .of_plain (by decide +kernel)⟩
  { before := .none
    value := .array .none (.cons .none
      (.object .none (.cons .none name .none .none (.string image) .none .nil)) .none .nil)
    after := .none
    fits := by decide }

theorem prefixed_image_not_agrees :
    prefixedReply.text = ascii "[\x7b\"Image\":\"prom/prometheus\"\x7d]" ∧
      ¬ FilterAgrees prefixedReply (ascii "prom/prometheus") := by
  refine ⟨rfl, ?_⟩
  rintro ⟨count, entry, total, entries, hsome, hnone, -, hvalue⟩
  have hzero : dockerRunningContainers prefixedReply.text (some (ascii "prom/prometheus"))
      = .ok (0, [containersEntry (ascii "prometheus") 0]) := rfl
  have hone : dockerRunningContainers prefixedReply.text none = .ok (1,
      [containersEntry (ascii "prometheus") 1, containersEntry (ascii "total") 1]) := rfl
  rw [hzero] at hsome
  rw [hone] at hnone
  cases Except.ok.inj hsome
  cases Except.ok.inj hnone
  exact absurd hvalue (by decide)

/-! ### Replies that cannot be parsed -/

/-- No array of tokens makes the filling pass accept the text. -/
def FillingRejects (json : CString) : Prop := ∀ n, ∃ e, jsmnParse (some n) json = .error e

def CountingRejects (json : CString) : Prop := ∃ e, jsmnParse none json = .error e

/-- Both functions return NULL. -/
def ReportsUnparsable (json token : CString) (convert : CString → CString)
    (increment : UInt64) : Prop :=
  jsonTokenise json = .ok none ∧ dockerJsonParserSearch json token convert increment = .ok none

lemma jsonTokenise_of_countingRejects {json : CString} (h : CountingRejects json) :
    jsonTokenise json = .ok none := by
  obtain ⟨e, he⟩ := h
  rw [jsonTokenise, he]

lemma jsonTokenise_of_fillingRejects {json : CString} (h : FillingRejects json)
    (hcounting : ¬ CountingRejects json) : jsonTokenise json = .error .assertion := by
  cases hcount : jsmnParse none json with
  | error e => exact absurd ⟨e, hcount⟩ hcounting
  | ok rt =>
    obtain ⟨e, he⟩ := h rt.1
    simp only [jsonTokenise, hcount, he]

/-- NULL tokens are not noticed: the search reads the token count that was never set. -/
lemma dockerJsonParserSearch_of_none {json : CString} (h : jsonTokenise json = .ok none)
    (token : CString) (convert : CString → CString) (increment : UInt64) :
    dockerJsonParserSearch json token convert increment = .error .uninitialised := by
  rw [dockerJsonParserSearch, h]
  rfl

/-- A text that is no JSON is never reported. `json_tokenise` returns NULL only if the counting
pass, which does not match brackets, rejects the text as well; otherwise its assertion fails. -/
theorem fillingRejects_not_reported {json : CString} (h : FillingRejects json) (token : CString)
    (convert : CString → CString) (increment : UInt64) :
    ¬ ReportsUnparsable json token convert increment ∧
      (jsonTokenise json = .ok none ↔ CountingRejects json) ∧
      (jsonTokenise json = .error .assertion ↔ ¬ CountingRejects json) := by
  refine ⟨?_, ?_, ?_⟩
  · rintro ⟨htokenise, hsearch⟩
    rw [dockerJsonParserSearch_of_none htokenise] at hsearch
    cases hsearch
  · refine ⟨fun hnone => ?_, jsonTokenise_of_countingRejects⟩
    by_contra hcounting
    rw [jsonTokenise_of_fillingRejects h hcounting] at hnone
    cases hnone
  · refine ⟨fun hassert hcounting => ?_, jsonTokenise_of_fillingRejects h⟩
    rw [jsonTokenise_of_countingRejects hcounting] at hassert
    cases hassert

/-- A reply that was cut off in front of its last bracket. -/
def truncatedReply : CString := ascii "[\x7b\"Image\":\"nginx\"\x7d"

lemma truncatedReply_fillingRejects : FillingRejects truncatedReply := by
  intro n
  match n with
  | 0 => exact ⟨_, rfl⟩
  | 1 => exact ⟨_, rfl⟩
  | 2 => exact ⟨_, rfl⟩
  | 3 => exact ⟨_, rfl⟩
  | n + 4 => exact ⟨_, rfl⟩

theorem truncatedReply_assertion :
    jsonTokenise truncatedReply = .error .assertion ∧
      ¬ (FillingRejects truncatedReply →
        ReportsUnparsable truncatedReply (ascii "Image") imageShortname 1) := by
  have htokenise : jsonTokenise truncatedReply = .error .assertion := rfl
  refine ⟨htokenise, ?_⟩
  intro h
  obtain ⟨hnone, -⟩ := h truncatedReply_fillingRejects
  rw [htokenise] at hnone
  cases hnone

theorem truncatedReply_not_reported :
    ¬ ReportsUnparsable truncatedReply (ascii "Image") imageShortname 1 := by
  have h := fillingRejects_not_reported truncatedReply_fillingRejects (ascii "Image")
    imageShortname 1
  exact h.1

end NagiosPlugins
