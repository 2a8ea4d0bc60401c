import NagiosPlugins.Collection.Refinement
import NagiosPlugins.Container.Basic
import NagiosPlugins.Json.Documents

/-!
# The search for images in a reply

On a reply of the API the token search finds the string behind every string `Image`, at any
depth and whether that one is a name or a value. Both ways of counting the containers then have
a closed form.
-/

namespace NagiosPlugins

open Libc JsonText

/-- A reply of the API; the offsets of its tokens are ints. -/
structure Reply extends Document where
  fits : toDocument.text.length < 2 ^ 31

/-- The texts of the tokens behind the strings `name`, unless there is none behind one. -/
def stringsBehind (name : CString) : List Token → Option (List CString)
  | [] => some []
  | x :: xs =>
    if x = ⟨.string, name⟩ then
      match xs with
      | [] => none
      | y :: _ => (stringsBehind name xs).map (y.text :: ·)
    else stringsBehind name xs

/-! ### Strings behind a name -/

variable {name : CString} {xs ys : List Token}

lemma stringsBehind_cons_of_ne {x : Token} (hx : x ≠ ⟨.string, name⟩) :
    stringsBehind name (x :: xs) = stringsBehind name xs := by
  cases xs <;> simp [stringsBehind, hx]

lemma stringsBehind_cons_self (y : Token) :
    stringsBehind name (⟨.string, name⟩ :: y :: xs)
      = (stringsBehind name (y :: xs)).map (y.text :: ·) := by
  rw [stringsBehind, if_pos rfl]

lemma length_stringsBehind {vs : List CString} (h : stringsBehind name xs = some vs) :
    vs.length = xs.count ⟨.string, name⟩ := by
  induction xs generalizing vs with
  | nil =>
    cases h
    rfl
  | cons x xs ih =>
    by_cases hx : x = ⟨.string, name⟩
    · subst hx
      cases xs with
      | nil => simp [stringsBehind] at h
      | cons y xs =>
        rw [stringsBehind_cons_self] at h
        obtain ⟨us, hus, rfl⟩ := Option.map_eq_some_iff.1 h
        rw [List.length_cons, ih hus, List.count_cons_self]
    · rw [stringsBehind_cons_of_ne hx] at h
      rw [ih h, List.count_cons_of_ne hx]

lemma stringsBehind_append (hxs : xs.count ⟨.string, name⟩ = 0) :
    stringsBehind name (xs ++ ys) = stringsBehind name ys := by
  induction xs with
  | nil => rfl
  | cons x xs ih =>
    have hx : x ≠ ⟨.string, name⟩ := by
      rintro rfl
      simp at hxs
    rw [List.count_cons_of_ne hx] at hxs
    rw [List.cons_append, stringsBehind_cons_of_ne hx, ih hxs]

/-! ### The loop of the search -/

lemma searchLoop_spells {json token : CString} (convert : CString → CString)
    (increment : UInt64) {tokens : List JsmnTok}
    (h : List.Forall₂ (JsmnTok.Spells json) tokens xs) (hashtable : HashtableT) :
    searchLoop json token convert increment tokens hashtable
      = match stringsBehind token xs with
        | none => .error .outOfBounds
        | some vs => .ok (putAll hashtable (vs.map fun v => (convert v, increment))) := by
  induction h generalizing hashtable with
  | nil => rfl
  | @cons t x tokens xs ht htokens ih =>
    by_cases hx : x = ⟨.string, token⟩
    · subst hx
      have hstreq : jsonTokenStreq json t token := by
        rw [ht.streq]
        exact decide_eq_true rfl
      cases htokens with
      | nil => simp [searchLoop, stringsBehind, hstreq]
      | @cons t' x' tokens' xs' ht' htokens' =>
        rw [stringsBehind_cons_self, searchLoop, if_pos hstreq, ht'.text, ih]
        cases stringsBehind token (x' :: xs') <;> rfl
    · have hstreq : ¬ jsonTokenStreq json t token := by
        rw [ht.streq]
        simpa using hx
      rw [stringsBehind_cons_of_ne hx, ← ih]
      cases tokens <;> simp [searchLoop, hstreq]

/-! ### The two ways of counting -/

lemma slash_not_mem_imageShortname (image : CString) : ('/' : UInt8) ∉ imageShortname image := by
  rw [imageShortname]
  cases h : strrchr image '/' with
  | none => exact strrchr_eq_none.1 h
  | some strip =>
    obtain ⟨t, rfl, ht⟩ := strrchr_eq_some h
    exact ht

lemma imageShortname_of_not_mem {image : CString} (h : ('/' : UInt8) ∉ image) :
    imageShortname image = image := by
  rw [imageShortname, strrchr_eq_none.2 h]

/-- Numbers of tokens fit into the counters. -/
lemma toNat_ofNat_of_lt {n : ℕ} (h : n < 2 ^ 31) : (UInt32.ofNat n).toNat = n :=
  UInt32.toNat_ofNat_of_lt' (lt_trans h (by decide))

namespace Reply

variable (r : Reply)

/-- The short names that the search puts into the table. -/
def shortnames : Option (List CString) :=
  (stringsBehind (ascii "Image") r.value.tokens.tail).map (List.map imageShortname)

lemma length_tokens : r.value.tokens.length < 2 ^ 31 := by
  have hlen := r.value.length_tokens_le
  have hfits := r.fits
  simp only [Document.text, List.length_append] at hfits
  omega

variable {r} {names : List CString}

lemma length_shortnames (h : r.shortnames = some names) :
    names.length = r.value.tokens.tail.count ⟨.string, ascii "Image"⟩ := by
  obtain ⟨vs, hvs, rfl⟩ := Option.map_eq_some_iff.1 h
  rw [List.length_map, length_stringsBehind hvs]

lemma length_shortnames_lt (h : r.shortnames = some names) : names.length < 2 ^ 31 := by
  rw [length_shortnames h]
  refine lt_of_le_of_lt List.count_le_length (lt_of_le_of_lt ?_ r.length_tokens)
  rw [List.length_tail]
  exact Nat.sub_le _ _

/-- The table of a reply. -/
theorem dockerJsonParserSearch_eq (r : Reply) :
    dockerJsonParserSearch r.text (ascii "Image") imageShortname 1
      = match r.shortnames with
        | none => .error .outOfBounds
        | some names => .ok (some (ofTally (Tally.ones names))) := by
  obtain ⟨tokens, htokenise, hspells⟩ := jsonTokenise_document r.toDocument
  have htail : List.Forall₂ (JsmnTok.Spells r.text) tokens.tail r.value.tokens.tail := by
    simpa only [List.drop_one] using List.forall₂_drop 1 hspells
  rw [dockerJsonParserSearch, htokenise, Except.ok_bind]
  simp only [searchLoop_spells imageShortname 1 htail counterCreate]
  cases hnames : r.shortnames with
  | none =>
    rw [shortnames, Option.map_eq_none_iff] at hnames
    rw [hnames]
    rfl
  | some names =>
    have hlen := length_shortnames_lt hnames
    obtain ⟨vs, hvs, rfl⟩ := Option.map_eq_some_iff.1 hnames
    have hputs : putAll counterCreate (vs.map fun v => (imageShortname v, 1))
        = ofTally (Tally.ones (vs.map imageShortname)) := by
      rw [List.length_map] at hlen
      rw [putAll_eq_ofTally _ (by rw [List.length_map]; omega)]
      simp [amounts, Tally.ones, Function.comp_def]
    rw [hvs]
    exact congrArg (fun h => Except.ok (some h)) hputs

lemma slash_not_mem_of_shortnames (h : r.shortnames = some names) :
    ∀ k ∈ names, ('/' : UInt8) ∉ k := by
  obtain ⟨vs, -, rfl⟩ := Option.map_eq_some_iff.1 h
  intro k hk
  obtain ⟨v, -, rfl⟩ := List.mem_map.1 hk
  exact slash_not_mem_imageShortname v

lemma counterLookup_ones (hlen : names.length < 2 ^ 31) (k : CString) :
    (counterLookup (ofTally (Tally.ones names)) k).map (fun np => np.count.toNat)
      = if k ∈ names then some (names.count k) else none := by
  have hcount : names.count k < 2 ^ 64 := lt_of_le_of_lt List.count_le_length (by omega)
  rw [counterLookup_ofTally]
  simp only [Tally.mem_keys_ones]
  split_ifs
  · rw [Option.map_some, node, Tally.total_ones, UInt64.toNat_ofNat_of_lt' hcount]
  · rfl

/-- The entry of every key of the table. -/
lemma perfLoop_ones {ks : List CString} (hks : ks ⊆ names)
    (hslash : ∀ k ∈ names, ('/' : UInt8) ∉ k) (hlen : names.length < 2 ^ 31) :
    perfLoop (ofTally (Tally.ones names)) (ks.map some)
      = .ok (ks.map fun k => containersEntry k (names.count k)) := by
  induction ks with
  | nil => rfl
  | cons k ks ih =>
    rw [List.cons_subset] at hks
    have hlookup := counterLookup_ones hlen k
    rw [if_pos hks.1] at hlookup
    obtain ⟨np, hnp, hcount⟩ := Option.map_eq_some_iff.1 hlookup
    simp only [List.map_cons, perfLoop, Option.bind_some, hnp, ih hks.2, Except.ok_bind,
      Option.getD_some, imageShortname_of_not_mem (hslash k hks.1), hcount]
    rfl

/-- Without an image every short name has its entry, in front of the total. -/
theorem dockerRunningContainers_none (h : r.shortnames = some names) :
    dockerRunningContainers r.text none = .ok (UInt32.ofNat names.length,
      ((Tally.keys (Tally.ones names)).map fun k => containersEntry k (names.count k))
        ++ [containersEntry (ascii "total") names.length]) := by
  have hlen := length_shortnames_lt h
  have huniq : (Tally.keys (Tally.ones names)).length ≤ names.length := by
    simpa [Tally.ones] using Tally.length_keys_le (Tally.ones names)
  have helements : (UInt32.ofNat names.length).toNat = names.length := toNat_ofNat_of_lt hlen
  have hkeys : ((ofTally (Tally.ones names)).keys.take (ofTally (Tally.ones names)).uniq.toNat)
      = (Tally.keys (Tally.ones names)).map some := by
    have htoNat : (ofTally (Tally.ones names)).uniq.toNat
        = (Tally.keys (Tally.ones names)).length :=
      toNat_ofNat_of_lt (lt_of_le_of_lt huniq hlen)
    rw [htoNat]
    simp only [ofTally]
    split_ifs with hnil
    · simp [hnil]
    · rw [← List.length_map some, List.take_length]
  have hsubset : Tally.keys (Tally.ones names) ⊆ names := fun k hk => Tally.mem_keys_ones.1 hk
  have hloop := perfLoop_ones hsubset (slash_not_mem_of_shortnames h) hlen
  have htotal : (ofTally (Tally.ones names)).elements = UInt32.ofNat names.length := by
    simp [ofTally, Tally.ones]
  rw [dockerRunningContainers, dockerJsonParserSearch_eq, h]
  simp only [Except.ok_bind, hkeys, hloop, counterGetElements, htotal, helements]
  rfl

/-- A string `Image` without a token behind it makes the search read behind the tokens. -/
theorem dockerRunningContainers_outOfBounds (h : r.shortnames = none) (image : Option CString) :
    dockerRunningContainers r.text image = .error .outOfBounds := by
  rw [dockerRunningContainers, dockerJsonParserSearch_eq, h]
  rfl

/-- With an image its own spelling is looked up. -/
theorem dockerRunningContainers_some (h : r.shortnames = some names) (image : CString) :
    dockerRunningContainers r.text (some image) = .ok (UInt32.ofNat (names.count image),
      [containersEntry (imageShortname image) (names.count image)]) := by
  have hlen := length_shortnames_lt h
  have hcount : (UInt32.ofNat (names.count image)).toNat = names.count image :=
    toNat_ofNat_of_lt (lt_of_le_of_lt List.count_le_length hlen)
  have hlookup := counterLookup_ones hlen image
  rw [dockerRunningContainers, dockerJsonParserSearch_eq, h]
  simp only [Except.ok_bind]
  cases hnp : counterLookup (ofTally (Tally.ones names)) image with
  | none =>
    have hzero : names.count image = 0 := by
      rw [hnp] at hlookup
      split_ifs at hlookup with hmem
      · cases hlookup
      · exact List.count_eq_zero.2 hmem
    rw [hzero]
    rfl
  | some np =>
    have hnat : np.count.toNat = names.count image := by
      rw [hnp] at hlookup
      split_ifs at hlookup
      · exact Option.some.inj hlookup
      · cases hlookup
    have htoUInt32 : np.count.toUInt32 = UInt32.ofNat (names.count image) := by
      rw [← hnat, UInt32.ofNat_uInt64ToNat]
    simp only [htoUInt32, hcount]
    rfl

end Reply

end NagiosPlugins
