import NagiosPlugins.Data.Forest
import NagiosPlugins.Json.Layout

/-!
# The superior tokens

The field `size` counts the tokens for which a token was the superior one. On every text that the
filling pass accepts, the superior tokens make a forest that the token array lists in preorder,
and what lies inside the text of a token is below it in that forest.
-/

namespace NagiosPlugins

open Libc Forest

/-- `parents` lists the superior token that each token of the parser was allocated under. -/
structure Rooted (parents : List ℤ) (p : JsmnParser) : Prop where
  length : parents.length = p.tokens.length
  preorder : Preorder parents
  toksuper : OnLastPath parents p.toksuper
  sizes : ∀ (i : ℕ) (t : JsmnTok), p.tokens[i]? = some t → t.size = parents.count (i : ℤ)
  isContainer : ∀ t ∈ p.tokens, t.isOpen → t.isContainer
  le_toksuper : ∀ (i : ℕ) (t : JsmnTok), p.tokens[i]? = some t → t.isOpen → i ≤ p.toksuper
  inside : ∀ (i j : ℕ) (t u : JsmnTok) (x : ℤ), i < j → p.tokens[i]? = some t →
    p.tokens[j]? = some u → parents[j]? = some x → t.isOpen ∨ u.start < t.end_ → i ≤ x

section Tokens

variable {p : JsmnParser} {t u : JsmnTok} {i : ℕ}

/-- A token of the parser that has taken up `t`: only the size of the superior token is new. -/
lemma JsmnParser.push_getElem? (htop : -1 ≤ p.toksuper) (h : (p.push t).tokens[i]? = some u) :
    ∃ v, (p.tokens ++ [t])[i]? = some v ∧ u.place = v.place ∧
      u.size = v.size + if p.toksuper = i then 1 else 0 := by
  rw [push, growSuper] at h
  split_ifs at h with htoksuper
  · refine ⟨u, h, rfl, ?_⟩
    simp only at htoksuper
    rw [if_neg (by omega), add_zero]
  · rw [List.getElem?_modify] at h
    obtain ⟨v, hv, rfl⟩ := Option.map_eq_some_iff.1 h
    simp only at htoksuper
    refine ⟨v, hv, ?_⟩
    have hi : p.toksuper.toNat = i ↔ p.toksuper = i := by omega
    simp only [hi]
    split_ifs
    · exact ⟨rfl, rfl⟩
    · exact ⟨rfl, (add_zero _).symm⟩

/-- No open token stands behind the last one. -/
lemma le_toIndex_lastIndex {P : JsmnTok → Bool} {tokens : List JsmnTok}
    (h : tokens[i]? = some t) (ht : P t) : i ≤ toIndex (lastIndex P tokens tokens.length) := by
  cases hlast : lastIndex P tokens tokens.length with
  | none =>
    have := lastIndex_none_iff.1 hlast t (List.mem_of_getElem? h)
    rw [ht] at this
    cases this
  | some o =>
    obtain ⟨A, u, B, rfl, rfl, hu, hB⟩ := lastIndex_eq_some hlast
    simp only [toIndex, Nat.cast_le]
    by_contra hlt
    rw [List.getElem?_append_right (by omega)] at h
    obtain ⟨k, hk⟩ : ∃ k, i - A.length = k + 1 := ⟨i - A.length - 1, by omega⟩
    rw [hk, List.getElem?_cons_succ] at h
    have := hB t (List.mem_of_getElem? h)
    rw [ht] at this
    cases this

end Tokens

/-! ### The steps -/

namespace Rooted

variable {parents : List ℤ} {p q : JsmnParser} {t : JsmnTok} {i : ℕ}

lemma init : Rooted [] jsmnInit where
  length := rfl
  preorder := .nil
  toksuper := Preorder.nil.root_onLastPath
  sizes := by simp [jsmnInit]
  isContainer := by simp [jsmnInit]
  le_toksuper := by simp [jsmnInit]
  inside := by simp [jsmnInit]

/-- An open token can become the superior token. -/
lemma onLastPath (h : Rooted parents p) (ht : p.tokens[i]? = some t) (hopen : t.isOpen) :
    OnLastPath parents i where
  bounds := by
    have := (List.getElem?_eq_some_iff.1 ht).1
    rw [h.length]
    omega
  path j x hx := by
    by_cases hij : i < j
    · have hj : j < p.tokens.length := h.length ▸ lt_length_of_getElem? hx
      exact .inr (h.inside i j t _ x hij ht (List.getElem?_eq_getElem hj) hx (.inl hopen))
    · exact .inl (by omega)

/-- A new token that starts behind all closed ones. -/
lemma push (h : Rooted parents p) (hsize : t.size = 0) (hcontainer : t.isOpen → t.isContainer)
    (hstart : ∀ u ∈ p.tokens, u.end_ ≤ t.start) (htokens : q.tokens = (p.push t).tokens)
    (htop : OnLastPath (parents ++ [p.toksuper]) q.toksuper) (hle : p.toksuper ≤ q.toksuper)
    (hopen : t.isOpen → p.tokens.length ≤ q.toksuper) :
    Rooted (parents ++ [p.toksuper]) q := by
  have hnew : ∀ (i : ℕ) (u : JsmnTok), q.tokens[i]? = some u →
      ∃ v, (p.tokens[i]? = some v ∨ i = p.tokens.length ∧ v = t) ∧ u.place = v.place ∧
        u.size = v.size + if p.toksuper = i then 1 else 0 := by
    intro i u hu
    rw [htokens] at hu
    obtain ⟨v, hv, hplace⟩ := JsmnParser.push_getElem? h.toksuper.bounds.1 hu
    exact ⟨v, List.getElem?_snoc_eq_some hv, hplace⟩
  constructor
  · rw [htokens, List.length_append, h.length, JsmnParser.push, JsmnParser.growSuper_length]
    simp
  · exact h.preorder.snoc h.toksuper
  · exact htop
  · intro i u hu
    obtain ⟨v, hv, -, husize⟩ := hnew i u hu
    rw [husize, List.count_append, List.count_singleton, Nat.cast_add]
    rcases hv with hv | ⟨rfl, rfl⟩
    · simp [h.sizes i v hv]
    · have := h.preorder.count_length
      rw [h.length] at this
      simp [hsize, this]
  · intro u hu huopen
    obtain ⟨i, hi⟩ := List.mem_iff_getElem?.1 hu
    obtain ⟨v, hv, hplace, -⟩ := hnew i u hi
    have htype : u.type = v.type := congrArg Prod.fst hplace
    rw [JsmnTok.isOpen_eq, hplace, ← JsmnTok.isOpen_eq] at huopen
    have : v.isContainer := by
      rcases hv with hv | ⟨-, rfl⟩
      · exact h.isContainer v (List.mem_of_getElem? hv) huopen
      · exact hcontainer huopen
    rwa [JsmnTok.isContainer, htype]
  · intro i u hu huopen
    obtain ⟨v, hv, hplace, -⟩ := hnew i u hu
    rw [JsmnTok.isOpen_eq, hplace, ← JsmnTok.isOpen_eq] at huopen
    rcases hv with hv | ⟨rfl, rfl⟩
    · exact (h.le_toksuper i v hv huopen).trans hle
    · exact hopen huopen
  · intro i j u u' x hij hu hu' hx hin
    obtain ⟨v, hv, hplace, -⟩ := hnew i u hu
    obtain ⟨v', hv', hplace', -⟩ := hnew j u' hu'
    have hin' : v.isOpen ∨ v'.start < v.end_ := by
      rw [JsmnTok.isOpen_eq, hplace, ← JsmnTok.isOpen_eq] at hin
      have hend : u.end_ = v.end_ := congrArg (·.2.2) hplace
      have hstart' : u'.start = v'.start := congrArg (·.2.1) hplace'
      rwa [hend, hstart'] at hin
    have hj : j < (parents ++ [p.toksuper]).length := lt_length_of_getElem? hx
    rw [List.length_append, List.length_singleton, h.length] at hj
    have hi : p.tokens[i]? = some v := by
      rcases hv with hv | ⟨rfl, -⟩
      · exact hv
      · omega
    rcases List.getElem?_snoc_eq_some hx with hx | ⟨rfl, rfl⟩
    · rcases hv' with hv' | ⟨rfl, rfl⟩
      · exact h.inside i j v v' x hij hi hv' hx hin'
      · have := lt_length_of_getElem? hx
        rw [h.length] at this
        omega
    · rcases hv' with hv' | ⟨-, rfl⟩
      · have := (List.getElem?_eq_some_iff.1 hv').1
        rw [h.length] at this
        omega
      · -- the new token starts behind the closed ones
        rcases hin' with hvopen | hlt
        · exact h.le_toksuper i v hi hvopen
        · have := hstart v (List.mem_of_getElem? hi)
          omega

/-- The superior token moves, but no open token is left behind it. -/
lemma move (h : Rooted parents p) {top : ℤ} (htop : OnLastPath parents top)
    (hle : ∀ (i : ℕ) (t : JsmnTok), p.tokens[i]? = some t → t.isOpen → i ≤ top) (pos : ℕ) :
    Rooted parents { p with pos, toksuper := top } where
  length := h.length
  preorder := h.preorder
  toksuper := htop
  sizes := h.sizes
  isContainer := h.isContainer
  le_toksuper := hle
  inside := h.inside

lemma close (h : Rooted parents p) {A B : List JsmnTok} (htokens : p.tokens = A ++ t :: B)
    (ht : t.isOpen) (hB : ∀ u ∈ B, u.isOpen = false) (stop : ℕ) :
    Rooted parents { p with
      tokens := A ++ { t with end_ := stop } :: B
      toksuper := toIndex (lastIndex JsmnTok.isOpen A A.length) } := by
  have htget : p.tokens[A.length]? = some t := by simp [htokens]
  have hclosed : JsmnTok.isOpen { t with end_ := stop } = false := JsmnTok.isOpen_eq_false rfl
  -- a token of the parser afterwards is the closed one, or it was there before
  have hold : ∀ (i : ℕ) (u : JsmnTok), (A ++ { t with end_ := stop } :: B)[i]? = some u →
      i = A.length ∧ u = { t with end_ := stop } ∨
        p.tokens[i]? = some u ∧ (u.isOpen → A[i]? = some u) := by
    intro i u hu
    rcases lt_trichotomy i A.length with hi | rfl | hi
    · rw [List.getElem?_append_left hi] at hu
      rw [htokens, List.getElem?_append_left hi]
      exact .inr ⟨hu, fun _ => hu⟩
    · simp only [List.getElem?_append_right le_rfl, Nat.sub_self, List.getElem?_cons_zero] at hu
      exact .inl ⟨rfl, (Option.some.inj hu).symm⟩
    · obtain ⟨k, hk⟩ : ∃ k, i - A.length = k + 1 := ⟨i - A.length - 1, by omega⟩
      rw [List.getElem?_append_right hi.le, hk, List.getElem?_cons_succ] at hu
      rw [htokens, List.getElem?_append_right hi.le, hk, List.getElem?_cons_succ]
      refine .inr ⟨hu, fun hopen => ?_⟩
      rw [hB u (List.mem_of_getElem? hu)] at hopen
      cases hopen
  have hstart : ∀ (i : ℕ) (u : JsmnTok), (A ++ { t with end_ := stop } :: B)[i]? = some u →
      ∃ v, p.tokens[i]? = some v ∧ u.start = v.start ∧ u.size = v.size := by
    intro i u hu
    rcases hold i u hu with ⟨rfl, rfl⟩ | ⟨hu, -⟩
    · exact ⟨t, htget, rfl, rfl⟩
    · exact ⟨u, hu, rfl, rfl⟩
  constructor
  · rw [h.length, htokens]
    simp
  · exact h.preorder
  · cases hlast : lastIndex JsmnTok.isOpen A A.length with
    | none => exact h.preorder.root_onLastPath
    | some o =>
      obtain ⟨A₁, v, A₂, rfl, rfl, hv, -⟩ := lastIndex_eq_some hlast
      exact h.onLastPath (t := v) (by simp [htokens]) hv
  · intro i u hu
    obtain ⟨v, hv, -, hsize⟩ := hstart i u hu
    rw [hsize, h.sizes i v hv]
  · intro u hu hopen
    obtain ⟨i, hi⟩ := List.mem_iff_getElem?.1 hu
    rcases hold i u hi with ⟨rfl, rfl⟩ | ⟨hu, -⟩
    · rw [hclosed] at hopen
      cases hopen
    · exact h.isContainer u (List.mem_of_getElem? hu) hopen
  · intro i u hu hopen
    rcases hold i u hu with ⟨rfl, rfl⟩ | ⟨-, hA⟩
    · rw [hclosed] at hopen
      cases hopen
    · exact le_toIndex_lastIndex (hA hopen) hopen
  · intro i j u u' x hij hu hu' hx hin
    obtain ⟨v', hv', hstart', -⟩ := hstart j u' hu'
    rcases hold i u hu with ⟨rfl, rfl⟩ | ⟨hu, -⟩
    · exact h.inside _ j t v' x hij htget hv' hx (.inl ht)
    · rw [hstart'] at hin
      exact h.inside i j u v' x hij hu hv' hx hin

end Rooted

/-! ### The walk -/

section Walk

variable {n k skip : ℕ} {p p' : JsmnParser} {c : UInt8} {text A cs : CString} {parents : List ℤ}

lemma JsmnMove.rooted (h : JsmnMove c cs p k p') (hlaid : Laid text p.pos p.places)
    (hp : Rooted parents p) : ∃ parents', Rooted parents' p' := by
  have hbelow : ∀ u ∈ p.tokens, u.end_ ≤ (p.pos : ℤ) := fun u hu =>
    (hlaid.below _ (List.mem_map_of_mem hu)).2
  have hsuper : ∀ t, (p.push t).toksuper = p.toksuper := by
    intro t
    rw [JsmnParser.push, JsmnParser.growSuper]
    split_ifs <;> rfl
  have hleaf : ∀ t : JsmnTok, t.size = 0 → t.isOpen = false → p.pos ≤ t.start →
      ∃ parents', Rooted parents' (p.push t) := by
    intro t hsize hclosed hstart
    refine ⟨_, hp.push hsize (by simp [hclosed]) ?_ rfl ?_ (hsuper t).ge (by simp [hclosed])⟩
    · exact fun u hu => (hbelow u hu).trans hstart
    · rw [hsuper]
      exact hp.toksuper.snoc
  cases h with
  | opened hb =>
    have htop := hp.toksuper.bounds
    rw [hp.length] at htop
    refine ⟨_, hp.push rfl (fun _ => ?_) hbelow rfl ?_ htop.2.le fun _ => le_rfl⟩
    · cases hb <;> rfl
    · have := OnLastPath.last (parents ++ [p.toksuper])
      simpa [hp.length] using this
  | closed hb htokens htype ht hB =>
    exact ⟨parents, hp.close htokens ht hB (p.pos + 1)⟩
  | @string s rest hc hcs hs =>
    exact hleaf _ rfl (JsmnTok.isOpen_eq_false rfl) (by simp)
  | @primitive s rest hcs hs hrest =>
    exact hleaf _ rfl (JsmnTok.isOpen_eq_false rfl) le_rfl
  | blank => exact ⟨parents, hp⟩
  | colon =>
    have hlast : OnLastPath parents (p.tokens.length - 1) := hp.length ▸ .last parents
    refine ⟨parents, hp.move hlast (fun i t ht _ => ?_) p.pos⟩
    have := (List.getElem?_eq_some_iff.1 ht).1
    omega
  | @comma A B t htokens ht hcontainer hB =>
    have hget : p.tokens[A.length]? = some t := by simp [htokens]
    refine ⟨parents, hp.move (hp.onLastPath hget ht) (fun i u hu hopen => ?_) p.pos⟩
    by_contra hlt
    rw [htokens, List.getElem?_append_right (by omega)] at hu
    obtain ⟨k, hk⟩ : ∃ k, i - A.length = k + 1 := ⟨i - A.length - 1, by omega⟩
    rw [hk, List.getElem?_cons_succ] at hu
    have huB := List.mem_of_getElem? hu
    have hucontainer := hp.isContainer u (by simp [htokens, huB]) hopen
    rw [hB u huB hucontainer] at hopen
    cases hopen

lemma jsmnLoop_rooted (h : jsmnLoop (some n) cs skip p = .ok p') (htext : text = A ++ cs)
    (hA : A.length = p.pos) (hlaid : Laid text (p.pos + skip) p.places) (hp : Rooted parents p) :
    ∃ parents', Rooted parents' p' := by
  induction cs generalizing A skip p parents with
  | nil =>
    cases Except.ok.inj h
    exact ⟨parents, hp⟩
  | cons c cs ih =>
    have htext' : text = (A ++ [c]) ++ cs := by simp [htext]
    cases skip with
    | succ skip =>
      refine ih h htext' (by simp [hA]) ?_ (hp.move hp.toksuper hp.le_toksuper _)
      rwa [← Nat.add_assoc, Nat.add_right_comm] at hlaid
    | zero =>
      simp only [jsmnLoop] at h
      split_ifs at h with hc
      · cases Except.ok.inj h
        exact ⟨parents, hp⟩
      · obtain ⟨⟨k, r⟩, hr, h⟩ := Except.bind_eq_ok.1 h
        have hmove := jsmnStep_move hc hr
        obtain ⟨hpos, hlaid'⟩ := hmove.laid htext hA hlaid
        obtain ⟨parents', hr'⟩ := hmove.rooted hlaid hp
        refine ih h htext' (by simp [hA, hpos]) ?_ (hr'.move hr'.toksuper hr'.le_toksuper _)
        simp only [hpos]
        exact hlaid'

/-- The sizes of the tokens of an accepted text are the numbers of children in a forest that the
token array lists in preorder, and what starts inside the text of a token is below it. -/
theorem jsmnParse_superiors {js : CString} {r : ℕ} {tokens : List JsmnTok}
    (h : jsmnParse (some n) js = .ok (r, tokens)) :
    ∃ parents : List ℤ, parents.length = r ∧ Preorder parents ∧
      (∀ (i : ℕ) (t : JsmnTok), tokens[i]? = some t → t.size = parents.count (i : ℤ)) ∧
      ∀ (i j : ℕ) (t u : JsmnTok), i < j → tokens[i]? = some t → tokens[j]? = some u →
        u.start < t.end_ → Below parents i j := by
  have hbefore := jsmnParse_before h
  obtain ⟨p, hp, rfl, hlen, -⟩ := jsmnParse_eq_ok h
  obtain ⟨parents, hroot⟩ := jsmnLoop_rooted (A := []) hp rfl rfl (Laid.nil js 0) Rooted.init
  refine ⟨parents, hroot.length.trans hlen, hroot.preorder, hroot.sizes, ?_⟩
  intro i j t u hij ht hu hlt
  have hj := (List.getElem?_eq_some_iff.1 hu).1
  refine hroot.preorder.below hij (hroot.length ▸ hj) fun k x hik hkj hx => ?_
  -- the tokens between the two start inside the text of the first one, too
  have hk : p.tokens[k]? = some p.tokens[k] := List.getElem?_eq_getElem (by omega)
  refine hroot.inside i k t _ x hik ht hk hx (.inr ?_)
  rcases eq_or_lt_of_le hkj with rfl | hkj
  · rw [hk] at hu
    rwa [Option.some.inj hu]
  · have := List.pairwise_iff_getElem.1 hbefore k j (by omega) hj hkj
    have hu' : p.tokens[j] = u := (List.getElem?_eq_some_iff.1 hu).2
    rw [hu'] at this
    exact this.1.trans hlt

/-- In an array that goes on behind a closed object, what lies in the array is below it. -/
theorem jsmnParse_superiors_lenient :
    ∃ parents : List ℤ, parents.length = 3 ∧ Preorder parents ∧ Below parents 0 2 := by
  have h : jsmnParse (some 3) (ascii "[x \x7b\x7d:]")
      = .ok (3, [⟨.array, 0, 7, 2⟩, ⟨.primitive, 1, 2, 0⟩, ⟨.object, 3, 5, 0⟩]) := by
    decide +kernel
  obtain ⟨parents, hlen, hpreorder, -, hbelow⟩ := jsmnParse_superiors h
  exact ⟨parents, hlen, hpreorder, hbelow 0 2 _ _ (by decide) rfl rfl (by decide)⟩

end Walk

end NagiosPlugins
