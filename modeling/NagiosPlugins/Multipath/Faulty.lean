import NagiosPlugins.Common
import NagiosPlugins.Libc.Snprintf
import NagiosPlugins.Libc.Tokens
import NagiosPlugins.Multipath.Rows

/-!
# Faulty paths

`check_for_faulty_paths` of `plugins/check_multipath.c`: the lines of a reply behind the first one
are counted in which a pattern is not found.
-/

namespace NagiosPlugins

open Libc RegularExpression

/-! ### The loop -/

/-- The loop over the lines, from the row `row` on. A call of `strtok_r` shortens the string, so
that its length is enough fuel. -/
def faultyPathsLoop : ℕ → ℕ → CString → ℕ → ℕ
  | 0, _, _, faultyPaths => faultyPaths
  | fuel + 1, row, str, faultyPaths =>
    match strtok '\n' str with
    | none => faultyPaths
    | some (token, saveptr) =>
      faultyPathsLoop fuel (row + 1) saveptr
        (if row > 1 ∧ dmStOkPattern.search token = false then faultyPaths + 1 else faultyPaths)

/-- `check_for_faulty_paths`; `regcompError` is what `regcomp` fails with, if it does. -/
def checkForFaultyPaths (regcompError : Option String) (buf : List UInt8) : Except Stop ℕ :=
  match regcompError with
  | some message => .error (.pluginError .unknown ("regcomp() failed: " ++ message))
  | none =>
    -- without a NUL the search for the end of the last line leaves the buffer
    if (0 : UInt8) ∉ buf then .error .outOfBounds
    else .ok (faultyPathsLoop (stringAt buf).length 1 (stringAt buf) 0)

/-- Lines behind the first row are counted where the pattern is not found. -/
lemma faultyPathsLoop_eq {fuel row : ℕ} {str : CString} (hfuel : str.length ≤ fuel)
    (hpos : 0 < row) (faultyPaths : ℕ) :
    faultyPathsLoop fuel row str faultyPaths
      = faultyPaths + ((if row > 1 then tokens '\n' str else (tokens '\n' str).tail).countP
        fun token => dmStOkPattern.search token = false) := by
  induction fuel generalizing row str faultyPaths with
  | zero =>
    have hnil : str = [] := List.length_eq_zero_iff.1 (Nat.le_zero.1 hfuel)
    rw [hnil]
    simp [faultyPathsLoop]
  | succ fuel ih =>
    rw [faultyPathsLoop]
    cases hstrtok : strtok '\n' str with
    | none => simp [tokens_of_strtok_eq_none hstrtok]
    | some found =>
      obtain ⟨token, saveptr⟩ := found
      obtain ⟨htokens, hlt⟩ := tokens_of_strtok_eq_some hstrtok
      simp only
      rw [ih (by omega) (by omega), htokens]
      by_cases hrow : row > 1
      · have hnext : row + 1 > 1 := by omega
        rw [if_pos hrow, if_pos hnext, List.countP_cons]
        by_cases hfound : dmStOkPattern.search token = false
        · simp [hrow, hfound]
          omega
        · simp [hfound]
      · have hnot : ¬ (row > 1 ∧ dmStOkPattern.search token = false) := fun h => hrow h.1
        have hnext : row + 1 > 1 := by omega
        rw [if_neg hrow, if_pos hnext, if_neg hnot, List.tail_cons]

lemma checkForFaultyPaths_eq {str : CString} (hzero : ∀ c ∈ str, c ≠ 0) (behind : List UInt8) :
    checkForFaultyPaths none (str ++ 0 :: behind)
      = .ok ((tokens '\n' str).tail.countP fun token => dmStOkPattern.search token = false) := by
  have hnul : ¬ (0 : UInt8) ∉ str ++ 0 :: behind := not_not.2 (by simp)
  rw [checkForFaultyPaths, if_neg hnul, stringAt_append hzero,
    faultyPathsLoop_eq (le_refl _) Nat.one_pos, Nat.zero_add, if_neg (lt_irrefl 1)]

/-! ### Replies -/

/-- A reply of multipathd to `show paths`: a header and rows, with `lead` empty lines in front. Each
row is on a line of its own, behind a number of empty ones. -/
structure PathReply where
  lead : ℕ
  header : CString
  rows : List (ℕ × PathRow)
  trail : ℕ
  header_nonempty : header ≠ []
  header_plain : ∀ c ∈ header, c ≠ '\n' ∧ c ≠ 0

namespace PathReply

variable (reply : PathReply)

def render : CString :=
  List.replicate reply.lead ('\n' : UInt8) ++ (reply.header
    ++ (reply.rows.flatMap (fun row => List.replicate (row.1 + 1) ('\n' : UInt8) ++ row.2.render)
      ++ List.replicate reply.trail ('\n' : UInt8)))

lemma render_ne_zero : ∀ c ∈ reply.render, c ≠ 0 := by
  have hnewline : ('\n' : UInt8) ≠ 0 := by decide
  intro c hc
  simp only [render, List.mem_append, List.mem_flatMap, List.mem_replicate] at hc
  rcases hc with ⟨-, rfl⟩ | hc | ⟨row, -, ⟨-, rfl⟩ | hc⟩ | ⟨-, rfl⟩
  · exact hnewline
  · exact (reply.header_plain c hc).2
  · exact hnewline
  · exact (row.2.render_plain c hc).2
  · exact hnewline

/-- The header and the rows are the tokens. -/
lemma tokens_render :
    tokens '\n' reply.render = reply.header :: reply.rows.map fun row => row.2.render := by
  have hheader : ('\n' : UInt8) ∉ reply.header := fun hmem => (reply.header_plain _ hmem).1 rfl
  have hlines : ∀ line ∈ reply.rows.map (fun row => (row.1, row.2.render)),
      line.2 ≠ [] ∧ ('\n' : UInt8) ∉ line.2 := by
    intro line hline
    obtain ⟨row, -, rfl⟩ := List.mem_map.1 hline
    exact ⟨row.2.render_ne_nil, fun hmem => (row.2.render_plain _ hmem).1 rfl⟩
  have htokens := tokens_lines reply.header_nonempty hheader hlines reply.trail
  rw [List.flatMap_map, List.map_map] at htokens
  rw [render, tokens_replicate_append]
  exact htokens

end PathReply

/-- Of the rows of a reply those are counted that are faulty, tolerated ones apart. -/
theorem checkForFaultyPaths_render (reply : PathReply) (behind : List UInt8) :
    checkForFaultyPaths none (reply.render ++ 0 :: behind)
      = .ok (reply.rows.countP fun row => row.2.Faulty ∧ ¬ row.2.Tolerated) := by
  rw [checkForFaultyPaths_eq reply.render_ne_zero, reply.tokens_render, List.tail_cons,
    List.countP_map]
  refine congrArg _ (List.countP_congr fun row _ => ?_)
  simp only [Function.comp_apply, decide_eq_true_eq]
  exact PathRow.search_eq_false_iff

/-- `6:0:0:0 sdf 8:80 1 activeready faulty running`. -/
def activereadyRow : PathRow where
  front := ascii "6:0:0:0 sdf 8:80 1"
  before := ascii " "
  dmSt := ⟨ascii "activeready", by decide +kernel, by decide +kernel⟩
  between := some (ascii " ")
  chkSt := ⟨ascii "faulty", by decide +kernel, by decide +kernel⟩
  behind := ascii " "
  rest := ascii "running"
  before_blank := by decide +kernel
  between_blank := by decide +kernel
  behind_blank := by decide +kernel
  plain := by decide +kernel
  other := by decide +kernel

def activereadyReply : PathReply where
  lead := 0
  header := ascii "hcil"
  rows := [(0, activereadyRow)]
  trail := 1
  header_nonempty := by decide +kernel
  header_plain := by decide +kernel

/-- A faulty row that is not counted, and a line with a blank that is. -/
theorem activeready_not_counted :
    checkForFaultyPaths none (activereadyReply.render ++ [0])
        ≠ .ok (activereadyReply.rows.countP fun row => row.2.Faulty)
      ∧ checkForFaultyPaths none (ascii "hcil\n \n" ++ [0]) ≠ .ok 0 := by
  constructor
  · have htolerated : activereadyRow.Tolerated := by decide +kernel
    have hfaulty : activereadyRow.Faulty := by decide +kernel
    have hsearch := PathRow.search_of_tolerated htolerated
    rw [checkForFaultyPaths_eq activereadyReply.render_ne_zero, activereadyReply.tokens_render]
    simp [activereadyReply, hsearch, hfaulty]
  · have hblank : dmStOkPattern.search [(' ' : UInt8)] = false := by decide +kernel
    have htokens : tokens '\n' (ascii "hcil\n \n") = [ascii "hcil", [(' ' : UInt8)]] := by
      decide +kernel
    rw [checkForFaultyPaths_eq (by decide +kernel), htokens]
    simp [hblank]

end NagiosPlugins
