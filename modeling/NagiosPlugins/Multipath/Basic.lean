import NagiosPlugins.Data.Transfer
import NagiosPlugins.Libc.Bytes

/-!
# The multipath plugin

`write_all` and `read_all` of `plugins/check_multipath.c`. They make one loop; only the system calls
are different.
-/

namespace NagiosPlugins

open Libc Transfer

def eintr : ℕ := 4

def eagain : ℕ := 11

/-- `(errno == EINTR) || (errno == EAGAIN)`. -/
def callAgain (errno : ℕ) : Bool := errno = eintr || errno = eagain

/-- The variables of the loop; `buf` is how far the pointer has gone, and `state` is what the calls
have an effect on. -/
structure Loop (σ : Type*) where
  state : σ
  buf : ℕ
  len : ℕ
  total : ℕ

section
variable {α σ : Type*}
/- The number that a call returns, and its effect at the pointer. -/
variable (size : α → ℕ) (move : σ → ℕ → α → σ)

/-- The end of the loop's body, after the call has returned `n`. -/
def Loop.advance (l : Loop σ) (n : α) : Loop σ where
  state := move l.state l.buf n
  buf := l.buf + size n
  len := l.len - size n
  total := l.total + size n

/-- The loop. -/
def Loop.run (l : Loop σ) : List (CallResult ℕ α) → Outcome ℕ α σ
  | [] => if l.len = 0 then .returned l.total l.state [] else .waiting l.total l.state
  | reply :: replies =>
    if l.len = 0 then .returned l.total l.state (reply :: replies)
    else
      match reply with
      | .failed errno =>
        if callAgain errno then l.run replies else .returned l.total l.state replies
      | .moved n =>
        if size n = 0 then .returned l.total l.state replies
        else (l.advance size move n).run replies

end

/-- What `read` stores in the memory. -/
def store (mem : List UInt8) (pos : ℕ) (bytes : List UInt8) : List UInt8 :=
  mem.take pos ++ bytes ++ mem.drop (pos + bytes.length)

/-- `read_all`: a reply consists of the bytes that have been read, and the memory from `buf` on
changes. -/
def readAll (buf : List UInt8) (len : ℕ) :
    List (CallResult ℕ (List UInt8)) → Outcome ℕ (List UInt8) (List UInt8) :=
  Loop.run List.length store ⟨buf, 0, len, 0⟩

/-- `write_all`: a reply is the number of bytes that have been written, and what has been sent
grows. -/
def writeAll (buf : List UInt8) (len : ℕ) : List (CallResult ℕ ℕ) → Outcome ℕ ℕ (List UInt8) :=
  Loop.run id (fun sent pos n => sent ++ (buf.drop pos).take n) ⟨[], 0, len, 0⟩

end NagiosPlugins
