import Veda.Cpp
import Veda.Lib.Search

/-!
The reader that cuts an H.264 byte stream at its start codes. A file is the list of what the
coming calls of `fread` deliver; behind the list it is at its end.
-/
namespace Veda.Media

abbrev Reads := List Bytes

/-- Length of the start code that begins here; the shorter one is tried first. -/
def startCodeLen (bs : Bytes) : Option Nat :=
  if [0, 0, 1] <+: bs then some 3
  else if [0, 0, 0, 1] <+: bs then some 4
  else none

/-- `find_start_code`: position and length. -/
def findStartCode (buffer : Bytes) (offset : Nat) : Option (Nat × Nat) :=
  Search.firstFrom startCodeLen offset buffer

/-- `fill`: a read of no bytes that is not the end of the file is tried again. -/
def fill (buffer : Bytes) : Reads → Option (Bytes × Reads)
  | [] => none
  | chunk :: reads => if chunk = [] then fill buffer reads else some (buffer ++ chunk, reads)

/-- Outcome of a search that reads on until it succeeds. -/
inductive Sought
  | found (pos len : Nat) (buffer : Bytes) (reads : Reads)
  | eof (buffer : Bytes)
  deriving DecidableEq

/-- The loop that looks for the first start code. Every round but the last takes a read off the
file, so `fuel` above the number of reads is never used up. -/
def seekFirst : Nat → Bytes → Reads → Sought
  | 0, buffer, _ => .eof buffer
  | fuel + 1, buffer, reads =>
    match findStartCode buffer 0 with
    | some (pos, len) => .found pos len buffer reads
    | none =>
      match fill buffer reads with
      | none => .eof buffer
      | some (buffer, reads) => seekFirst fuel buffer reads

/-- The loop that looks for the end of the NAL, from `scan` on. -/
def seekNext (nalStart : Nat) : Nat → Nat → Bytes → Reads → Sought
  | 0, _, buffer, _ => .eof buffer
  | fuel + 1, scan, buffer, reads =>
    match findStartCode buffer scan with
    | some (pos, len) => .found pos len buffer reads
    | none =>
      let resume := if buffer.length ≥ 3 then buffer.length - 3 else nalStart
      let resume := if resume < nalStart then nalStart else resume
      match fill buffer reads with
      | none => .eof buffer
      | some (buffer, reads) => seekNext nalStart fuel resume buffer reads

/-- One call of `read_nal`: what the callback was called with, if it was, what the call
returned, and what it leaves in the buffer and in the file. -/
structure NalRead where
  callback : Option Bytes
  result : Bool
  buffer : Bytes
  reads : Reads
  deriving DecidableEq

/-- The argument of a callback that is called for `len > 0` only. -/
def nonEmpty (nal : Bytes) : Option Bytes := if nal.length > 0 then some nal else none

/-- `read_nal` on a file that is open. -/
def readNal (buffer : Bytes) (reads : Reads) : NalRead :=
  match seekFirst (reads.length + 1) buffer reads with
  | .eof buffer => { callback := none, result := false, buffer, reads := [] }
  | .found scPos scLen buffer reads =>
    let buffer := buffer.drop scPos
    let nalStart := scLen
    match seekNext nalStart (reads.length + 1) nalStart buffer reads with
    | .eof buffer =>
      let tail := buffer.drop nalStart
      { callback := nonEmpty tail, result := false, buffer := [], reads := [] }
    | .found nextPos _ buffer reads =>
      let nal := (buffer.drop nalStart).take (nextPos - nalStart)
      { callback := nonEmpty nal, result := true, buffer := buffer.drop nextPos, reads }

/-- Callback argument and result of the first `n` calls. -/
def readCalls : Nat → Bytes → Reads → List (Option Bytes × Bool)
  | 0, _, _ => []
  | n + 1, buffer, reads =>
    let call := readNal buffer reads
    (call.callback, call.result) :: readCalls n call.buffer call.reads

theorem prefix_append_iff {d xs : Bytes} (ys : Bytes) (h : d.length ≤ xs.length) :
    d <+: xs ++ ys ↔ d <+: xs := by
  constructor
  · intro hd
    exact List.prefix_of_prefix_length_le hd (List.prefix_append xs ys) h
  · intro hd
    exact hd.trans (List.prefix_append xs ys)

theorem startCodeLen_append {xs : Bytes} (ys : Bytes) (h : 4 ≤ xs.length) :
    startCodeLen (xs ++ ys) = startCodeLen xs := by
  have h3 : ([0, 0, 1] : Bytes).length ≤ xs.length := by
    simp only [List.length_cons, List.length_nil]
    omega
  simp only [startCodeLen, prefix_append_iff ys h3,
    prefix_append_iff (d := [0, 0, 0, 1]) ys h]

theorem startCodeLen_some {xs : Bytes} {len : Nat} (h : startCodeLen xs = some len) :
    [0, 0, 1] <+: xs ∧ len = 3 ∨ [0, 0, 0, 1] <+: xs ∧ len = 4 := by
  unfold startCodeLen at h
  split at h
  · cases h
    exact Or.inl ⟨‹_›, rfl⟩
  · split at h
    · cases h
      exact Or.inr ⟨‹_›, rfl⟩
    · cases h

/-- A start code takes three bytes and is told from any other by four. -/
theorem startCode_window : Search.Window 4 startCodeLen where
  nil := by decide
  long := by
    intro xs len h
    have hlen : 3 ≤ xs.length := by
      rcases startCodeLen_some h with ⟨hd, -⟩ | ⟨hd, -⟩
      · exact hd.length_le
      · exact Nat.le_of_succ_le hd.length_le
    omega
  keeps := by
    intro xs len ys h
    rcases startCodeLen_some h with ⟨hd, rfl⟩ | ⟨hd, rfl⟩
    · rw [startCodeLen, if_pos (hd.trans (List.prefix_append xs ys))]
    · rw [startCodeLen_append ys hd.length_le, h]
  decided := by
    intro xs ys h
    exact startCodeLen_append ys h

end Veda.Media
