import Veda.Media.Playback

/-!
The camera behind a pipe. `popen` starts a process, whose output is a fixed byte stream that the
calls of `fread` deliver in some portions, and `pclose` waits for its end.
-/
namespace Veda.Camera

open Cpp Media

/-- A process behind a pipe. -/
structure Process where
  command : Bytes
  /-- Everything that it writes. -/
  output : Bytes
  /-- What the coming calls of `fread` deliver. -/
  reads : Reads
  /-- Calls of `pclose` on its pipe. -/
  closes : Nat := 0
  deriving DecidableEq

/-- The processes in the order of their start; a `FILE*` is the number of its process. -/
abbrev Shell := List Process

namespace Shell

/-- `popen(command, "r")`, with what the process will write if it can be started. -/
def popen (shell : Shell) (command : Bytes) : Option Reads → Option Nat × Shell
  | none => (none, shell)
  | some reads =>
    (some shell.length, shell ++ [{ command, output := reads.flatten, reads }])

def pclose (shell : Shell) (pipe : Nat) : Shell :=
  shell.modify pipe fun p => { p with closes := p.closes + 1 }

/-- What `fread` will deliver from a pipe. -/
def readsOf (shell : Shell) (pipe : Nat) : Reads := (shell[pipe]?.map Process.reads).getD []

/-- The pipe after some calls of `fread`. -/
def consume (shell : Shell) (pipe : Nat) (reads : Reads) : Shell :=
  shell.modify pipe fun p => { p with reads }

/-- A process that `pclose` has not been called for. -/
def Open (shell : Shell) (pipe : Nat) : Prop := ∃ p, shell[pipe]? = some p ∧ p.closes = 0

end Shell

structure Source where
  width : Int
  height : Int
  fps : Int
  pipe : Option Nat := none
  /-- The buffer of `reader_`. -/
  buffer : Bytes := []
  deriving DecidableEq

/-- One call of `read_nal`: the NALs that the callback was called with, in order, what the call
returned, and the source and the processes afterwards. -/
structure SourceRead where
  callbacks : List Bytes
  result : Bool
  source : Source
  shell : Shell

namespace Source

/-- The constructor. -/
def create (width height fps : Int) : Source := { width, height, fps }

/-- The text that `start` hands to `popen`. -/
def command (s : Source) : Bytes :=
  ascii "libcamera-vid" ++ ascii " -t 0" ++ ascii " --width " ++ showInt s.width ++
    ascii " --height " ++ showInt s.height ++ ascii " --framerate " ++ showInt s.fps ++
    ascii " --codec h264" ++ ascii " --inline" ++ ascii " -o -" ++ ascii " 2>/dev/null"

/-- `start`, where `output` is what the process will write if it can be started. -/
def start (s : Source) (shell : Shell) (output : Option Reads) : Bool × Source × Shell :=
  match s.pipe with
  | some _ => (true, s, shell)
  | none =>
    match shell.popen s.command output with
    | (none, shell) => (false, s, shell)
    | (some pipe, shell) => (true, { s with pipe := some pipe, buffer := [] }, shell)

def stop (s : Source) (shell : Shell) : Source × Shell :=
  match s.pipe with
  | some pipe => ({ s with pipe := none, buffer := [] }, shell.pclose pipe)
  | none => (s, shell)

/-- `~Source` -/
def destroy (s : Source) (shell : Shell) : Shell := (s.stop shell).2

def readNal (s : Source) (shell : Shell) : SourceRead :=
  match s.pipe with
  | none => { callbacks := [], result := false, source := s, shell }
  | some pipe =>
    let call := Media.readNal s.buffer (shell.readsOf pipe)
    { callbacks := call.callback.toList
      result := call.result
      source := { s with buffer := call.buffer }
      shell := shell.consume pipe call.reads }

section Open
variable {s : Source} {pipe : Nat} (shell : Shell)

theorem stop_open (h : s.pipe = some pipe) :
    s.stop shell = ({ s with pipe := none, buffer := [] }, shell.pclose pipe) := by
  rw [stop, h]

theorem readNal_open (h : s.pipe = some pipe) :
    let call := Media.readNal s.buffer (shell.readsOf pipe)
    s.readNal shell = {
      callbacks := call.callback.toList
      result := call.result
      source := { s with buffer := call.buffer }
      shell := shell.consume pipe call.reads } := by
  rw [readNal, h]

end Open
end Source

/-! What the calls do to one process. -/
namespace Shell

variable {shell : Shell} {command : Bytes} {reads : Reads} {p : Process} {k j : Nat}

theorem pclose_get : (shell.pclose k)[j]? =
    if k = j then shell[j]?.map (fun p => { p with closes := p.closes + 1 }) else shell[j]? := by
  rw [pclose, List.getElem?_modify]
  split
  · rfl
  · exact Option.map_id'

theorem consume_get : (shell.consume k reads)[j]? =
    if k = j then shell[j]?.map (fun p => { p with reads }) else shell[j]? := by
  rw [consume, List.getElem?_modify]
  split
  · rfl
  · exact Option.map_id'

@[simp] theorem pclose_length : (shell.pclose k).length = shell.length := List.length_modify ..

@[simp] theorem consume_length : (shell.consume k reads).length = shell.length :=
  List.length_modify ..

end Shell
end Veda.Camera
