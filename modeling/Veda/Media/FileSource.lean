import Veda.Media.AnnexBReader

/-!
The source that plays an H.264 file. The content of the file does not change, but each pass
over it may be read in other portions.
-/
namespace Veda.Media

/-- A file on disk, with what `fread` delivers in each pass from its beginning. -/
structure Recording where
  content : Bytes
  passes : Nat → Reads
  delivers : ∀ k, (passes k).flatten = content

/-- An open file: what the coming calls of `fread` deliver, and how often it was rewound. -/
structure OpenFile where
  recording : Recording
  reads : Reads
  rewound : Nat := 0

/-- `fopen` -/
def OpenFile.ofRecording (r : Recording) : OpenFile := { recording := r, reads := r.passes 0 }

/-- `std::rewind` -/
def OpenFile.rewind (file : OpenFile) : OpenFile :=
  { file with reads := file.recording.passes (file.rewound + 1), rewound := file.rewound + 1 }

/-- A NAL that makes a frame: types 1 and 5. -/
def isFrame (nal : Bytes) : Bool :=
  let nalType := nal.headD 0 &&& 0x1F
  nalType == 1 || nalType == 5

structure FileSource where
  fps : Int
  loop : Bool
  file : Option OpenFile := none
  /-- The buffer of `reader_`. -/
  buffer : Bytes := []
  /-- `next_frame_time_` in microseconds. -/
  nextFrameTime : Int := 0

/-- One call of `read_nal`: the NALs that the callback was called with, in order, what the call
returned, and the source afterwards. -/
structure SourceRead where
  callbacks : List Bytes
  result : Bool
  source : FileSource

namespace FileSource

/-- The constructor. -/
def create (fps : Int) (loop : Bool) : FileSource := { fps := if fps > 0 then fps else 30, loop }

/-- `start`, where `disk` is what stands under the path and `now` the clock. -/
def start (s : FileSource) (disk : Option Recording) (now : Int) : Bool × FileSource :=
  match s.file with
  | some _ => (true, s)
  | none =>
    match disk with
    | none => (false, s)
    | some r =>
      (true, { s with file := some (.ofRecording r), buffer := [], nextFrameTime := now })

def stop (s : FileSource) : FileSource :=
  match s.file with
  | some _ => { s with file := none, buffer := [] }
  | none => s

/-- The part of `read_nal` behind the readers: the time of the next frame moves on once if a
frame was among the NALs. -/
def pace (s : FileSource) (callbacks : List Bytes) : SourceRead :=
  let frameBoundary := callbacks.any isFrame
  let source :=
    if frameBoundary then { s with nextFrameTime := s.nextFrameTime + 1000000 / s.fps } else s
  { callbacks, result := true, source }

def readNal (s : FileSource) : SourceRead :=
  match s.file with
  | none => { callbacks := [], result := false, source := s }
  | some file =>
    let first := Media.readNal s.buffer file.reads
    let s := { s with buffer := first.buffer, file := some { file with reads := first.reads } }
    if first.result then s.pace first.callback.toList
    else if !s.loop then
      { callbacks := first.callback.toList, result := false, source := s }
    else
      -- the end of the file: its last NAL may have been delivered already
      let file := file.rewind
      let second := Media.readNal [] file.reads
      let s := { s with buffer := second.buffer, file := some { file with reads := second.reads } }
      let callbacks := first.callback.toList ++ second.callback.toList
      if !second.result then { callbacks, result := false, source := s }
      else s.pace callbacks

/-- The first `n` calls of `read_nal`. -/
def readCalls : Nat → FileSource → List SourceRead
  | 0, _ => []
  | n + 1, s => s.readNal :: readCalls n s.readNal.source

/-- A source as `start` leaves it. -/
def started (r : Recording) (fps : Int) (loop : Bool) (now : Int) : FileSource :=
  ((create fps loop).start (some r) now).2

end FileSource
end Veda.Media
