import Veda.Media.Hub
import Veda.Rtsp.Session

/-!
The control thread running by itself: connection, Hub and streamers as one state that
answers its calls. What the code does not decide is read off an `Oracle`.
-/
namespace Veda.Rtsp

open Effects

/-- A call of the control thread with its answer. -/
abbrev Call := (op : Op) × op.Res

/-- Results of the random generator and of the outside world, by the number of the request
for them; `connects` and `sourceUp` are by streamer. -/
structure Oracle where
  sessionId : Nat → Bytes
  connects : StreamerId → Bool
  /-- `Hub::subscribe` finds the source running or can start it. -/
  sourceUp : StreamerId → Bool
  /-- SPS and PPS that the pump has cached by then. -/
  parameterSets : Nat → Bytes × Bytes

instance : Inhabited Oracle :=
  ⟨⟨fun _ => ascii "1A2B3C4D", fun _ => true, fun _ => true, fun _ => ([], [])⟩⟩

structure World where
  hub : Media.Hub StreamerId
  sessionIds : Nat := 0
  streamers : Nat := 0
  lookups : Nat := 0
  log : List Call := []

instance : Inhabited World := ⟨{ hub := Media.Hub.create 30 }⟩

namespace World

def note (w : World) (call : Call) : World := { w with log := w.log ++ [call] }

/-- The Hub with the parameter sets that it holds at the next lookup. -/
def hubAtLookup (o : Oracle) (w : World) : Media.Hub StreamerId :=
  { w.hub with sps := (o.parameterSets w.lookups).1, pps := (o.parameterSets w.lookups).2 }

def answer (o : Oracle) : (op : Op) → World → op.Res × World
  | .logRequest conn raw, w => ((), w.note ⟨.logRequest conn raw, ()⟩)
  | .send conn response, w => ((), w.note ⟨.send conn response, ()⟩)
  | .generateSessionId, w =>
    let id := o.sessionId w.sessionIds
    (id, { w with sessionIds := w.sessionIds + 1 }.note ⟨.generateSessionId, id⟩)
  | .makeStreamer conn, w =>
    let s := w.streamers
    (s, { w with streamers := w.streamers + 1 }.note ⟨.makeStreamer conn, s⟩)
  | .connect s ip port, w => (o.connects s, w.note ⟨.connect s ip port, o.connects s⟩)
  | .subscribe s, w =>
    let (ok, hub) := w.hub.subscribe (o.sourceUp s) s
    (ok, { w with hub }.note ⟨.subscribe s, ok⟩)
  | .unsubscribe s, w =>
    ((), { w with hub := w.hub.unsubscribe s }.note ⟨.unsubscribe s, ()⟩)
  | .spropParameterSets, w =>
    let hub := w.hubAtLookup o
    let sprop := hub.spropParameterSets
    (sprop, { w with hub, lookups := w.lookups + 1 }.note ⟨.spropParameterSets, sprop⟩)

/-- The world after a call. -/
def after (o : Oracle) (w : World) (op : Op) : World := (w.answer o op).2

def afterAll (o : Oracle) (w : World) (ops : List Op) : World := ops.foldl (after o) w

/-- The responses handed to `send_`, in order. -/
def responsesOf (log : List Call) : List Bytes :=
  log.filterMap fun
    | ⟨.send _ response, _⟩ => some response
    | _ => none

def responses (w : World) : List Bytes := responsesOf w.log

section After
variable {o : Oracle} {w : World} {ops : List Op}

@[simp] theorem afterAll_nil : w.afterAll o [] = w := rfl
@[simp] theorem afterAll_cons (op : Op) : w.afterAll o (op :: ops) =
    (w.after o op).afterAll o ops := rfl

theorem after_log (op : Op) : (w.after o op).log = w.log ++ [⟨op, (w.answer o op).1⟩] := by
  cases op <;> rfl

theorem answer_subscribe (x : StreamerId) : (w.answer o (.subscribe x)).1 = o.sourceUp x := by
  simp only [answer, Media.Hub.subscribe]
  cases o.sourceUp x <;> rfl

end After
end World

/-- Runs code of the control thread to its end. -/
def Control.exec {α : Type} (o : Oracle) (p : Control α) (w : World) : α × World :=
  p.run (World.answer o) w

namespace Control

variable {α β : Type} {o : Oracle} {w : World}

@[simp] theorem exec_ret (a : α) : Control.exec o (.ret a) w = (a, w) := rfl
@[simp] theorem exec_call (op : Op) (k : op.Res → Control α) :
    Control.exec o (.call op k) w = (k (w.answer o op).1).exec o (w.answer o op).2 := rfl
@[simp] theorem exec_perform (op : Op) :
    Control.exec o (Program.perform op) w = w.answer o op := rfl
@[simp] theorem exec_bind (p : Control α) (f : α → Control β) :
    Control.exec o (p >>= f) w = (f (p.exec o w).1).exec o (p.exec o w).2 :=
  Program.run_bind p f
@[simp] theorem exec_map (p : Control α) (f : α → β) :
    Control.exec o (f <$> p) w = (f (p.exec o w).1, (p.exec o w).2) :=
  Program.run_map p f
@[simp] theorem exec_send (conn : ConnId) (response : Bytes) :
    (Control.send conn response).exec o w = ((), w.after o (.send conn response)) := rfl
@[simp] theorem exec_makeStreamer (conn : ConnId) : (Control.makeStreamer conn).exec o w =
    (w.streamers, w.after o (.makeStreamer conn)) := rfl
@[simp] theorem exec_connect (x : StreamerId) (ip : Bytes) (port : UInt16) :
    (Control.connect x ip port).exec o w = (o.connects x, w.after o (.connect x ip port)) := rfl
@[simp] theorem exec_subscribe (x : StreamerId) :
    (Control.subscribe x).exec o w = (o.sourceUp x, w.after o (.subscribe x)) :=
  Prod.ext (World.answer_subscribe x) rfl

end Control
end Veda.Rtsp
