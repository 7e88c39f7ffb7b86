import OneToThree.Lib.InsMap
import OneToThree.Lib.Machine
import OneToThree.Lib.Tasks

/-!
# Voice messages and video circles

The hook that records the microphone, or the camera. `startVoiceCapture` and
`startVideoCircleCapture` ask for a device and begin a recording of it; `stopCapture` waits for a
start that is under way, stops the recorder, and returns what the recorder has delivered when its
`stop` event comes, or after a while without one (`watchdog`). The stream, the recorder and the list
of chunks are refs that all calls share.

A stream and its recorder have the number of the start that they are from.

* `Safe`: once all calls are over, and a stop was the last one, nothing is recorded and no device is
  left on; and what a stop returned is what one recorder has delivered.
* `safe_of_orderly`: so it is along the runs in which one recording is begun after the other, and
  the events of one come before the next (`orderly`).
-/

namespace OneToThree.Media.Recorder

inductive Kind
  | audio
  | video
  deriving DecidableEq

/-- A chunk, by its recorder and by how many that had delivered before. -/
abbrev Chunk := ℕ × ℕ

/-- What a stop gave to its recorder to do on the `stop` event, and to the watchdog: its own number,
    and the stream and the kind that were current. -/
structure Finalizer where
  op : ℕ
  stream : Option ℕ
  kind : Option Kind
  deriving DecidableEq

/-- A `MediaRecorder`. -/
structure RecorderState where
  recording : Bool
  onstop : Option Finalizer
  /-- How many chunks it has delivered. -/
  delivered : ℕ
  /-- Whether its `stop` event has come. -/
  stopped : Bool

/-- What a call of `stopCapture` awaits. -/
inductive Stop
  /-- A start to settle, if one is given. -/
  | settling (start : Option ℕ)
  | finalizing (recorder : ℕ) (f : Finalizer)
  deriving DecidableEq

structure CaptureResult where
  kind : Option Kind
  chunks : List Chunk

structure State where
  isRecording : Bool
  recorderRef : Option ℕ
  chunksRef : List Chunk
  streamRef : Option ℕ
  kindRef : Option Kind
  /-- The start whose promise it is. -/
  startSettleRef : Option ℕ
  /-- The starts that wait for a device. -/
  starts : Tasks Kind
  stops : Tasks Stop
  recorders : InsMap ℕ RecorderState
  /-- The streams whose tracks have not been stopped. -/
  live : List ℕ
  returned : List CaptureResult
  /-- Whether the last call was of `stopCapture`. -/
  lastStop : Bool

namespace State

def initial : State :=
  ⟨false, none, [], none, none, none, .empty, .empty, ∅, [], [], false⟩

variable (s : State)

/-- The live streams, but for the tracks of one that are stopped. -/
def stopTracks (stream : Option ℕ) : List ℕ := s.live.filter fun st => some st ≠ stream

def releaseCapture : State :=
  { s with
    live := s.stopTracks s.streamRef
    streamRef := none
    recorderRef := none
    kindRef := none }

def settle (i : ℕ) : State := { s with startSettleRef := none, starts := s.starts.finish i }

/-- `startVoiceCapture` and `startVideoCircleCapture`, up to the device that they ask for.
    `devices`: whether there is an interface to ask. -/
def startCapture (kind : Kind) (devices : Bool) : State :=
  { s with
    startSettleRef := if devices then some s.starts.received else none
    live := s.stopTracks s.streamRef
    chunksRef := []
    starts := if devices then s.starts.spawn kind else s.starts
    lastStop := false }

def startVoiceCapture (devices : Bool) : State := s.startCapture .audio devices

def startVideoCircleCapture (devices : Bool) : State := s.startCapture .video devices

/-- The device is there. `constructs`: whether a recorder can be made for it, and started. -/
def granted (i : ℕ) (constructs : Bool) (kind : Kind) : State :=
  if constructs then
    { s with
      streamRef := some i
      live := s.live ++ [i]
      kindRef := some kind
      recorderRef := some i
      recorders := s.recorders.set i ⟨true, none, 0, false⟩
      isRecording := true }.settle i
  else
    { s with
      streamRef := some i
      live := s.live ++ [i]
      kindRef := some kind }.releaseCapture.settle i

/-- The device is refused. -/
def denied (i : ℕ) : State := s.releaseCapture.settle i

/-- The recorder of the ref, if it is recording. -/
def activeRecorder : Option (ℕ × RecorderState) :=
  s.recorderRef.bind fun r => (s.recorders.get? r).bind fun rec =>
    if rec.recording then some (r, rec) else none

/-- What `stopCapture` does once no start is under way. `short`: less has been recorded than
    `MIN_RECORDING_DURATION_MS`. -/
def proceed (j : ℕ) (short : Bool) : State :=
  match s.activeRecorder with
  | none => { s with isRecording := false, stops := s.stops.finish j }
  | some (r, rec) =>
    if short then
      { s with
        recorders := s.recorders.set r { rec with recording := false }
        live := s.stopTracks s.streamRef
        streamRef := none
        recorderRef := none
        kindRef := none
        chunksRef := []
        isRecording := false
        stops := s.stops.finish j }
    else
      let f : Finalizer := ⟨j, s.streamRef, s.kindRef⟩
      { s with
        recorders := s.recorders.set r { rec with recording := false, onstop := some f }
        isRecording := false
        stops := s.stops.goOn j (.finalizing r f) }

/-- The call awaits the start whose promise it finds. -/
def stopCapture (short : Bool) : State :=
  let called :=
    { s with stops := s.stops.spawn (.settling s.startSettleRef), lastStop := true }
  if s.startSettleRef.isSome then called else called.proceed s.stops.received short

/-- The result is made of the chunks that are there. `fits`: it is not too large. Only the first of
    the `stop` event and the watchdog returns it. -/
def finalize (f : Finalizer) (fits : Bool) : State :=
  { s with
    chunksRef := []
    recorderRef := none
    kindRef := none
    live := s.stopTracks f.stream
    streamRef := none
    returned :=
      if (s.stops.get? f.op).isSome ∧ s.chunksRef ≠ [] ∧ fits then
        s.returned ++ [⟨f.kind, s.chunksRef⟩]
      else s.returned
    stops := s.stops.finish f.op }

/-- The `stop` event of a recorder. -/
def stopEvent (r : ℕ) (rec : RecorderState) (fits : Bool) : State :=
  let s := { s with recorders := s.recorders.set r { rec with stopped := true } }
  match rec.onstop with
  | none => s
  | some f => s.finalize f fits

/-- The `dataavailable` event of a recorder, with a chunk that is not empty. -/
def dataEvent (r : ℕ) (rec : RecorderState) : State :=
  { s with
    chunksRef := s.chunksRef ++ [(r, rec.delivered)]
    recorders := s.recorders.set r { rec with delivered := rec.delivered + 1 } }

/-- A recorder ends with the tracks of its stream. -/
def endTracks (r : ℕ) (rec : RecorderState) : State :=
  { s with recorders := s.recorders.set r { rec with recording := false } }

end State

inductive Event
  | start (kind : Kind) (devices : Bool)
  | granted (i : ℕ) (constructs : Bool)
  | denied (i : ℕ)
  | stop (short : Bool)
  /-- The start that a stop awaits has settled. -/
  | settled (j : ℕ) (short : Bool)
  /-- The start that a stop awaits takes too long. -/
  | settleTimeout (j : ℕ) (short : Bool)
  | data (r : ℕ)
  | stopped (r : ℕ) (fits : Bool)
  | watchdog (j : ℕ)
  | tracksEnd (r : ℕ)

/-- Whether a stop awaits a start, and which. -/
def Stop.start? : Stop → Option ℕ
  | .settling start => start
  | .finalizing _ _ => none

def Stop.finalizer? : Stop → Option Finalizer
  | .settling _ => none
  | .finalizing _ f => some f

def State.call (s : State) (kind : Kind) (devices : Bool) : State :=
  match kind with
  | .audio => s.startVoiceCapture devices
  | .video => s.startVideoCircleCapture devices

def step (s : State) : Event → Option State
  | .start kind devices => some (s.call kind devices)
  | .granted i constructs => (s.starts.get? i).map (s.granted i constructs)
  | .denied i => (s.starts.get? i).map fun _ => s.denied i
  | .stop short => some (s.stopCapture short)
  | .settled j short => ((s.stops.get? j).bind Stop.start?).bind fun i =>
    if (s.starts.get? i).isNone then some (s.proceed j short) else none
  | .settleTimeout j short => ((s.stops.get? j).bind Stop.start?).map fun _ => s.proceed j short
  | .data r => (s.recorders.get? r).bind fun rec =>
    if rec.stopped then none else some (s.dataEvent r rec)
  | .stopped r fits => (s.recorders.get? r).bind fun rec =>
    if rec.recording || rec.stopped then none else some (s.stopEvent r rec fits)
  | .watchdog j => ((s.stops.get? j).bind Stop.finalizer?).map fun f => s.finalize f true
  | .tracksEnd r => (s.recorders.get? r).bind fun rec =>
    if rec.recording && r ∉ s.live then some (s.endTracks r rec) else none

def machine : Machine State Event where
  init s := s = .initial
  step := step

/-- The first `n` chunks of a recorder. -/
def chunksOf (r n : ℕ) : List Chunk := (List.range n).map fun k => (r, k)

structure Safe (s : State) : Prop where
  released : (∀ i, s.starts.get? i = none) → (∀ j, s.stops.get? j = none) → s.lastStop = true →
    s.live = [] ∧ s.isRecording = false
  whole : ∀ res ∈ s.returned, ∃ r rec, s.recorders.get? r = some rec ∧
    res.chunks = chunksOf r rec.delivered

def Stop.isFinalizing (p : Stop) : Bool := p.finalizer?.isSome

/-- The recorder is that of the last start. -/
def isLatest (s : State) (r : ℕ) : Bool := s.starts.received = r + 1

/-- A start finds no other start under way, no stop that waits for one, nothing being recorded, and
    no chunk of a recorder that is being stopped. A device is granted when the previous recording is
    finalized, and a start settles in time. The chunks of a recorder come while it is the last, and
    before it is finalized, if it is; so does its `stop` event, unless it is the first to come. -/
def orderly (s : State) : Event → Bool
  | .start _ _ => !(s.starts.any fun _ => true) && !(s.stops.any fun p => !p.isFinalizing) &&
    s.activeRecorder.isNone && (s.chunksRef = [] || !s.stops.any Stop.isFinalizing)
  | .granted _ _ => !s.stops.any Stop.isFinalizing
  | .settleTimeout j _ => ((s.stops.get? j).bind Stop.start?).all fun i => (s.starts.get? i).isNone
  | .data r => (s.recorders.get? r).all fun rec =>
    match rec.onstop with
    | some f => (s.stops.get? f.op).isSome
    | none => isLatest s r
  | .stopped r _ => (s.recorders.get? r).all fun rec =>
    rec.onstop.all fun f => (s.stops.get? f.op).isSome || isLatest s r
  | .denied _ | .stop _ | .settled _ _ | .watchdog _ | .tracksEnd _ => true

/-! ## Chunks -/

theorem chunksOf_succ (r n : ℕ) : chunksOf r (n + 1) = chunksOf r n ++ [(r, n)] := by
  rw [chunksOf, List.range_succ, List.map_append, chunksOf, List.map_singleton]

theorem fst_of_mem_chunksOf {r n : ℕ} {c : Chunk} (h : c ∈ chunksOf r n) : c.1 = r := by
  obtain ⟨k, -, rfl⟩ := List.mem_map.1 h
  rfl

/-! ## Runs in order -/

/-- What holds of a recorder while it is recording. -/
structure Active (s : State) (r : ℕ) (rec : RecorderState) : Prop where
  current : s.recorderRef = some r
  stream : s.streamRef = some r
  on : r ∈ s.live
  onstop : rec.onstop = none
  chunks : s.chunksRef = chunksOf r rec.delivered
  last : s.starts.received = r + 1
  noStart : ∀ i, s.starts.get? i = none
  noFinalizing : ∀ j r' f, s.stops.get? j ≠ some (.finalizing r' f)

/-- What holds while a stop waits for the `stop` event of a recorder. -/
structure Finalizing (s : State) (j r : ℕ) (f : Finalizer) : Prop where
  op : f.op = j
  recorder : ∃ rec, s.recorders.get? r = some rec ∧ rec.onstop = some f ∧
    s.chunksRef = chunksOf r rec.delivered
  last : ∀ r' rec, s.recorders.get? r' = some rec → r' ≤ r
  only : ∀ j' r' f', s.stops.get? j' = some (.finalizing r' f') → j' = j

structure Sound (s : State) : Prop where
  settle : ∀ i, s.startSettleRef = some i ↔ (s.starts.get? i).isSome
  latest : ∀ i kind, s.starts.get? i = some kind → s.starts.received = i + 1
  /-- A stop waits for the start that is under way. -/
  waits : ∀ j start, s.stops.get? j = some (.settling start) →
    ∀ i kind, s.starts.get? i = some kind → start = some i
  /-- The next recording starts with no chunks. -/
  clear : ∀ i kind, s.starts.get? i = some kind →
    (∀ j r f, s.stops.get? j ≠ some (.finalizing r f)) → s.chunksRef = []
  named : ∀ r rec, s.recorders.get? r = some rec → s.starts.Over r
  active : ∀ r rec, s.recorders.get? r = some rec → rec.recording = true → Active s r rec
  finalizing : ∀ j r f, s.stops.get? j = some (.finalizing r f) → Finalizing s j r f
  handler : ∀ r rec f, s.recorders.get? r = some rec → rec.onstop = some f →
    s.stops.get? f.op = some (.finalizing r f) ∨ s.stops.Over f.op
  /-- A device is on for a recording, or for one that is being stopped. -/
  live : ∀ st ∈ s.live, (∃ rec, s.recorders.get? st = some rec ∧ rec.recording = true) ∨
    ∃ j r f, s.stops.get? j = some (.finalizing r f) ∧ f.stream = some st
  recording : s.isRecording = true → ∃ r rec, s.recorders.get? r = some rec ∧ rec.recording = true
  /-- A stop that was called last waits for what is under way. -/
  startAsked : s.lastStop = true → ∀ i kind, s.starts.get? i = some kind →
    ∃ j start, s.stops.get? j = some (.settling start)
  stopAsked : s.lastStop = true → ∀ r rec, s.recorders.get? r = some rec → rec.recording = true →
    ∃ j start, s.stops.get? j = some (.settling start)
  whole : ∀ res ∈ s.returned, ∃ r rec f, s.recorders.get? r = some rec ∧ rec.onstop = some f ∧
    s.stops.Over f.op ∧ res.chunks = chunksOf r rec.delivered

theorem sound_initial : Sound .initial where
  settle i := by simp [State.initial, Tasks.get?, Tasks.empty]
  latest i kind h := absurd h.symm (Option.some_ne_none _)
  waits j start h := absurd h.symm (Option.some_ne_none _)
  clear i kind h := absurd h.symm (Option.some_ne_none _)
  named r rec h := absurd h.symm (Option.some_ne_none _)
  active r rec h := absurd h.symm (Option.some_ne_none _)
  finalizing j r f h := absurd h.symm (Option.some_ne_none _)
  handler r rec f h := absurd h.symm (Option.some_ne_none _)
  live st h := absurd h List.not_mem_nil
  recording h := absurd h Bool.false_ne_true
  startAsked h := absurd h Bool.false_ne_true
  stopAsked h := absurd h Bool.false_ne_true
  whole res h := absurd h List.not_mem_nil

theorem Sound.safe {s : State} (hs : Sound s) : Safe s where
  released hstarts hstops hlast := by
    have hidle : ∀ r rec, s.recorders.get? r = some rec → rec.recording ≠ true := by
      intro r rec hr hrec
      obtain ⟨j, start, hj⟩ := hs.stopAsked hlast r rec hr hrec
      exact Option.some_ne_none _ (hj.symm.trans (hstops j))
    constructor
    · refine List.eq_nil_iff_forall_not_mem.2 fun st hst => ?_
      obtain ⟨rec, hr, hrec⟩ | ⟨j, r, f, hj, -⟩ := hs.live st hst
      · exact hidle st rec hr hrec
      · exact Option.some_ne_none _ (hj.symm.trans (hstops j))
    · by_contra hrecording
      obtain ⟨r, rec, hr, hrec⟩ := hs.recording (Bool.not_eq_false _ ▸ hrecording)
      exact hidle r rec hr hrec
  whole res hres := by
    obtain ⟨r, rec, f, hr, -, -, hchunks⟩ := hs.whole res hres
    exact ⟨r, rec, hr, hchunks⟩

namespace Sound

variable {s : State} (hs : Sound s)
include hs

/-- Nothing is recorded while a start waits for its device. -/
theorem idle_of_start {i : ℕ} {kind : Kind} (hi : s.starts.get? i = some kind) {r : ℕ}
    {rec : RecorderState} (hr : s.recorders.get? r = some rec) : rec.recording = false := by
  by_contra hrec
  have hnone := (hs.active r rec hr (Bool.not_eq_false _ ▸ hrec)).noStart i
  exact Option.some_ne_none kind (hi.symm.trans hnone)

/-- Nor while a recorder is being stopped. -/
theorem idle_of_finalizing {j r : ℕ} {f : Finalizer}
    (hj : s.stops.get? j = some (.finalizing r f)) {r' : ℕ} {rec : RecorderState}
    (hr : s.recorders.get? r' = some rec) : rec.recording = false := by
  by_contra hrec
  exact (hs.active r' rec hr (Bool.not_eq_false _ ▸ hrec)).noFinalizing j r f hj

theorem idle_of_handler {r : ℕ} {rec : RecorderState} (hr : s.recorders.get? r = some rec)
    {f : Finalizer} (hf : rec.onstop = some f) : rec.recording = false := by
  by_contra hrec
  have hnone := (hs.active r rec hr (Bool.not_eq_false _ ▸ hrec)).onstop
  exact Option.some_ne_none f (hf.symm.trans hnone)

/-- At most one start waits. -/
theorem start_unique {i i' : ℕ} {kind kind' : Kind} (hi : s.starts.get? i = some kind)
    (hi' : s.starts.get? i' = some kind') : i = i' :=
  Nat.succ.inj ((hs.latest i kind hi).symm.trans (hs.latest i' kind' hi'))

theorem starts_finish {i : ℕ} {kind : Kind} (hi : s.starts.get? i = some kind) (i' : ℕ) :
    (s.starts.finish i).get? i' = none := by
  rw [Tasks.get?_finish]
  split_ifs with hne
  · rfl
  · exact Option.eq_none_iff_forall_ne_some.2 fun kind' hi' => hne (hs.start_unique hi' hi)

theorem recording_unique {r r' : ℕ} {rec rec' : RecorderState}
    (hr : s.recorders.get? r = some rec) (hrec : rec.recording = true)
    (hr' : s.recorders.get? r' = some rec') (hrec' : rec'.recording = true) : r = r' :=
  Nat.succ.inj ((hs.active r rec hr hrec).last.symm.trans (hs.active r' rec' hr' hrec').last)

theorem activeRecorder_of_recording {r : ℕ} {rec : RecorderState}
    (hr : s.recorders.get? r = some rec) (hrec : rec.recording = true) :
    s.activeRecorder = some (r, rec) := by
  rw [State.activeRecorder, (hs.active r rec hr hrec).current, Option.bind_some, hr,
    Option.bind_some, if_pos hrec]

end Sound

/-! ## Starts -/

/-- Nothing is recorded. -/
def Idle (s : State) : Prop := ∀ r rec, s.recorders.get? r = some rec → rec.recording = false

section
variable {s : State}

theorem mem_stopTracks {stream : Option ℕ} {st : ℕ} :
    st ∈ s.stopTracks stream ↔ st ∈ s.live ∧ some st ≠ stream := by
  rw [State.stopTracks, List.mem_filter, decide_eq_true_iff]

/-- A recorder is the one that is written, or another that was there. -/
theorem recorder_set_cases {m : InsMap ℕ RecorderState} {r r' : ℕ} {rec rec' : RecorderState}
    (h : (m.set r rec).get? r' = some rec') :
    (r' = r ∧ rec' = rec) ∨ (r' ≠ r ∧ m.get? r' = some rec') := by
  rw [InsMap.get?_set] at h
  split_ifs at h with hr
  · exact .inl ⟨hr, (Option.some.inj h).symm⟩
  · exact .inr ⟨hr, h⟩

theorem get?_startCapture (hstarts : ∀ i, s.starts.get? i = none) {kind kind' : Kind}
    {devices : Bool} {i : ℕ} (hi : (s.startCapture kind devices).starts.get? i = some kind') :
    devices = true ∧ i = s.starts.received := by
  cases devices with
  | false => exact absurd (hi.symm.trans (hstarts i)) (Option.some_ne_none kind')
  | true =>
    refine ⟨rfl, ?_⟩
    by_contra hne
    change (s.starts.spawn kind).get? i = some kind' at hi
    rw [Tasks.get?_spawn, if_neg hne, hstarts] at hi
    exact Option.some_ne_none kind' hi.symm

theorem over_startCapture {kind : Kind} {devices : Bool} {r : ℕ} (h : s.starts.Over r) :
    (s.startCapture kind devices).starts.Over r := by
  cases devices with
  | false => exact h
  | true => exact h.spawn

/-- A start that comes when everything is over, or when what is being stopped has delivered
    nothing. -/
theorem Sound.startCapture (hs : Sound s) (hstarts : ∀ i, s.starts.get? i = none)
    (hstops : ∀ j start, s.stops.get? j ≠ some (.settling start)) (hidle : Idle s)
    (hchunks : s.chunksRef = [] ∨ ∀ j r f, s.stops.get? j ≠ some (.finalizing r f)) (kind : Kind)
    (devices : Bool) : Sound (s.startCapture kind devices) where
  settle i := by
    cases devices with
    | false => simp [State.startCapture, hstarts]
    | true =>
      simp only [State.startCapture, if_true, Tasks.get?_spawn, Option.some_inj]
      by_cases hi : i = s.starts.received
      · simp [hi]
      · simp [hi, hstarts, Ne.symm hi]
  latest i kind' hi := by
    obtain ⟨rfl, rfl⟩ := get?_startCapture hstarts hi
    rfl
  waits j start hj := absurd hj (hstops j start)
  clear _ _ _ _ := rfl
  named r rec hr := over_startCapture (hs.named r rec hr)
  active r rec hr hrec := absurd hrec ((hidle r rec hr).symm ▸ Bool.false_ne_true)
  finalizing j r f hj := by
    obtain ⟨hop, ⟨rec, hr, hf, hrec⟩, hlast, honly⟩ := hs.finalizing j r f hj
    -- The chunks that are dropped are none.
    obtain hnil | hnot := hchunks
    · exact ⟨hop, ⟨rec, hr, hf, hnil.symm.trans hrec⟩, hlast, honly⟩
    · exact absurd hj (hnot j r f)
  handler := hs.handler
  live st hst := hs.live st (mem_stopTracks.1 hst).1
  recording := hs.recording
  startAsked h := absurd h Bool.false_ne_true
  stopAsked h := absurd h Bool.false_ne_true
  whole := hs.whole

/-- A start that fails, with the tracks of some streams stopped. -/
theorem Sound.abandon (hs : Sound s) {i : ℕ} {kind : Kind} (hi : s.starts.get? i = some kind)
    {live : List ℕ} (hlive : live ⊆ s.live) :
    Sound ({ s with live, streamRef := none, recorderRef := none, kindRef := none }.settle i) := by
  have hnone := hs.starts_finish hi
  have hstart : ∀ i' kind', (s.starts.finish i).get? i' ≠ some kind' := by
    intro i' kind' hi'
    exact Option.some_ne_none kind' (hi'.symm.trans (hnone i'))
  exact {
    settle i' := by simp [State.settle, hnone]
    latest i' kind' hi' := absurd hi' (hstart i' kind')
    waits _ _ _ i' kind' hi' := absurd hi' (hstart i' kind')
    clear i' kind' hi' := absurd hi' (hstart i' kind')
    named r rec hr := (hs.named r rec hr).finish
    active r rec hr hrec :=
      absurd hrec ((hs.idle_of_start hi hr).symm ▸ Bool.false_ne_true)
    finalizing j r f hj :=
      have h := hs.finalizing j r f hj
      ⟨h.op, h.recorder, h.last, h.only⟩
    handler := hs.handler
    live st hst := hs.live st (hlive hst)
    recording := hs.recording
    startAsked _ i' kind' hi' := absurd hi' (hstart i' kind')
    stopAsked := hs.stopAsked
    whole := hs.whole }

theorem Sound.denied (hs : Sound s) {i : ℕ} {kind : Kind} (hi : s.starts.get? i = some kind) :
    Sound (s.denied i) :=
  hs.abandon hi fun _ hst => (mem_stopTracks.1 hst).1

/-- A device that is granted when the previous recording is finalized. -/
theorem Sound.granted (hs : Sound s) {i : ℕ} {kind : Kind} (hi : s.starts.get? i = some kind)
    (hstops : ∀ j r f, s.stops.get? j ≠ some (.finalizing r f)) (constructs : Bool) :
    Sound (s.granted i constructs kind) := by
  cases constructs with
  | false =>
    refine hs.abandon hi fun st hst => ?_
    -- The stream that was granted is stopped at once.
    obtain ⟨hst, hne⟩ := mem_stopTracks.1 hst
    exact (List.mem_append.1 hst).resolve_right fun h => hne (List.mem_singleton.1 h ▸ rfl)
  | true =>
    have hother : ∀ r rec, s.recorders.get? r = some rec → r ≠ i := by
      rintro r rec hr rfl
      exact Option.some_ne_none kind (hi.symm.trans (hs.named r rec hr).2)
    have hnone := hs.starts_finish hi
    have hstart : ∀ i' kind', (s.starts.finish i).get? i' ≠ some kind' := by
      intro i' kind' hi'
      exact Option.some_ne_none kind' (hi'.symm.trans (hnone i'))
    have hkept : ∀ {r rec}, s.recorders.get? r = some rec →
        (s.recorders.set i ⟨true, none, 0, false⟩).get? r = some rec := by
      intro r rec hr
      rw [InsMap.get?_set_ne _ _ (hother r rec hr), hr]
    have hmade : (s.recorders.set i ⟨true, none, 0, false⟩).get? i =
        some ⟨true, none, 0, false⟩ := InsMap.get?_set_self _ _ _
    exact {
      settle i' := by simp [State.granted, State.settle, hnone]
      latest i' kind' hi' := absurd hi' (hstart i' kind')
      waits _ _ _ i' kind' hi' := absurd hi' (hstart i' kind')
      clear i' kind' hi' := absurd hi' (hstart i' kind')
      named r rec hr := by
        obtain ⟨rfl, -⟩ | ⟨-, hr⟩ := recorder_set_cases hr
        · exact Tasks.over_finish hi
        · exact (hs.named r rec hr).finish
      active r rec hr hrec := by
        obtain ⟨rfl, rfl⟩ | ⟨-, hr⟩ := recorder_set_cases hr
        · exact ⟨rfl, rfl, List.mem_append_right _ (List.mem_singleton_self r), rfl,
            hs.clear r kind hi hstops, hs.latest r kind hi, hnone, hstops⟩
        · exact absurd hrec ((hs.idle_of_start hi hr).symm ▸ Bool.false_ne_true)
      finalizing j r f hj := absurd hj (hstops j r f)
      handler r rec f hr hf := by
        obtain ⟨-, rfl⟩ | ⟨-, hr⟩ := recorder_set_cases hr
        · exact absurd hf.symm (Option.some_ne_none f)
        · exact hs.handler r rec f hr hf
      live st hst := by
        obtain hst | hst := List.mem_append.1 hst
        · obtain ⟨rec, hr, hrec⟩ | hfinal := hs.live st hst
          · exact .inl ⟨rec, hkept hr, hrec⟩
          · exact .inr hfinal
        · exact .inl ⟨⟨true, none, 0, false⟩, List.mem_singleton.1 hst ▸ hmade, rfl⟩
      recording _ := ⟨i, _, hmade, rfl⟩
      startAsked _ i' kind' hi' := absurd hi' (hstart i' kind')
      -- The stop that waits for the start is there still.
      stopAsked hlast _ _ _ _ := hs.startAsked hlast i kind hi
      whole res hres := by
        obtain ⟨r, rec, f, hr, hrest⟩ := hs.whole res hres
        exact ⟨r, rec, f, hkept hr, hrest⟩ }

/-! ## Stops -/

theorem finalizing_spawn {ts : Tasks Stop} {start : Option ℕ} {j r : ℕ} {f : Finalizer}
    (h : (ts.spawn (.settling start)).get? j = some (.finalizing r f)) :
    ts.get? j = some (.finalizing r f) := by
  rw [Tasks.get?_spawn] at h
  split_ifs at h
  · exact Stop.noConfusion (Option.some.inj h)
  · exact h

theorem get?_spawn_of {ts : Tasks Stop} {p q : Stop} {j : ℕ} (h : ts.get? j = some p) :
    (ts.spawn q).get? j = some p := by
  rw [Tasks.get?_spawn, if_neg (Tasks.ne_received h), h]

/-- A stop is called. -/
theorem Sound.called (hs : Sound s) : Sound
    { s with stops := s.stops.spawn (.settling s.startSettleRef), lastStop := true } where
  settle := hs.settle
  latest := hs.latest
  waits j start hj i kind hi := by
    rw [Tasks.get?_spawn] at hj
    split_ifs at hj
    · obtain rfl := Stop.settling.inj (Option.some.inj hj)
      exact (hs.settle i).2 (Option.isSome_iff_exists.2 ⟨kind, hi⟩)
    · exact hs.waits j start hj i kind hi
  clear i kind hi hstops := hs.clear i kind hi fun j r f hj => hstops j r f (get?_spawn_of hj)
  named := hs.named
  active r rec hr hrec :=
    have h := hs.active r rec hr hrec
    ⟨h.current, h.stream, h.on, h.onstop, h.chunks, h.last, h.noStart,
      fun j r' f hj => h.noFinalizing j r' f (finalizing_spawn hj)⟩
  finalizing j r f hj :=
    have h := hs.finalizing j r f (finalizing_spawn hj)
    ⟨h.op, h.recorder, h.last, fun j' r' f' hj' => h.only j' r' f' (finalizing_spawn hj')⟩
  handler r rec f hr hf := (hs.handler r rec f hr hf).imp get?_spawn_of Tasks.Over.spawn
  live st hst := by
    obtain hrec | ⟨j, r, f, hj, hf⟩ := hs.live st hst
    · exact .inl hrec
    · exact .inr ⟨j, r, f, get?_spawn_of hj, hf⟩
  recording := hs.recording
  startAsked _ _ _ _ := ⟨s.stops.received, s.startSettleRef, by rw [Tasks.get?_spawn, if_pos rfl]⟩
  stopAsked _ _ _ _ _ := ⟨s.stops.received, s.startSettleRef, by rw [Tasks.get?_spawn, if_pos rfl]⟩
  whole res hres := by
    obtain ⟨r, rec, f, hr, hf, hover, hchunks⟩ := hs.whole res hres
    exact ⟨r, rec, f, hr, hf, hover.spawn, hchunks⟩

/-- A stop that waited for a start ends, and there is nothing for it to do. -/
theorem Sound.finishStop (hs : Sound s) {j : ℕ} {start : Option ℕ}
    (hj : s.stops.get? j = some (.settling start)) (hstarts : ∀ i, s.starts.get? i = none)
    (hidle : Idle s) : Sound { s with isRecording := false, stops := s.stops.finish j } := by
  have hstart : ∀ i kind, s.starts.get? i ≠ some kind := by
    intro i kind hi
    exact Option.some_ne_none kind (hi.symm.trans (hstarts i))
  have hback : ∀ {j' p}, (s.stops.finish j).get? j' = some p → s.stops.get? j' = some p := by
    intro j' p hj'
    rw [Tasks.get?_finish] at hj'
    split_ifs at hj'
    exact hj'
  have hkept : ∀ {j' r f}, s.stops.get? j' = some (.finalizing r f) →
      (s.stops.finish j).get? j' = some (.finalizing r f) := by
    intro j' r f hj'
    have hne : j' ≠ j := by
      rintro rfl
      exact Stop.noConfusion (Option.some.inj (hj.symm.trans hj'))
    rw [Tasks.get?_finish, if_neg hne, hj']
  exact {
    settle := hs.settle
    latest := hs.latest
    waits j' start' hj' := hs.waits j' start' (hback hj')
    clear i kind hi := absurd hi (hstart i kind)
    named := hs.named
    active r rec hr hrec := absurd hrec ((hidle r rec hr).symm ▸ Bool.false_ne_true)
    finalizing j' r f hj' :=
      have h := hs.finalizing j' r f (hback hj')
      ⟨h.op, h.recorder, h.last, fun j'' r' f' hj'' => h.only j'' r' f' (hback hj'')⟩
    handler r rec f hr hf := (hs.handler r rec f hr hf).imp hkept Tasks.Over.finish
    live st hst := by
      obtain hrec | ⟨j', r, f, hj', hf⟩ := hs.live st hst
      · exact .inl hrec
      · exact .inr ⟨j', r, f, hkept hj', hf⟩
    recording h := absurd h Bool.false_ne_true
    startAsked _ i kind hi := absurd hi (hstart i kind)
    stopAsked _ r rec hr hrec := absurd hrec ((hidle r rec hr).symm ▸ Bool.false_ne_true)
    whole res hres := by
      obtain ⟨r, rec, f, hr, hf, hover, hchunks⟩ := hs.whole res hres
      exact ⟨r, rec, f, hr, hf, hover.finish, hchunks⟩ }

/-- The recording is dropped. -/
theorem Sound.discard (hs : Sound s) {r : ℕ} {rec : RecorderState}
    (hr : s.recorders.get? r = some rec) (hrec : rec.recording = true) : Sound
    { s with
      recorders := s.recorders.set r { rec with recording := false }
      live := s.stopTracks s.streamRef
      streamRef := none
      recorderRef := none
      kindRef := none
      chunksRef := []
      isRecording := false } := by
  have hact := hs.active r rec hr hrec
  have hstart : ∀ i kind, s.starts.get? i ≠ some kind := by
    intro i kind hi
    exact Option.some_ne_none kind (hi.symm.trans (hact.noStart i))
  have hidle : ∀ r' rec', (s.recorders.set r { rec with recording := false }).get? r' = some rec' →
      rec'.recording = true → False := by
    intro r' rec' hr' hrec'
    obtain ⟨-, rfl⟩ | ⟨hne, hr'⟩ := recorder_set_cases hr'
    · exact Bool.false_ne_true hrec'
    · exact hne (hs.recording_unique hr' hrec' hr hrec)
  exact {
    settle := hs.settle
    latest := hs.latest
    waits := hs.waits
    clear _ _ _ _ := rfl
    named r' rec' hr' := by
      obtain ⟨rfl, -⟩ | ⟨-, hr'⟩ := recorder_set_cases hr'
      · exact hs.named _ rec hr
      · exact hs.named r' rec' hr'
    active r' rec' hr' hrec' := (hidle r' rec' hr' hrec').elim
    finalizing j r' f hj := absurd hj (hact.noFinalizing j r' f)
    handler r' rec' f hr' hf := by
      obtain ⟨rfl, rfl⟩ | ⟨-, hr'⟩ := recorder_set_cases hr'
      · exact hs.handler r' rec f hr hf
      · exact hs.handler r' rec' f hr' hf
    live st hst := by
      obtain ⟨hst, hne⟩ := mem_stopTracks.1 hst
      obtain ⟨rec', hr', hrec'⟩ | ⟨j, r', f, hj, -⟩ := hs.live st hst
      -- The stream that is stopped is that of the recorder.
      · exact absurd (hs.recording_unique hr' hrec' hr hrec ▸ hact.stream.symm) hne
      · exact absurd hj (hact.noFinalizing j r' f)
    recording h := absurd h Bool.false_ne_true
    startAsked := hs.startAsked
    stopAsked _ r' rec' hr' hrec' := (hidle r' rec' hr' hrec').elim
    whole res hres := by
      obtain ⟨r', rec', f, hr', hf, hrest⟩ := hs.whole res hres
      have hne : r' ≠ r := by
        rintro rfl
        obtain rfl := Option.some.inj (hr.symm.trans hr')
        exact Option.some_ne_none f (hf.symm.trans hact.onstop)
      exact ⟨r', rec', f, by rw [InsMap.get?_set_ne _ _ hne, hr'], hf, hrest⟩ }

/-- The recorder is stopped, and the stop waits for it. -/
theorem Sound.stopRecorder (hs : Sound s) {j : ℕ} {start : Option ℕ}
    (hj : s.stops.get? j = some (.settling start)) {r : ℕ} {rec : RecorderState}
    (hr : s.recorders.get? r = some rec) (hrec : rec.recording = true) {f : Finalizer}
    (hop : f.op = j) (hstream : f.stream = s.streamRef) : Sound
    { s with
      recorders := s.recorders.set r { rec with recording := false, onstop := some f }
      isRecording := false
      stops := s.stops.goOn j (.finalizing r f) } := by
  subst hop
  have hact := hs.active r rec hr hrec
  have hstart : ∀ i kind, s.starts.get? i ≠ some kind := by
    intro i kind hi
    exact Option.some_ne_none kind (hi.symm.trans (hact.noStart i))
  have hidle : ∀ r' rec', (s.recorders.set r { rec with recording := false, onstop := some f }).get?
      r' = some rec' → rec'.recording = true → False := by
    intro r' rec' hr' hrec'
    obtain ⟨-, rfl⟩ | ⟨hne, hr'⟩ := recorder_set_cases hr'
    · exact Bool.false_ne_true hrec'
    · exact hne (hs.recording_unique hr' hrec' hr hrec)
  have hself : (s.stops.goOn f.op (.finalizing r f)).get? f.op = some (.finalizing r f) := by
    rw [Tasks.get?_goOn hj, if_pos rfl]
  -- No other recorder is being stopped.
  have honly : ∀ j' r' f', (s.stops.goOn f.op (.finalizing r f)).get? j' =
      some (.finalizing r' f') → j' = f.op ∧ r' = r ∧ f' = f := by
    intro j' r' f' hj'
    rw [Tasks.get?_goOn hj] at hj'
    split_ifs at hj' with hne
    · obtain ⟨rfl, rfl⟩ := Stop.finalizing.inj (Option.some.inj hj')
      exact ⟨hne, rfl, rfl⟩
    · exact absurd hj' (hact.noFinalizing j' r' f')
  exact {
    settle := hs.settle
    latest := hs.latest
    waits _ _ _ i kind hi := absurd hi (hstart i kind)
    clear i kind hi := absurd hi (hstart i kind)
    named r' rec' hr' := by
      obtain ⟨rfl, -⟩ | ⟨-, hr'⟩ := recorder_set_cases hr'
      · exact hs.named _ rec hr
      · exact hs.named r' rec' hr'
    active r' rec' hr' hrec' := (hidle r' rec' hr' hrec').elim
    finalizing j' r' f' hj' := by
      obtain ⟨rfl, rfl, rfl⟩ := honly j' r' f' hj'
      refine ⟨rfl, ⟨_, InsMap.get?_set_self _ _ _, rfl, hact.chunks⟩, ?_, ?_⟩
      · intro r'' rec' hr'
        obtain ⟨rfl, -⟩ | ⟨-, hr'⟩ := recorder_set_cases hr'
        · exact Nat.le_refl _
        · exact Nat.le_of_lt_succ (Nat.lt_of_lt_of_eq (hs.named r'' rec' hr').1 hact.last)
      · intro j'' r'' f'' hj''
        exact (honly j'' r'' f'' hj'').1
    handler r' rec' f' hr' hf' := by
      obtain ⟨rfl, rfl⟩ | ⟨-, hr'⟩ := recorder_set_cases hr'
      · obtain rfl := Option.some.inj hf'
        exact .inl hself
      · exact .inr (((hs.handler r' rec' f' hr' hf').resolve_left
          (hact.noFinalizing f'.op r' f')).goOn hj)
    live st hst := by
      obtain ⟨rec', hr', hrec'⟩ | ⟨j', r', f', hj', -⟩ := hs.live st hst
      · obtain rfl := hs.recording_unique hr' hrec' hr hrec
        exact .inr ⟨f.op, st, f, hself, hstream.trans hact.stream⟩
      · exact absurd hj' (hact.noFinalizing j' r' f')
    recording h := absurd h Bool.false_ne_true
    startAsked _ i kind hi := absurd hi (hstart i kind)
    stopAsked _ r' rec' hr' hrec' := (hidle r' rec' hr' hrec').elim
    whole res hres := by
      obtain ⟨r', rec', f', hr', hf', hover, hchunks⟩ := hs.whole res hres
      have hne : r' ≠ r := by
        rintro rfl
        obtain rfl := Option.some.inj (hr.symm.trans hr')
        exact Option.some_ne_none f' (hf'.symm.trans hact.onstop)
      exact ⟨r', rec', f', by rw [InsMap.get?_set_ne _ _ hne, hr'], hf', hover.goOn hj, hchunks⟩ }

theorem activeRecorder_eq_some {r : ℕ} {rec : RecorderState}
    (h : s.activeRecorder = some (r, rec)) :
    s.recorders.get? r = some rec ∧ rec.recording = true := by
  obtain ⟨r', -, h⟩ := Option.bind_eq_some_iff.1 h
  obtain ⟨rec', hr, h⟩ := Option.bind_eq_some_iff.1 h
  obtain ⟨hrec, h⟩ := Option.ite_none_right_eq_some.1 h
  obtain ⟨rfl, rfl⟩ := Prod.mk.inj (Option.some.inj h)
  exact ⟨hr, hrec⟩

theorem Sound.idle (hs : Sound s) (h : s.activeRecorder = none) : Idle s := by
  intro r rec hr
  by_contra hrec
  have hsome := hs.activeRecorder_of_recording hr (Bool.not_eq_false _ ▸ hrec)
  exact Option.some_ne_none _ (hsome.symm.trans h)

/-- What a stop does when no start is under way. -/
theorem Sound.proceed (hs : Sound s) {j : ℕ} {start : Option ℕ}
    (hj : s.stops.get? j = some (.settling start)) (hstarts : ∀ i, s.starts.get? i = none)
    (short : Bool) : Sound (s.proceed j short) := by
  cases hactive : s.activeRecorder with
  | none =>
    simp only [State.proceed, hactive]
    exact hs.finishStop hj hstarts (hs.idle hactive)
  | some p =>
    obtain ⟨r, rec⟩ := p
    obtain ⟨hr, hrec⟩ := activeRecorder_eq_some hactive
    cases short with
    | true =>
      simp only [State.proceed, hactive, if_true]
      have hdiscard := hs.discard hr hrec
      exact hdiscard.finishStop hj hstarts (hdiscard.idle rfl)
    | false =>
      simp only [State.proceed, hactive, if_neg Bool.false_ne_true]
      exact hs.stopRecorder hj hr hrec rfl rfl

theorem Sound.stopCapture (hs : Sound s) (short : Bool) : Sound (s.stopCapture short) := by
  have hcalled := hs.called
  unfold State.stopCapture
  split_ifs with hsettle
  · exact hcalled
  · refine hcalled.proceed (Tasks.get?_spawn.trans (if_pos rfl)) (fun i => ?_) short
    by_contra hi
    rw [(hs.settle i).2 (Option.isSome_iff_ne_none.2 hi)] at hsettle
    exact hsettle rfl

/-! ## Events of recorders -/

/-- A chunk of the only recorder whose chunks the list is for. -/
theorem Sound.data (hs : Sound s) {r : ℕ} {rec : RecorderState}
    (hr : s.recorders.get? r = some rec)
    (hactive : ∀ r' rec', s.recorders.get? r' = some rec' → rec'.recording = true → r' = r)
    (hfinal : ∀ j r' f, s.stops.get? j = some (.finalizing r' f) → r' = r)
    (hstarts : (∀ j r' f, s.stops.get? j ≠ some (.finalizing r' f)) →
      ∀ i, s.starts.get? i = none)
    (hover : ∀ f, rec.onstop = some f → ¬s.stops.Over f.op) : Sound (s.dataEvent r rec) where
  settle := hs.settle
  latest := hs.latest
  waits := hs.waits
  clear i kind hi hstops :=
    absurd (hi.symm.trans (hstarts hstops i)) (Option.some_ne_none kind)
  named r' rec' hr' := by
    obtain ⟨rfl, -⟩ | ⟨-, hr'⟩ := recorder_set_cases hr'
    · exact hs.named _ rec hr
    · exact hs.named r' rec' hr'
  active r' rec' hr' hrec' := by
    obtain ⟨rfl, rfl⟩ | ⟨hne, hr'⟩ := recorder_set_cases hr'
    · have h := hs.active r' rec hr hrec'
      refine ⟨h.current, h.stream, h.on, h.onstop, ?_, h.last, h.noStart, h.noFinalizing⟩
      rw [State.dataEvent, h.chunks, chunksOf_succ]
    · exact absurd (hactive r' rec' hr' hrec') hne
  finalizing j r' f hj := by
    obtain rfl := hfinal j r' f hj
    obtain ⟨hop, ⟨rec', hr', hf, hchunks⟩, hlast, honly⟩ := hs.finalizing j r' f hj
    obtain rfl := Option.some.inj (hr.symm.trans hr')
    refine ⟨hop, ⟨_, InsMap.get?_set_self _ _ _, hf, ?_⟩, ?_, honly⟩
    · rw [State.dataEvent, hchunks, chunksOf_succ]
    · intro r'' rec' hr''
      obtain ⟨rfl, -⟩ | ⟨-, hr''⟩ := recorder_set_cases hr''
      · exact Nat.le_refl _
      · exact hlast r'' rec' hr''
  handler r' rec' f hr' hf := by
    obtain ⟨rfl, rfl⟩ | ⟨-, hr'⟩ := recorder_set_cases hr'
    · exact hs.handler r' rec f hr hf
    · exact hs.handler r' rec' f hr' hf
  live st hst := by
    obtain ⟨rec', hr', hrec'⟩ | hfinal := hs.live st hst
    · obtain rfl := hactive st rec' hr' hrec'
      obtain rfl := Option.some.inj (hr.symm.trans hr')
      exact .inl ⟨_, InsMap.get?_set_self _ _ _, hrec'⟩
    · exact .inr hfinal
  recording h := by
    obtain ⟨r', rec', hr', hrec'⟩ := hs.recording h
    obtain rfl := hactive r' rec' hr' hrec'
    obtain rfl := Option.some.inj (hr.symm.trans hr')
    exact ⟨r', _, InsMap.get?_set_self _ _ _, hrec'⟩
  startAsked := hs.startAsked
  stopAsked h r' rec' hr' hrec' := by
    obtain ⟨rfl, rfl⟩ | ⟨-, hr'⟩ := recorder_set_cases hr'
    · exact hs.stopAsked h r' rec hr hrec'
    · exact hs.stopAsked h r' rec' hr' hrec'
  whole res hres := by
    obtain ⟨r', rec', f, hr', hf, hdone, hchunks⟩ := hs.whole res hres
    have hne : r' ≠ r := by
      rintro rfl
      obtain rfl := Option.some.inj (hr.symm.trans hr')
      exact hover f hf hdone
    exact ⟨r', rec', f, by rw [State.dataEvent, InsMap.get?_set_ne _ _ hne, hr'], hf, hdone,
      hchunks⟩

/-- The `stop` event of a recorder has come. -/
theorem Sound.setStopped (hs : Sound s) {r : ℕ} {rec : RecorderState}
    (hr : s.recorders.get? r = some rec) : Sound
    { s with recorders := s.recorders.set r { rec with stopped := true } } := by
  -- The recorder is as it was, but for what nothing depends on.
  have hback : ∀ {r' rec'}, (s.recorders.set r { rec with stopped := true }).get? r' = some rec' →
      ∃ rec₀, s.recorders.get? r' = some rec₀ ∧ rec₀.recording = rec'.recording ∧
        rec₀.onstop = rec'.onstop ∧ rec₀.delivered = rec'.delivered := by
    intro r' rec' hr'
    obtain ⟨rfl, rfl⟩ | ⟨-, hr'⟩ := recorder_set_cases hr'
    · exact ⟨rec, hr, rfl, rfl, rfl⟩
    · exact ⟨rec', hr', rfl, rfl, rfl⟩
  have hkept : ∀ {r' rec₀}, s.recorders.get? r' = some rec₀ →
      ∃ rec', (s.recorders.set r { rec with stopped := true }).get? r' = some rec' ∧
        rec'.recording = rec₀.recording ∧ rec'.onstop = rec₀.onstop ∧
        rec'.delivered = rec₀.delivered := by
    intro r' rec₀ hr'
    by_cases hne : r' = r
    · subst hne
      obtain rfl := Option.some.inj (hr.symm.trans hr')
      exact ⟨_, InsMap.get?_set_self _ _ _, rfl, rfl, rfl⟩
    · exact ⟨rec₀, by rw [InsMap.get?_set_ne _ _ hne, hr'], rfl, rfl, rfl⟩
  exact {
    settle := hs.settle
    latest := hs.latest
    waits := hs.waits
    clear := hs.clear
    named r' rec' hr' := by
      obtain ⟨rec₀, hr', -⟩ := hback hr'
      exact hs.named r' rec₀ hr'
    active r' rec' hr' hrec' := by
      obtain ⟨rec₀, hr', hrec, honstop, hdelivered⟩ := hback hr'
      have h := hs.active r' rec₀ hr' (hrec.trans hrec')
      exact ⟨h.current, h.stream, h.on, honstop.symm.trans h.onstop, hdelivered ▸ h.chunks, h.last,
        h.noStart, h.noFinalizing⟩
    finalizing j r' f hj := by
      obtain ⟨hop, ⟨rec₀, hr', hf, hchunks⟩, hlast, honly⟩ := hs.finalizing j r' f hj
      obtain ⟨rec', hr', -, honstop, hdelivered⟩ := hkept hr'
      refine ⟨hop, ⟨rec', hr', honstop.trans hf, hdelivered.symm ▸ hchunks⟩, ?_, honly⟩
      intro r'' rec'' hr''
      obtain ⟨rec₁, hr'', -⟩ := hback hr''
      exact hlast r'' rec₁ hr''
    handler r' rec' f hr' hf := by
      obtain ⟨rec₀, hr', -, honstop, -⟩ := hback hr'
      exact hs.handler r' rec₀ f hr' (honstop.trans hf)
    live st hst := by
      obtain ⟨rec₀, hr', hrec⟩ | hfinal := hs.live st hst
      · obtain ⟨rec', hr', hrec', -⟩ := hkept hr'
        exact .inl ⟨rec', hr', hrec'.trans hrec⟩
      · exact .inr hfinal
    recording h := by
      obtain ⟨r', rec₀, hr', hrec⟩ := hs.recording h
      obtain ⟨rec', hr', hrec', -⟩ := hkept hr'
      exact ⟨r', rec', hr', hrec'.trans hrec⟩
    startAsked := hs.startAsked
    stopAsked h r' rec' hr' hrec' := by
      obtain ⟨rec₀, hr', hrec, -⟩ := hback hr'
      exact hs.stopAsked h r' rec₀ hr' (hrec.trans hrec')
    whole res hres := by
      obtain ⟨r', rec₀, f, hr', hf, hdone, hchunks⟩ := hs.whole res hres
      obtain ⟨rec', hr', -, honstop, hdelivered⟩ := hkept hr'
      exact ⟨r', rec', f, hr', honstop.trans hf, hdone, hdelivered.symm ▸ hchunks⟩ }

/-- The result of a stop is made, or a `stop` event comes after it has been made. -/
theorem Sound.finalize (hs : Sound s) {f : Finalizer} (hidle : Idle s)
    (honly : ∀ j r f', s.stops.get? j = some (.finalizing r f') → j = f.op ∧ f' = f)
    (hop : f.op < s.stops.received) (hsettling : ∀ start, s.stops.get? f.op ≠ some (.settling start))
    (hwhole : (s.stops.get? f.op).isSome → ∃ r rec, s.recorders.get? r = some rec ∧
      rec.onstop = some f ∧ s.chunksRef = chunksOf r rec.delivered) (fits : Bool) :
    Sound (s.finalize f fits) := by
  have hback : ∀ {j p}, (s.stops.finish f.op).get? j = some p →
      s.stops.get? j = some p ∧ j ≠ f.op := by
    intro j p hj
    rw [Tasks.get?_finish] at hj
    split_ifs at hj with hne
    exact ⟨hj, hne⟩
  have hnot : ∀ j r f', (s.stops.finish f.op).get? j ≠ some (.finalizing r f') := by
    intro j r f' hj
    exact (hback hj).2 (honly j r f' (hback hj).1).1
  have hkept : ∀ {j start}, s.stops.get? j = some (.settling start) →
      (s.stops.finish f.op).get? j = some (.settling start) := by
    intro j start hj
    rw [Tasks.get?_finish, if_neg, hj]
    rintro rfl
    exact hsettling start hj
  have hdone : (s.stops.finish f.op).Over f.op := ⟨hop, by rw [Tasks.get?_finish, if_pos rfl]⟩
  exact {
    settle := hs.settle
    latest := hs.latest
    waits j start hj := hs.waits j start (hback hj).1
    clear _ _ _ _ := rfl
    named := hs.named
    active r rec hr hrec := absurd hrec ((hidle r rec hr).symm ▸ Bool.false_ne_true)
    finalizing j r f' hj := absurd hj (hnot j r f')
    handler r rec f' hr hf := by
      obtain hj | hover := hs.handler r rec f' hr hf
      · obtain ⟨-, rfl⟩ := honly f'.op r f' hj
        exact .inr hdone
      · exact .inr hover.finish
    live st hst := by
      obtain ⟨hst, hne⟩ := mem_stopTracks.1 hst
      obtain ⟨rec, hr, hrec⟩ | ⟨j, r, f', hj, hstream⟩ := hs.live st hst
      · exact absurd hrec ((hidle st rec hr).symm ▸ Bool.false_ne_true)
      · obtain ⟨-, rfl⟩ := honly j r f' hj
        exact absurd hstream.symm hne
    recording := hs.recording
    startAsked h i kind hi := by
      obtain ⟨j, start, hj⟩ := hs.startAsked h i kind hi
      exact ⟨j, start, hkept hj⟩
    stopAsked _ r rec hr hrec := absurd hrec ((hidle r rec hr).symm ▸ Bool.false_ne_true)
    whole res hres := by
      have hcases : res ∈ s.returned ∨ (s.stops.get? f.op).isSome ∧ res.chunks = s.chunksRef := by
        unfold State.finalize at hres
        split_ifs at hres with hreturns
        · obtain hres | hres := List.mem_append.1 hres
          · exact .inl hres
          · exact .inr ⟨hreturns.1, congrArg CaptureResult.chunks (List.mem_singleton.1 hres)⟩
        · exact .inl hres
      obtain hres | ⟨hj, hres⟩ := hcases
      · obtain ⟨r, rec, f', hr, hf, hover, hchunks⟩ := hs.whole res hres
        exact ⟨r, rec, f', hr, hf, hover.finish, hchunks⟩
      · obtain ⟨r, rec, hr, hf, hchunks⟩ := hwhole hj
        exact ⟨r, rec, f, hr, hf, hdone, hres.trans hchunks⟩ }

/-- A stop that waits for a recorder is the only one. -/
theorem Sound.finalizing_unique (hs : Sound s) {j j' r r' : ℕ} {f f' : Finalizer}
    (hj : s.stops.get? j = some (.finalizing r f))
    (hj' : s.stops.get? j' = some (.finalizing r' f')) : j' = j ∧ r' = r ∧ f' = f := by
  have hop := (hs.finalizing j r f hj).only j' r' f' hj'
  subst hop
  obtain ⟨rfl, rfl⟩ := Stop.finalizing.inj (Option.some.inj (hj'.symm.trans hj))
  exact ⟨rfl, rfl, rfl⟩

theorem Sound.finalizeWaiting (hs : Sound s) {j r : ℕ} {f : Finalizer}
    (hj : s.stops.get? j = some (.finalizing r f)) (fits : Bool) : Sound (s.finalize f fits) := by
  have hfinal := hs.finalizing j r f hj
  obtain rfl := hfinal.op
  refine hs.finalize (fun r' rec hr' => hs.idle_of_finalizing hj hr') ?_ ?_ ?_ ?_ fits
  · intro j' r' f' hj'
    obtain ⟨hop, -, hf⟩ := hs.finalizing_unique hj hj'
    exact ⟨hop, hf⟩
  · by_contra hlt
    exact Option.some_ne_none _ (hj.symm.trans (s.stops.named _ (Nat.le_of_not_lt hlt)))
  · intro start hsettling
    exact Stop.noConfusion (Option.some.inj (hj.symm.trans hsettling))
  · intro _
    obtain ⟨rec, hr, hf, hchunks⟩ := hfinal.recorder
    exact ⟨r, rec, hr, hf, hchunks⟩

/-- What is recording, or being stopped, is the last recorder. -/
theorem Sound.eq_last (hs : Sound s) {r : ℕ} {rec : RecorderState}
    (hr : s.recorders.get? r = some rec) (hlast : s.starts.received = r + 1) :
    (∀ r' rec', s.recorders.get? r' = some rec' → rec'.recording = true → r' = r) ∧
      (∀ j r' f, s.stops.get? j = some (.finalizing r' f) → r' = r) ∧
      ∀ i, s.starts.get? i = none := by
  refine ⟨?_, ?_, ?_⟩
  · intro r' rec' hr' hrec'
    exact Nat.succ.inj ((hs.active r' rec' hr' hrec').last.symm.trans hlast)
  · intro j r' f hj
    have hfinal := hs.finalizing j r' f hj
    obtain ⟨rec', hr', -⟩ := hfinal.recorder
    have hlt := (hs.named r' rec' hr').1
    have hle := hfinal.last r rec hr
    omega
  · intro i
    by_contra hi
    obtain ⟨kind, hi⟩ := Option.ne_none_iff_exists'.1 hi
    obtain rfl := Nat.succ.inj ((hs.latest i kind hi).symm.trans hlast)
    exact Option.some_ne_none kind (hi.symm.trans (hs.named i rec hr).2)

theorem Sound.finalizeLate (hs : Sound s) {r : ℕ} {rec : RecorderState} {f : Finalizer}
    (hr : s.recorders.get? r = some rec) (hf : rec.onstop = some f) (hover : s.stops.Over f.op)
    (hlast : s.starts.received = r + 1) (fits : Bool) : Sound (s.finalize f fits) := by
  obtain ⟨hactive, hfinal, -⟩ := hs.eq_last hr hlast
  refine hs.finalize ?_ ?_ hover.1 ?_ ?_ fits
  · intro r' rec' hr'
    by_contra hrec
    obtain rfl := hactive r' rec' hr' (Bool.not_eq_false _ ▸ hrec)
    obtain rfl := Option.some.inj (hr.symm.trans hr')
    exact hrec (hs.idle_of_handler hr hf)
  · intro j r' f' hj
    exfalso
    obtain rfl := hfinal j r' f' hj
    obtain ⟨rec', hr', hf', -⟩ := (hs.finalizing j r' f' hj).recorder
    obtain rfl := Option.some.inj (hr.symm.trans hr')
    obtain rfl := Option.some.inj (hf.symm.trans hf')
    obtain rfl := (hs.finalizing j r' f hj).op
    exact Option.some_ne_none _ (hj.symm.trans hover.2)
  · intro start hsettling
    exact Option.some_ne_none _ (hsettling.symm.trans hover.2)
  · intro hsome
    rw [hover.2] at hsome
    exact absurd hsome Bool.false_ne_true

/-! ## Steps -/

theorem isLatest_iff {r : ℕ} : isLatest s r = true ↔ s.starts.received = r + 1 :=
  decide_eq_true_iff

theorem not_over_of_isSome {ts : Tasks Stop} {j : ℕ} (h : (ts.get? j).isSome = true) :
    ¬ts.Over j := by
  rintro ⟨-, hnone⟩
  rw [hnone] at h
  exact Bool.false_ne_true h

theorem Sound.dataEvent (hs : Sound s) {r : ℕ} {rec : RecorderState}
    (hr : s.recorders.get? r = some rec) (hok : orderly s (.data r) = true) :
    Sound (s.dataEvent r rec) := by
  simp only [orderly, hr, Option.all_some] at hok
  cases hf : rec.onstop with
  | none =>
    rw [hf] at hok
    obtain ⟨hactive, hfinal, hstarts⟩ := hs.eq_last hr (isLatest_iff.1 hok)
    refine hs.data hr hactive hfinal (fun _ => hstarts) ?_
    intro f hf'
    exact absurd (hf'.symm.trans hf) (Option.some_ne_none f)
  | some f =>
    rw [hf] at hok
    have hnot := not_over_of_isSome hok
    have hj := (hs.handler r rec f hr hf).resolve_right hnot
    refine hs.data hr ?_ ?_ ?_ ?_
    · intro r' rec' hr' hrec'
      exact absurd hrec' ((hs.idle_of_finalizing hj hr').symm ▸ Bool.false_ne_true)
    · intro j r' f' hj'
      exact (hs.finalizing_unique hj hj').2.1
    · intro hnone
      exact absurd hj (hnone f.op r f)
    · intro f' hf'
      exact Option.some.inj (hf.symm.trans hf') ▸ hnot

theorem Sound.stopEvent (hs : Sound s) {r : ℕ} {rec : RecorderState} {fits : Bool}
    (hr : s.recorders.get? r = some rec) (hok : orderly s (.stopped r fits) = true) :
    Sound (s.stopEvent r rec fits) := by
  have hstopped := hs.setStopped hr
  simp only [orderly, hr, Option.all_some] at hok
  obtain ⟨recording, onstop, delivered, stopped⟩ := rec
  cases onstop with
  | none => exact hstopped
  | some f =>
    rw [Option.all_some, Bool.or_eq_true, isLatest_iff] at hok
    obtain hj | hover := hs.handler r _ f hr rfl
    · exact hstopped.finalizeWaiting hj fits
    · have hlast := hok.resolve_left fun hsome => not_over_of_isSome hsome hover
      exact hstopped.finalizeLate (InsMap.get?_set_self _ _ _) rfl hover hlast fits

theorem get?_of_start {j : ℕ} {i : ℕ} (h : (s.stops.get? j).bind Stop.start? = some i) :
    s.stops.get? j = some (.settling (some i)) := by
  obtain ⟨p, hj, hp⟩ := Option.bind_eq_some_iff.1 h
  cases p with
  | settling start =>
    obtain rfl : start = some i := hp
    exact hj
  | finalizing r f => exact absurd hp.symm (Option.some_ne_none i)

theorem get?_of_finalizer {j : ℕ} {f : Finalizer}
    (h : (s.stops.get? j).bind Stop.finalizer? = some f) :
    ∃ r, s.stops.get? j = some (.finalizing r f) := by
  obtain ⟨p, hj, hp⟩ := Option.bind_eq_some_iff.1 h
  cases p with
  | settling start => exact absurd hp.symm (Option.some_ne_none f)
  | finalizing r f' =>
    obtain rfl : f' = f := Option.some.inj hp
    exact ⟨r, hj⟩

/-- No start is under way once the one that a stop waits for has settled. -/
theorem Sound.starts_settled (hs : Sound s) {j i : ℕ}
    (hj : s.stops.get? j = some (.settling (some i))) (hi : s.starts.get? i = none) (i' : ℕ) :
    s.starts.get? i' = none := by
  by_contra hi'
  obtain ⟨kind, hi'⟩ := Option.ne_none_iff_exists'.1 hi'
  obtain rfl := Option.some.inj (hs.waits j (some i) hj i' kind hi')
  exact Option.some_ne_none kind (hi'.symm.trans hi)

theorem Sound.call (hs : Sound s) {kind : Kind} {devices : Bool}
    (hok : orderly s (.start kind devices) = true) : Sound (s.call kind devices) := by
  simp only [orderly, Bool.and_eq_true, Bool.or_eq_true, decide_eq_true_iff, Bool.not_eq_true',
    Option.isNone_iff_eq_none] at hok
  obtain ⟨⟨⟨hstarts, hwaits⟩, hactive⟩, hchunks⟩ := hok
  have hcall : s.call kind devices = s.startCapture kind devices := by
    cases kind with
    | audio => rfl
    | video => rfl
  rw [hcall]
  refine hs.startCapture (fun _ => Tasks.get?_eq_none_of_any hstarts)
    (fun _ _ => Tasks.get?_ne_of_any hwaits rfl) (hs.idle hactive) ?_ kind devices
  exact hchunks.imp_right fun hnone _ _ _ => Tasks.get?_ne_of_any hnone rfl

theorem Sound.step (hs : Sound s) {e : Event} (hok : orderly s e = true) {s' : State}
    (h : step s e = some s') : Sound s' := by
  cases e with
  | start kind devices => exact Option.some.inj h ▸ hs.call hok
  | granted i constructs =>
    obtain ⟨kind, hi, rfl⟩ := Option.map_eq_some_iff.1 h
    rw [orderly, Bool.not_eq_true'] at hok
    exact hs.granted hi (fun _ _ _ => Tasks.get?_ne_of_any hok rfl) constructs
  | denied i =>
    obtain ⟨kind, hi, rfl⟩ := Option.map_eq_some_iff.1 h
    exact hs.denied hi
  | stop short => exact Option.some.inj h ▸ hs.stopCapture short
  | settled j short =>
    obtain ⟨i, hj, h⟩ := Option.bind_eq_some_iff.1 h
    obtain ⟨hi, h⟩ := Option.ite_none_right_eq_some.1 h
    have hj := get?_of_start hj
    exact Option.some.inj h ▸
      hs.proceed hj (hs.starts_settled hj (Option.isNone_iff_eq_none.1 hi)) short
  | settleTimeout j short =>
    obtain ⟨i, hj, rfl⟩ := Option.map_eq_some_iff.1 h
    rw [orderly, hj, Option.all_some, Option.isNone_iff_eq_none] at hok
    have hj := get?_of_start hj
    exact hs.proceed hj (hs.starts_settled hj hok) short
  | data r =>
    obtain ⟨rec, hr, h⟩ := Option.bind_eq_some_iff.1 h
    obtain ⟨-, h⟩ := Option.ite_none_left_eq_some.1 h
    exact Option.some.inj h ▸ hs.dataEvent hr hok
  | stopped r fits =>
    obtain ⟨rec, hr, h⟩ := Option.bind_eq_some_iff.1 h
    obtain ⟨-, h⟩ := Option.ite_none_left_eq_some.1 h
    exact Option.some.inj h ▸ hs.stopEvent hr hok
  | watchdog j =>
    obtain ⟨f, hj, rfl⟩ := Option.map_eq_some_iff.1 h
    obtain ⟨r, hj⟩ := get?_of_finalizer hj
    exact hs.finalizeWaiting hj true
  | tracksEnd r =>
    -- What is recording has its tracks.
    obtain ⟨rec, hr, h⟩ := Option.bind_eq_some_iff.1 h
    obtain ⟨hrec, -⟩ := Option.ite_none_right_eq_some.1 h
    rw [Bool.and_eq_true, decide_eq_true_iff] at hrec
    exact absurd (hs.active r rec hr hrec.1).on hrec.2

end

/-- When one recording is begun after the other, and the events of each come before the next, no
    device is left on, and no recordings are mixed. -/
theorem safe_of_orderly {s : State}
    (h : (machine.restrict fun s e => orderly s e = true).Reachable s) : Safe s := by
  have hinv : (machine.restrict fun s e => orderly s e = true).Invariant Sound :=
    ⟨fun _ h => h ▸ sound_initial, fun _ _ _ hs h =>
      hs.step (Machine.restrict_step.1 h).1 (Machine.restrict_step.1 h).2⟩
  exact (hinv.reachable h).safe

/-- A voice message of two chunks. -/
theorem safe_of_orderly_voice : ∃ s,
    machine.run .initial [.start .audio true, .granted 0 true, .data 0, .stop false, .data 0,
      .stopped 0 true] = some s ∧
    s.returned.map CaptureResult.chunks = [[(0, 0), (0, 1)]] ∧ Safe s := by
  have hrun : ((machine.restrict fun s e => orderly s e = true).run .initial [.start .audio true,
      .granted 0 true, .data 0, .stop false, .data 0, .stopped 0 true]).map
        (fun s => s.returned.map CaptureResult.chunks) = some [[(0, 0), (0, 1)]] := by decide
  obtain ⟨s, hrun, hreturned⟩ := Option.map_eq_some_iff.1 hrun
  exact ⟨s, Machine.run_of_restrict hrun, hreturned,
    safe_of_orderly (Machine.reachable_of_run hrun rfl)⟩

/-- The device is granted after the stop has given up to wait for it, and stays on; and a chunk of a
    recording that was too short comes when the next one has started, and is in its result. -/
theorem device_left_on :
    (∃ s, machine.Reachable s ∧ (∀ i, s.starts.get? i = none) ∧ (∀ j, s.stops.get? j = none) ∧
      s.lastStop = true ∧ s.live = [0] ∧ s.isRecording = true ∧ ¬Safe s) ∧
    ∃ s, machine.Reachable s ∧
      s.returned.map CaptureResult.chunks = [[(0, 1), (1, 0), (1, 1)]] ∧ ¬Safe s := by
  constructor
  · have hrun : (machine.run .initial [.start .audio true, .stop false, .settleTimeout 0 false,
        .granted 0 true]).map (fun s => (s.starts.any fun _ => true, s.stops.any fun _ => true,
          s.lastStop, s.live, s.isRecording)) = some (false, false, true, [0], true) := by decide
    obtain ⟨s, hrun, hs⟩ := Option.map_eq_some_iff.1 hrun
    simp only [Prod.mk.injEq] at hs
    obtain ⟨hstarts, hstops, hlast, hlive, hrecording⟩ := hs
    have hstarts : ∀ i, s.starts.get? i = none := fun _ => Tasks.get?_eq_none_of_any hstarts
    have hstops : ∀ j, s.stops.get? j = none := fun _ => Tasks.get?_eq_none_of_any hstops
    refine ⟨s, Machine.reachable_of_run hrun rfl, hstarts, hstops, hlast, hlive, hrecording, ?_⟩
    intro hsafe
    have hoff := (hsafe.released hstarts hstops hlast).1
    exact List.cons_ne_nil 0 [] (hlive.symm.trans hoff)
  · have hrun : (machine.run .initial [.start .audio true, .granted 0 true, .data 0, .stop true,
        .start .audio true, .data 0, .granted 1 true, .data 1, .stop false, .data 1,
        .stopped 1 true]).map (fun s => s.returned.map CaptureResult.chunks) =
          some [[(0, 1), (1, 0), (1, 1)]] := by decide
    obtain ⟨s, hrun, hs⟩ := Option.map_eq_some_iff.1 hrun
    refine ⟨s, Machine.reachable_of_run hrun rfl, hs, fun hsafe => ?_⟩
    obtain ⟨res, hres, hchunks⟩ := List.mem_map.1 (hs ▸ List.mem_singleton_self _)
    obtain ⟨r, rec, -, hwhole⟩ := hsafe.whole res hres
    rw [hchunks] at hwhole
    -- It has a chunk of the one and a chunk of the other.
    have hfirst : (0, 1) ∈ chunksOf r rec.delivered := hwhole ▸ List.mem_cons_self
    have hsecond : (1, 0) ∈ chunksOf r rec.delivered :=
      hwhole ▸ List.mem_cons_of_mem _ List.mem_cons_self
    exact Nat.zero_ne_one ((fst_of_mem_chunksOf hfirst).trans (fst_of_mem_chunksOf hsecond).symm)

end OneToThree.Media.Recorder
