import PadPlay.Daemon.Flow
import PadPlay.Lib.Newest

/-!
# From the capture to the tablet's screen

A streaming session with the front of its pipeline: `capture_and_push` numbers the frames and pushes
them into an `appsrc` that holds one and drops the older (`max-buffers` 1, leaky), and the elements
between it and the `appsink` take a frame, encode it and hand it on, or wait while the `appsink` is
full. How many frames they have room for is a parameter; they put them out in order, as
`b-frames` 0 asks. Every run of the pipeline is a run of the session (`live_streams`), so what is
known of sessions holds of it. The encoder always takes the newest frame, the frames shown are in
the order of their capture (`shown_in_order`), and however slow a thread is, at most seven frames
more than the elements hold are on their way to the socket (`backlog_le`).
-/

namespace PadPlay.Daemon.Streaming

open PadPlay.Lib PadPlay.Device.VideoStream

/-! ## The machine -/

structure Live where
  session : Session
  /-- how many frames were captured and pushed; the next one's number -/
  captured : Nat
  appsrc : List Nat
  /-- the frames in the elements between the `appsrc` and the `appsink`, the oldest first -/
  encoding : List Nat
  /-- the frames of the encoder's packets, in the order it put them out -/
  frames : List Nat
  deriving DecidableEq, Repr

inductive LiveAction where
  | session (a : Action)
  /-- the elements take a frame from the `appsrc` -/
  | takes
  /-- they put out the packet of their oldest frame -/
  | encodes
  deriving DecidableEq, Repr

/-- `capture_and_push` goes through. -/
def Action.captures : Action → Bool
  | .pacing (.capture ok) => ok
  | _ => false

theorem Action.eq_of_captures {a : Action} (h : a.captures = true) :
    a = .pacing (.capture true) := by
  unfold captures at h
  split at h
  · rw [h]
  · cases h

/-- The encoder puts out what it was given, and nothing else. -/
def Action.encodes : Action → Bool
  | .video .encode => true
  | _ => false

/-- `push_buffer`. An `appsrc` that leaks takes every buffer. -/
def Live.push (gst : Gst) (s : Live) : Option Live :=
  (gst.appsrc.push s.appsrc s.captured).map fun appsrc =>
    { s with appsrc, captured := s.captured + 1 }

def live (gst : Gst) (packets : Nat → EncodedPacket) : Machine Live LiveAction where
  init := ⟨.init, 0, [], [], []⟩
  step
    | s, .session a =>
      if a.encodes then none
      else
        ((streaming gst packets).step s.session a).bind fun session =>
          (if a.captures then s.push gst else some s).map fun s => { s with session }
    | s, .takes =>
      match s.appsrc with
      | frame :: appsrc =>
        if s.encoding.length < gst.room then
          some { s with encoding := s.encoding ++ [frame], appsrc }
        else none
      | [] => none
    | s, .encodes =>
      match s.encoding with
      | [] => none
      | frame :: encoding =>
        ((streaming gst packets).step s.session (.video .encode)).map fun session =>
          { s with session, encoding, frames := s.frames ++ [frame] }

/-- What the `appsrc` makes of a frame: it keeps the newest. -/
def Live.pushed (s : Live) : Live :=
  { s with appsrc := pushNewest 1 s.appsrc s.captured, captured := s.captured + 1 }

theorem push_eq (gst : Gst) (s : Live) : s.push gst = some s.pushed := by
  rw [Live.push, gst.appsrc.push_drops]
  rfl

section
variable {gst : Gst} {packets : Nat → EncodedPacket} {s s' : Live} {a : LiveAction}

/-- What a step does: to the session, and to the front of the pipeline. -/
inductive LiveStep (gst : Gst) (packets : Nat → EncodedPacket) (s : Live) :
    LiveAction → Live → Prop
  | moves {a : Action} {session : Session}
      (hsession : (streaming gst packets).step s.session a = some session)
      (hencodes : a.encodes = false) (hcaptures : a.captures = false) :
      LiveStep gst packets s (.session a) { s with session }
  | captures {session : Session} (hsession : s.session.pace (.capture true) = some session) :
      LiveStep gst packets s (.session (.pacing (.capture true))) { s.pushed with session }
  | takes {frame : Nat} {appsrc : List Nat} (hroom : s.encoding.length < gst.room)
      (happsrc : s.appsrc = frame :: appsrc) :
      LiveStep gst packets s .takes { s with encoding := s.encoding ++ [frame], appsrc }
  | encodes {frame : Nat} {encoding : List Nat} {video : Drain}
      (hencoding : s.encoding = frame :: encoding)
      (hvideo : s.session.video.step gst.video s.session.running .encode = some video) :
      LiveStep gst packets s .encodes
        { s with session.video := video, encoding, frames := s.frames ++ [frame] }

theorem live_cases (hs : (live gst packets).step s a = some s') :
    LiveStep gst packets s a s' := by
  cases a with
  | session a =>
    simp only [live] at hs
    split at hs
    · cases hs
    · next hencodes =>
      obtain ⟨session, hsession, hpush⟩ := Option.bind_eq_some_iff.1 hs
      obtain ⟨pushed, hpushed, rfl⟩ := Option.map_eq_some_iff.1 hpush
      have hencodes : a.encodes = false := by simpa using hencodes
      cases hcaptures : a.captures with
      | false =>
        rw [hcaptures, if_neg Bool.false_ne_true] at hpushed
        cases hpushed
        exact .moves hsession hencodes hcaptures
      | true =>
        rw [hcaptures, if_pos rfl, push_eq] at hpushed
        cases hpushed
        obtain rfl := Action.eq_of_captures hcaptures
        exact .captures hsession
  | takes =>
    simp only [live] at hs
    split at hs
    · next happsrc =>
      split at hs
      · next hroom => cases hs; exact .takes hroom happsrc
      · cases hs
    · cases hs
  | encodes =>
    simp only [live] at hs
    split at hs
    · cases hs
    · next hencoding =>
      obtain ⟨session, hsession, rfl⟩ := Option.map_eq_some_iff.1 hs
      obtain ⟨video, hvideo, rfl⟩ := Option.map_eq_some_iff.1 hsession
      exact .encodes hencoding hvideo

end

/-! ## The session inside -/

section
variable {gst : Gst} {packets : Nat → EncodedPacket}

/-- The session inside is one that a run of the session machine reaches. -/
def Live.Streams (gst : Gst) (packets : Nat → EncodedPacket) (s : Live) : Prop :=
  ∃ inner, (streaming gst packets).run inner = some s.session

theorem Live.Streams.step {s s' : Live} {a : LiveAction}
    (h : s.Streams gst packets) (hs : (live gst packets).step s a = some s') :
    s'.Streams gst packets := by
  obtain ⟨inner, hinner⟩ := h
  have hnext : ∀ {b session}, (streaming gst packets).step s.session b = some session →
      ∃ inner, (streaming gst packets).run inner = some session := by
    intro b session hb
    refine ⟨inner ++ [b], (streaming gst packets).runFrom_append.2 ⟨s.session, hinner, ?_⟩⟩
    exact (streaming gst packets).runFrom_cons.2 ⟨session, hb, rfl⟩
  cases live_cases hs with
  | moves hsession => exact hnext hsession
  | captures hsession => exact hnext (b := .pacing (.capture true)) hsession
  | takes => exact ⟨inner, hinner⟩
  | encodes _ hvideo =>
    exact hnext (b := .video .encode) (Option.map_eq_some_iff.2 ⟨_, hvideo, rfl⟩)

/-! ## Order -/

/-- The frames that have not been dropped, in the order of their capture. -/
def Live.kept (s : Live) : List Nat := s.frames ++ s.encoding ++ s.appsrc

theorem Live.kept_takes {s : Live} {frame : Nat} {appsrc : List Nat}
    (happsrc : s.appsrc = frame :: appsrc) :
    ({ s with encoding := s.encoding ++ [frame], appsrc } : Live).kept = s.kept := by
  simp [kept, happsrc]

theorem Live.kept_encodes {s : Live} {frame : Nat} {encoding : List Nat} {video : Drain}
    (hencoding : s.encoding = frame :: encoding) : ({ s with
      session.video := video, encoding, frames := s.frames ++ [frame] } : Live).kept = s.kept := by
  simp [kept, hencoding]

structure Fresh (s : Live) : Prop where
  encoded : s.frames.length = s.session.video.encoded
  ordered : s.kept.Pairwise (· < ·)
  /-- the newest frame is never dropped -/
  newest : 0 < s.captured → s.kept.getLast? = some (s.captured - 1)
  below : ∀ frame ∈ s.kept, frame < s.captured
  waiting : s.appsrc.length ≤ videoSrc.maxBuffers

theorem fresh_init : Fresh (live gst packets).init := by
  constructor <;> simp [live, Live.kept, Session.init, Drain.init]

theorem Fresh.pushed {s : Live} (h : Fresh s) : Fresh s.pushed := by
  have hkept : s.pushed.kept = s.frames ++ s.encoding ++ pushNewest 1 s.appsrc s.captured := rfl
  have hsub : s.pushed.kept.Sublist (s.kept ++ [s.captured]) :=
    taken_sublist_push (List.Sublist.refl _) s.captured
  have hnext : (s.kept ++ [s.captured]).Pairwise (· < ·) := by
    refine List.pairwise_append.2 ⟨h.ordered, List.pairwise_singleton _ _, ?_⟩
    intro frame hframe new hnew
    rw [List.mem_singleton.1 hnew]
    exact h.below frame hframe
  refine ⟨h.encoded, hnext.sublist hsub, fun _ => ?_, ?_, ?_⟩
  · rw [hkept, List.getLast?_append, getLast?_pushNewest]
    rfl
  · intro frame hframe
    rcases List.mem_append.1 (hsub.subset hframe) with hold | hnew
    · exact Nat.lt_succ_of_lt (h.below frame hold)
    · rw [List.mem_singleton.1 hnew]
      exact Nat.lt_succ_self _
  · exact length_pushNewest_le (by decide) h.waiting s.captured

/-! ## The session's packets -/

theorem readAcks_host {s s' : Session} {a : ReaderAction} (hs : s.readAcks a = some s') :
    s'.video = s.video ∧ s'.begun = s.begun ∧ s'.pacing = s.pacing := by
  cases readAcks_cases hs with
  | turns | fills => exact ⟨rfl, rfl, rfl⟩
  | completes =>
    unfold Session.completeAck
    split <;> exact ⟨rfl, rfl, rfl⟩

theorem deviceStep_host {packets : Nat → EncodedPacket} {s s' : Session} {a : DeviceAction}
    (hs : s.deviceStep packets a = some s') :
    s'.video = s.video ∧ s'.begun = s.begun ∧ s'.pacing = s.pacing := by
  cases deviceStep_cases hs <;> exact ⟨rfl, rfl, rfl⟩

/-- What a step of the session that encodes nothing does to the video packets. -/
inductive HostStep (s s' : Session) : Action → Prop
  | rests {a : Action} (hpacing : ∀ b, a ≠ .pacing b)
      (hencoded : s'.video.encoded = s.video.encoded)
      (happsink : s'.video.appsink.length ≤ s.video.appsink.length) (hbegun : s'.begun = s.begun)
      (hsame : s'.pacing = s.pacing) : HostStep s s' a
  | paces {a : PacingAction} (hpace : s.pace a = some s')
      (hencoded : s'.video.encoded = s.video.encoded)
      (happsink : s'.video.appsink = s.video.appsink) : HostStep s s' (.pacing a)

theorem host_cases {s s' : Session} {a : Action}
    (hs : (streaming gst packets).step s a = some s') (hencodes : a.encodes = false) :
    HostStep s s' a := by
  cases a with
  | wait time => cases hs; exact .rests nofun rfl (Nat.le_refl _) rfl rfl
  | video a =>
    obtain ⟨video, hvideo, rfl⟩ := Option.map_eq_some_iff.1 hs
    cases Drain.step_cases hvideo with
    | encodes => cases hencodes
    | turns | sends => exact .rests nofun rfl (Nat.le_refl _) rfl rfl
    | @pulls packet appsink hphase happsink =>
      refine .rests nofun rfl ?_ rfl rfl
      show appsink.length ≤ s.video.appsink.length
      rw [happsink]
      exact Nat.le_succ _
  | audio a =>
    obtain ⟨audio, -, rfl⟩ := Option.map_eq_some_iff.1 hs
    exact .rests nofun rfl (Nat.le_refl _) rfl rfl
  | pacing a =>
    refine .paces hs ?_ ?_
    · cases pace_cases hs <;> rfl
    · cases pace_cases hs <;> rfl
  | reader a =>
    obtain ⟨hvideo, hbegun, hpacing⟩ := readAcks_host hs
    exact .rests nofun (by rw [hvideo]) (by rw [hvideo]) hbegun hpacing
  | device a =>
    obtain ⟨hvideo, hbegun, hpacing⟩ := deviceStep_host hs
    exact .rests nofun (by rw [hvideo]) (by rw [hvideo]) hbegun hpacing

theorem HostStep.encoded {s s' : Session} {a : Action} (h : HostStep s s' a) :
    s'.video.encoded = s.video.encoded := by
  cases h <;> assumption

/-! ## Order -/

theorem Fresh.step {s s' : Live} {a : LiveAction} (h : Fresh s)
    (hs : (live gst packets).step s a = some s') : Fresh s' := by
  cases live_cases hs with
  | moves hsession hencodes =>
    have hencoded := (host_cases hsession hencodes).encoded
    exact ⟨by rw [hencoded]; exact h.encoded, h.ordered, h.newest, h.below, h.waiting⟩
  | @captures session hsession =>
    have hcapture : (streaming gst packets).step s.session (.pacing (.capture true)) =
      some session := hsession
    have hencoded := (host_cases hcapture rfl).encoded
    obtain ⟨hlog, hordered, hnewest, hbelow, hwaiting⟩ := h.pushed
    exact ⟨by rw [hencoded]; exact hlog, hordered, hnewest, hbelow, hwaiting⟩
  | @takes frame appsrc hroom happsrc =>
    have hkept := Live.kept_takes happsrc
    refine ⟨h.encoded, ?_, ?_, ?_, ?_⟩
    · rw [hkept]
      exact h.ordered
    · rw [hkept]
      exact h.newest
    · rw [hkept]
      exact h.below
    · have hwaiting := h.waiting
      rw [happsrc, List.length_cons] at hwaiting
      exact Nat.le_of_succ_le hwaiting
  | @encodes frame encoding video hencoding hvideo =>
    have hkept := @Live.kept_encodes s frame encoding video hencoding
    refine ⟨?_, ?_, ?_, ?_, h.waiting⟩
    · rw [List.length_append, h.encoded]
      exact congrArg Drain.encoded (encode_newest hvideo).2.symm
    · rw [hkept]
      exact h.ordered
    · rw [hkept]
      exact h.newest
    · rw [hkept]
      exact h.below

/-- **Refinement.** A run of the pipeline is a run of the session. -/
theorem live_streams {actions : List LiveAction} {s : Live}
    (hrun : (live gst packets).run actions = some s) : s.Streams gst packets :=
  (live gst packets).run_invariant ⟨[], rfl⟩ (fun _ _ _ h hs => h.step hs) hrun

theorem Live.Streams.flow {s : Live} (h : s.Streams gst packets) :
    Flow s.session := by
  obtain ⟨inner, hinner⟩ := h
  exact flow_run hinner

theorem fresh_run {actions : List LiveAction} {s : Live}
    (hrun : (live gst packets).run actions = some s) : Fresh s :=
  (live gst packets).run_invariant fresh_init (fun _ _ _ h hs => h.step hs) hrun

/-- The packets that have left the encoder and have not begun to be sent. -/
theorem Flow.carried {s : Session} (h : Flow s) : s.video.encoded =
    s.begun + (s.video.channel.length + s.video.phase.hand.length + s.video.appsink.length) := by
  have hlossless := congrArg List.length h.host.lossless
  have hcarries := congrArg List.length h.host.carries
  simp only [List.length_append, List.length_range] at hlossless hcarries
  omega

/-- The frames rendered are in order, and the encoder has put out all of them. -/
theorem Flow.rendered_lt {s : Session} (h : Flow s) : s.device.rendered.Pairwise (· < ·) ∧
    ∀ packet ∈ s.device.rendered, packet < s.video.encoded := by
  obtain ⟨written, hsound, -⟩ := h.acks.written
  have hsub : s.device.rendered.Sublist (List.range s.device.demuxed.length) := by
    have hshown : s.device.rendered.Sublist (s.device.shown.map (·.frame)) :=
      List.filter_sublist.map _
    have hqueued : (s.device.shown.map (·.frame)).Sublist s.device.queued := by
      rw [hsound.order]
      exact List.sublist_append_left _ _
    have hdemuxed : s.device.queued.Sublist (s.device.demuxed.map (·.frame)) :=
      List.filter_sublist.map _
    rw [h.wire.demuxed] at hdemuxed
    exact (hshown.trans hqueued).trans hdemuxed
  refine ⟨List.pairwise_lt_range.sublist hsub, ?_⟩
  intro packet hpacket
  have hlt := List.mem_range.1 (hsub.subset hpacket)
  obtain ⟨m, -, hle, -⟩ := h.wire.wire
  have hcarried := h.carried
  omega

/-- The frame that waits for the encoder is the newest one. -/
theorem Fresh.waiting_newest {s : Live} (h : Fresh s) {frame : Nat} (hframe : frame ∈ s.appsrc) :
    frame + 1 = s.captured := by
  have hcaptured : frame < s.captured := by
    apply h.below
    rw [Live.kept]
    exact List.mem_append_right _ hframe
  have hwaiting := h.waiting
  obtain ⟨appsrc, happsrc⟩ : ∃ x, s.appsrc = [x] := by
    apply List.length_eq_one_iff.1
    exact Nat.le_antisymm hwaiting (List.length_pos_of_mem hframe)
  have hlast := h.newest (Nat.zero_lt_of_lt hcaptured)
  rw [Live.kept, happsrc, List.getLast?_concat, Option.some.injEq] at hlast
  rw [happsrc, List.mem_singleton] at hframe
  omega

/-- Looking up increasing positions in an increasing list. -/
theorem pairwise_lookup {frames l : List Nat} (hframes : frames.Pairwise (· < ·))
    (hl : l.Pairwise (· < ·)) (hlt : ∀ k ∈ l, k < frames.length) :
    ∃ found : List Nat, l.map (frames[·]?) = found.map some ∧ found.Pairwise (· < ·) := by
  induction l with
  | nil => exact ⟨[], rfl, .nil⟩
  | cons k l ih =>
    obtain ⟨hk, hl⟩ := List.pairwise_cons.1 hl
    obtain ⟨found, hfound, hordered⟩ := ih hl fun j hj => hlt j (List.mem_cons_of_mem _ hj)
    have hklt := hlt k List.mem_cons_self
    refine ⟨frames[k] :: found, ?_, List.pairwise_cons.2 ⟨?_, hordered⟩⟩
    · rw [List.map_cons, List.map_cons, hfound, List.getElem?_eq_getElem hklt]
    · intro frame hframe
      have hmem : some frame ∈ l.map (frames[·]?) := by
        rw [hfound]
        exact List.mem_map_of_mem hframe
      obtain ⟨j, hj, hget⟩ := List.mem_map.1 hmem
      obtain ⟨hjlt, rfl⟩ := List.getElem?_eq_some_iff.1 hget
      exact List.pairwise_iff_getElem.1 hframes k j hklt hjlt (hk j hj)

/-- **In order and fresh.** Whatever the interleaving of the pacing loop, the pipeline, the drain
threads and the device: the frames on the screen, each the frame of a packet the encoder put out,
were captured in that order; the newest frame captured is encoded, being encoded or the next to be;
and the frame that waits for the encoder is the newest one. -/
theorem shown_in_order {actions : List LiveAction} {s : Live}
    (hrun : (live gst packets).run actions = some s) :
    (∃ shown : List Nat, s.session.device.rendered.map (s.frames[·]?) = shown.map some ∧
      shown.Pairwise (· < ·)) ∧
    (0 < s.captured → s.kept.getLast? = some (s.captured - 1)) ∧
    ∀ frame ∈ s.appsrc, frame + 1 = s.captured := by
  have h := fresh_run hrun
  obtain ⟨hordered, hlt⟩ := (live_streams hrun).flow.rendered_lt
  refine ⟨?_, h.newest, fun frame hframe => h.waiting_newest hframe⟩
  · have hframes : s.frames.Sublist s.kept := by
      rw [Live.kept, List.append_assoc]
      exact List.sublist_append_left _ _
    apply pairwise_lookup (List.Pairwise.sublist hframes h.ordered) hordered
    intro packet hpacket
    rw [h.encoded]
    exact hlt packet hpacket

/-- Two frames are captured before the encoder takes one; it gets the second, which is shown. -/
def lateEncoder : List LiveAction :=
  ([.pacing (.check false), .pacing (.capture true), .pacing .receive, .pacing .receive,
      .pacing .sleep, .pacing (.check false), .pacing (.capture true)] : List Action).map
        .session ++
    [.takes, .encodes] ++
    ([.video .check, .video .pull, .video .send, .pacing .receive, .pacing .receive, .pacing .sent,
      .device (.inputAvailable 0), .device (.receive (.buffer 4096) false false),
      .device .output] : List Action).map .session

theorem shown_in_order_lateEncoder : ∃ s, (live (.plain 1) steadyPackets).run lateEncoder = some s ∧
    s.session.device.rendered = [0] ∧ s.frames = [1] ∧
    (∃ shown : List Nat, s.session.device.rendered.map (s.frames[·]?) = shown.map some ∧
      shown.Pairwise (· < ·)) ∧
    (0 < s.captured → s.kept.getLast? = some (s.captured - 1)) ∧
    ∀ frame ∈ s.appsrc, frame + 1 = s.captured := by
  have hsome : ((live (.plain 1) steadyPackets).run lateEncoder).map (fun s =>
      (s.session.device.rendered, s.frames)) = some ([0], [1]) := by decide
  obtain ⟨s, hrun, hs⟩ := Option.map_eq_some_iff.1 hsome
  rw [Prod.mk.injEq] at hs
  exact ⟨s, hrun, hs.1, hs.2, shown_in_order hrun⟩

/-! ## Backlog -/

/-- The pacing loop has emptied the channel and captured nothing since. -/
def Pacing.drained : Pacing → Bool
  | .sleeping | .checking | .capturing => true
  | _ => false

/-- With one frame in the `appsrc`, four packets in the `appsink` and one in the drain thread's
hand, six more than the elements hold are left when the channel is empty; a capture adds one. -/
structure Backlog (gst : Gst) (s : Live) : Prop where
  encoding : s.encoding.length ≤ gst.room
  appsink : s.session.video.appsink.length ≤ videoSink.maxBuffers
  drained : s.session.pacing.drained = true → s.kept.length ≤ s.session.begun + (gst.room + 6)
  always : s.kept.length ≤ s.session.begun + (gst.room + 7)

theorem receive_empty {s s' : Session} (hs : s.pace .receive = some s')
    (hsleeping : s'.pacing = .sleeping) : s.video.channel = [] := by
  simp only [Session.pace] at hs
  split at hs
  · split at hs <;> (cases hs; cases hsleeping)
  · split at hs
    · next hchannel => exact hchannel
    · cases hs; cases hsleeping
  · cases hs

theorem hand_length_le (phase : DrainPhase) : phase.hand.length ≤ 1 := by
  cases phase <;> simp [DrainPhase.hand]

theorem PaceStep.begun_mono {s s' : Session} {a : PacingAction} (hs : PaceStep s a s') :
    s.begun ≤ s'.begun := by
  cases hs with
  | takesVideo => exact Nat.le_succ _
  | _ => exact Nat.le_refl _

/-- The pacing loop comes to an end of its channels, or was there before. -/
theorem drained_cases {s s' : Session} {a : PacingAction} (hs : s.pace a = some s')
    (hdrained : s'.pacing.drained = true) :
    s'.begun = s.begun ∧ (s.video.channel = [] ∨ s.pacing.drained = true) := by
  cases pace_cases hs with
  | noVideo hpacing => exact ⟨rfl, .inl (receive_empty hs rfl)⟩
  | goesOn hpacing | sleeps hpacing => exact ⟨rfl, .inr (by rw [hpacing]; rfl)⟩
  | shutdown | captures | captureFails | noAudio | takesAudio | takesVideo | sendsAudio | sendsVideo
  | audioFails | videoFails => cases hdrained

/-- What is on its way when the channel is empty. -/
theorem Fresh.kept_le {s : Live} (h : Fresh s) (hflow : Flow s.session)
    (hencoding : s.encoding.length ≤ gst.room)
    (happsink : s.session.video.appsink.length ≤ videoSink.maxBuffers)
    (hchannel : s.session.video.channel = []) :
    s.kept.length ≤ s.session.begun + (gst.room + 6) := by
  have hcarried := hflow.carried
  have hencoded := h.encoded
  have hhand := hand_length_le s.session.video.phase
  have hwaiting : s.appsrc.length ≤ 1 := h.waiting
  have hsink : s.session.video.appsink.length ≤ 4 := happsink
  rw [hchannel, List.length_nil] at hcarried
  rw [Live.kept, List.length_append, List.length_append]
  omega

theorem Backlog.step {s s' : Live} {a : LiveAction} (h : Backlog gst s) (hfresh : Fresh s)
    (hflow : Flow s.session) (hs : (live gst packets).step s a = some s') :
    Backlog gst s' := by
  cases live_cases hs with
  | @moves a session hsession hencodes =>
    cases host_cases hsession hencodes with
    | rests _ _ happsink hbegun hsame =>
      refine ⟨h.encoding, Nat.le_trans happsink h.appsink, ?_, ?_⟩
      · intro hdrained
        rw [hsame] at hdrained
        exact hbegun ▸ h.drained hdrained
      · exact hbegun ▸ h.always
    | paces hpace _ happsink =>
      refine ⟨h.encoding, happsink ▸ h.appsink, ?_, ?_⟩
      · intro hdrained
        obtain ⟨hbegun, hchannel | hbefore⟩ := drained_cases hpace hdrained
        · exact hbegun ▸ hfresh.kept_le hflow h.encoding h.appsink hchannel
        · exact hbegun ▸ h.drained hbefore
      · exact Nat.le_trans h.always (Nat.add_le_add_right (pace_cases hpace).begun_mono _)
  | @captures session hsession =>
    -- the loop was about to capture, so the channel has been emptied since the last capture
    cases pace_cases hsession with
    | captures hpacing =>
      have hbefore := h.drained (by rw [hpacing]; rfl)
      refine ⟨h.encoding, h.appsink, nofun, ?_⟩
      have hpush := length_pushNewest_le_succ 1 s.appsrc s.captured
      rw [Live.kept, List.length_append, List.length_append] at hbefore
      show (s.frames ++ s.encoding ++ pushNewest 1 s.appsrc s.captured).length ≤ _
      rw [List.length_append, List.length_append]
      show _ ≤ s.session.begun + (gst.room + 7)
      omega
  | @takes frame appsrc hroom happsrc =>
    have hkept := Live.kept_takes happsrc
    refine ⟨?_, h.appsink, ?_, ?_⟩
    · rw [List.length_append]
      exact hroom
    · rw [hkept]
      exact h.drained
    · rw [hkept]
      exact h.always
  | @encodes frame encoding video hencoding hvideo =>
    have hkept := @Live.kept_encodes s frame encoding video hencoding
    refine ⟨?_, ?_, ?_, ?_⟩
    · have hle := h.encoding
      rw [hencoding, List.length_cons] at hle
      exact Nat.le_of_succ_le hle
    · obtain ⟨-, rfl⟩ := encode_newest hvideo
      exact length_pushNewest_le (by decide) h.appsink _
    · rw [hkept]
      exact h.drained
    · rw [hkept]
      exact h.always

theorem backlog_run {s t : Live} {actions : List LiveAction} (h : Backlog gst s)
    (hfresh : Fresh s) (hs : s.Streams gst packets)
    (hrun : (live gst packets).runFrom s actions = some t) :
    Backlog gst t ∧ Fresh t ∧ t.Streams gst packets := by
  induction actions generalizing s with
  | nil => cases hrun; exact ⟨h, hfresh, hs⟩
  | cons a actions ih =>
    obtain ⟨u, hu, hrun⟩ := (live gst packets).runFrom_cons.1 hrun
    exact ih (h.step hfresh hs.flow hu) (hfresh.step hu) (hs.step hu) hrun

theorem backlog_init : Backlog gst (live gst packets).init := by
  constructor <;> simp [live, Live.kept, Session.init, Drain.init]

theorem kept_step {s s' : Live} {a : LiveAction}
    (hno : a ≠ .session (.pacing (.capture true)))
    (hs : (live gst packets).step s a = some s') : s'.kept = s.kept := by
  cases live_cases hs with
  | moves => rfl
  | captures => exact absurd rfl hno
  | takes _ happsrc => exact Live.kept_takes happsrc
  | encodes hencoding => exact Live.kept_encodes hencoding

/-- Without a capture no frame is added. -/
theorem kept_runFrom {s t : Live} {actions : List LiveAction}
    (hno : ∀ a ∈ actions, a ≠ .session (.pacing (.capture true)))
    (hrun : (live gst packets).runFrom s actions = some t) : t.kept = s.kept := by
  induction actions generalizing s with
  | nil => cases hrun; rfl
  | cons a actions ih =>
    obtain ⟨u, hu, hrun⟩ := (live gst packets).runFrom_cons.1 hrun
    obtain ⟨ha, hno⟩ := List.forall_mem_cons.1 hno
    rw [ih hno hrun, kept_step ha hu]

/-- **The backlog.** However slow the encoder, a drain thread or a send is, and whatever room the
elements of the pipeline have: at most seven frames more are captured, not dropped, and not yet on
their way through the socket; and from one capture to the next, before the pacing loop looks at
`shutdown` again, it sends at most as many. -/
theorem backlog_le {actions more : List LiveAction} {s t : Live}
    (hrun : (live gst packets).run actions = some s)
    (hno : ∀ a ∈ more, a ≠ .session (.pacing (.capture true)))
    (hmore : (live gst packets).runFrom s more = some t) :
    s.kept.length ≤ s.session.begun + (gst.room + 7) ∧
      t.session.begun ≤ s.session.begun + (gst.room + 7) := by
  obtain ⟨hbacklog, hfresh, hstreams⟩ := backlog_run backlog_init fresh_init ⟨[], rfl⟩ hrun
  obtain ⟨-, hlater, hflow⟩ := backlog_run hbacklog hfresh hstreams hmore
  refine ⟨hbacklog.always, ?_⟩
  calc t.session.begun
      ≤ t.session.video.encoded := by rw [hflow.flow.carried]; exact Nat.le_add_right _ _
    _ = t.frames.length := hlater.encoded.symm
    _ ≤ t.kept.length := by
      rw [Live.kept, List.append_assoc, List.length_append]
      exact Nat.le_add_right _ _
    _ = s.kept.length := congrArg List.length (kept_runFrom hno hmore)
    _ ≤ s.session.begun + (gst.room + 7) := hbacklog.always

end

/-- A round of the pacing loop that captures and has nothing to send, up to the next one. -/
def captureRound : List LiveAction :=
  ([.pacing (.check false), .pacing (.capture true), .pacing .receive, .pacing .receive,
    .pacing .sleep] : List Action).map .session

def pullNext : List LiveAction := [.session (.video .check), .session (.video .pull)]

def sendHeld : List LiveAction :=
  ([.video .send, .pacing .receive, .pacing .sent] : List Action).map .session

/-- All queues fill while the drain thread holds the first packet. Behind the last look at the
channel it moves on by one, and so does what is behind it. -/
def fillQueues : List LiveAction :=
  captureRound ++ [.takes, .encodes] ++ pullNext ++
    (List.replicate 4 (captureRound ++ [.takes, .encodes])).flatten ++
    captureRound ++ [.takes] ++ captureRound ++ [.session (.pacing (.check false))] ++
    [.session (.video .send)] ++ pullNext ++ [.encodes, .takes] ++
    [.session (.pacing (.capture true))]

/-- The loop sends what is on its way, while the drain thread keeps up with it. -/
def emptyQueues : List LiveAction :=
  ([.pacing .receive, .pacing .receive, .pacing .sent] : List Action).map .session ++
    sendHeld ++ pullNext ++ [.encodes, .takes] ++ sendHeld ++ pullNext ++ [.encodes] ++
    (List.replicate 4 (sendHeld ++ pullNext)).flatten ++ sendHeld

/-- Both bounds are reached. -/
theorem backlog_le_full : ∃ s t, (live (.plain 1) steadyPackets).run fillQueues = some s ∧
    (live (.plain 1) steadyPackets).runFrom s emptyQueues = some t ∧
    s.kept.length = 8 ∧ t.session.begun = 8 ∧
    s.kept.length ≤ s.session.begun + 8 ∧ t.session.begun ≤ s.session.begun + 8 := by
  have hsome : ((live (.plain 1) steadyPackets).run fillQueues).bind (fun s =>
      ((live (.plain 1) steadyPackets).runFrom s emptyQueues).map fun t =>
        (s.kept.length, t.session.begun)) = some (8, 8) := by decide +kernel
  obtain ⟨s, hrun, hs⟩ := Option.bind_eq_some_iff.1 hsome
  obtain ⟨t, hmore, ht⟩ := Option.map_eq_some_iff.1 hs
  rw [Prod.mk.injEq] at ht
  exact ⟨s, t, hrun, hmore, ht.1, ht.2, backlog_le hrun (by decide) hmore⟩

end PadPlay.Daemon.Streaming
