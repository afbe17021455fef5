import PadPlay.Daemon.Flow

/-!
# The host's threads and any device

The drain threads, the pacing loop and the acknowledgement thread of `session::run` against a device
of which nothing is known: it takes video frames whose send has begun, and writes whatever bytes it
likes. What the encoders yielded is on the socket, in a channel or in some thread's hand, and no
byte of an acknowledgement is counted twice (`HostSafe`). A device that acknowledges only what it
received, and nothing twice, never finds `sent_at` empty (`Honest.sentAt_ne_nil`).
-/

namespace PadPlay.Daemon.Streaming

open PadPlay.Lib PadPlay.Protocol PadPlay.Device.VideoStream

variable {gst : Gst}

/-! ## The machine -/

/-- The frame whose send the pacing loop is in. -/
def Pacing.inHand : Pacing → List WireFrame
  | .sendingAudio packet => [.audio packet]
  | .sendingVideo packet => [.video packet]
  | _ => []

def WireFrame.audio? : WireFrame → Option Nat
  | .video _ => none
  | .audio packet => some packet

/-- The frame a failing send leaves behind. -/
def Session.failing (s : Session) : PacingAction → List WireFrame
  | .sendFails _ => s.pacing.inHand
  | _ => []

/-- How many acknowledgements a step of the acknowledgement thread completes. -/
def Session.completions (s : Session) : ReaderAction → Nat
  | .read n => if s.reader.filled + n = ACK_LEN then 1 else 0
  | _ => 0

/-- The host during a session, with what its device has done and logs of what its threads did. -/
structure Hosted where
  session : Session
  /-- how many video frames the device has received -/
  received : Nat
  /-- the video frames the device has acknowledged -/
  acked : List Nat
  completed : Nat
  failed : List WireFrame

inductive HostAction where
  | wait (time : Nat)
  | video (a : DrainAction)
  | audio (a : DrainAction)
  | pacing (a : PacingAction)
  | reader (a : ReaderAction)
  /-- the device receives the next video frame, whose send need not have returned -/
  | receives
  /-- the device sends bytes that are to acknowledge a frame -/
  | acks (frame : Nat) (bytes : List AckByte)

def hosting (gst : Gst) : Machine Hosted HostAction where
  init := ⟨.init, 0, [], 0, []⟩
  step
    | s, .wait time => some { s with session.clock := s.session.clock + time }
    | s, .video a =>
      (s.session.video.step gst.video s.session.running a).map fun video =>
        { s with session.video := video }
    | s, .audio a =>
      (s.session.audio.step gst.audio s.session.running a).map fun audio =>
        { s with session.audio := audio }
    | s, .pacing a =>
      (s.session.pace a).map fun session =>
        { s with session, failed := s.failed ++ s.session.failing a }
    | s, .reader a =>
      (s.session.readAcks a).map fun session =>
        { s with session, completed := s.completed + s.session.completions a }
    | s, .receives =>
      if s.received < s.session.begun then some { s with received := s.received + 1 } else none
    | s, .acks frame bytes =>
      some { s with session.toHost := s.session.toHost ++ bytes, acked := s.acked ++ [frame] }

/-! ## What a step of the pacing loop does -/

inductive Paces (s : Session) : PacingAction → Session → Prop where
  | moves {a : PacingAction} {pacing : Pacing} (running : Bool) (hquiet : s.failing a = [])
      (hlive : s.pacing ≠ .ended) (hhand : s.pacing.inHand = []) (hhand' : pacing.inHand = []) :
      Paces s a { s with pacing, running }
  | takesAudio {packet : Nat} {channel : List Nat} (hpacing : s.pacing = .audio)
      (hchannel : s.audio.channel = packet :: channel) :
      Paces s .receive
        { s with audio := { s.audio with channel }, pacing := .sendingAudio packet }
  | takesVideo {packet : Nat} {channel : List Nat} (hpacing : s.pacing = .video)
      (hchannel : s.video.channel = packet :: channel) :
      Paces s .receive { s with
        video := { s.video with channel }, pacing := .sendingVideo packet
        sentAt := s.sentAt ++ [⟨packet, s.clock⟩], begun := s.begun + 1 }
  | sends {frame : WireFrame} {pacing : Pacing} {toDevice : List WireFrame}
      (hlive : s.pacing ≠ .ended) (hhand : s.pacing.inHand = [frame])
      (hhand' : pacing.inHand = []) :
      Paces s .sent { s with pacing, written := s.written ++ [frame], toDevice }
  | fails {arrives : Bool} {toDevice : List WireFrame} :
      Paces s (.sendFails arrives) { s with pacing := .ended, running := false, toDevice }

theorem pace_spec {s s' : Session} {a : PacingAction} (hs : s.pace a = some s') :
    Paces s a s' := by
  cases pace_cases hs with
  | shutdown hpacing | captureFails hpacing =>
    exact .moves false rfl (by rw [hpacing]; nofun) (by rw [hpacing]; rfl) rfl
  | goesOn hpacing | captures hpacing | noAudio hpacing | noVideo hpacing | sleeps hpacing =>
    exact .moves s.running rfl (by rw [hpacing]; nofun) (by rw [hpacing]; rfl) rfl
  | takesAudio hpacing hchannel => exact .takesAudio hpacing hchannel
  | takesVideo hpacing hchannel => exact .takesVideo hpacing hchannel
  | sendsAudio hpacing | sendsVideo hpacing =>
    exact .sends (by rw [hpacing]; nofun) (by rw [hpacing]; rfl) rfl
  | audioFails | videoFails => exact .fails

/-! ## What a step of the acknowledgement thread does -/

inductive ReadsAcks (s : Session) : ReaderAction → Session → Prop where
  | turns {a : ReaderAction} {phase : ReaderPhase} (hnone : s.completions a = 0) :
      ReadsAcks s a { s with reader := { s.reader with phase } }
  | fills {n : Nat} {toHost : List AckByte} {phase : ReaderPhase} (hle : n ≤ s.toHost.length)
      (htoHost : toHost = s.toHost.drop n) (hpart : s.reader.filled + n < ACK_LEN) :
      ReadsAcks s (.read n) { s with
        toHost, reader := ⟨phase, s.reader.filled + n, s.reader.received ++ s.toHost.take n⟩ }
  | completes {n : Nat} {acked : Option Nat} (hle : n ≤ s.toHost.length)
      (hfull : s.reader.filled + n = ACK_LEN) :
      ReadsAcks s (.read n) ({ s with
        toHost := s.toHost.drop n
        reader := ⟨.checking, 0, s.reader.received ++ s.toHost.take n⟩ }.completeAck acked)

theorem readAcks_spec {s s' : Session} {a : ReaderAction} (hs : s.readAcks a = some s') :
    ReadsAcks s a s' := by
  cases readAcks_cases hs with
  | turns hread =>
    cases a with
    | read n => exact absurd rfl (hread n)
    | check | timeout | close => exact .turns rfl
  | fills hle hpart => exact .fills hle rfl hpart
  | completes _ hle hfull => exact .completes hle hfull

/-! ## Nothing is lost or doubled -/

/-- The frames the pacing loop has taken from the channels, in order. -/
def Hosted.taken (s : Hosted) : List WireFrame :=
  s.session.written ++ s.failed ++ s.session.pacing.inHand

structure HostSafe (s : Hosted) : Prop where
  video : s.session.video.Carries (s.taken.filterMap WireFrame.video?)
  audio : s.session.audio.Carries (s.taken.filterMap WireFrame.audio?)
  begun : s.session.begun = (s.taken.filterMap WireFrame.video?).length
  /-- a failed send ends the loop -/
  failed : s.session.pacing ≠ .ended → s.failed = []
  filled : s.session.reader.filled < ACK_LEN
  completed : s.session.reader.received.length =
    ACK_LEN * s.completed + s.session.reader.filled
  sent : s.session.sentAt.length + s.session.roundTrips.length = s.session.begun

theorem hostSafe_init : HostSafe (hosting gst).init := by
  constructor
  · rfl
  · rfl
  · rfl
  · intro _
    rfl
  · exact Nat.zero_lt_succ 7
  · rfl
  · rfl

theorem Drain.Carries.takes {d : Drain} {taken : List Nat} {packet : Nat} {channel : List Nat}
    (h : d.Carries taken) (hchannel : d.channel = packet :: channel) :
    ({ d with channel } : Drain).Carries (taken ++ [packet]) := by
  unfold Drain.Carries at h ⊢
  rw [h, hchannel]
  simp

/-- The pacing loop moves on with the frames it has taken. -/
theorem HostSafe.keeps {s : Hosted} (h : HostSafe s) {pacing : Pacing} {running : Bool}
    {written toDevice failed : List WireFrame}
    (htaken : written ++ failed ++ pacing.inHand = s.taken)
    (hfailed : pacing ≠ .ended → failed = []) :
    HostSafe
      { s with session := { s.session with pacing, running, written, toDevice }, failed } := by
  have hsame : Hosted.taken { s with
      session := { s.session with pacing, running, written, toDevice }, failed } = s.taken := htaken
  refine ⟨?_, ?_, ?_, hfailed, h.filled, h.completed, h.sent⟩
  · rw [hsame]
    exact h.video
  · rw [hsame]
    exact h.audio
  · rw [hsame]
    exact h.begun

/-- A loop with nothing in hand has written all it has taken. -/
theorem HostSafe.emptyHanded {s : Hosted} (h : HostSafe s) (hlive : s.session.pacing ≠ .ended)
    (hhand : s.session.pacing.inHand = []) : s.failed = [] ∧ s.taken = s.session.written := by
  refine ⟨h.failed hlive, ?_⟩
  rw [Hosted.taken, h.failed hlive, hhand, List.append_nil, List.append_nil]

theorem HostSafe.pace {s : Hosted} {session : Session} {a : PacingAction} (h : HostSafe s)
    (hp : Paces s.session a session) :
    HostSafe { s with session, failed := s.failed ++ s.session.failing a } := by
  cases hp with
  | moves _ hquiet hlive hhand hhand' =>
    apply h.keeps
    · rw [hquiet, List.append_nil, hhand', Hosted.taken, hhand]
    · intro _
      rw [hquiet, h.failed hlive, List.append_nil]
  | sends hlive hhand hhand' =>
    have hquiet : s.session.failing .sent = [] := rfl
    apply h.keeps
    · rw [hquiet, hhand', Hosted.taken, hhand, h.failed hlive]
      simp
    · intro _
      rw [hquiet, h.failed hlive, List.append_nil]
  | fails =>
    apply h.keeps
    · rw [Session.failing, Hosted.taken, ← List.append_assoc]
      exact List.append_nil _
    · intro hno
      exact absurd rfl hno
  | @takesAudio packet channel hpacing hchannel =>
    obtain ⟨hfailed, htaken⟩ := h.emptyHanded (by rw [hpacing]; nofun) (by rw [hpacing]; rfl)
    have hnone : s.failed ++ s.session.failing .receive = [] := by
      rw [hfailed]
      rfl
    rw [hnone]
    have hnext : Hosted.taken { s with
        session := { s.session with
          audio := { s.session.audio with channel }, pacing := .sendingAudio packet }
        failed := [] } = s.taken ++ [.audio packet] := by
      rw [htaken, Hosted.taken, List.append_nil]
      rfl
    refine ⟨?_, ?_, ?_, fun _ => rfl, h.filled, h.completed, h.sent⟩
    · rw [hnext, List.filterMap_append]
      exact (List.append_nil _).symm ▸ h.video
    · rw [hnext, List.filterMap_append]
      exact h.audio.takes hchannel
    · rw [hnext, List.filterMap_append]
      exact (List.append_nil _).symm ▸ h.begun
  | @takesVideo packet channel hpacing hchannel =>
    obtain ⟨hfailed, htaken⟩ := h.emptyHanded (by rw [hpacing]; nofun) (by rw [hpacing]; rfl)
    have hnone : s.failed ++ s.session.failing .receive = [] := by
      rw [hfailed]
      rfl
    rw [hnone]
    have hnext : Hosted.taken { s with
        session := { s.session with
          video := { s.session.video with channel }, pacing := .sendingVideo packet
          sentAt := s.session.sentAt ++ [⟨packet, s.session.clock⟩]
          begun := s.session.begun + 1 }
        failed := [] } = s.taken ++ [.video packet] := by
      rw [htaken, Hosted.taken, List.append_nil]
      rfl
    refine ⟨?_, ?_, ?_, fun _ => rfl, h.filled, h.completed, ?_⟩
    · rw [hnext, List.filterMap_append]
      exact h.video.takes hchannel
    · rw [hnext, List.filterMap_append]
      exact (List.append_nil _).symm ▸ h.audio
    · rw [hnext, List.filterMap_append, List.length_append, ← h.begun]
      rfl
    · rw [List.length_append, ← h.sent]
      exact Nat.add_right_comm ..

theorem completeAck_sent (s : Session) (acked : Option Nat) :
    (s.completeAck acked).sentAt.length + (s.completeAck acked).roundTrips.length =
      s.sentAt.length + s.roundTrips.length := by
  unfold Session.completeAck
  split
  · rfl
  · next hsentAt =>
    simp only [hsentAt, List.length_append, List.length_cons, List.length_nil]
    omega

/-- A completed acknowledgement touches `sent_at` and `round_trips` only. -/
theorem completeAck_eq (s : Session) (acked : Option Nat) :
    s.completeAck acked = { s with
      sentAt := (s.completeAck acked).sentAt, roundTrips := (s.completeAck acked).roundTrips } := by
  unfold Session.completeAck
  split <;> rfl

theorem HostSafe.readAcks {s : Hosted} {session : Session} {a : ReaderAction} (h : HostSafe s)
    (hr : ReadsAcks s.session a session) :
    HostSafe { s with session, completed := s.completed + s.session.completions a } := by
  cases hr with
  | turns hnone =>
    rw [hnone]
    exact ⟨h.video, h.audio, h.begun, h.failed, h.filled, h.completed, h.sent⟩
  | @fills n toHost phase hle htoHost hpart =>
    have hnone : s.session.completions (.read n) = 0 := if_neg (Nat.ne_of_lt hpart)
    rw [hnone]
    refine ⟨h.video, h.audio, h.begun, h.failed, hpart, ?_, h.sent⟩
    rw [List.length_append, List.length_take_of_le hle, h.completed]
    exact Nat.add_assoc ..
  | @completes n acked hle hfull =>
    have hone : s.session.completions (.read n) = 1 := if_pos hfull
    rw [hone, completeAck_eq]
    refine ⟨h.video, h.audio, h.begun, h.failed, Nat.zero_lt_succ _, ?_, ?_⟩
    · show (s.session.reader.received ++ s.session.toHost.take n).length = _
      rw [List.length_append, List.length_take_of_le hle, h.completed, Nat.add_assoc, hfull]
      rfl
    · exact (completeAck_sent _ acked).trans h.sent

theorem HostSafe.step {s s' : Hosted} {a : HostAction} (h : HostSafe s)
    (hs : (hosting gst).step s a = some s') : HostSafe s' := by
  cases a with
  | wait time =>
    cases hs
    exact ⟨h.video, h.audio, h.begun, h.failed, h.filled, h.completed, h.sent⟩
  | video a =>
    obtain ⟨video, hvideo, rfl⟩ := Option.map_eq_some_iff.1 hs
    exact ⟨h.video.step hvideo, h.audio, h.begun, h.failed, h.filled, h.completed, h.sent⟩
  | audio a =>
    obtain ⟨audio, haudio, rfl⟩ := Option.map_eq_some_iff.1 hs
    exact ⟨h.video, h.audio.step haudio, h.begun, h.failed, h.filled, h.completed, h.sent⟩
  | pacing a =>
    obtain ⟨session, hsession, rfl⟩ := Option.map_eq_some_iff.1 hs
    exact h.pace (pace_spec hsession)
  | reader a =>
    obtain ⟨session, hsession, rfl⟩ := Option.map_eq_some_iff.1 hs
    exact h.readAcks (readAcks_spec hsession)
  | receives =>
    obtain ⟨-, hs⟩ := Option.ite_none_right_eq_some.1 hs
    cases hs
    exact ⟨h.video, h.audio, h.begun, h.failed, h.filled, h.completed, h.sent⟩
  | acks frame bytes =>
    cases hs
    exact ⟨h.video, h.audio, h.begun, h.failed, h.filled, h.completed, h.sent⟩

/-- **Any interleaving** keeps the host safe, whatever the device does. -/
theorem hostSafe_run {actions : List HostAction} {s : Hosted}
    (hrun : (hosting gst).run actions = some s) : HostSafe s :=
  (hosting gst).run_invariant hostSafe_init (fun _ _ _ h hs => h.step hs) hrun

/-! ## An honest device -/

/-- The device acknowledges a video frame it has received, not twice, and in no more bytes than an
acknowledgement has. -/
def HonestAck (s : Hosted) : HostAction → Prop
  | .acks frame bytes => frame < s.received ∧ frame ∉ s.acked ∧ bytes.length ≤ ACK_LEN
  | _ => True

instance (s : Hosted) (a : HostAction) : Decidable (HonestAck s a) := by
  cases a <;> unfold HonestAck <;> infer_instance

structure Honest (s : Hosted) : Prop where
  safe : HostSafe s
  received : s.received ≤ s.session.begun
  acked : s.acked.Nodup ∧ ∀ frame ∈ s.acked, frame < s.received
  bytes : s.session.reader.received.length + s.session.toHost.length ≤ ACK_LEN * s.acked.length
  popped : s.completed = s.session.roundTrips.length

theorem honest_init : Honest (hosting gst).init := by
  refine ⟨hostSafe_init, Nat.le_refl _, ⟨List.nodup_nil, ?_⟩, Nat.le_refl _, rfl⟩
  intro frame hframe
  cases hframe

theorem Honest.acked_le {s : Hosted} (h : Honest s) : s.acked.length ≤ s.session.begun := by
  have hsub : s.acked ⊆ List.range s.received := by
    intro frame hframe
    exact List.mem_range.2 (h.acked.2 frame hframe)
  have hle := List.Nodup.length_le_of_subset h.acked.1 hsub
  rw [List.length_range] at hle
  exact Nat.le_trans hle h.received

/-- **An honest device** is never ahead of `sent_at`. -/
theorem Honest.sentAt_ne_nil {s : Hosted} (h : Honest s) {n : Nat}
    (hle : n ≤ s.session.toHost.length) (hfull : s.session.reader.filled + n = ACK_LEN) :
    s.session.sentAt ≠ [] := by
  have hlen : ACK_LEN = 8 := rfl
  have hacked := h.acked_le
  have hbytes := h.bytes
  have hcompleted := h.safe.completed
  have hsent := h.safe.sent
  rw [← h.popped] at hsent
  rw [hlen] at hfull hbytes hcompleted
  intro hnil
  rw [hnil, List.length_nil] at hsent
  omega

theorem Paces.begun_le {s s' : Session} {a : PacingAction} (h : Paces s a s') :
    s.begun ≤ s'.begun := by
  cases h with
  | takesVideo => exact Nat.le_succ _
  | _ => exact Nat.le_refl _

theorem Paces.rest {s s' : Session} {a : PacingAction} (h : Paces s a s') :
    s'.reader = s.reader ∧ s'.toHost = s.toHost ∧ s'.roundTrips = s.roundTrips := by
  cases h <;> exact ⟨rfl, rfl, rfl⟩

theorem Honest.readAcks {s : Hosted} {session : Session} {a : ReaderAction} (h : Honest s)
    (hr : ReadsAcks s.session a session) :
    Honest { s with session, completed := s.completed + s.session.completions a } := by
  have hsafe := h.safe.readAcks hr
  cases hr with
  | turns hnone => exact ⟨hsafe, h.received, h.acked, h.bytes, by rw [hnone]; exact h.popped⟩
  | @fills n toHost phase hle htoHost hpart =>
    have hnone : s.session.completions (.read n) = 0 := if_neg (Nat.ne_of_lt hpart)
    refine ⟨hsafe, h.received, h.acked, ?_, by rw [hnone]; exact h.popped⟩
    have hbytes := h.bytes
    simp only [htoHost, List.length_append, List.length_take_of_le hle, List.length_drop]
    omega
  | @completes n acked hle hfull =>
    have hone : s.session.completions (.read n) = 1 := if_pos hfull
    have hbytes := h.bytes
    have hne := h.sentAt_ne_nil hle hfull
    unfold Session.completeAck at hsafe ⊢
    split
    · next hnil => exact absurd hnil hne
    · next sent sentAt hsentAt =>
      rw [hsentAt] at hsafe
      refine ⟨hsafe, h.received, h.acked, ?_, ?_⟩
      · simp only [List.length_append, List.length_take_of_le hle, List.length_drop]
        omega
      · rw [hone, List.length_append, h.popped]
        rfl

theorem Honest.step {s s' : Hosted} {a : HostAction} (h : Honest s) (ha : HonestAck s a)
    (hs : (hosting gst).step s a = some s') : Honest s' := by
  have hsafe := h.safe.step hs
  cases a with
  | wait time =>
    cases hs
    exact ⟨hsafe, h.received, h.acked, h.bytes, h.popped⟩
  | video a =>
    obtain ⟨video, -, rfl⟩ := Option.map_eq_some_iff.1 hs
    exact ⟨hsafe, h.received, h.acked, h.bytes, h.popped⟩
  | audio a =>
    obtain ⟨audio, -, rfl⟩ := Option.map_eq_some_iff.1 hs
    exact ⟨hsafe, h.received, h.acked, h.bytes, h.popped⟩
  | pacing a =>
    obtain ⟨session, hsession, rfl⟩ := Option.map_eq_some_iff.1 hs
    have hp := pace_spec hsession
    obtain ⟨hreader, htoHost, hroundTrips⟩ := hp.rest
    refine ⟨hsafe, Nat.le_trans h.received hp.begun_le, h.acked, ?_, ?_⟩
    · rw [hreader, htoHost]
      exact h.bytes
    · rw [hroundTrips]
      exact h.popped
  | reader a =>
    obtain ⟨session, hsession, rfl⟩ := Option.map_eq_some_iff.1 hs
    exact h.readAcks (readAcks_spec hsession)
  | receives =>
    obtain ⟨hlt, hs⟩ := Option.ite_none_right_eq_some.1 hs
    cases hs
    refine ⟨hsafe, hlt, ⟨h.acked.1, ?_⟩, h.bytes, h.popped⟩
    intro frame hframe
    exact Nat.lt_succ_of_lt (h.acked.2 frame hframe)
  | acks frame bytes =>
    cases hs
    obtain ⟨hreceived, hnew, hlen⟩ := ha
    have hbytes := h.bytes
    refine ⟨hsafe, h.received, ⟨?_, ?_⟩, ?_, h.popped⟩
    · refine List.nodup_append.2 ⟨h.acked.1, by simp, ?_⟩
      intro other hother new hmem heq
      rw [heq, List.mem_singleton.1 hmem] at hother
      exact hnew hother
    · intro other hother
      rcases List.mem_append.1 hother with hmem | hmem
      · exact h.acked.2 other hmem
      · rw [List.mem_singleton.1 hmem]
        exact hreceived
    · simp only [List.length_append, List.length_singleton, Nat.mul_add, Nat.mul_one]
      omega

theorem honest_run {actions : List HostAction} {s : Hosted}
    (hhonest : (hosting gst).Along HonestAck actions)
    (hrun : (hosting gst).run actions = some s) : Honest s :=
  (hosting gst).run_invariant_along honest_init (fun _ _ _ h ha hs => h.step ha hs) hhonest hrun

/-! ## The host between its encoders and any device -/

/-- **Under any interleaving**, any segmentation of the acknowledgements and any timeouts: each
encoder's packets are on the socket in order, then in the pacing loop's hand, the channel and the
drain thread's hand; acknowledgements are cut where they end; each video send begun is in `sent_at`
or in `round_trips`; and no acknowledgement of an honest device finds `sent_at` empty. -/
theorem host_flow {actions : List HostAction} {s : Hosted}
    (hrun : (hosting gst).run actions = some s) :
    let inHand := s.failed ++ s.session.pacing.inHand
    s.session.video.pulled =
        s.session.written.filterMap WireFrame.video? ++
          (inHand.filterMap WireFrame.video? ++ s.session.video.channel ++
            s.session.video.phase.hand) ∧
      s.session.audio.pulled =
        s.session.written.filterMap WireFrame.audio? ++
          (inHand.filterMap WireFrame.audio? ++ s.session.audio.channel ++
            s.session.audio.phase.hand) ∧
      s.session.begun = (s.session.written.filterMap WireFrame.video?).length +
        (inHand.filterMap WireFrame.video?).length ∧
      s.session.reader.filled < ACK_LEN ∧
      s.completed = s.session.reader.received.length / ACK_LEN ∧
      s.session.sentAt.length + s.session.roundTrips.length = s.session.begun ∧
      ((hosting gst).Along HonestAck actions →
        ∀ n session, s.session.readAcks (.read n) = some session →
          s.session.completions (.read n) = 1 → s.session.sentAt ≠ []) := by
  intro inHand
  have hsafe := hostSafe_run hrun
  have htaken : s.taken = s.session.written ++ inHand := List.append_assoc ..
  have hvideo := hsafe.video
  have haudio := hsafe.audio
  have hbegun := hsafe.begun
  rw [htaken, List.filterMap_append] at hvideo haudio hbegun
  refine ⟨?_, ?_, ?_, hsafe.filled, ?_, hsafe.sent, ?_⟩
  · rw [hvideo]
    simp only [List.append_assoc]
  · rw [haudio]
    simp only [List.append_assoc]
  · rw [hbegun, List.length_append]
  · have hfilled := hsafe.filled
    rw [hsafe.completed, Nat.mul_add_div (by decide), Nat.div_eq_of_lt hfilled, Nat.add_zero]
  · intro hhonest n session hread hone
    have hfull : s.session.reader.filled + n = ACK_LEN := by
      by_cases hfull : s.session.reader.filled + n = ACK_LEN
      · exact hfull
      · rw [Session.completions, if_neg hfull] at hone
        cases hone
    have hle : n ≤ s.session.toHost.length := by
      cases readAcks_spec hread with
      | turns hnone =>
        rw [hnone] at hone
        cases hone
      | fills hle _ _ => exact hle
      | completes hle _ => exact hle
    exact (honest_run hhonest hrun).sentAt_ne_nil hle hfull

/-- An acknowledgement overtakes the send it is for, and is cut by a timeout. -/
theorem host_flow_overtaken :
    let actions : List HostAction := [.video .encode, .video .check, .video .pull, .video .send,
      .pacing (.check false), .pacing (.capture true), .pacing .receive, .pacing .receive,
      .receives, .acks 0 (Ack.bytes ⟨0, 0⟩), .reader .check, .reader (.read 3), .reader .check,
      .reader .timeout, .reader .check]
    ∃ s, (hosting (.plain 1)).run actions = some s ∧ s.session.pacing = .sendingVideo 0 ∧
      s.session.sentAt ≠ [] := by
  intro actions
  have hhonest : (hosting (.plain 1)).Along HonestAck actions := by decide
  obtain ⟨s, hrun, hpacing, session, hread, hone⟩ : ∃ s, (hosting (.plain 1)).run actions = some s ∧
      s.session.pacing = .sendingVideo 0 ∧ ∃ session,
        s.session.readAcks (.read 5) = some session ∧ s.session.completions (.read 5) = 1 :=
    ⟨_, rfl, rfl, _, rfl, rfl⟩
  exact ⟨s, hrun, hpacing, (host_flow hrun).2.2.2.2.2.2 hhonest 5 session hread hone⟩

end PadPlay.Daemon.Streaming
