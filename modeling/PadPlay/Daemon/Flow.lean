import PadPlay.Daemon.Streaming
import PadPlay.Lib.Records

/-!
# What flows through a session

The queues of a session are kept in order by every step of every thread: the packets between the
encoder and the pacing loop (`HostFlow`), the frames between the pacing loop and the decoder
(`WireFlow`), and the acknowledgements between the decoder and `round_trips` (`AckFlow`). What a
step can do is said once for each thread (`Drain.step_cases`, `pace_cases`, `readAcks_cases`,
`deviceStep_cases`). Nothing is assumed about what the device does with a frame.
-/

namespace PadPlay.Daemon.Streaming

open PadPlay.Lib PadPlay.Protocol PadPlay.Device PadPlay.Device.VideoStream

variable {gst : Gst}

/-! ## Drain threads -/

def DrainPhase.hand : DrainPhase → List Nat
  | .holding packet => [packet]
  | _ => []

/-- What a step of a drain thread or of its encoder does. -/
inductive DrainStep (config : SinkConfig) (d : Drain) : DrainAction → Drain → Prop
  | encodes (hroom : d.appsink.length < config.maxBuffers ∨ config.drop = true) :
      DrainStep config d .encode { d with
        encoded := d.encoded + 1
        appsink := pushNewest config.maxBuffers d.appsink d.encoded }
  | turns {a : DrainAction} {phase : DrainPhase} (hhand : d.phase.hand = [])
      (hhand' : phase.hand = []) : DrainStep config d a { d with phase }
  | pulls {packet : Nat} {appsink : List Nat} (hphase : d.phase = .pulling)
      (happsink : d.appsink = packet :: appsink) :
      DrainStep config d .pull
        { d with appsink, phase := .holding packet, pulled := d.pulled ++ [packet] }
  | sends {packet : Nat} (hphase : d.phase = .holding packet) :
      DrainStep config d .send { d with channel := d.channel ++ [packet], phase := .checking }

/-- An `appsink` drops its oldest packet or makes the encoder wait. -/
theorem encode_newest {config : SinkConfig} {sink : config.Queue} {running : Bool} {d d' : Drain}
    (hs : d.step sink running .encode = some d') :
    (d.appsink.length < config.maxBuffers ∨ config.drop = true) ∧ d' = { d with
      encoded := d.encoded + 1
      appsink := pushNewest config.maxBuffers d.appsink d.encoded } := by
  obtain ⟨appsink, hpush, rfl⟩ := Option.map_eq_some_iff.1 hs
  obtain ⟨hroom, rfl⟩ := sink.push_cases hpush
  exact ⟨hroom, rfl⟩

theorem Drain.step_cases {config : SinkConfig} {sink : config.Queue} {running : Bool}
    {d d' : Drain} {a : DrainAction} (hs : d.step sink running a = some d') :
    DrainStep config d a d' := by
  cases a with
  | encode =>
    obtain ⟨hroom, rfl⟩ := encode_newest hs
    exact .encodes hroom
  | check =>
    simp only [Drain.step] at hs
    split at hs
    · next hphase =>
      cases hs
      exact .turns (by rw [hphase]; rfl) (by cases running <;> rfl)
    · cases hs
  | pull =>
    simp only [Drain.step] at hs
    split at hs
    · next hphase happsink => cases hs; exact .pulls hphase happsink
    · cases hs
  | timeout =>
    simp only [Drain.step] at hs
    split at hs
    · next hphase => cases hs; exact .turns (by rw [hphase]; rfl) rfl
    · cases hs
  | fail =>
    simp only [Drain.step] at hs
    split at hs
    · next hphase => cases hs; exact .turns (by rw [hphase]; rfl) rfl
    · cases hs
  | send =>
    simp only [Drain.step] at hs
    split at hs
    · next hphase => cases hs; exact .sends hphase
    · cases hs

/-- What was pulled has been taken from the channel, is in it, or is in the thread's hand. -/
def Drain.Carries (d : Drain) (taken : List Nat) : Prop :=
  d.pulled = taken ++ d.channel ++ d.phase.hand

theorem Drain.Carries.step {config : SinkConfig} {sink : config.Queue} {running : Bool}
    {d d' : Drain} {a : DrainAction} {taken : List Nat} (h : d.Carries taken)
    (hs : d.step sink running a = some d') : d'.Carries taken := by
  unfold Carries at h ⊢
  cases Drain.step_cases hs with
  | encodes => exact h
  | turns hhand hhand' => rw [h, hhand, hhand']
  | pulls hphase => simp [h, hphase, DrainPhase.hand]
  | sends hphase => simp [h, hphase, DrainPhase.hand]

/-- Without `drop`, what the encoder put out was pulled or waits in the appsink. -/
def Drain.Lossless (d : Drain) : Prop := d.pulled ++ d.appsink = List.range d.encoded

theorem Drain.Lossless.step {config : SinkConfig} {sink : config.Queue} {running : Bool}
    {d d' : Drain} {a : DrainAction} (hdrop : config.drop = false) (h : d.Lossless)
    (hs : d.step sink running a = some d') : d'.Lossless := by
  unfold Lossless at h ⊢
  cases Drain.step_cases hs with
  | encodes hroom =>
    obtain hlt | hdrops := hroom
    · rw [pushNewest, if_pos hlt, ← List.append_assoc, h, List.range_succ]
    · rw [hdrop] at hdrops
      cases hdrops
  | turns => exact h
  | pulls _ happsink =>
    rw [← h, happsink, List.append_assoc]
    rfl
  | sends => exact h

/-! ## The host's side -/

/-- The video packets from the encoder to the pacing loop, and the entries of `sent_at`. -/
structure HostFlow (s : Session) : Prop where
  lossless : s.video.Lossless
  carries : s.video.Carries (List.range s.begun)
  /-- each entry that was taken off the front of `sent_at` is in `round_trips` -/
  sent : s.roundTrips.map (·.sent.frame) ++ s.sentAt.map (·.frame) = List.range s.begun

theorem eq_of_range_append {a p n : Nat} {rest : List Nat}
    (h : List.range a ++ p :: rest = List.range n) : p = a := by
  have hget := congrArg (·[a]?) h
  simp only [List.getElem?_append_right, List.length_range, Nat.le_refl, Nat.sub_self,
    List.getElem?_cons_zero] at hget
  exact (List.getElem?_eq_some_iff.1 hget.symm).2.symm.trans (by simp)

theorem HostFlow.next {s : Session} {packet : Nat} {channel : List Nat} (h : HostFlow s)
    (hchannel : s.video.channel = packet :: channel) : packet = s.begun := by
  have hlossless := h.lossless
  rw [Drain.Lossless, h.carries, hchannel, List.append_assoc, List.append_assoc,
    List.cons_append] at hlossless
  exact eq_of_range_append hlossless

/-! ## The wire -/

def Pacing.sendingVideo? : Pacing → List Nat
  | .sendingVideo packet => [packet]
  | _ => []

def WireFrame.video? : WireFrame → Option Nat
  | .video packet => some packet
  | .audio _ => none

def Session.onWire (s : Session) : List Nat :=
  s.toDevice.filterMap WireFrame.video? ++ s.pacing.sendingVideo?

/-- The video frames from the pacing loop to the decoder: they arrive in order, and only one whose
send failed may be missing. -/
structure WireFlow (s : Session) : Prop where
  demuxed : s.device.demuxed.map (·.frame) = List.range s.device.demuxed.length
  wire : ∃ m, s.onWire = List.range' s.device.demuxed.length m ∧
    s.device.demuxed.length + m ≤ s.begun ∧
    (s.pacing ≠ .ended → s.device.demuxed.length + m = s.begun)

/-! ## Acknowledgements -/

structure AckFlow (s : Session) : Prop where
  /-- the bytes on the wire are those of the acknowledgements the device has written -/
  written : ∃ written, s.device.Sound written ∧
    (s.reader.received ++ s.toHost).map (·.frame) <+: recordStream ACK_LEN written ∧
    (s.device.ackWriter = true →
      (s.reader.received ++ s.toHost).map (·.frame) = recordStream ACK_LEN written)
  filled : s.reader.filled < ACK_LEN
  received : s.reader.received.length = ACK_LEN * s.roundTrips.length + s.reader.filled
  /-- the acknowledgements that were read are the first the device made -/
  acked : s.roundTrips.map (·.acked) =
    (s.device.rendered.take s.roundTrips.length).map some

theorem AckFlow.read {s : Session} (h : AckFlow s) :
    s.roundTrips.length ≤ s.device.rendered.length := by
  have hlength := congrArg List.length h.acked
  rw [List.length_map, List.length_map, List.length_take] at hlength
  omega

structure Flow (s : Session) : Prop where
  host : HostFlow s
  wire : WireFlow s
  acks : AckFlow s

theorem flow_init : Flow .init where
  host := ⟨rfl, rfl, rfl⟩
  wire := ⟨rfl, 0, rfl, Nat.le_refl _, fun _ => rfl⟩
  acks := ⟨⟨[], Receiver.sound_init true, List.nil_prefix, fun _ => rfl⟩, by decide, rfl, rfl⟩

/-! ## What a step of each thread does -/

/-- A step of the pacing loop, branch by branch. -/
inductive PaceStep (s : Session) : PacingAction → Session → Prop
  | shutdown (hpacing : s.pacing = .checking) : PaceStep s (.check true) s.finish
  | goesOn (hpacing : s.pacing = .checking) :
      PaceStep s (.check false) { s with pacing := .capturing }
  | captures (hpacing : s.pacing = .capturing) :
      PaceStep s (.capture true) { s with pacing := .audio }
  | captureFails (hpacing : s.pacing = .capturing) : PaceStep s (.capture false) s.finish
  | noAudio (hpacing : s.pacing = .audio) : PaceStep s .receive { s with pacing := .video }
  | takesAudio {packet : Nat} {channel : List Nat} (hpacing : s.pacing = .audio)
      (hchannel : s.audio.channel = packet :: channel) :
      PaceStep s .receive
        { s with audio := { s.audio with channel }, pacing := .sendingAudio packet }
  | noVideo (hpacing : s.pacing = .video) : PaceStep s .receive { s with pacing := .sleeping }
  | takesVideo {packet : Nat} {channel : List Nat} (hpacing : s.pacing = .video)
      (hchannel : s.video.channel = packet :: channel) :
      PaceStep s .receive { s with
        video := { s.video with channel }, pacing := .sendingVideo packet
        sentAt := s.sentAt ++ [⟨packet, s.clock⟩], begun := s.begun + 1 }
  | sendsAudio {packet : Nat} (hpacing : s.pacing = .sendingAudio packet) :
      PaceStep s .sent { s with
        pacing := .audio, written := s.written ++ [.audio packet]
        toDevice := s.toDevice ++ [.audio packet] }
  | sendsVideo {packet : Nat} (hpacing : s.pacing = .sendingVideo packet) :
      PaceStep s .sent { s with
        pacing := .video, written := s.written ++ [.video packet]
        toDevice := s.toDevice ++ [.video packet] }
  | audioFails {arrives : Bool} {packet : Nat} (hpacing : s.pacing = .sendingAudio packet) :
      PaceStep s (.sendFails arrives)
        { s.finish with toDevice := s.toDevice ++ if arrives then [.audio packet] else [] }
  | videoFails {arrives : Bool} {packet : Nat} (hpacing : s.pacing = .sendingVideo packet) :
      PaceStep s (.sendFails arrives)
        { s.finish with toDevice := s.toDevice ++ if arrives then [.video packet] else [] }
  | sleeps (hpacing : s.pacing = .sleeping) : PaceStep s .sleep { s with pacing := .checking }

theorem pace_cases {s s' : Session} {a : PacingAction} (hs : s.pace a = some s') :
    PaceStep s a s' := by
  unfold Session.pace at hs
  cases a with
  | check shutdown =>
    simp only at hs
    split at hs
    · next hpacing =>
      cases hs
      cases shutdown with
      | true => exact .shutdown hpacing
      | false => exact .goesOn hpacing
    · cases hs
  | capture ok =>
    simp only at hs
    split at hs
    · next hpacing =>
      cases hs
      cases ok with
      | true => exact .captures hpacing
      | false => exact .captureFails hpacing
    · cases hs
  | receive =>
    simp only at hs
    split at hs
    · next hpacing =>
      split at hs
      · cases hs; exact .noAudio hpacing
      · next hchannel => cases hs; exact .takesAudio hpacing hchannel
    · next hpacing =>
      split at hs
      · cases hs; exact .noVideo hpacing
      · next hchannel => cases hs; exact .takesVideo hpacing hchannel
    · cases hs
  | sent =>
    simp only at hs
    split at hs
    · next hpacing => cases hs; exact .sendsAudio hpacing
    · next hpacing => cases hs; exact .sendsVideo hpacing
    · cases hs
  | sendFails arrives =>
    simp only at hs
    split at hs
    · next hpacing => cases hs; exact .audioFails hpacing
    · next hpacing => cases hs; exact .videoFails hpacing
    · cases hs
  | sleep =>
    simp only at hs
    split at hs
    · next hpacing => cases hs; exact .sleeps hpacing
    · cases hs

/-- A step of the acknowledgement thread, branch by branch. -/
inductive ReaderStep (s : Session) : ReaderAction → Session → Prop
  | turns {a : ReaderAction} {phase : ReaderPhase} (hread : ∀ n, a ≠ .read n) :
      ReaderStep s a { s with reader := { s.reader with phase } }
  | fills {n : Nat} (hle : n ≤ s.toHost.length) (hpart : s.reader.filled + n < ACK_LEN) :
      ReaderStep s (.read n) { s with
        toHost := s.toHost.drop n
        reader := ⟨.checking, s.reader.filled + n, s.reader.received ++ s.toHost.take n⟩ }
  | completes {n : Nat} (hpos : 0 < n) (hle : n ≤ s.toHost.length)
      (hfull : s.reader.filled + n = ACK_LEN) :
      ReaderStep s (.read n) ({ s with
        toHost := s.toHost.drop n
        reader := ⟨.checking, 0, s.reader.received ++ s.toHost.take n⟩ }.completeAck
          ((s.toHost.take n).getLast?.map AckByte.frame))

theorem readAcks_cases {s s' : Session} {a : ReaderAction} (hs : s.readAcks a = some s') :
    ReaderStep s a s' := by
  unfold Session.readAcks at hs
  cases a with
  | check =>
    simp only at hs
    split at hs
    · cases hs; exact .turns nofun
    · cases hs
  | timeout =>
    simp only at hs
    split at hs
    · cases hs; exact .turns nofun
    · cases hs
  | close =>
    simp only at hs
    split at hs
    · cases hs; exact .turns nofun
    · cases hs
  | read n =>
    simp only at hs
    split at hs
    · split at hs
      · next hn =>
        split at hs
        · next hfull => cases hs; exact .completes hn.1 hn.2.1 hfull
        · next hpart => cases hs; exact .fills hn.2.1 (by omega)
      · cases hs
    · cases hs

def Session.arriving (s : Session) : Action → Option Nat
  | .device (.receive ..) => s.toDevice.head?.bind WireFrame.video?
  | _ => none

/-- What a step of the device does. -/
inductive DeviceSteps (packets : Nat → EncodedPacket) (s : Session) : DeviceAction → Session → Prop
  | rests {a : DeviceAction} {toDevice : List WireFrame} {device : Receiver}
      (hquiet : ∀ packet ∈ s.arriving (.device a), False)
      (hdemuxed : device.demuxed = s.device.demuxed)
      (hdecoding : device.decoding = s.device.decoding) (hshown : device.shown = s.device.shown)
      (hacks : device.pendingAcks = s.device.pendingAcks)
      (hwriter : device.ackWriter = true → s.device.ackWriter = true)
      (hwire : toDevice.filterMap WireFrame.video? = s.toDevice.filterMap WireFrame.video?) :
      DeviceSteps packets s a { s with toDevice, device }
  | takes {buffer : BufferAnswer} {queueThrows escapes : Bool} {packet : Nat}
      {toDevice : List WireFrame} (htoDevice : s.toDevice = .video packet :: toDevice) :
      DeviceSteps packets s (.receive buffer queueThrows escapes) { s with
        toDevice
        device := s.device.onVideoFrame packet (packets packet).frame buffer queueThrows }
  | putsOut {input : DecoderInput} {device : Receiver} (ho : s.device.PutsOut input device) :
      DeviceSteps packets s .output { s with device }
  | writesAck {k : Nat} {ack : Ack} {bytes : List AckByte} {device : Receiver}
      (hw : s.device.WritesAck k ack bytes device) :
      DeviceSteps packets s (.writeAck k) { s with toHost := s.toHost ++ bytes, device }

theorem deviceStep_cases {packets : Nat → EncodedPacket} {s s' : Session} {a : DeviceAction}
    (hs : s.deviceStep packets a = some s') : DeviceSteps packets s a s' := by
  unfold Session.deviceStep at hs
  cases a with
  | inputAvailable index =>
    obtain ⟨device, hdevice, rfl⟩ := Option.map_eq_some_iff.1 hs
    unfold Receiver.onInputBufferAvailable at hdevice
    split at hdevice
    · cases hdevice
    · cases hdevice
      exact .rests nofun rfl rfl rfl rfl id rfl
  | surface valid =>
    cases hs
    exact .rests nofun rfl rfl rfl rfl id rfl
  | receive buffer queueThrows escapes =>
    simp only at hs
    split at hs
    · split at hs
      · cases hs
      · next htoDevice =>
        cases hs
        exact .takes htoDevice
      · next packet toDevice htoDevice =>
        cases hs
        have hquiet : ∀ packet ∈ s.arriving (.device (.receive buffer queueThrows escapes)),
            False := by
          rw [Session.arriving, htoDevice]
          exact nofun
        have hwire : toDevice.filterMap WireFrame.video? =
            s.toDevice.filterMap WireFrame.video? := by rw [htoDevice]; rfl
        unfold Receiver.onAudioFrame
        split
        · exact .rests hquiet rfl rfl rfl rfl id hwire
        · exact .rests hquiet rfl rfl rfl rfl id hwire
    · cases hs
  | output =>
    obtain ⟨device, hdevice, rfl⟩ := Option.map_eq_some_iff.1 hs
    obtain ⟨input, ho⟩ := Receiver.onOutputBufferAvailable_spec hdevice
    exact .putsOut ho
  | writeAck k =>
    obtain ⟨⟨bytes, device⟩, hdevice, rfl⟩ := Option.map_eq_some_iff.1 hs
    obtain ⟨ack, hw⟩ := Receiver.writeAck_spec hdevice
    exact .writesAck hw
  | leave =>
    obtain ⟨device, hdevice, rfl⟩ := Option.map_eq_some_iff.1 hs
    unfold Receiver.leave at hdevice
    split at hdevice
    · cases hdevice
      exact .rests nofun rfl rfl rfl rfl id rfl
    · cases hdevice
  | finish =>
    obtain ⟨device, hdevice, rfl⟩ := Option.map_eq_some_iff.1 hs
    unfold Receiver.finish at hdevice
    split at hdevice
    · cases hdevice
      exact .rests nofun rfl rfl rfl rfl (fun hno => nomatch hno) rfl
    · cases hdevice

/-! ## One step -/

/-- The pacing loop moves on, with the same video frames on the wire. -/
theorem Flow.moves {s : Session} (h : Flow s) (audio : Drain) (pacing : Pacing) (running : Bool)
    (written toDevice : List WireFrame) (hlive : s.pacing ≠ .ended)
    (hwire : toDevice.filterMap WireFrame.video? ++ pacing.sendingVideo? = s.onWire) :
    Flow { s with audio, pacing, running, written, toDevice } := by
  obtain ⟨⟨hlossless, hcarries, hsent⟩, ⟨hdemuxed, m, hm, hle, heq⟩,
    ⟨hwritten, hfilled, hreceived, hacked⟩⟩ := h
  exact ⟨⟨hlossless, hcarries, hsent⟩, ⟨hdemuxed, m, hwire.trans hm, hle, fun _ => heq hlive⟩,
    ⟨hwritten, hfilled, hreceived, hacked⟩⟩

theorem Flow.begins {s : Session} (h : Flow s) {packet : Nat} {channel : List Nat}
    (hpacing : s.pacing = .video) (hchannel : s.video.channel = packet :: channel) :
    Flow { s with
      video := { s.video with channel }, pacing := .sendingVideo packet
      sentAt := s.sentAt ++ [⟨packet, s.clock⟩], begun := s.begun + 1 } := by
  have hnext := h.host.next hchannel
  obtain ⟨⟨hlossless, hcarries, hsent⟩, ⟨hdemuxed, m, hm, hle, heq⟩,
    ⟨hwritten, hfilled, hreceived, hacked⟩⟩ := h
  have hlive : s.device.demuxed.length + m = s.begun := heq (by rw [hpacing]; nofun)
  refine ⟨⟨hlossless, ?_, ?_⟩, ⟨hdemuxed, m + 1, ?_, ?_, fun _ => ?_⟩,
    ⟨hwritten, hfilled, hreceived, hacked⟩⟩
  · rw [Drain.Carries] at hcarries ⊢
    rw [hcarries, hchannel, List.range_succ, hnext]
    simp
  · simp only [List.map_append, ← List.append_assoc, hsent, List.range_succ, hnext]
    rfl
  · rw [Session.onWire, hpacing] at hm
    simp only [Pacing.sendingVideo?, List.append_nil] at hm
    rw [Session.onWire]
    simp only [Pacing.sendingVideo?, hm, List.range'_1_concat, hnext, ← hlive]
  · show s.device.demuxed.length + (m + 1) ≤ s.begun + 1
    omega
  · show s.device.demuxed.length + (m + 1) = s.begun + 1
    omega

theorem Flow.loses {s : Session} (h : Flow s) {packet : Nat}
    (hpacing : s.pacing = .sendingVideo packet) : Flow s.finish := by
  obtain ⟨⟨hlossless, hcarries, hsent⟩, ⟨hdemuxed, m, hm, hle, heq⟩,
    ⟨hwritten, hfilled, hreceived, hacked⟩⟩ := h
  rw [Session.onWire, hpacing] at hm
  obtain ⟨n, rfl⟩ : ∃ n, m = n + 1 := by
    cases m with
    | zero => simp [Pacing.sendingVideo?] at hm
    | succ n => exact ⟨n, rfl⟩
  rw [List.range'_1_concat] at hm
  have hinit := (List.append_inj' hm rfl).1
  refine ⟨⟨hlossless, hcarries, hsent⟩, ⟨hdemuxed, n, ?_, ?_, fun hno => absurd rfl hno⟩,
    ⟨hwritten, hfilled, hreceived, hacked⟩⟩
  · rw [Session.onWire]
    simp only [Session.finish, Pacing.sendingVideo?, List.append_nil]
    exact hinit
  · simp only [Session.finish]
    omega

theorem Flow.pace {s s' : Session} {a : PacingAction} (h : Flow s) (hs : s.pace a = some s') :
    Flow s' := by
  cases pace_cases hs with
  | shutdown hpacing | captureFails hpacing =>
    exact h.moves s.audio .ended false _ _ (by rw [hpacing]; nofun)
      (by rw [Session.onWire, hpacing]; rfl)
  | goesOn hpacing | captures hpacing | noAudio hpacing | noVideo hpacing | sleeps hpacing =>
    exact h.moves s.audio _ s.running _ _ (by rw [hpacing]; nofun)
      (by rw [Session.onWire, hpacing]; rfl)
  | takesAudio hpacing =>
    exact h.moves _ (.sendingAudio _) s.running _ _ (by rw [hpacing]; nofun)
      (by rw [Session.onWire, hpacing]; rfl)
  | takesVideo hpacing hchannel => exact h.begins hpacing hchannel
  | sendsAudio hpacing | sendsVideo hpacing =>
    exact h.moves s.audio _ s.running _ _ (by rw [hpacing]; nofun)
      (by simp [Session.onWire, hpacing, Pacing.sendingVideo?, WireFrame.video?])
  | @audioFails arrives packet hpacing =>
    exact h.moves s.audio .ended false _ _ (by rw [hpacing]; nofun)
      (by cases arrives <;> simp [Session.onWire, hpacing, Pacing.sendingVideo?, WireFrame.video?])
  | @videoFails arrives packet hpacing =>
    cases arrives with
    | true =>
      exact h.moves s.audio .ended false _ _ (by rw [hpacing]; nofun)
        (by simp [Session.onWire, hpacing, Pacing.sendingVideo?, WireFrame.video?])
    | false =>
      simp only [Bool.false_eq_true, if_false, List.append_nil]
      exact h.loses hpacing

/-- More frames have been sent than acknowledgements have been read. -/
theorem Flow.sentAt_ne_nil {s : Session} (h : Flow s)
    (hmore : ACK_LEN * (s.roundTrips.length + 1) ≤ (s.reader.received ++ s.toHost).length) :
    s.sentAt ≠ [] := by
  obtain ⟨written, hsound, hpre, -⟩ := h.acks.written
  have hread : s.roundTrips.length + 1 ≤ written.length := by
    have hle := hpre.length_le
    rw [List.length_map, recordStream_length] at hle
    exact Nat.le_of_mul_le_mul_left (hmore.trans hle) (by decide)
  have hwritten := hsound.written_le
  have hdemuxed : s.device.demuxed.length ≤ s.begun := by
    obtain ⟨m, -, hle, -⟩ := h.wire.wire
    omega
  have hsent := congrArg List.length h.host.sent
  rw [List.length_append, List.length_map, List.length_map, List.length_range] at hsent
  intro hnil
  rw [hnil, List.length_nil] at hsent
  omega

/-- The eighth byte of an acknowledgement is read. -/
theorem Flow.completes {s : Session} (h : Flow s) {n : Nat} (hn : 0 < n)
    (hle : n ≤ s.toHost.length) (hfull : s.reader.filled + n = ACK_LEN) :
    Flow ({ s with
      toHost := s.toHost.drop n
      reader := ⟨.checking, 0, s.reader.received ++ s.toHost.take n⟩ }.completeAck
        ((s.toHost.take n).getLast?.map AckByte.frame)) := by
  have htake : (s.toHost.take n).length = n := List.length_take_of_le hle
  have hlength : (s.reader.received ++ s.toHost.take n).length =
      ACK_LEN * (s.roundTrips.length + 1) := by
    rw [List.length_append, htake, h.acks.received, Nat.mul_succ]
    omega
  have hne := h.sentAt_ne_nil (by
    rw [← hlength, List.length_append, List.length_append, htake]
    omega)
  obtain ⟨written, hsound, hpre, hwriter⟩ := h.acks.written
  have hsplit : (s.reader.received ++ s.toHost.take n) ++ s.toHost.drop n =
      s.reader.received ++ s.toHost := by
    rw [List.append_assoc, List.take_append_drop]
  obtain ⟨byte, hbyte⟩ : ∃ byte, (s.toHost.take n).getLast? = some byte :=
    ⟨_, List.getLast?_eq_some_getLast (List.ne_nil_of_length_pos (htake.symm ▸ hn))⟩
  -- the byte read last is one of the acknowledgement of that number
  have hlast : s.device.rendered[s.roundTrips.length]? = some byte.frame := by
    have hwhole : (s.reader.received ++ s.toHost.take n).map AckByte.frame <+:
        recordStream ACK_LEN written := by
      rw [← hsplit] at hpre
      exact ((List.prefix_append _ _).map _).trans hpre
    have hrecord := recordStream_prefix (by decide) hwhole (by rw [List.length_map, hlength])
    rw [List.getLast?_map, List.getLast?_append, hbyte] at hrecord
    have hbound := (List.getElem?_eq_some_iff.1 hrecord.symm).1
    rw [hsound.acks, List.getElem?_append_left hbound]
    exact hrecord.symm
  unfold Session.completeAck
  split
  · next hnil => exact absurd hnil hne
  · next sent sentAt hsentAt =>
    have hsent := h.host.sent
    rw [show s.sentAt = sent :: sentAt from hsentAt] at hsent
    refine ⟨⟨h.host.lossless, h.host.carries, ?_⟩, ⟨h.wire.demuxed, h.wire.wire⟩,
      ⟨⟨written, hsound, ?_, ?_⟩, Nat.zero_lt_succ _, ?_, ?_⟩⟩
    · rw [List.map_append, List.append_assoc]
      exact hsent
    · rw [← hsplit] at hpre
      exact hpre
    · rw [← hsplit] at hwriter
      exact hwriter
    · show _ = ACK_LEN * (s.roundTrips ++ [_]).length + 0
      rw [hlength, List.length_append]
      rfl
    · rw [List.map_append, List.length_append, List.length_singleton, h.acks.acked,
        List.take_add_one, List.map_append, hlast, hbyte]
      rfl

/-- The acknowledgement thread moves on, and nothing is read. -/
theorem Flow.turns {s : Session} (h : Flow s) (phase : ReaderPhase) :
    Flow { s with reader := { s.reader with phase } } :=
  ⟨⟨h.host.lossless, h.host.carries, h.host.sent⟩, ⟨h.wire.demuxed, h.wire.wire⟩,
    ⟨h.acks.written, h.acks.filled, h.acks.received, h.acks.acked⟩⟩

theorem Flow.readAcks {s s' : Session} {a : ReaderAction} (h : Flow s)
    (hs : s.readAcks a = some s') : Flow s' := by
  cases readAcks_cases hs with
  | turns => exact h.turns _
  | completes hpos hle hfull => exact h.completes hpos hle hfull
  | fills hle hpart =>
    obtain ⟨written, hsound, hpre, hwriter⟩ := h.acks.written
    have hsplit (n : Nat) : (s.reader.received ++ s.toHost.take n) ++ s.toHost.drop n =
        s.reader.received ++ s.toHost := by
      rw [List.append_assoc, List.take_append_drop]
    refine ⟨⟨h.host.lossless, h.host.carries, h.host.sent⟩, ⟨h.wire.demuxed, h.wire.wire⟩,
      ⟨⟨written, hsound, ?_, ?_⟩, hpart, ?_, h.acks.acked⟩⟩
    · rw [hsplit]
      exact hpre
    · rw [hsplit]
      exact hwriter
    · rw [List.length_append, List.length_take_of_le hle, h.acks.received, Nat.add_assoc]

/-- The device moves on; no video frame does. -/
theorem Flow.rests {s : Session} (h : Flow s) {device : Receiver} {toDevice : List WireFrame}
    (hdemuxed : device.demuxed = s.device.demuxed) (hdecoding : device.decoding = s.device.decoding)
    (hshown : device.shown = s.device.shown) (hacks : device.pendingAcks = s.device.pendingAcks)
    (hwriter : device.ackWriter = true → s.device.ackWriter = true)
    (hwire : toDevice.filterMap WireFrame.video? = s.toDevice.filterMap WireFrame.video?) :
    Flow { s with toDevice, device } := by
  obtain ⟨hhost, hwires, ⟨⟨written, hsound, hpre, hwhole⟩, hfilled, hreceived, hacked⟩⟩ := h
  refine ⟨⟨hhost.lossless, hhost.carries, hhost.sent⟩, ⟨?_, ?_⟩,
    ⟨⟨written, hsound.congr hdemuxed hdecoding hshown hacks, hpre, hwhole ∘ hwriter⟩, hfilled,
      hreceived, ?_⟩⟩
  · show device.demuxed.map _ = _
    rw [hdemuxed]
    exact hwires.demuxed
  · simp only [Session.onWire, hdemuxed, hwire]
    exact hwires.wire
  · rw [hacked, Receiver.rendered, ← hshown]
    rfl

theorem Flow.takes {s : Session} (h : Flow s) {packet : Nat} {toDevice : List WireFrame}
    {device : Receiver} (htoDevice : s.toDevice = .video packet :: toDevice)
    (ht : s.device.Takes packet device) : Flow { s with toDevice, device } := by
  obtain ⟨hhost, ⟨hdemuxed, m, hm, hle, heq⟩,
    ⟨⟨written, hsound, hpre, hwhole⟩, hfilled, hreceived, hacked⟩⟩ := h
  obtain ⟨queued, hdevice⟩ := ht.demuxed
  rw [Session.onWire, htoDevice] at hm
  replace hm : packet :: (toDevice.filterMap WireFrame.video? ++ s.pacing.sendingVideo?) =
    List.range' s.device.demuxed.length m := hm
  obtain ⟨n, rfl⟩ : ∃ n, m = n + 1 := by
    cases m with
    | zero => nomatch hm
    | succ n => exact ⟨n, rfl⟩
  rw [List.range'_succ] at hm
  obtain ⟨hpacket, hrest⟩ := List.cons.inj hm
  refine ⟨⟨hhost.lossless, hhost.carries, hhost.sent⟩, ⟨?_, n, ?_, ?_, fun hlive => ?_⟩,
    ⟨⟨written, hsound.takes ht, hpre, ht.ackWriter ▸ hwhole⟩, hfilled, hreceived, ?_⟩⟩
  · show device.demuxed.map _ = _
    rw [hdevice, List.map_append, hdemuxed, List.length_append, hpacket]
    exact List.range_succ.symm
  · simp only [hdevice, List.length_append]
    exact hrest
  · simp only [hdevice, List.length_append, List.length_singleton]
    omega
  · have heq := heq hlive
    simp only [hdevice, List.length_append, List.length_singleton]
    omega
  · rw [hacked, Receiver.rendered, ← ht.shown]
    rfl

theorem Flow.putsOut {s : Session} (h : Flow s) {input : DecoderInput} {device : Receiver}
    (ho : s.device.PutsOut input device) : Flow { s with device } := by
  have hread := h.acks.read
  obtain ⟨hhost, hwires, ⟨⟨written, hsound, hpre, hwhole⟩, hfilled, hreceived, hacked⟩⟩ := h
  refine ⟨⟨hhost.lossless, hhost.carries, hhost.sent⟩, ⟨?_, ?_⟩,
    ⟨⟨written, hsound.putsOut ho, hpre, ho.ackWriter ▸ hwhole⟩, hfilled, hreceived, ?_⟩⟩
  · show device.demuxed.map _ = _
    rw [ho.demuxed]
    exact hwires.demuxed
  · simp only [Session.onWire, ho.demuxed]
    exact hwires.wire
  · rw [ho.rendered, List.take_append_of_le_length hread]
    exact hacked

/-- An acknowledgement is written, or the first bytes of it. -/
theorem Flow.writesAck {s : Session} (h : Flow s) {k : Nat} {ack : Ack} {bytes : List AckByte}
    {device : Receiver} (hw : s.device.WritesAck k ack bytes device) :
    Flow { s with toHost := s.toHost ++ bytes, device } := by
  obtain ⟨hhost, hwires, ⟨⟨written, hsound, hpre, hwhole⟩, hfilled, hreceived, hacked⟩⟩ := h
  have hstream : (s.reader.received ++ (s.toHost ++ bytes)).map AckByte.frame =
      recordStream ACK_LEN written ++ (List.replicate ACK_LEN ack.frame).take k := by
    rw [← List.append_assoc, List.map_append, ← hwhole hw.alive, hw.written, List.map_take,
      Ack.bytes_frames]
  have hrecords : recordStream ACK_LEN (written ++ [ack.frame]) =
      recordStream ACK_LEN written ++ List.replicate ACK_LEN ack.frame := by
    rw [recordStream_append, recordStream_cons, recordStream_nil, List.append_nil]
  refine ⟨⟨hhost.lossless, hhost.carries, hhost.sent⟩, ⟨?_, ?_⟩,
    ⟨⟨written ++ [ack.frame], hsound.writesAck hw, ?_, fun hstays => ?_⟩, hfilled, hreceived, ?_⟩⟩
  · show device.demuxed.map _ = _
    rw [hw.demuxed]
    exact hwires.demuxed
  · simp only [Session.onWire, hw.demuxed]
    exact hwires.wire
  · rw [hrecords]
    exact hstream ▸ (List.prefix_append_right_inj _).2 (List.take_prefix _ _)
  · rw [hrecords]
    have hk := hw.stays hstays
    rw [List.take_of_length_le (by rw [List.length_replicate]; exact hk)] at hstream
    exact hstream
  · rw [hacked, Receiver.rendered, ← hw.shown]
    rfl

theorem Flow.deviceStep {packets : Nat → EncodedPacket} {s s' : Session} {a : DeviceAction}
    (h : Flow s) (hs : s.deviceStep packets a = some s') : Flow s' := by
  cases deviceStep_cases hs with
  | rests _ hdemuxed hdecoding hshown hacks hwriter hwire =>
    exact h.rests hdemuxed hdecoding hshown hacks hwriter hwire
  | takes htoDevice => exact h.takes htoDevice (Receiver.onVideoFrame_spec ..)
  | putsOut ho => exact h.putsOut ho
  | writesAck hw => exact h.writesAck hw

/-- **Every step of every thread** keeps the queues in order. -/
theorem Flow.step {packets : Nat → EncodedPacket} {s s' : Session} {a : Action} (h : Flow s)
    (hs : (streaming gst packets).step s a = some s') : Flow s' := by
  obtain ⟨⟨hlossless, hcarries, hsent⟩, hwire, hacks⟩ := h
  cases a with
  | wait time =>
    cases hs
    exact ⟨⟨hlossless, hcarries, hsent⟩, ⟨hwire.demuxed, hwire.wire⟩,
      ⟨hacks.written, hacks.filled, hacks.received, hacks.acked⟩⟩
  | video a =>
    obtain ⟨video, hvideo, rfl⟩ := Option.map_eq_some_iff.1 hs
    exact ⟨⟨hlossless.step rfl hvideo, hcarries.step hvideo, hsent⟩, ⟨hwire.demuxed, hwire.wire⟩,
      ⟨hacks.written, hacks.filled, hacks.received, hacks.acked⟩⟩
  | audio a =>
    obtain ⟨audio, haudio, rfl⟩ := Option.map_eq_some_iff.1 hs
    exact ⟨⟨hlossless, hcarries, hsent⟩, ⟨hwire.demuxed, hwire.wire⟩,
      ⟨hacks.written, hacks.filled, hacks.received, hacks.acked⟩⟩
  | pacing a => exact Flow.pace ⟨⟨hlossless, hcarries, hsent⟩, hwire, hacks⟩ hs
  | reader a => exact Flow.readAcks ⟨⟨hlossless, hcarries, hsent⟩, hwire, hacks⟩ hs
  | device a => exact Flow.deviceStep ⟨⟨hlossless, hcarries, hsent⟩, hwire, hacks⟩ hs

theorem flow_run {packets : Nat → EncodedPacket} {actions : List Action} {s : Session}
    (hrun : (streaming gst packets).run actions = some s) : Flow s :=
  (streaming gst packets).run_invariant flow_init (fun _ _ _ h hs => h.step hs) hrun

/-! ## Video frames on the device -/

theorem Session.pace_device {s s' : Session} {a : PacingAction} (hs : s.pace a = some s') :
    s'.device = s.device := by
  cases pace_cases hs <;> rfl

theorem Session.readAcks_device {s s' : Session} {a : ReaderAction} (hs : s.readAcks a = some s') :
    s'.device = s.device := by
  cases readAcks_cases hs with
  | turns | fills => rfl
  | completes =>
    unfold Session.completeAck
    split <;> rfl

theorem WireFlow.arrives {s : Session} {a : Action} {packet : Nat} (h : WireFlow s)
    (harriving : s.arriving a = some packet) : packet = s.device.demuxed.length := by
  obtain ⟨m, hm, -⟩ := h.wire
  have hhead : s.toDevice.head?.bind WireFrame.video? = some packet := by
    unfold Session.arriving at harriving
    split at harriving
    · exact harriving
    · cases harriving
  obtain ⟨frame, hframe, hvideo⟩ := Option.bind_eq_some_iff.1 hhead
  obtain ⟨toDevice, htoDevice⟩ := List.head?_eq_some_iff.1 hframe
  rw [Session.onWire, htoDevice, List.filterMap_cons_some hvideo, List.cons_append] at hm
  cases m with
  | zero => nomatch hm
  | succ n => exact (List.cons.inj hm).1

/-- What a step of any thread does to the video frames on the device. -/
inductive OnDevice (packets : Nat → EncodedPacket) (s s' : Session) : Action → Prop
  | rests (a : Action) (hquiet : ∀ packet ∈ s.arriving a, False)
    (hdemuxed : s'.device.demuxed = s.device.demuxed)
    (hshown : s'.device.shown = s.device.shown) : OnDevice packets s s' a
  | takes {packet : Nat} {buffer : BufferAnswer} {queueThrows escapes : Bool}
    (harriving : s.arriving (.device (.receive buffer queueThrows escapes)) = some packet)
    (hdevice : s'.device =
      s.device.onVideoFrame packet (packets packet).frame buffer queueThrows) :
    OnDevice packets s s' (.device (.receive buffer queueThrows escapes))
  | putsOut {input : DecoderInput} (ho : s.device.PutsOut input s'.device) :
    OnDevice packets s s' (.device .output)

theorem onDevice {packets : Nat → EncodedPacket} {s s' : Session} {a : Action}
    (hs : (streaming gst packets).step s a = some s') : OnDevice packets s s' a := by
  cases a with
  | wait time => cases hs; exact .rests _ nofun rfl rfl
  | video a => obtain ⟨video, -, rfl⟩ := Option.map_eq_some_iff.1 hs; exact .rests _ nofun rfl rfl
  | audio a => obtain ⟨audio, -, rfl⟩ := Option.map_eq_some_iff.1 hs; exact .rests _ nofun rfl rfl
  | pacing a =>
    have hdevice := Session.pace_device hs
    exact .rests _ nofun (by rw [hdevice]) (by rw [hdevice])
  | reader a =>
    have hdevice := Session.readAcks_device hs
    exact .rests _ nofun (by rw [hdevice]) (by rw [hdevice])
  | device a =>
    cases deviceStep_cases hs with
    | rests hquiet hdemuxed _ hshown => exact .rests _ hquiet hdemuxed hshown
    | takes htoDevice => exact .takes (by rw [Session.arriving, htoDevice]; rfl) rfl
    | putsOut ho => exact .putsOut ho
    | writesAck hw => exact .rests _ nofun hw.demuxed hw.shown

end PadPlay.Daemon.Streaming
