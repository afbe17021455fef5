import PadPlay.Daemon.Freshness
import PadPlay.Daemon.Hosting

/-!
# The end of a session (`session::run`)

When the pacing loop is over it clears `running` and joins the two drain threads and the
acknowledgement thread. Each of them returns within three steps of its own, and none waits for
another: the channels have no bound, so a drain thread never blocks in a send whose receiver is gone
(`joins_return`). The loop looks at the channels only with `try_recv`, which does not tell a sender
that has gone from an empty channel: when an encoder fails, its drain thread stops and the session
goes on without it (`encoder_failure_unnoticed`).
-/

namespace PadPlay.Daemon.Streaming

open PadPlay.Lib

variable {gst : Gst}

/-! ## The threads that are joined -/

inductive Joined where
  | video
  | audio
  | acks
  deriving DecidableEq, Repr

/-- The thread a step belongs to; that of an encoder belongs to none of them. -/
def HostAction.thread : HostAction → Option Joined
  | .video .encode => none
  | .audio .encode => none
  | .video _ => some .video
  | .audio _ => some .audio
  | .reader _ => some .acks
  | _ => none

/-- How many steps a drain thread has left once `running` is false. -/
def DrainPhase.left : DrainPhase → Nat
  | .stopped => 0
  | .checking => 1
  | .holding _ => 2
  | .pulling => 3

def ReaderPhase.left : ReaderPhase → Nat
  | .stopped => 0
  | .checking => 1
  | .reading => 2

def Session.left (s : Session) : Joined → Nat
  | .video => s.video.phase.left
  | .audio => s.audio.phase.left
  | .acks => s.reader.phase.left

theorem Session.left_le (s : Session) (thread : Joined) : s.left thread ≤ 3 := by
  cases thread with
  | video => cases h : s.video.phase <;> simp [left, DrainPhase.left, h]
  | audio => cases h : s.audio.phase <;> simp [left, DrainPhase.left, h]
  | acks => cases h : s.reader.phase <;> simp [left, ReaderPhase.left, h]

/-! ## Counting down -/

/-- A step of a drain thread, or of its encoder. -/
theorem Drain.step_left {config : SinkConfig} {sink : config.Queue} {d d' : Drain}
    {a : DrainAction} (hs : d.step sink false a = some d') :
    if a = .encode then d'.phase = d.phase else d'.phase.left + 1 ≤ d.phase.left := by
  cases a with
  | encode =>
    obtain ⟨-, rfl⟩ := encode_newest hs
    rfl
  | pull =>
    simp only [step] at hs
    split at hs
    · next hphase _ => cases hs; simp [DrainPhase.left, hphase]
    · cases hs
  | check | timeout | fail | send =>
    simp only [step] at hs
    split at hs
    · next hphase => cases hs; simp [DrainPhase.left, hphase]
    · cases hs

theorem readAcks_left {s s' : Session} {a : ReaderAction} (hrunning : s.running = false)
    (hs : s.readAcks a = some s') : s'.reader.phase.left + 1 ≤ s.reader.phase.left := by
  unfold Session.readAcks at hs
  cases a with
  | check | timeout | close =>
    simp only at hs
    split at hs
    · next hphase => cases hs; simp [ReaderPhase.left, hphase, hrunning]
    · cases hs
  | read n =>
    simp only at hs
    split at hs
    · next hphase =>
      split at hs
      · split at hs
        · cases hs
          rw [completeAck_eq]
          simp [ReaderPhase.left, hphase]
        · cases hs
          simp [ReaderPhase.left, hphase]
      · cases hs
    · cases hs

/-! ## Behind the loop -/

structure Hosted.Over (s : Hosted) : Prop where
  pacing : s.session.pacing = .ended
  running : s.session.running = false

theorem pace_ended {s : Session} (h : s.pacing = .ended) (a : PacingAction) : s.pace a = none := by
  cases a <;> simp [Session.pace, h]

/-- `running` is cleared behind the loop, and nowhere else. -/
theorem running_pace {s s' : Session} {a : PacingAction} (hs : s.pace a = some s')
    (h : s.running = false ↔ s.pacing = .ended) : s'.running = false ↔ s'.pacing = .ended := by
  cases pace_cases hs with
  | shutdown | captureFails | audioFails | videoFails => exact ⟨fun _ => rfl, fun _ => rfl⟩
  | goesOn hpacing | captures hpacing | noAudio hpacing | takesAudio hpacing | noVideo hpacing
  | takesVideo hpacing | sendsAudio hpacing | sendsVideo hpacing | sleeps hpacing =>
    refine ⟨fun hrunning => ?_, nofun⟩
    rw [h.1 hrunning] at hpacing
    cases hpacing

theorem readAcks_loop {s s' : Session} {a : ReaderAction} (hs : s.readAcks a = some s') :
    s'.pacing = s.pacing ∧ s'.running = s.running ∧ s'.written = s.written ∧
      s'.begun = s.begun := by
  cases readAcks_spec hs with
  | turns | fills => exact ⟨rfl, rfl, rfl, rfl⟩
  | completes => rw [completeAck_eq]; exact ⟨rfl, rfl, rfl, rfl⟩

theorem readAcks_drains {s s' : Session} {a : ReaderAction} (hs : s.readAcks a = some s') :
    s'.video = s.video ∧ s'.audio = s.audio := by
  cases readAcks_spec hs with
  | turns | fills => exact ⟨rfl, rfl⟩
  | completes => rw [completeAck_eq]; exact ⟨rfl, rfl⟩

/-- A step is one of the pacing loop, or leaves what the loop holds alone. -/
theorem beside_loop {s s' : Hosted} {a : HostAction} (hs : (hosting gst).step s a = some s') :
    (∃ b, a = .pacing b ∧ s.session.pace b = some s'.session) ∨
      (∀ b, a ≠ .pacing b) ∧ s'.session.pacing = s.session.pacing ∧
        s'.session.running = s.session.running ∧ s'.session.written = s.session.written ∧
        s'.session.begun = s.session.begun := by
  cases a with
  | wait time => cases hs; exact .inr ⟨nofun, rfl, rfl, rfl, rfl⟩
  | video a =>
    obtain ⟨video, -, rfl⟩ := Option.map_eq_some_iff.1 hs
    exact .inr ⟨nofun, rfl, rfl, rfl, rfl⟩
  | audio a =>
    obtain ⟨audio, -, rfl⟩ := Option.map_eq_some_iff.1 hs
    exact .inr ⟨nofun, rfl, rfl, rfl, rfl⟩
  | pacing a =>
    obtain ⟨session, hsession, rfl⟩ := Option.map_eq_some_iff.1 hs
    exact .inl ⟨a, rfl, hsession⟩
  | reader a =>
    obtain ⟨session, hsession, rfl⟩ := Option.map_eq_some_iff.1 hs
    exact .inr ⟨nofun, readAcks_loop hsession⟩
  | receives =>
    obtain ⟨-, hs⟩ := Option.ite_none_right_eq_some.1 hs
    cases hs
    exact .inr ⟨nofun, rfl, rfl, rfl, rfl⟩
  | acks frame bytes => cases hs; exact .inr ⟨nofun, rfl, rfl, rfl, rfl⟩

theorem running_run {actions : List HostAction} {s : Hosted}
    (hrun : (hosting gst).run actions = some s) :
    s.session.running = false ↔ s.session.pacing = .ended := by
  refine (hosting gst).run_invariant (I := fun s => s.session.running = false ↔
    s.session.pacing = .ended) ⟨nofun, nofun⟩ ?_ hrun
  intro s a s' h hs
  rcases beside_loop hs with ⟨b, -, hpace⟩ | ⟨-, hpacing, hrunning, -⟩
  · exact running_pace hpace h
  · rw [hpacing, hrunning]
    exact h

theorem Hosted.Over.step {s s' : Hosted} {a : HostAction} (h : s.Over)
    (hs : (hosting gst).step s a = some s') : s'.Over := by
  rcases beside_loop hs with ⟨b, -, hpace⟩ | ⟨-, hpacing, hrunning, -⟩
  · rw [pace_ended h.pacing] at hpace
    cases hpace
  · exact ⟨hpacing.trans h.pacing, hrunning.trans h.running⟩

/-! ## The threads return -/

theorem thread_video {a : DrainAction} (ha : a ≠ .encode) :
    (HostAction.video a).thread = some .video := by
  cases a <;> first | rfl | exact absurd rfl ha

theorem thread_audio {a : DrainAction} (ha : a ≠ .encode) :
    (HostAction.audio a).thread = some .audio := by
  cases a <;> first | rfl | exact absurd rfl ha

/-- A step of one of the threads brings it nearer to its end; no other step concerns it. -/
theorem left_step {s s' : Hosted} {a : HostAction} (h : s.Over)
    (hs : (hosting gst).step s a = some s') (thread : Joined) :
    s'.session.left thread + (if a.thread = some thread then 1 else 0) ≤
      s.session.left thread := by
  cases a with
  | wait time => cases hs; simp [HostAction.thread, Session.left]
  | video a =>
    obtain ⟨video, hvideo, rfl⟩ := Option.map_eq_some_iff.1 hs
    rw [h.running] at hvideo
    have hleft := Drain.step_left hvideo
    by_cases ha : a = .encode
    · rw [if_pos ha] at hleft
      subst ha
      cases thread <;> simp [HostAction.thread, Session.left, hleft]
    · rw [if_neg ha] at hleft
      rw [thread_video ha]
      cases thread with
      | video => exact hleft
      | audio | acks => simp [Session.left]
  | audio a =>
    obtain ⟨audio, haudio, rfl⟩ := Option.map_eq_some_iff.1 hs
    rw [h.running] at haudio
    have hleft := Drain.step_left haudio
    by_cases ha : a = .encode
    · rw [if_pos ha] at hleft
      subst ha
      cases thread <;> simp [HostAction.thread, Session.left, hleft]
    · rw [if_neg ha] at hleft
      rw [thread_audio ha]
      cases thread with
      | audio => exact hleft
      | video | acks => simp [Session.left]
  | pacing a =>
    obtain ⟨session, hsession, -⟩ := Option.map_eq_some_iff.1 hs
    rw [pace_ended h.pacing] at hsession
    cases hsession
  | reader a =>
    obtain ⟨session, hsession, rfl⟩ := Option.map_eq_some_iff.1 hs
    obtain ⟨hvideo, haudio⟩ := readAcks_drains hsession
    cases thread with
    | video => simp [HostAction.thread, Session.left, hvideo]
    | audio => simp [HostAction.thread, Session.left, haudio]
    | acks => exact readAcks_left h.running hsession
  | receives =>
    obtain ⟨-, hs⟩ := Option.ite_none_right_eq_some.1 hs
    cases hs
    simp [HostAction.thread, Session.left]
  | acks frame bytes => cases hs; simp [HostAction.thread, Session.left]

/-- No thread waits for anything but its own timeout: not for another thread, nor for room in a
channel. -/
theorem exists_turn (s : Hosted) {thread : Joined} (h : 0 < s.session.left thread) :
    ∃ a : HostAction, a.thread = some thread ∧ ((hosting gst).step s a).isSome = true := by
  cases thread with
  | video =>
    cases hphase : s.session.video.phase with
    | stopped => simp [Session.left, DrainPhase.left, hphase] at h
    | checking => exact ⟨.video .check, rfl, by simp [hosting, Drain.step, hphase]⟩
    | pulling => exact ⟨.video .timeout, rfl, by simp [hosting, Drain.step, hphase]⟩
    | holding packet => exact ⟨.video .send, rfl, by simp [hosting, Drain.step, hphase]⟩
  | audio =>
    cases hphase : s.session.audio.phase with
    | stopped => simp [Session.left, DrainPhase.left, hphase] at h
    | checking => exact ⟨.audio .check, rfl, by simp [hosting, Drain.step, hphase]⟩
    | pulling => exact ⟨.audio .timeout, rfl, by simp [hosting, Drain.step, hphase]⟩
    | holding packet => exact ⟨.audio .send, rfl, by simp [hosting, Drain.step, hphase]⟩
  | acks =>
    cases hphase : s.session.reader.phase with
    | stopped => simp [Session.left, ReaderPhase.left, hphase] at h
    | checking => exact ⟨.reader .check, rfl, by simp [hosting, Session.readAcks, hphase]⟩
    | reading => exact ⟨.reader .timeout, rfl, by simp [hosting, Session.readAcks, hphase]⟩

/-- The acknowledgements the thread can still count. -/
def Session.counted (s : Session) : Nat :=
  s.roundTrips.length + if s.reader.phase = .reading then 1 else 0

theorem completeAck_roundTrips (s : Session) (acked : Option Nat) :
    (s.completeAck acked).roundTrips.length ≤ s.roundTrips.length + 1 := by
  unfold Session.completeAck
  split
  · exact Nat.le_succ _
  · rw [List.length_append, List.length_singleton]

theorem readAcks_counted {s s' : Session} {a : ReaderAction} (hrunning : s.running = false)
    (hs : s.readAcks a = some s') : s'.counted ≤ s.counted := by
  unfold Session.readAcks at hs
  cases a with
  | check | timeout | close =>
    simp only at hs
    split at hs
    · cases hs; simp [Session.counted, hrunning]
    · cases hs
  | read n =>
    simp only at hs
    split at hs
    · next hphase =>
      split at hs
      · split at hs
        · cases hs
          rw [Session.counted, if_neg (by rw [completeAck_eq]; simp)]
          rw [Session.counted, if_pos hphase]
          exact completeAck_roundTrips _ _
        · cases hs
          simp [Session.counted]
      · cases hs
    · cases hs

theorem counted_step {s s' : Hosted} {a : HostAction} (h : s.Over)
    (hs : (hosting gst).step s a = some s') : s'.session.counted ≤ s.session.counted := by
  cases a with
  | wait time => cases hs; exact Nat.le_refl _
  | video a =>
    obtain ⟨video, -, rfl⟩ := Option.map_eq_some_iff.1 hs
    exact Nat.le_refl _
  | audio a =>
    obtain ⟨audio, -, rfl⟩ := Option.map_eq_some_iff.1 hs
    exact Nat.le_refl _
  | pacing a =>
    obtain ⟨session, hsession, -⟩ := Option.map_eq_some_iff.1 hs
    rw [pace_ended h.pacing] at hsession
    cases hsession
  | reader a =>
    obtain ⟨session, hsession, rfl⟩ := Option.map_eq_some_iff.1 hs
    exact readAcks_counted h.running hsession
  | receives =>
    obtain ⟨-, hs⟩ := Option.ite_none_right_eq_some.1 hs
    cases hs
    exact Nat.le_refl _
  | acks frame bytes => cases hs; exact Nat.le_refl _

/-- **The joins return.** From any state behind the pacing loop, whatever the encoders and the
device go on doing: each of the three threads takes at most three more steps of its own, and has one
it can take until it is over; nothing more is sent, and at most one more acknowledgement is
counted. -/
theorem joins_return {actions more : List HostAction} {s t : Hosted}
    (hrun : (hosting gst).run actions = some s) (hrunning : s.session.running = false)
    (hmore : (hosting gst).runFrom s more = some t) :
    (∀ thread, t.session.left thread + more.countP (·.thread = some thread) ≤ 3 ∧
      (0 < t.session.left thread →
        ∃ a : HostAction, a.thread = some thread ∧ ((hosting gst).step t a).isSome = true)) ∧
    t.session.written = s.session.written ∧ t.session.begun = s.session.begun ∧
    t.session.roundTrips.length ≤ s.session.roundTrips.length + 1 := by
  have hover : s.Over := ⟨(running_run hrun).1 hrunning, hrunning⟩
  have hstep : ∀ s a s', Hosted.Over s → (hosting gst).step s a = some s' → Hosted.Over s' :=
    fun _ _ _ h hs => h.step hs
  refine ⟨?_, ?_⟩
  · intro thread
    refine ⟨?_, exists_turn t⟩
    have hleft := (hosting gst).runFrom_countdown (f := fun s => s.session.left thread)
      (p := fun a => a.thread = some thread) hstep
      (fun _ _ _ h hs => by simpa using left_step h hs thread) hover hmore
    exact Nat.le_trans hleft (s.session.left_le thread)
  · have hsent : t.session.written = s.session.written ∧ t.session.begun = s.session.begun := by
      refine ((hosting gst).runFrom_invariant_along (C := fun _ _ => True) (I := fun u =>
        Hosted.Over u ∧ u.session.written = s.session.written ∧
          u.session.begun = s.session.begun) ?_
        ⟨hover, rfl, rfl⟩ ((hosting gst).alongFrom_of_forall (fun _ _ => trivial) _ _) hmore).2
      rintro u a u' ⟨hu, hwritten, hbegun⟩ - hs
      rcases beside_loop hs with ⟨b, -, hpace⟩ | ⟨-, -, -, hwritten', hbegun'⟩
      · rw [pace_ended hu.pacing] at hpace
        cases hpace
      · exact ⟨hu.step hs, hwritten'.trans hwritten, hbegun'.trans hbegun⟩
    have hcounted := (hosting gst).runFrom_countdown (f := fun s => s.session.counted)
      (p := fun _ => false) hstep (fun _ _ _ h hs => counted_step h hs) hover hmore
    refine ⟨hsent.1, hsent.2, ?_⟩
    calc t.session.roundTrips.length
        ≤ t.session.counted := Nat.le_add_right _ _
      _ ≤ s.session.counted := Nat.le_of_add_right_le hcounted
      _ ≤ s.session.roundTrips.length + 1 := by
        unfold Session.counted
        split <;> omega

/-- The loop is told to stop while the three threads wait. -/
def stopWaiting : List HostAction :=
  [.video .check, .audio .check, .reader .check, .pacing (.check true)]

/-- One of them takes a last packet. -/
def returnAll : List HostAction :=
  [.video .encode, .video .pull, .video .send, .video .check, .audio .timeout, .audio .check,
    .reader .timeout, .reader .check]

/-- The last packet is not sent. -/
theorem joins_return_waiting : ∃ s t, (hosting (.plain 1)).run stopWaiting = some s ∧
    (hosting (.plain 1)).runFrom s returnAll = some t ∧
    (∀ thread, t.session.left thread = 0) ∧ t.session.video.channel = [0] ∧
    t.session.written = s.session.written ∧ t.session.begun = s.session.begun ∧
    t.session.roundTrips.length ≤ s.session.roundTrips.length + 1 := by
  obtain ⟨s, t, hrun, hrunning, hmore, hleft, hchannel⟩ : ∃ s t,
      (hosting (.plain 1)).run stopWaiting = some s ∧ s.session.running = false ∧
      (hosting (.plain 1)).runFrom s returnAll = some t ∧
      (∀ thread, t.session.left thread = 0) ∧ t.session.video.channel = [0] := by
    refine ⟨_, _, rfl, rfl, rfl, ?_, rfl⟩
    rintro (_ | _ | _) <;> rfl
  exact ⟨s, t, hrun, hmore, hleft, hchannel, (joins_return hrun hrunning hmore).2⟩

/-! ## An encoder that fails -/

/-- A step of the pacing loop that is not the end of it: no shutdown, and nothing fails. -/
def PacingAction.goesOn : PacingAction → Bool
  | .check shutdown => !shutdown
  | .capture ok => ok
  | .sendFails _ => false
  | .receive | .sent | .sleep => true

/-- How far the loop is from the end of its turn. -/
def Session.toGo (s : Session) : Nat :=
  match s.pacing with
  | .checking | .ended => 0
  | .sleeping => 1
  | .video => 2 + 2 * s.video.channel.length
  | .sendingVideo _ => 3 + 2 * s.video.channel.length
  | .audio => 3 + 2 * s.video.channel.length + 2 * s.audio.channel.length
  | .sendingAudio _ => 4 + 2 * s.video.channel.length + 2 * s.audio.channel.length
  | .capturing => 5 + 2 * s.video.channel.length + 2 * s.audio.channel.length

/-- What the loop leaves as it was while it goes on. -/
structure Turning (s s' : Session) : Prop where
  phase : s'.video.phase = s.video.phase
  running : s'.running = s.running
  live : s'.pacing ≠ .ended

theorem exists_pace {s : Session} (hlive : s.pacing ≠ .ended) :
    ∃ a : PacingAction, a.goesOn = true ∧ (s.pace a).isSome = true := by
  cases hpacing : s.pacing with
  | ended => exact absurd hpacing hlive
  | checking => exact ⟨.check false, rfl, by simp [Session.pace, hpacing]⟩
  | capturing => exact ⟨.capture true, rfl, by simp [Session.pace, hpacing]⟩
  | sleeping => exact ⟨.sleep, rfl, by simp [Session.pace, hpacing]⟩
  | sendingAudio packet => exact ⟨.sent, rfl, by simp [Session.pace, hpacing]⟩
  | sendingVideo packet => exact ⟨.sent, rfl, by simp [Session.pace, hpacing]⟩
  | audio => exact ⟨.receive, rfl, by cases h : s.audio.channel <;> simp [Session.pace, hpacing, h]⟩
  | video => exact ⟨.receive, rfl, by cases h : s.video.channel <;> simp [Session.pace, hpacing, h]⟩

theorem pace_turning {s s' : Session} {a : PacingAction} (ha : a.goesOn = true)
    (hs : s.pace a = some s') : Turning s s' := by
  cases pace_cases hs with
  | shutdown | captureFails | audioFails | videoFails => cases ha
  | goesOn | captures | noAudio | takesAudio | noVideo | takesVideo | sendsAudio | sendsVideo
  | sleeps => exact ⟨rfl, rfl, nofun⟩

theorem pace_toGo {s s' : Session} {a : PacingAction} (ha : a.goesOn = true)
    (hgo : s.pacing ≠ .checking) (hs : s.pace a = some s') : s'.toGo < s.toGo := by
  cases pace_cases hs with
  | shutdown | captureFails | audioFails | videoFails => cases ha
  | goesOn hpacing => exact absurd hpacing hgo
  | captures hpacing | noAudio hpacing | noVideo hpacing | sendsAudio hpacing | sendsVideo hpacing
  | sleeps hpacing =>
    simp only [Session.toGo, hpacing]
    omega
  | takesAudio hpacing hchannel | takesVideo hpacing hchannel =>
    simp only [Session.toGo, hpacing, hchannel, List.length_cons]
    omega

theorem Turning.trans {s s' s'' : Session} (h : Turning s s') (h' : Turning s' s'') :
    Turning s s'' :=
  ⟨h'.phase.trans h.phase, h'.running.trans h.running, h'.live⟩

/-- A turn of the loop comes to its end when nothing fails. -/
theorem exists_turned {s : Hosted} (hlive : s.session.pacing ≠ .ended) :
    ∃ (more : List PacingAction) (t : Hosted), (∀ a ∈ more, a.goesOn = true) ∧
      (hosting gst).runFrom s (more.map .pacing) = some t ∧ t.session.pacing = .checking ∧
      Turning s.session t.session := by
  induction hn : s.session.toGo using Nat.strongRecOn generalizing s with
  | _ n ih =>
    by_cases hgo : s.session.pacing = .checking
    · exact ⟨[], s, nofun, rfl, hgo, rfl, rfl, hlive⟩
    · obtain ⟨a, ha, hsome⟩ := exists_pace hlive
      obtain ⟨session, hpace⟩ := Option.isSome_iff_exists.1 hsome
      have hstep : (hosting gst).step s (.pacing a) =
          some { s with session, failed := s.failed ++ s.session.failing a } := by
        simp [hosting, hpace]
      have hturn := pace_turning ha hpace
      obtain ⟨more, t, hall, hmore, ht, hturns⟩ :=
        ih _ (hn ▸ pace_toGo ha hgo hpace) (s := { s with
          session, failed := s.failed ++ s.session.failing a }) hturn.live rfl
      refine ⟨a :: more, t, ?_, (hosting gst).runFrom_cons.2 ⟨_, hstep, hmore⟩, ht,
        hturn.trans hturns⟩
      intro b hb
      rcases List.mem_cons.1 hb with rfl | hb
      · exact ha
      · exact hall b hb

/-- From one look at `shutdown` to the next. -/
theorem exists_captured {s : Hosted} (hpacing : s.session.pacing = .checking) :
    ∃ (more : List PacingAction) (t : Hosted), (∀ a ∈ more, a.goesOn = true) ∧
      .capture true ∈ more ∧ (hosting gst).runFrom s (more.map .pacing) = some t ∧
      t.session.pacing = .checking ∧ Turning s.session t.session := by
  obtain ⟨u, hu, hturn⟩ : ∃ u,
      (hosting gst).runFrom s ([.check false, .capture true].map .pacing) = some u ∧
      Turning s.session u.session := by
    simp only [hosting, Machine.runFrom, List.map_cons, List.map_nil, Session.pace, hpacing]
    exact ⟨_, rfl, rfl, rfl, by simp⟩
  obtain ⟨more, t, hall, hmore, ht, hturns⟩ := exists_turned hturn.live
  refine ⟨[.check false, .capture true] ++ more, t, ?_, by simp, ?_, ht, hturn.trans hturns⟩
  · intro a ha
    rcases List.mem_append.1 ha with ha | ha
    · simp only [List.mem_cons, List.not_mem_nil, or_false] at ha
      rcases ha with rfl | rfl <;> rfl
    · exact hall a ha
  · rw [List.map_append]
    exact (hosting gst).runFrom_append.2 ⟨u, hu, hmore⟩

def HostAction.captures : HostAction → Bool
  | .pacing (.capture true) => true
  | _ => false

/-- The loop can go on for as long as nothing fails. -/
theorem exists_turns {s : Hosted} (hlive : s.session.pacing ≠ .ended) (n : Nat) :
    ∃ (more : List HostAction) (t : Hosted), n ≤ more.countP HostAction.captures ∧
      (hosting gst).runFrom s more = some t ∧ t.session.pacing = .checking ∧
      Turning s.session t.session := by
  induction n with
  | zero =>
    obtain ⟨more, t, -, hmore, ht, hturn⟩ := exists_turned hlive
    exact ⟨more.map .pacing, t, Nat.zero_le _, hmore, ht, hturn⟩
  | succ n ih =>
    obtain ⟨more, t, hn, hmore, ht, hturn⟩ := ih
    obtain ⟨again, u, -, hcapture, hagain, hu, hturns⟩ := exists_captured ht
    refine ⟨more ++ again.map .pacing, u, ?_, (hosting gst).runFrom_append.2 ⟨t, hmore, hagain⟩, hu,
      hturn.trans hturns⟩
    rw [List.countP_append]
    have hpos : 0 < (again.map HostAction.pacing).countP HostAction.captures :=
      List.countP_pos_iff.2 ⟨_, List.mem_map_of_mem hcapture, rfl⟩
    omega

/-- A drain thread that has stopped stays so, and its channel is only emptied. -/
theorem Drain.step_stopped {config : SinkConfig} {sink : config.Queue} {running : Bool}
    {d d' : Drain} {a : DrainAction} (hphase : d.phase = .stopped)
    (hs : d.step sink running a = some d') :
    d'.phase = .stopped ∧ d'.channel = d.channel := by
  by_cases ha : a = .encode
  · subst ha
    obtain ⟨-, rfl⟩ := encode_newest hs
    exact ⟨hphase, rfl⟩
  · cases a <;> simp [Drain.step, hphase] at hs ha

structure StoppedStep (s s' : Hosted) (a : HostAction) : Prop where
  phase : s'.session.video.phase = .stopped
  /-- what is sent, or still waits to be -/
  sent : s'.session.begun + s'.session.video.channel.length =
    s.session.begun + s.session.video.channel.length
  running : (∀ b, a = .pacing b → b.goesOn = true) → s'.session.running = s.session.running

theorem stopped_step {s s' : Hosted} {a : HostAction} (hphase : s.session.video.phase = .stopped)
    (hs : (hosting gst).step s a = some s') : StoppedStep s s' a := by
  cases a with
  | wait time => cases hs; exact ⟨hphase, rfl, fun _ => rfl⟩
  | video a =>
    obtain ⟨video, hvideo, rfl⟩ := Option.map_eq_some_iff.1 hs
    obtain ⟨hstopped, hchannel⟩ := Drain.step_stopped hphase hvideo
    exact ⟨hstopped, by rw [hchannel], fun _ => rfl⟩
  | audio a =>
    obtain ⟨audio, -, rfl⟩ := Option.map_eq_some_iff.1 hs
    exact ⟨hphase, rfl, fun _ => rfl⟩
  | pacing a =>
    obtain ⟨session, hsession, rfl⟩ := Option.map_eq_some_iff.1 hs
    refine ⟨?_, ?_, fun ha => (pace_turning (ha a rfl) hsession).running⟩
    · cases pace_cases hsession <;> exact hphase
    · cases pace_cases hsession with
      | takesVideo _ hchannel =>
        simp only [hchannel, List.length_cons]
        omega
      | _ => rfl
  | reader a =>
    obtain ⟨session, hsession, rfl⟩ := Option.map_eq_some_iff.1 hs
    obtain ⟨-, hrunning, -, hbegun⟩ := readAcks_loop hsession
    obtain ⟨hvideo, -⟩ := readAcks_drains hsession
    exact ⟨by rw [hvideo]; exact hphase, by rw [hvideo, hbegun], fun _ => hrunning⟩
  | receives =>
    obtain ⟨-, hs⟩ := Option.ite_none_right_eq_some.1 hs
    cases hs
    exact ⟨hphase, rfl, fun _ => rfl⟩
  | acks frame bytes => cases hs; exact ⟨hphase, rfl, fun _ => rfl⟩

theorem stopped_runFrom {s t : Hosted} {more : List HostAction}
    (hphase : s.session.video.phase = .stopped) (hmore : (hosting gst).runFrom s more = some t) :
    t.session.begun + t.session.video.channel.length =
        s.session.begun + s.session.video.channel.length ∧
      ((∀ a : PacingAction, .pacing a ∈ more → a.goesOn = true) →
        t.session.running = s.session.running) := by
  induction more generalizing s with
  | nil => cases hmore; exact ⟨rfl, fun _ => rfl⟩
  | cons a more ih =>
    obtain ⟨u, hu, hmore⟩ := (hosting gst).runFrom_cons.1 hmore
    obtain ⟨hstopped, hsent, hrunning⟩ := stopped_step hphase hu
    obtain ⟨hrest, hgoes⟩ := ih hstopped hmore
    refine ⟨hrest.trans hsent, ?_⟩
    intro hall
    rw [hgoes fun b hb => hall b (List.mem_cons_of_mem _ hb)]
    refine hrunning ?_
    rintro b rfl
    exact hall b List.mem_cons_self

/-- **A failed encoder goes unnoticed.** Once its drain thread has stopped while the session runs,
no more video is sent than waits in the channel; and nothing of this ends the session, which goes on
capturing for as long as it is not told to stop and no capture or send fails. -/
theorem encoder_failure_unnoticed {actions : List HostAction} {s : Hosted}
    (hrun : (hosting gst).run actions = some s) (hstopped : s.session.video.phase = .stopped)
    (hrunning : s.session.running = true) :
    (∀ more t, (hosting gst).runFrom s more = some t →
      t.session.begun ≤ s.session.begun + s.session.video.channel.length ∧
      ((∀ a : PacingAction, .pacing a ∈ more → a.goesOn = true) → t.session.running = true)) ∧
    ∀ n, ∃ more t, (hosting gst).runFrom s more = some t ∧ n ≤ more.countP HostAction.captures ∧
      t.session.video.phase = .stopped ∧ t.session.running = true := by
  refine ⟨?_, ?_⟩
  · intro more t hmore
    obtain ⟨hsent, hgoes⟩ := stopped_runFrom hstopped hmore
    exact ⟨Nat.le_of_add_right_le (Nat.le_of_eq hsent), fun hall => (hgoes hall).trans hrunning⟩
  · intro n
    have hlive : s.session.pacing ≠ .ended := by
      intro hended
      rw [(running_run hrun).2 hended] at hrunning
      cases hrunning
    obtain ⟨more, t, hn, hmore, -, hturn⟩ := exists_turns hlive n
    exact ⟨more, t, hmore, hn, hturn.phase.trans hstopped, hturn.running.trans hrunning⟩

/-- The encoder fails behind its first packet. -/
def failSecond : List HostAction :=
  [.video .encode, .video .check, .video .pull, .video .send, .video .check, .video .fail]

theorem encoder_failure_unnoticed_second : ∃ s, (hosting (.plain 1)).run failSecond = some s ∧
    (∀ more t, (hosting (.plain 1)).runFrom s more = some t → t.session.begun ≤ 1) ∧
    ∀ n, ∃ more t, (hosting (.plain 1)).runFrom s more = some t ∧
      n ≤ more.countP HostAction.captures ∧
      t.session.video.phase = .stopped ∧ t.session.running = true := by
  obtain ⟨s, hrun, hstopped, hrunning, hsent⟩ : ∃ s,
      (hosting (.plain 1)).run failSecond = some s ∧
      s.session.video.phase = .stopped ∧ s.session.running = true ∧
      s.session.begun + s.session.video.channel.length = 1 := ⟨_, rfl, rfl, rfl, rfl⟩
  obtain ⟨hbegun, hgoes⟩ := encoder_failure_unnoticed hrun hstopped hrunning
  exact ⟨s, hrun, fun more t hmore => hsent ▸ (hbegun more t hmore).1, hgoes⟩

end PadPlay.Daemon.Streaming
