import PadPlay.Daemon.Freshness
import PadPlay.Daemon.Hosting

/-!
# Audio packets between their encoder and the socket

Two queues hold the audio packets of a session. The `appsink` holds eight and drops the oldest, so
that a stalled consumer falls at most eight packets behind; its consumer is the drain thread, which
never stalls, and behind it is a channel without a bound. What is pulled is fresh and stays in order
(`audio_newest`), but what waits in the channel while one video frame is sent has no bound, nor has
what the pacing loop sends before it captures again (`audio_unbounded`).
-/

namespace PadPlay.Daemon.Streaming

open PadPlay.Lib

variable {gst : Gst}

/-! ## The `appsink` -/

/-- The `appsink` holds the newest packets; what was pulled is in order, and before them. -/
structure Drain.Trails (d : Drain) : Prop where
  newest : Newest audioSink.maxBuffers (List.range d.encoded) d.appsink
  ordered : (d.pulled ++ d.appsink).Sublist (List.range d.encoded)

theorem Drain.trails_init : Drain.init.Trails := ⟨.nil _ _, List.Sublist.refl _⟩

theorem Drain.Trails.step {running : Bool} {d d' : Drain} {a : DrainAction} (h : d.Trails)
    (hs : d.step gst.audio running a = some d') : d'.Trails := by
  by_cases ha : a = .encode
  · subst ha
    obtain ⟨-, rfl⟩ := encode_newest hs
    refine ⟨?_, ?_⟩
    · show Newest _ (List.range (d.encoded + 1)) _
      rw [List.range_succ]
      exact h.newest.push (by decide) d.encoded
    · show List.Sublist _ (List.range (d.encoded + 1))
      rw [List.range_succ]
      exact taken_sublist_push h.ordered d.encoded
  · cases Drain.step_cases hs with
    | encodes => exact absurd rfl ha
    | turns | sends => exact ⟨h.newest, h.ordered⟩
    | @pulls packet appsink hphase happsink =>
      obtain ⟨hnewest, hordered⟩ := h
      rw [happsink] at hnewest hordered
      refine ⟨hnewest.take, ?_⟩
      rw [List.append_cons] at hordered
      exact hordered

/-- **Fresh when pulled.** -/
theorem Drain.Trails.pulls {running : Bool} {d d' : Drain} {packet : Nat} (h : d.Trails)
    (hs : d.step gst.audio running .pull = some d') (hphase : d'.phase = .holding packet) :
    d.encoded ≤ packet + audioSink.maxBuffers := by
  cases Drain.step_cases hs with
  | turns _ hhand =>
    have hhand : (DrainPhase.holding packet).hand = [] := hphase ▸ hhand
    cases hhand
  | pulls _ happsink =>
    cases hphase
    have hnewest := h.newest
    rw [happsink] at hnewest
    exact hnewest.front_range

theorem Drain.Trails.withChannel {d : Drain} (h : d.Trails) (channel : List Nat) :
    Drain.Trails { d with channel } := ⟨h.newest, h.ordered⟩

theorem trails_step {s s' : Hosted} {a : HostAction} (h : s.session.audio.Trails)
    (hs : (hosting gst).step s a = some s') : s'.session.audio.Trails := by
  cases a with
  | wait time => cases hs; exact h
  | video a => obtain ⟨video, -, rfl⟩ := Option.map_eq_some_iff.1 hs; exact h
  | audio a => obtain ⟨audio, haudio, rfl⟩ := Option.map_eq_some_iff.1 hs; exact h.step haudio
  | pacing a =>
    obtain ⟨session, hsession, rfl⟩ := Option.map_eq_some_iff.1 hs
    cases pace_spec hsession with
    | takesAudio => exact h.withChannel _
    | moves | takesVideo | sends | fails => exact h
  | reader a =>
    obtain ⟨session, hsession, rfl⟩ := Option.map_eq_some_iff.1 hs
    cases readAcks_spec hsession with
    | turns | fills => exact h
    | completes => rw [completeAck_eq]; exact h
  | receives =>
    obtain ⟨-, hs⟩ := Option.ite_none_right_eq_some.1 hs
    cases hs
    exact h
  | acks frame bytes => cases hs; exact h

theorem trails_run {actions : List HostAction} {s : Hosted}
    (hrun : (hosting gst).run actions = some s) : s.session.audio.Trails :=
  (hosting gst).run_invariant Drain.trails_init (fun _ _ _ h hs => trails_step h hs) hrun

/-- **Audio stays in order, and is fresh when it is pulled**, under any interleaving and whatever
the device does: the `appsink` holds the newest packets, at most eight; a packet is at most eight
behind when the drain thread takes it; and the packets sent are in the order of the encoder, none
twice. -/
theorem audio_newest {actions : List HostAction} {s : Hosted}
    (hrun : (hosting gst).run actions = some s) :
    Newest 8 (List.range s.session.audio.encoded) s.session.audio.appsink ∧
      (∀ s' packet, (hosting gst).step s (.audio .pull) = some s' →
        s'.session.audio.phase = .holding packet → s.session.audio.encoded ≤ packet + 8) ∧
      (s.session.written.filterMap WireFrame.audio?).Pairwise (· < ·) := by
  have htrails := trails_run hrun
  refine ⟨htrails.newest, ?_, ?_⟩
  · intro s' packet hs hphase
    obtain ⟨audio, haudio, rfl⟩ := Option.map_eq_some_iff.1 hs
    exact htrails.pulls haudio hphase
  · have hpulled : (s.session.audio.pulled).Sublist (List.range s.session.audio.encoded) :=
      (List.sublist_append_left _ _).trans htrails.ordered
    have hwritten : (s.session.written.filterMap WireFrame.audio?).Sublist
        s.session.audio.pulled := by
      have hcarries := (hostSafe_run hrun).audio
      rw [Hosted.taken, List.filterMap_append, List.filterMap_append, Drain.Carries] at hcarries
      rw [hcarries]
      simp only [List.append_assoc]
      exact List.sublist_append_left _ _
    exact List.pairwise_lt_range.sublist (hwritten.trans hpulled)

/-- Nine packets are put out before the drain thread takes one, so that the first of them is
dropped. Behind the next two, which are sent, three more push out another one. -/
def overflowing : List HostAction :=
  List.replicate 9 (.audio .encode) ++ [.audio .check, .audio .pull, .audio .send,
    .pacing (.check false), .pacing (.capture true), .pacing .receive, .pacing .sent,
    .audio .check, .audio .pull, .audio .send, .pacing .receive, .pacing .sent] ++
    List.replicate 3 (.audio .encode) ++ [.audio .check]

theorem audio_newest_overflowing : ∃ s s',
    (hosting (.plain 1)).run overflowing = some s ∧
    (hosting (.plain 1)).step s (.audio .pull) = some s' ∧ s'.session.audio.phase = .holding 4 ∧
    s.session.written.filterMap WireFrame.audio? = [1, 2] ∧
    Newest 8 (List.range s.session.audio.encoded) s.session.audio.appsink ∧
    s.session.audio.encoded ≤ 4 + 8 ∧
    (s.session.written.filterMap WireFrame.audio?).Pairwise (· < ·) := by
  obtain ⟨s, hrun, s', hs, hphase, hwritten⟩ : ∃ s, (hosting (.plain 1)).run overflowing = some s ∧
      ∃ s', (hosting (.plain 1)).step s (.audio .pull) = some s' ∧
        s'.session.audio.phase = .holding 4 ∧
        s.session.written.filterMap WireFrame.audio? = [1, 2] := ⟨_, rfl, _, rfl, rfl, rfl⟩
  obtain ⟨hnewest, hfresh, hordered⟩ := audio_newest hrun
  exact ⟨s, s', hrun, hs, hphase, hwritten, hnewest, hfresh s' 4 hs hphase, hordered⟩

/-! ## The channel behind it -/

/-- A packet goes from the encoder into the channel. -/
def audioRound : List HostAction := [.audio .encode, .audio .check, .audio .pull, .audio .send]

variable (gst) in
theorem run_audioRound {s : Hosted} {n : Nat} {channel pulled : List Nat}
    (hrunning : s.session.running = true)
    (haudio : s.session.audio = ⟨n, [], .checking, channel, pulled⟩) :
    (hosting gst).runFrom s audioRound = some { s with
      session.audio := ⟨n + 1, [], .checking, channel ++ [n], pulled ++ [n]⟩ } := by
  have hqueued : gst.audio.push [] n = some [n] := gst.audio.queues (by decide)
  simp [audioRound, hosting, Machine.runFrom, Drain.step, hqueued, haudio, hrunning]

/-- Nothing but `running` stops packets from going into the channel. -/
theorem exists_waiting {s : Hosted} {n : Nat} {channel pulled : List Nat}
    (hrunning : s.session.running = true)
    (haudio : s.session.audio = ⟨n, [], .checking, channel, pulled⟩) (k : Nat) :
    ∃ more, (∀ a ∈ more, ∃ b, a = .audio b) ∧ (hosting gst).runFrom s more = some { s with
      session.audio := ⟨n + k, [], .checking, channel ++ List.range' n k,
        pulled ++ List.range' n k⟩ } := by
  induction k generalizing s n channel pulled with
  | zero =>
    refine ⟨[], nofun, ?_⟩
    simp [← haudio]
  | succ k ih =>
    have hround := run_audioRound gst hrunning haudio
    obtain ⟨more, haudios, hmore⟩ := @ih { s with
      session.audio := ⟨n + 1, [], .checking, channel ++ [n], pulled ++ [n]⟩ } _ _ _ hrunning rfl
    refine ⟨audioRound ++ more, ?_, ?_⟩
    · intro a ha
      rcases List.mem_append.1 ha with ha | ha
      · simp only [audioRound, List.mem_cons, List.not_mem_nil, or_false] at ha
        rcases ha with rfl | rfl | rfl | rfl <;> exact ⟨_, rfl⟩
      · exact haudios a ha
    · refine (hosting gst).runFrom_append.2 ⟨_, hround, ?_⟩
      rw [hmore, List.range'_succ]
      simp [Nat.add_assoc, Nat.add_comm 1 k]

/-- A packet goes from the encoder to the device. -/
def audioSent : List HostAction := audioRound ++ [.pacing .receive, .pacing .sent]

/-- The pacing loop sends the only packet in the channel. -/
theorem run_sends {s : Hosted} {packet : Nat} (hpacing : s.session.pacing = .audio)
    (hchannel : s.session.audio.channel = [packet]) :
    ∃ t, (hosting gst).runFrom s [.pacing .receive, .pacing .sent] = some t ∧
      t.session.running = s.session.running ∧ t.session.pacing = .audio ∧
      t.session.written = s.session.written ++ [.audio packet] ∧
      t.session.audio = { s.session.audio with channel := [] } := by
  simp [hosting, Machine.runFrom, Session.pace, hpacing, hchannel]

theorem run_audioSent {s : Hosted} {n : Nat} {pulled : List Nat}
    (hrunning : s.session.running = true) (hpacing : s.session.pacing = .audio)
    (haudio : s.session.audio = ⟨n, [], .checking, [], pulled⟩) :
    ∃ t, (hosting gst).runFrom s audioSent = some t ∧ t.session.running = true ∧
      t.session.pacing = .audio ∧ t.session.written = s.session.written ++ [.audio n] ∧
      t.session.audio = ⟨n + 1, [], .checking, [], pulled ++ [n]⟩ := by
  have hround := run_audioRound gst hrunning haudio
  obtain ⟨t, ht, hsame, hnext, hwritten, hempty⟩ := @run_sends gst { s with
    session.audio := ⟨n + 1, [], .checking, [] ++ [n], pulled ++ [n]⟩ } n hpacing rfl
  exact ⟨t, (hosting gst).runFrom_append.2 ⟨_, hround, ht⟩, hsame.trans hrunning, hnext, hwritten,
    hempty⟩

theorem exists_sent {s : Hosted} {n : Nat} {pulled : List Nat}
    (hrunning : s.session.running = true) (hpacing : s.session.pacing = .audio)
    (haudio : s.session.audio = ⟨n, [], .checking, [], pulled⟩) (k : Nat) :
    ∃ more t, (∀ a ∈ more, a ∈ audioSent) ∧ (hosting gst).runFrom s more = some t ∧
      t.session.written = s.session.written ++ (List.range' n k).map .audio := by
  induction k generalizing s n pulled with
  | zero => exact ⟨[], s, nofun, rfl, (List.append_nil _).symm⟩
  | succ k ih =>
    obtain ⟨u, hu, hrunning, hpacing, hwritten, haudio⟩ := run_audioSent hrunning hpacing haudio
    obtain ⟨more, t, hsent, hmore, hall⟩ := ih hrunning hpacing haudio
    refine ⟨audioSent ++ more, t, ?_, (hosting gst).runFrom_append.2 ⟨u, hu, hmore⟩, ?_⟩
    · intro a ha
      exact (List.mem_append.1 ha).elim id (hsent a)
    · rw [hall, hwritten, List.append_assoc, List.range'_succ]
      rfl

/-- The pacing loop is in the send of the first video frame. -/
def firstSend : List HostAction :=
  [.video .encode, .video .check, .video .pull, .video .send, .pacing (.check false),
    .pacing (.capture true), .pacing .receive, .pacing .receive]

variable (gst) in
theorem run_firstSend : ∃ s, (hosting gst).run firstSend = some s ∧ s.session.running = true ∧
    s.session.pacing = .sendingVideo 0 ∧
    s.session.audio = ⟨0, [], .checking, [], []⟩ := by
  have hqueued : gst.video.push [] 0 = some [0] := gst.video.queues (by decide)
  simp [firstSend, hosting, Machine.run, Machine.runFrom, Session.init, Drain.init, Drain.step,
    Session.pace, hqueued]

/-- **Without a bound.** While one video frame is being sent, any number of packets can gather in
the channel, and none of them is dropped; and the pacing loop can send any number of them before it
captures another frame or looks at `shutdown`. -/
theorem audio_unbounded (gst : Gst) (n : Nat) :
    (∃ s more t, (hosting gst).run firstSend = some s ∧ (hosting gst).runFrom s more = some t ∧
      t.session.pacing = .sendingVideo 0 ∧ t.session.audio.channel = List.range n) ∧
    ∃ s more t, (hosting gst).run [.pacing (.check false), .pacing (.capture true)] = some s ∧
      (hosting gst).runFrom s more = some t ∧ t.session.written = (List.range n).map .audio ∧
      ∀ shutdown ok, .pacing (.check shutdown) ∉ more ∧ .pacing (.capture ok) ∉ more := by
  refine ⟨?_, ?_⟩
  · obtain ⟨s, hs, hrunning, hpacing, haudio⟩ := run_firstSend gst
    obtain ⟨more, -, hmore⟩ := exists_waiting hrunning haudio n
    exact ⟨s, more, _, hs, hmore, hpacing, List.range_eq_range'.symm⟩
  · obtain ⟨s, hs, hrunning, hpacing, haudio, hwritten⟩ : ∃ s,
        (hosting gst).run [.pacing (.check false), .pacing (.capture true)] = some s ∧
        s.session.running = true ∧ s.session.pacing = .audio ∧
        s.session.audio = ⟨0, [], .checking, [], []⟩ ∧ s.session.written = [] :=
      ⟨_, rfl, rfl, rfl, rfl, rfl⟩
    obtain ⟨more, t, hsent, hmore, hall⟩ := exists_sent hrunning hpacing haudio n
    refine ⟨s, more, t, hs, hmore, ?_, ?_⟩
    · rw [hall, hwritten, List.range_eq_range']
      rfl
    · intro shutdown ok
      refine ⟨fun hmem => ?_, fun hmem => ?_⟩
      · have hno := hsent _ hmem
        simp [audioSent, audioRound] at hno
      · have hno := hsent _ hmem
        simp [audioSent, audioRound] at hno

end PadPlay.Daemon.Streaming
