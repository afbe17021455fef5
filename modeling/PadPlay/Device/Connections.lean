import PadPlay.Device.Reading
import PadPlay.Device.VideoStream
import PadPlay.Lib.Ledger

/-!
# One connection after the other (`VideoStream.session`, `AudioStream`)

Between two connections nothing should be left of the first. `session` hands the stream header to
the audio sink before it waits for a surface and makes the video decoder, but takes both down in the
`finally` block behind its loop alone; a connection that ends in between leaves the audio decoder
attached (`left_behind_iff`).
-/

namespace PadPlay.Device

open PadPlay.Lib PadPlay.Device.DataInput PadPlay.Device.Protocol

namespace VideoStream

/-! ## Turns -/

/-- What a connection brings. -/
structure Connection where
  env : Env
  input : ByteSource

/-- What happens to the two streams: the switch that the UI starts and stops them with, and
connections, one after the other. -/
inductive Turn where
  | start
  | stop
  | connect (c : Connection)

/-- The audio stream, and the video decoders that were made and released, by number. -/
structure Streams where
  audio : AudioStream
  made : Nat
  decoders : List (Use Nat)

def Connection.run (c : Connection) (audio : AudioStream) : SessionRun :=
  session c.env (some audio) c.input

/-- A call of a session, for the decoder with a number. -/
def DecoderCall.use (made : Nat) : DecoderCall → Use Nat
  | .createDecoderByType => .created made
  | .release => .removed made

def Connection.decoders (c : Connection) (audio : AudioStream) (made : Nat) : List (Use Nat) :=
  (c.run audio).decoder.map (DecoderCall.use made)

def Streams.turn (s : Streams) : Turn → Streams
  | .start => { s with audio := s.audio.start }
  | .stop => { s with audio := s.audio.stop }
  | .connect c =>
    { audio := (c.run s.audio).loop.consumers.audioSink.getD s.audio
      made := s.made + 1
      decoders := s.decoders ++ c.decoders s.audio s.made }

def Streams.turns (s : Streams) (history : List Turn) : Streams := history.foldl Streams.turn s

/-! ## What a session leaves -/

/-- The audio decoder is attached when the wait for a surface begins, and the session does not come
as far as its loop. -/
def Connection.Leaves (c : Connection) (audio : AudioStream) : Prop :=
  (∃ header rest, readStreamHeader.run c.input = .ok (header, rest) ∧ header.hasAudio = true) ∧
    audio.running = true ∧ c.env.audioConfigure = .configured ∧
    (c.env.surface = false ∨ c.env.configureCodec ≠ .started)

/-- The video decoder is made, but not started. -/
def Connection.Strands (c : Connection) : Prop :=
  (∃ header rest, readStreamHeader.run c.input = .ok (header, rest)) ∧ c.env.surface = true ∧
    c.env.configureCodec = .notStarted

/-- The turn does not touch the audio decoder. -/
def Turn.Keeps : Turn → Prop
  | .start => True
  | .stop => False
  | .connect c => ∃ e, readStreamHeader.run c.input = .error e

theorem dispatch_sink {env : Env} {round : Nat} {frame : FrameHeader} {scratch : List UInt8}
    {c c' : Consumers} (h : dispatch env round frame scratch c = .ok c') :
    c'.audioSink.isSome = c.audioSink.isSome := by
  unfold dispatch at h
  split at h
  · split at h
    · cases h; rfl
    · next hsink =>
      split at h
      · cases h
      · cases h
        rw [hsink]
        rfl
  · split at h
    · split at h
      · cases h
      · cases h; rfl
    · cases h; rfl

theorem loop_sink (env : Env) (l : Loop) :
    (loop env l).2.consumers.audioSink.isSome = l.consumers.audioSink.isSome := by
  fun_induction loop env l with
  | case1 => rfl
  | case2 => rfl
  | case3 l _ rounds frame scratch input hnext obtained consumers hdispatch ih =>
    exact ih.trans (dispatch_sink hdispatch)
  | case4 => rfl

theorem onStreamHeader_codec (s : AudioStream) (answer : ConfigureAnswer) (header : StreamHeader) :
    (s.onStreamHeader answer header).codec = true ↔
      s.running = true ∧ header.hasAudio = true ∧ answer = .configured := by
  unfold AudioStream.onStreamHeader
  cases hrunning : s.running with
  | false => simp [AudioStream.teardown, hrunning]
  | true =>
    cases haudio : header.hasAudio with
    | false => simp [AudioStream.teardown, hrunning]
    | true => cases answer <;> simp [AudioStream.teardown, hrunning]

theorem start_codec (s : AudioStream) : s.start.codec = s.codec := by
  unfold AudioStream.start
  split <;> rfl

theorem Connection.run_error {c : Connection} {e : Throwable}
    (h : readStreamHeader.run c.input = .error e) (audio : AudioStream) :
    c.run audio = ⟨none, .header e, VideoStream.start (some audio) c.input, []⟩ := by
  rw [Connection.run, session, h]

/-- A session whose header arrives, by what it finds. -/
theorem Connection.run_ok {c : Connection} {header : StreamHeader} {rest : ByteSource}
    (h : readStreamHeader.run c.input = .ok (header, rest)) (audio : AudioStream) :
    let begun := VideoStream.start (some (audio.onStreamHeader c.env.audioConfigure header)) rest
    c.env.surface = false ∧ c.run audio = ⟨some header, .surface, begun, []⟩ ∨
    c.env.surface = true ∧ c.env.configureCodec = .notMade ∧
      c.run audio = ⟨some header, .codec, begun, []⟩ ∨
    c.env.surface = true ∧ c.env.configureCodec = .notStarted ∧
      c.run audio = ⟨some header, .codec, begun, [.createDecoderByType]⟩ ∨
    c.env.surface = true ∧ c.env.configureCodec = .started ∧ ∃ ended l sink,
      l.consumers.audioSink = some (AudioStream.onSessionEnded sink) ∧
      c.run audio = ⟨some header, ended, l, [.createDecoderByType, .release]⟩ := by
  intro begun
  cases hsurface : c.env.surface with
  | false =>
    refine .inl ⟨rfl, ?_⟩
    rw [Connection.run, session, h, hsurface]
    rfl
  | true =>
    cases hanswer : c.env.configureCodec with
    | notMade =>
      refine .inr (.inl ⟨rfl, rfl, ?_⟩)
      rw [Connection.run, session, h, hsurface, hanswer]
      rfl
    | notStarted =>
      refine .inr (.inr (.inl ⟨rfl, rfl, ?_⟩))
      rw [Connection.run, session, h, hsurface, hanswer]
      rfl
    | started =>
      obtain ⟨sink, hsink⟩ := Option.isSome_iff_exists.1 (loop_sink c.env begun)
      refine .inr (.inr (.inr ⟨rfl, rfl, (loop c.env begun).1, { (loop c.env begun).2 with
        consumers := { (loop c.env begun).2.consumers with
          audioSink := (loop c.env begun).2.consumers.audioSink.map (·.onSessionEnded) } },
        sink, congrArg (Option.map _) hsink, ?_⟩))
      rw [Connection.run, session, h, hsurface, hanswer]
      rfl

/-- The video decoder of a session: it is released, unless it was not started. -/
theorem Connection.decoders_cases (c : Connection) (audio : AudioStream) (made : Nat) :
    ¬ c.Strands ∧ (c.decoders audio made = [] ∨
        c.decoders audio made = [.created made, .removed made]) ∨
      c.Strands ∧ c.decoders audio made = [.created made] := by
  unfold Connection.decoders Connection.Strands
  cases hheader : readStreamHeader.run c.input with
  | error e =>
    rw [c.run_error hheader audio]
    exact .inl ⟨by simp, .inl rfl⟩
  | ok read =>
    obtain ⟨header, rest⟩ := read
    rcases c.run_ok hheader audio with
      ⟨hs, hrun⟩ | ⟨hs, hc, hrun⟩ | ⟨hs, hc, hrun⟩ | ⟨hs, hc, _, _, _, -, hrun⟩
    · rw [hrun]
      exact .inl ⟨by simp [hs], .inl rfl⟩
    · rw [hrun]
      exact .inl ⟨by simp [hc], .inl rfl⟩
    · rw [hrun]
      exact .inr ⟨by simp [hs, hc], rfl⟩
    · rw [hrun]
      exact .inl ⟨by simp [hc], .inr rfl⟩

/-- What one session does to the audio decoder. -/
theorem Connection.run_codec (c : Connection) (audio : AudioStream) :
    ((c.run audio).loop.consumers.audioSink.getD audio).codec = true ↔
      c.Leaves audio ∨ audio.codec = true ∧ ∃ e, readStreamHeader.run c.input = .error e := by
  cases hheader : readStreamHeader.run c.input with
  | error e =>
    have hnot : ¬ c.Leaves audio := by
      rintro ⟨⟨header, rest, hok, -⟩, -⟩
      rw [hheader] at hok
      cases hok
    rw [c.run_error hheader audio, or_iff_right hnot, and_iff_left ⟨e, rfl⟩]
    rfl
  | ok read =>
    obtain ⟨header, rest⟩ := read
    have hnot : ¬ ∃ e, (Except.ok (header, rest) : Except Throwable _) = .error e := nofun
    have hleaves : c.Leaves audio ↔
        (audio.onStreamHeader c.env.audioConfigure header).codec = true ∧
          (c.env.surface = false ∨ c.env.configureCodec ≠ .started) := by
      rw [onStreamHeader_codec, Connection.Leaves, hheader]
      constructor
      · rintro ⟨⟨_, _, heq, haudio⟩, hrunning, hanswer, hearly⟩
        cases heq
        exact ⟨⟨hrunning, haudio, hanswer⟩, hearly⟩
      · rintro ⟨⟨hrunning, haudio, hanswer⟩, hearly⟩
        exact ⟨⟨header, rest, rfl, haudio⟩, hrunning, hanswer, hearly⟩
    rw [iff_false_intro hnot, and_false, or_false, hleaves]
    rcases c.run_ok hheader audio with
      ⟨hs, hrun⟩ | ⟨-, hc, hrun⟩ | ⟨-, hc, hrun⟩ | ⟨hs, hc, _, l, sink, hl, hrun⟩
    · rw [hrun, and_iff_left (.inl hs)]
      rfl
    · rw [hrun, and_iff_left (.inr (by simp [hc]))]
      rfl
    · rw [hrun, and_iff_left (.inr (by simp [hc]))]
      rfl
    · rw [hrun, hl, hs, hc]
      simp [AudioStream.onSessionEnded, AudioStream.teardown]

/-- **A step.** -/
theorem Streams.turn_codec (s : Streams) (t : Turn) : (s.turn t).audio.codec = true ↔
    (∃ c, t = .connect c ∧ c.Leaves s.audio) ∨ s.audio.codec = true ∧ t.Keeps := by
  cases t with
  | start => simp [Streams.turn, start_codec, Turn.Keeps]
  | stop => simp [Streams.turn, AudioStream.stop, AudioStream.teardown, Turn.Keeps]
  | connect c =>
    rw [Streams.turn, c.run_codec s.audio]
    simp [Turn.Keeps]

theorem Streams.turns_append (s : Streams) (l₁ l₂ : List Turn) :
    s.turns (l₁ ++ l₂) = (s.turns l₁).turns l₂ := List.foldl_append

/-! ## What a run of connections leaves -/

/-- Both streams as they are made, before the first connection. -/
def Streams.fresh : Streams where
  audio := ⟨false, false, none, .waiting, []⟩
  made := 0
  decoders := []

/-- The audio decoder is there exactly when a connection has left it and each turn since kept it. -/
theorem Streams.turns_codec {s : Streams} (hs : s.audio.codec = false) (history : List Turn) :
    (s.turns history).audio.codec = true ↔
      ∃ before c after, history = before ++ .connect c :: after ∧
        c.Leaves (s.turns before).audio ∧ ∀ t ∈ after, t.Keeps := by
  induction history using List.reverseRecOn with
  | nil => simp [Streams.turns, hs]
  | append_singleton history t ih =>
    have hlast : s.turns (history ++ [t]) = (s.turns history).turn t := s.turns_append history [t]
    rw [hlast, Streams.turn_codec, ih]
    constructor
    · rintro (⟨c, rfl, hc⟩ | ⟨⟨before, c, after, rfl, hc, hafter⟩, ht⟩)
      · exact ⟨history, c, [], rfl, hc, by simp⟩
      · refine ⟨before, c, after ++ [t], by simp, hc, ?_⟩
        intro u hu
        rcases List.mem_append.1 hu with hu | hu
        · exact hafter u hu
        · exact List.mem_singleton.1 hu ▸ ht
    · rintro ⟨before, c, after, heq, hc, hafter⟩
      rcases List.eq_nil_or_concat after with rfl | ⟨after, u, rfl⟩
      · obtain ⟨rfl, hu⟩ := List.append_inj' heq rfl
        cases hu
        exact .inl ⟨c, rfl, hc⟩
      · have hsplit : history ++ [t] = (before ++ .connect c :: after) ++ [u] := by simpa using heq
        obtain ⟨rfl, hu⟩ := List.append_inj' hsplit rfl
        cases hu
        exact .inr ⟨⟨before, c, after, rfl, hc, fun v hv => hafter v (by simp [hv])⟩,
          hafter _ (by simp)⟩

/-- Each video decoder of the ledger has a number below the next one. -/
def Streams.Numbered (s : Streams) : Prop := ∀ r, .created r ∈ s.decoders → r < s.made

theorem Streams.turn_decoders {s : Streams} (hs : s.Numbered) (t : Turn) :
    (s.turn t).Numbered ∧
      (Settled (s.turn t).decoders ↔ Settled s.decoders ∧ ∀ c, t = .connect c → ¬ c.Strands) := by
  cases t with
  | start => exact ⟨hs, by simp [Streams.turn]⟩
  | stop => exact ⟨hs, by simp [Streams.turn]⟩
  | connect c =>
    have hnew : ∀ r, .created r ∈ s.decoders → .removed r ∉ c.decoders s.audio s.made := by
      intro r hr hremoved
      have hlt := hs r hr
      rcases c.decoders_cases s.audio s.made with ⟨-, h | h⟩ | ⟨-, h⟩ <;>
        simp only [h, List.mem_cons, List.not_mem_nil, reduceCtorEq, false_or, or_false,
          Use.removed.injEq] at hremoved
      omega
    have hall : (∀ d, Turn.connect c = .connect d → ¬ d.Strands) ↔ ¬ c.Strands :=
      ⟨fun h => h c rfl, fun h d hd => by cases hd; exact h⟩
    constructor
    · intro r hr
      rcases List.mem_append.1 hr with hr | hr
      · exact Nat.lt_succ_of_lt (hs r hr)
      · rcases c.decoders_cases s.audio s.made with ⟨-, h | h⟩ | ⟨-, h⟩ <;>
          simp only [h, List.mem_cons, List.not_mem_nil, reduceCtorEq, or_false,
            Use.created.injEq] at hr
        all_goals exact hr ▸ Nat.lt_succ_self _
    · rw [hall]
      refine (settled_append hnew).trans (and_congr_right fun _ => ?_)
      rcases c.decoders_cases s.audio s.made with ⟨hc, h | h⟩ | ⟨hc, h⟩
      · simp [h, hc, Settled]
      · simp [h, hc, Settled]
      · simp [h, hc, Settled]

theorem Streams.turns_decoders {s : Streams} (hs : s.Numbered) (history : List Turn) :
    Settled (s.turns history).decoders ↔
      Settled s.decoders ∧ ∀ c, .connect c ∈ history → ¬ c.Strands := by
  induction history generalizing s with
  | nil => simp [Streams.turns]
  | cons t history ih =>
    obtain ⟨hnumbered, hturn⟩ := s.turn_decoders hs t
    have hstep : s.turns (t :: history) = (s.turn t).turns history := rfl
    rw [hstep, ih hnumbered, hturn, and_assoc]
    refine and_congr_right fun _ => ?_
    simp only [List.mem_cons]
    constructor
    · rintro ⟨hfirst, hrest⟩ c (h | h)
      · exact hfirst c h.symm
      · exact hrest c h
    · exact fun h => ⟨fun c hc => h c (.inl hc.symm), fun c hc => h c (.inr hc)⟩

/-- **What connections leave behind.** After any turns an audio decoder is attached exactly when a
connection with audio ended before its loop and nothing since has reached `onStreamHeader` or
stopped the stream; and every video decoder is released exactly when none was made by a
`configureCodec` that threw. -/
theorem left_behind_iff (history : List Turn) :
    ((Streams.fresh.turns history).audio.codec = true ↔
      ∃ before c after, history = before ++ .connect c :: after ∧
        c.Leaves (Streams.fresh.turns before).audio ∧ ∀ t ∈ after, t.Keeps) ∧
    (Settled (Streams.fresh.turns history).decoders ↔
      ∀ c, .connect c ∈ history → ¬ c.Strands) := by
  have hnumbered : Streams.fresh.Numbered := nofun
  exact ⟨Streams.turns_codec rfl history,
    (Streams.turns_decoders hnumbered history).trans (and_iff_right trivial)⟩

/-- A connection with audio whose video decoder cannot be configured: both decoders are left. -/
theorem left_behind_iff_notStarted :
    let h : PadPlay.Protocol.StreamHeader := ⟨1920, 1200, 60, .h264, .opus, 48000, 2, 312⟩
    let env : Env := ⟨true, .notStarted, fun _ => true, fun _ => ⟨none, .null, false⟩,
      fun _ => ⟨false, none, .null, none⟩, .configured⟩
    let c : Connection := ⟨env, ⟨h.encode, fun _ => 0, .closed⟩⟩
    let s := Streams.fresh.turns [.start, .connect c, .start]
    s.audio.codec = true ∧ ¬ Settled s.decoders := by
  intro h env c s
  obtain ⟨rest, hread, -⟩ := parses_readStreamHeader h c.input [] (List.append_nil _).symm
  obtain ⟨hcodec, hdecoders⟩ := left_behind_iff [.start, .connect c, .start]
  refine ⟨hcodec.2 ⟨[.start], c, [.start], rfl, ?_, by simp [Turn.Keeps]⟩, ?_⟩
  · exact ⟨⟨_, rest, hread, rfl⟩, rfl, rfl, .inr (by simp [c, env])⟩
  · intro hsettled
    exact hdecoders.1 hsettled c (by simp) ⟨⟨_, rest, hread⟩, rfl, rfl⟩

end VideoStream

end PadPlay.Device
