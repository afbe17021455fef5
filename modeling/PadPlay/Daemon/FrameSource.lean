import PadPlay.Capture.Picking
import PadPlay.Capture.Pool
import PadPlay.Encoder.DrmFormat

/-!
# The Wayland frame source of a session (`session::run`, `FrameSource`)

`run` opens a capture with the modifiers the encoder supports, configures the encoder once from what
was negotiated, and then captures and pushes a frame each tick until something fails.
-/

namespace PadPlay.Daemon.FrameSource

open PadPlay.Lib PadPlay.CaptureSession PadPlay.Encoder

/-! ## Set-up -/

def captureConfig (values : List DrmValue) : CaptureConfig :=
  { mode := .dmabuf, poolSize := 3, allowedModifiers := supportedModifiers values XR24 }

def encoderConfig (c : Capture) (fps : UInt32) : EncoderConfig :=
  { width := c.width, height := c.height, framerate := fps, fourcc := c.format,
    modifier := c.modifier.getD 0 }

/-! ## Ticks -/

/-- What one tick of the pacing loop meets: what its capture meets, how the encoder takes the frame,
and how the sends behind it go. -/
structure Tick where
  frame : FrameScript
  push : Except String Unit
  send : Except String Unit

structure Handed where
  buffer : Dmabuf
  capture : Capture

/-- Capture one frame and push it. The buffer handed to the encoder, if any, is returned beside the
outcome. -/
def captureAndPush (c : Capture) (tick : Tick) :
    Option (Except CaptureError Unit × Option Dmabuf × Capture) :=
  match c.captureFrame tick.frame with
  | none => none
  | some (.error e, c) => some (.error e, none, c)
  | some (.ok timing, c) =>
    match c.dmabuf timing.bufferIndex with
    | none => some (.error (.other "capture produced no DMA-BUF"), none, c)
    | some dmabuf =>
      match tick.push with
      | .error e => some (.error (.other e), some dmabuf, c)
      | .ok () => some (.ok (), some dmabuf, c)

/-- Where the pacing loop is after its ticks: ready for another one, blocked in a capture, or
ended. -/
inductive Ending where
  | ticking
  | blocked
  | failed (e : CaptureError)
  deriving DecidableEq, Repr

structure Stream where
  handed : List Handed
  ending : Ending
  capture : Capture

def pace (c : Capture) : List Tick → Stream
  | [] => ⟨[], .ticking, c⟩
  | tick :: ticks =>
    match captureAndPush c tick with
    | none => ⟨[], .blocked, c⟩
    | some (outcome, handed, c) =>
      let handed := handed.toList.map fun buffer => ⟨buffer, c⟩
      match outcome with
      | .error e => ⟨handed, .failed e, c⟩
      | .ok () =>
        match tick.send with
        | .error e => ⟨handed, .failed (.other e), c⟩
        | .ok () =>
          let rest := pace c ticks
          { rest with handed := handed ++ rest.handed }

/-- A session from the capture's first constraints on: the encoder's configuration and the
stream. -/
def session (config : CaptureConfig) (fps : UInt32) (turns : List Turn) (answers : PoolAnswers)
    (ticks : List Tick) : Option (EncoderConfig × Stream) :=
  match Capture.new config turns answers with
  | some (.ok (), c) => some (encoderConfig c fps, pace c ticks)
  | _ => none

/-! ## What is handed to the encoder -/

section
variable {allowed : List UInt64} {systems : List PoolAnswers}

def Handed.Sound (allowed : List UInt64) (systems : List PoolAnswers) (width height : UInt32)
    (h : Handed) : Prop :=
  Fits allowed systems h.capture h.buffer ∧ h.capture.width = width ∧ h.capture.height = height

theorem dmabuf_mem {c : Capture} {index : Nat} {d : Dmabuf} (h : c.dmabuf index = some d) :
    .dmabuf d ∈ c.buffers := by
  unfold Capture.dmabuf at h
  split at h
  · next backing hget =>
    cases h
    exact List.mem_of_getElem? hget
  · cases h

/-- What one tick does: the pool fits, a change of its size fails the tick with no buffer handed
over, and a buffer that is handed over fits the pool. -/
theorem captureAndPush_spec {c c' : Capture} {tick : Tick} {outcome : Except CaptureError Unit}
    {handed : Option Dmabuf} (h : captureAndPush c tick = some (outcome, handed, c'))
    (hmem : tick.frame.pool ∈ systems) (hpool : Pooled allowed systems c) :
    Pooled allowed systems c' ∧
      ((c'.width, c'.height) = (c.width, c.height) ∨
        handed = none ∧ outcome = .error (geometryError c.width c.height c'.width c'.height)) ∧
      ∀ d, handed = some d → Fits allowed systems c' d := by
  unfold captureAndPush at h
  split at h
  · cases h
  · next e c₁ hcapture =>
    cases h
    have hspec := Capture.captureFrame_spec hcapture
    refine ⟨hspec.pooled hmem hpool, hspec.size.imp id fun hresized => ⟨rfl, ?_⟩, nofun⟩
    rw [Except.error.inj hresized]
  · next timing c₁ hcapture =>
    have hspec := Capture.captureFrame_spec hcapture
    have hpool' := hspec.pooled hmem hpool
    have hsize : (c₁.width, c₁.height) = (c.width, c.height) := hspec.size.resolve_right nofun
    split at h
    · cases h; exact ⟨hpool', .inl hsize, nofun⟩
    · next d hd =>
      obtain ⟨d', heq, hfits⟩ := hpool'.buffers _ (dmabuf_mem hd)
      cases heq
      split at h
      · cases h; exact ⟨hpool', .inl hsize, fun x hx => Option.some.inj hx ▸ hfits⟩
      · cases h; exact ⟨hpool', .inl hsize, fun x hx => Option.some.inj hx ▸ hfits⟩

/-- The pacing loop hands over sound buffers only, and cannot outlive a change of the pool's
size. -/
theorem pace_spec {c : Capture} {ticks : List Tick} (hmem : ∀ t ∈ ticks, t.frame.pool ∈ systems)
    (hpool : Pooled allowed systems c) :
    (∀ h ∈ (pace c ticks).handed, h.Sound allowed systems c.width c.height) ∧
      ((((pace c ticks).capture.width, (pace c ticks).capture.height) = (c.width, c.height)) ∨
        (pace c ticks).ending = .failed (geometryError c.width c.height
          (pace c ticks).capture.width (pace c ticks).capture.height)) := by
  induction ticks generalizing c with
  | nil => simp [pace]
  | cons tick ticks ih =>
    rw [pace]
    cases hpush : captureAndPush c tick with
    | none => simp
    | some out =>
      obtain ⟨outcome, handed, c'⟩ := out
      obtain ⟨hpool', hsize, hfits⟩ :=
        captureAndPush_spec hpush (hmem tick (List.mem_cons_self ..)) hpool
      have hsound : ∀ h ∈ handed.toList.map (fun buffer => (⟨buffer, c'⟩ : Handed)),
          h.Sound allowed systems c.width c.height := by
        intro h hh
        obtain ⟨d, hd, rfl⟩ := List.mem_map.1 hh
        have hd := Option.mem_toList.1 hd
        refine ⟨hfits d hd, ?_⟩
        have hsame := hsize.resolve_right fun hno => by rw [hno.1] at hd; cases hd
        exact Prod.mk.inj hsame
      cases outcome with
      | error e =>
        refine ⟨hsound, hsize.imp id fun hno => ?_⟩
        rw [Except.error.inj hno.2]
      | ok =>
        simp only
        have hsame : (c'.width, c'.height) = (c.width, c.height) :=
          hsize.resolve_right fun hno => nomatch hno.2
        split
        · exact ⟨hsound, .inl hsame⟩
        · obtain ⟨hhanded, hending⟩ := ih (fun t ht => hmem t (List.mem_cons_of_mem _ ht)) hpool'
          obtain ⟨hwidth, hheight⟩ := Prod.mk.inj hsame
          rw [hwidth, hheight] at hhanded hending
          exact ⟨List.forall_mem_append.2 ⟨hsound, hhanded⟩, hending⟩

end

/-! ## What the encoder is configured with -/

/-- What `run` configures its encoder with: the format and the one modifier picked from what the
compositor offered, as far as GBM went along. -/
theorem new_picked {values : List DrmValue} {turns : List Turn} {answers : PoolAnswers}
    {c : Capture} (h : Capture.new (captureConfig values) turns answers = some (.ok (), c)) :
    ∃ s m, awaitNegotiation .default turns = some (.ok (), s) ∧
      pickDmabufFormat s.caps.dmabufFormats (supportedModifiers values XR24) =
        .ok (c.format, [m]) ∧
      ∃ i, answers.gbm i c.width c.height c.format [m] = .ok (c.modifier.getD 0) := by
  obtain ⟨c₀, hawait, hmode, hallowed, hsize, hbuilt⟩ := Capture.new_built h
  obtain ⟨modifiers, backings, hd⟩ := hbuilt.dmabufs hmode
  have hpick := hd.picked
  rw [hallowed] at hpick
  obtain ⟨m, rfl, -⟩ := (pickDmabufFormat_ok (supportedModifiers_ne_nil _ _)).1 hpick
  have hlength : backings.length = 3 := by
    have hbuffers := hbuilt.length
    rw [hd.buffers, List.length_map, hsize] at hbuffers
    exact hbuffers
  obtain ⟨d, hlast⟩ : ∃ d, backings.getLast? = some d := by
    cases hlast : backings.getLast? with
    | none => rw [List.getLast?_eq_none_iff.1 hlast] at hlength; cases hlength
    | some d => exact ⟨d, rfl⟩
  obtain ⟨-, -, -, i, hgbm⟩ := hd.backing d (List.mem_of_getLast? hlast)
  refine ⟨c₀.state, m, hawait, hpick, i, ?_⟩
  rw [hd.modifier, hlast]
  exact hgbm

/-- **The buffers of a stream.** Every buffer handed to the encoder has the size the encoder was
configured with, and a change of size ends the stream. Its format and modifier are those negotiated
for the pool it was taken from, which need not be the encoder's. -/
theorem handed_negotiated {values : List DrmValue} {fps : UInt32} {turns : List Turn}
    {answers : PoolAnswers} {ticks : List Tick} {config : EncoderConfig} {stream : Stream}
    (h : session (captureConfig values) fps turns answers ticks = some (config, stream)) :
    (∀ x ∈ stream.handed,
      x.buffer.width = config.width ∧ x.buffer.height = config.height ∧
        x.buffer.format = x.capture.format ∧
        ∃ m, pickDmabufFormat x.capture.caps.dmabufFormats (supportedModifiers values XR24) =
            .ok (x.buffer.format, [m]) ∧
          ∃ system ∈ answers :: ticks.map (·.frame.pool), ∃ i,
            system.gbm i config.width config.height x.buffer.format [m] = .ok x.buffer.modifier) ∧
      ((stream.capture.width, stream.capture.height) ≠ (config.width, config.height) →
        stream.ending = .failed (geometryError config.width config.height stream.capture.width
          stream.capture.height)) := by
  unfold session at h
  split at h
  · next c hnew =>
    cases h
    obtain ⟨c₀, -, hmode, hallowed, -, hbuilt⟩ := Capture.new_built hnew
    have hpool : Pooled (supportedModifiers values XR24) (answers :: ticks.map (·.frame.pool)) c :=
      .built hmode hallowed (List.mem_cons_self ..) hbuilt
    have hmem : ∀ t ∈ ticks, t.frame.pool ∈ answers :: ticks.map (·.frame.pool) :=
      fun t ht => List.mem_cons_of_mem _ (List.mem_map_of_mem ht)
    obtain ⟨hsound, hending⟩ := pace_spec hmem hpool
    refine ⟨?_, hending.resolve_left⟩
    intro x hx
    obtain ⟨⟨hwidth, hheight, hformat, modifiers, hpick, hgbm⟩, hw, hh⟩ := hsound x hx
    obtain ⟨m, rfl, -⟩ := (pickDmabufFormat_ok (supportedModifiers_ne_nil _ _)).1 hpick
    rw [hwidth, hheight, hw, hh] at hgbm
    exact ⟨hwidth.trans hw, hheight.trans hh, hformat, m, hpick, hgbm⟩
  · cases h

/-! ### An encoder that accepts one tiling of XR24 and none of AR24 -/

def oneTiling : List DrmValue := [.list [.text ['X', 'R', '2', '4', ':', '0', 'x', '9']]]

def offering (format : UInt32) (modifier : UInt8) : List WaylandEvent :=
  completed [.bufferSize 64 48, .dmabufFormat format [modifier, 0, 0, 0, 0, 0, 0, 0],
    .dmabufDevice [226, 128, 0, 0, 0, 0, 0, 0]]

theorem supportedModifiers_oneTiling : supportedModifiers oneTiling XR24 = [9, 0] := by
  decide +kernel

def readyTick : Tick := ⟨⟨[⟨false, .ok [.frame .ready]⟩], [], obliging, []⟩, .ok (), .ok ()⟩

def renegotiatedTick : Tick :=
  ⟨⟨[⟨false, .ok (offering AR24 0 ++ [.frame (.failed (.value .bufferConstraints))])⟩], [],
    obliging, [⟨false, .ok [.frame .ready]⟩]⟩, .ok (), .ok ()⟩

theorem handed_negotiated_twice : ∃ config stream,
    session (captureConfig oneTiling) 60 [⟨false, .ok (offering XR24 9)⟩] obliging
      [readyTick, renegotiatedTick] = some (config, stream) ∧
    ∀ x ∈ stream.handed, x.buffer.width = config.width ∧ x.buffer.height = config.height := by
  obtain ⟨config, stream, h⟩ : ∃ config stream,
      session (captureConfig oneTiling) 60 [⟨false, .ok (offering XR24 9)⟩] obliging
        [readyTick, renegotiatedTick] = some (config, stream) := by
    rw [captureConfig, supportedModifiers_oneTiling]
    exact ⟨_, _, rfl⟩
  exact ⟨config, stream, h, fun x hx =>
    ⟨((handed_negotiated h).1 x hx).1, ((handed_negotiated h).1 x hx).2.1⟩⟩

/-- The encoder is configured for tiled XR24; the second buffer it is handed is linear AR24, and the
session goes on. -/
theorem handed_other_format : ∃ config stream,
    session (captureConfig oneTiling) 60 [⟨false, .ok (offering XR24 9)⟩] obliging
      [readyTick, renegotiatedTick] = some (config, stream) ∧
    (config.fourcc, config.modifier) = (XR24, 9) ∧
    stream.handed.map (·.buffer) = [⟨64, 48, XR24, 9⟩, ⟨64, 48, AR24, 0⟩] ∧
    stream.ending = .ticking := by
  rw [captureConfig, supportedModifiers_oneTiling]
  exact ⟨_, _, rfl, rfl, rfl, rfl⟩

/-! ## Whether the encoder can read what was negotiated -/

/-- **The pair in the encoder's caps** is one advertised for its format, or linear, exactly when
XR24 was negotiated or the modifier preferred among XR24's for AR24 happens to be advertised for
AR24 as well. -/
theorem caps_advertised_iff {values : List DrmValue} {turns : List Turn} {answers : PoolAnswers}
    {s : State} {c : Capture} {fps : UInt32}
    (hgbm : ∀ i width height format m r, answers.gbm i width height format [m] = .ok r → r = m)
    (hoffer : awaitNegotiation .default turns = some (.ok (), s))
    (hnew : Capture.new (captureConfig values) turns answers = some (.ok (), c)) :
    Advertised values (encoderConfig c fps).fourcc (encoderConfig c fps).modifier ∨
        (encoderConfig c fps).modifier = 0 ↔
      Shares s.caps.dmabufFormats (supportedModifiers values XR24) XR24 ∨
        ∀ m, Preferred s.caps.dmabufFormats (supportedModifiers values XR24) AR24 m →
          Advertised values AR24 m ∨ m = 0 := by
  obtain ⟨s', m, hoffer', hpick, i, hpicked⟩ := new_picked hnew
  cases hoffer.symm.trans hoffer'
  obtain ⟨m', heq, hformat⟩ := (pickDmabufFormat_ok (supportedModifiers_ne_nil _ _)).1 hpick
  cases heq
  have hmodifier : c.modifier.getD 0 = m := hgbm _ _ _ _ _ _ hpicked
  simp only [encoderConfig, hmodifier]
  rcases hformat with ⟨hxr, hpreferred⟩ | ⟨har, hno, hpreferred⟩
  · rw [hxr]
    constructor
    · intro _
      exact .inl hpreferred.shares
    · intro _
      exact mem_supportedModifiers.1 hpreferred.mem
  · rw [har]
    constructor
    · intro hadvertised
      exact .inr fun m' hm' => hpreferred.unique hm' ▸ hadvertised
    · rintro (hshares | hall)
      · exact absurd hshares hno
      · exact hall m hpreferred

theorem caps_advertised_oneTiling : ∃ s c,
    awaitNegotiation .default [⟨false, .ok (offering XR24 9)⟩] = some (.ok (), s) ∧
    Capture.new (captureConfig oneTiling) [⟨false, .ok (offering XR24 9)⟩] obliging =
      some (.ok (), c) ∧
    (Advertised oneTiling (encoderConfig c 60).fourcc (encoderConfig c 60).modifier ∨
        (encoderConfig c 60).modifier = 0 ↔
      Shares s.caps.dmabufFormats (supportedModifiers oneTiling XR24) XR24 ∨
        ∀ m, Preferred s.caps.dmabufFormats (supportedModifiers oneTiling XR24) AR24 m →
          Advertised oneTiling AR24 m ∨ m = 0) := by
  obtain ⟨s, hs⟩ : ∃ s, awaitNegotiation .default [⟨false, .ok (offering XR24 9)⟩] =
      some (.ok (), s) := ⟨_, rfl⟩
  obtain ⟨c, hc⟩ : ∃ c, Capture.new (captureConfig oneTiling) [⟨false, .ok (offering XR24 9)⟩]
      obliging = some (.ok (), c) := by
    rw [captureConfig, supportedModifiers_oneTiling]
    exact ⟨_, rfl⟩
  exact ⟨s, c, hs, hc,
    caps_advertised_iff (fun _ _ _ _ _ _ h => (Except.ok.inj h).symm) hs hc⟩

/-- The compositor offers AR24 alone, with a tiling that the encoder reads for XR24 only. -/
theorem caps_not_advertised : ∃ c,
    Capture.new (captureConfig oneTiling) [⟨false, .ok (offering AR24 9)⟩] obliging =
      some (.ok (), c) ∧
    ¬ Advertised oneTiling (encoderConfig c 60).fourcc (encoderConfig c 60).modifier ∧
    (encoderConfig c 60).modifier ≠ 0 := by
  have hno : ¬ Advertised oneTiling AR24 9 := by decide +kernel
  rw [captureConfig, supportedModifiers_oneTiling]
  exact ⟨_, rfl, hno, by decide⟩

end PadPlay.Daemon.FrameSource
