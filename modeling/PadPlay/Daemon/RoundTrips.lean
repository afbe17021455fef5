import PadPlay.Daemon.Flow

/-!
# Which frame a round trip is measured from

Entry `i` of `round_trips` is measured from the send of frame `i`, and pushed for the `i`-th
acknowledgement the device made (`paired_iff`). The two are about one frame as long as the device
acknowledges frames `0, 1, 2, …` without leaving one out.
-/

namespace PadPlay.Device.VideoStream.Receiver

/-! ## Frames without an acknowledgement -/

/-- No video frame up to this one was dropped for want of an input buffer, or released without
being rendered. -/
def NoneLost (d : Receiver) (frame : Nat) : Prop :=
  (∀ x ∈ d.demuxed, x.queued = false → frame < x.frame) ∧
    ∀ x ∈ d.shown, x.rendered = false → frame < x.frame

instance (d : Receiver) (frame : Nat) : Decidable (d.NoneLost frame) :=
  inferInstanceAs (Decidable (_ ∧ _))

variable {d : Receiver}

theorem mem_queued {frame : Nat} : frame ∈ d.queued ↔ ⟨frame, true⟩ ∈ d.demuxed := by
  rw [queued, List.mem_map]
  constructor
  · rintro ⟨⟨_, queued⟩, hmem, rfl⟩
    obtain ⟨hmem, rfl⟩ := List.mem_filter.1 hmem
    exact hmem
  · intro hmem
    exact ⟨⟨frame, true⟩, List.mem_filter.2 ⟨hmem, rfl⟩, rfl⟩

theorem mem_rendered {frame : Nat} : frame ∈ d.rendered ↔ ⟨frame, true⟩ ∈ d.shown := by
  rw [rendered, List.mem_map]
  constructor
  · rintro ⟨⟨_, rendered⟩, hmem, rfl⟩
    obtain ⟨hmem, rfl⟩ := List.mem_filter.1 hmem
    exact hmem
  · intro hmem
    exact ⟨⟨frame, true⟩, List.mem_filter.2 ⟨hmem, rfl⟩, rfl⟩

theorem queued_sorted (hdemuxed : d.demuxed.map (·.frame) = List.range d.demuxed.length) :
    d.queued.Pairwise (· < ·) :=
  (hdemuxed ▸ List.pairwise_lt_range).sublist (List.filter_sublist.map _)

/-- Before the next frame the decoder puts out come the frames it has put out, and no others that
were queued. -/
theorem lt_next_iff {written : List Nat} {input : DecoderInput} {decoding : List DecoderInput}
    (hsound : d.Sound written) (hsorted : d.queued.Pairwise (· < ·))
    (hdecoding : d.decoding = input :: decoding) {frame : Nat} (hqueued : frame ∈ d.queued) :
    frame < input.frame ↔ frame ∈ d.shown.map (·.frame) := by
  rw [hsound.order, hdecoding, List.map_cons] at hsorted hqueued
  obtain ⟨-, hrest, hcross⟩ := List.pairwise_append.1 hsorted
  refine ⟨?_, fun hmem => hcross frame hmem input.frame List.mem_cons_self⟩
  intro hlt
  rcases List.mem_append.1 hqueued with hmem | hmem
  · exact hmem
  · rcases List.mem_cons.1 hmem with rfl | hmem
    · exact absurd hlt (Nat.lt_irrefl _)
    · exact absurd (List.rel_of_pairwise_cons hrest hmem) (Nat.lt_asymm hlt)

/-- **The next frame put out**, when no frame up to it was lost, is the first one that has not been
acknowledged. -/
theorem next_rendered {written : List Nat} {input : DecoderInput} {decoding : List DecoderInput}
    (hsound : d.Sound written)
    (hdemuxed : d.demuxed.map (·.frame) = List.range d.demuxed.length)
    (hdecoding : d.decoding = input :: decoding) (hlost : d.NoneLost input.frame)
    (hrendered : d.rendered = List.range d.rendered.length) :
    input.frame = d.rendered.length := by
  have hsorted := queued_sorted hdemuxed
  have hmem : ∀ {frame}, frame ∈ d.rendered ↔ frame < d.rendered.length := by
    intro frame
    rw [hrendered, List.length_range]
    exact List.mem_range
  have hinput : input.frame ∈ d.queued := by
    rw [hsound.order, hdecoding]
    exact List.mem_append_right _ List.mem_cons_self
  refine Nat.le_antisymm (Nat.le_of_not_lt fun hlt => ?_) (Nat.le_of_not_lt fun hlt => ?_)
  -- a frame before it arrived, was queued, was put out and was rendered
  · have harrived : d.rendered.length ∈ d.demuxed.map (·.frame) := by
      have hbound : input.frame ∈ d.demuxed.map (·.frame) :=
        (List.filter_sublist.map _).subset hinput
      rw [hdemuxed, List.mem_range] at hbound ⊢
      exact Nat.lt_trans hlt hbound
    obtain ⟨⟨first, queued⟩, hx, hfirst : first = _⟩ := List.mem_map.1 harrived
    rw [← hfirst] at hlt
    cases queued with
    | false => exact Nat.lt_asymm hlt (hlost.1 _ hx rfl)
    | true =>
      have hshown := (lt_next_iff hsound hsorted hdecoding (mem_queued.2 hx)).1 hlt
      obtain ⟨⟨_, rendered⟩, hy, rfl⟩ := List.mem_map.1 hshown
      cases rendered with
      | false => exact Nat.lt_asymm hlt (hlost.2 _ hy rfl)
      | true => exact Nat.lt_irrefl _ (hfirst ▸ hmem.1 (mem_rendered.2 hy))
  -- and what was rendered came before it
  · have hshown : input.frame ∈ d.shown.map (·.frame) :=
      List.mem_map.2 ⟨_, mem_rendered.1 (hmem.2 hlt), rfl⟩
    exact Nat.lt_irrefl _ ((lt_next_iff hsound hsorted hdecoding hinput).2 hshown)

end PadPlay.Device.VideoStream.Receiver

namespace PadPlay.Daemon.Streaming

open PadPlay.Lib PadPlay.Protocol PadPlay.Device.VideoStream

variable {gst : Gst}

/-! ## Pairing -/

/-- What a round trip should be: it is measured from the send of the frame whose acknowledgement
was read. -/
def RoundTrip.Paired (t : RoundTrip) : Prop := t.acked = some t.sent.frame

instance (t : RoundTrip) : Decidable t.Paired := inferInstanceAs (Decidable (_ = _))

theorem Flow.sent {s : Session} (h : Flow s) :
    s.roundTrips.map (·.sent.frame) = List.range s.roundTrips.length := by
  have hsent := congrArg (List.take s.roundTrips.length) h.host.sent
  rw [List.take_left' (List.length_map _), List.take_range] at hsent
  have hle : s.roundTrips.length ≤ s.begun := by
    have hlength := congrArg List.length h.host.sent
    rw [List.length_append, List.length_map, List.length_range] at hlength
    omega
  rwa [Nat.min_eq_left hle] at hsent

/-- **When round trips are paired**: whatever the device did, they are if and only if the
acknowledgements read so far are those of the first frames, each once and in order. -/
theorem Flow.paired_iff {s : Session} (h : Flow s) :
    (∀ t ∈ s.roundTrips, t.Paired) ↔
      s.device.rendered.take s.roundTrips.length = List.range s.roundTrips.length := by
  have hmap : (∀ t ∈ s.roundTrips, t.Paired) ↔
      s.roundTrips.map (·.acked) = s.roundTrips.map (some ·.sent.frame) := List.map_inj_left.symm
  have hsome : s.roundTrips.map (some ·.sent.frame) =
      (s.roundTrips.map (·.sent.frame)).map some := List.map_map.symm
  rw [hmap, hsome, h.acks.acked, h.sent]
  exact List.map_inj_right fun _ _ => Option.some.inj

/-! ## Runs -/

/-- A video frame is acknowledged only when no video frame up to it was lost on the device. -/
def AcksWithoutLoss (s : Session) : Action → Prop
  | .device .output =>
    s.device.surface = true → ∀ input ∈ s.device.decoding.head?, s.device.NoneLost input.frame
  | _ => True

instance (s : Session) (a : Action) : Decidable (AcksWithoutLoss s a) := by
  unfold AcksWithoutLoss
  split <;> infer_instance

def InOrder (s : Session) : Prop := s.device.rendered = List.range s.device.rendered.length

theorem InOrder.paired {s : Session} (h : Flow s) (ho : InOrder s) :
    ∀ t ∈ s.roundTrips, t.Paired := by
  have hread : s.roundTrips.length ≤ s.device.rendered.length := h.acks.read
  rw [h.paired_iff, ho, List.take_range, Nat.min_eq_left hread]

theorem InOrder.step {packets : Nat → EncodedPacket} {s s' : Session} {a : Action} (h : Flow s)
    (ho : InOrder s) (hC : AcksWithoutLoss s a) (hs : (streaming gst packets).step s a = some s') :
    InOrder s' := by
  have hrests : s'.device.shown = s.device.shown → InOrder s' := by
    intro hshown
    rw [InOrder, Receiver.rendered, hshown]
    exact ho
  cases onDevice hs with
  | rests _ _ _ hshown => exact hrests hshown
  | takes _ hdevice => exact hrests (hdevice ▸ (Receiver.onVideoFrame_spec ..).shown)
  | @putsOut input hout =>
    rw [InOrder, hout.rendered]
    cases hsurface : s.device.surface with
    | false =>
      simp only [Bool.false_eq_true, if_false, List.append_nil]
      exact ho
    | true =>
      obtain ⟨written, hsound, -⟩ := h.acks.written
      have hlost : s.device.NoneLost input.frame :=
        hC hsurface input (by rw [hout.decoding]; rfl)
      have hnext := Receiver.next_rendered hsound h.wire.demuxed hout.decoding hlost ho
      rw [if_pos rfl, hnext, List.length_append, List.length_singleton, List.range_succ]
      exact congrArg (· ++ [s.device.rendered.length]) ho

/-- **Round trips are paired** in every run in which the device acknowledges a video frame only
when it lost no video frame before. -/
theorem round_trips_paired {packets : Nat → EncodedPacket} {actions : List Action} {s : Session}
    (hC : (streaming gst packets).Along AcksWithoutLoss actions)
    (hrun : (streaming gst packets).run actions = some s) : ∀ t ∈ s.roundTrips, t.Paired := by
  have hinv := (streaming gst packets).run_invariant_along (I := fun s => Flow s ∧ InOrder s)
    ⟨flow_init, rfl⟩ (fun _ _ _ h hC hs => ⟨h.1.step hs, h.2.step h.1 hC hs⟩) hC hrun
  exact hinv.2.paired hinv.1

/-- Two frames are in flight when the first acknowledgement is read; a third is not rendered. -/
theorem round_trips_paired_twice :
    ∃ s, (streaming (.plain 1) steadyPackets).run (decodeOne 0 ++ decodeOne 1 ++ showOne true ++
        ackOne ++ showOne true ++ decodeOne 2 ++ showOne false ++ ackOne) = some s ∧
      s.roundTrips = [⟨⟨0, 0⟩, some 0, 5⟩, ⟨⟨1, 0⟩, some 1, 10⟩] ∧
      ∀ t ∈ s.roundTrips, t.Paired := by
  obtain ⟨s, hrun, htrips⟩ : ∃ s ∈ (streaming (.plain 1) steadyPackets).run (decodeOne 0 ++
      decodeOne 1 ++ showOne true ++ ackOne ++ showOne true ++ decodeOne 2 ++ showOne false ++
      ackOne),
      s.roundTrips = [⟨⟨0, 0⟩, some 0, 5⟩, ⟨⟨1, 0⟩, some 1, 10⟩] := by decide +kernel
  exact ⟨s, hrun, htrips, round_trips_paired (by decide +kernel) hrun⟩

/-- The user looks away for one frame: it gets no acknowledgement, and that of the next frame is
measured from its send. -/
theorem round_trips_shifted :
    ∃ s ∈ (streaming (.plain 1) steadyPackets).run (decodeOne 0 ++ showOne false ++ [.wait 16] ++
        decodeOne 1 ++ showOne true ++ ackOne),
      s.roundTrips = [⟨⟨0, 0⟩, some 1, 21⟩] ∧ ¬∀ t ∈ s.roundTrips, t.Paired := by
  decide +kernel

end PadPlay.Daemon.Streaming
