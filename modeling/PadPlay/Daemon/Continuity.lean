import PadPlay.Daemon.Flow
import Mathlib.Data.List.Chain

/-!
# Gaps in what is decoded

Nothing between the encoder and the demultiplexer loses a video packet, so the units queued into the
decoder have a gap exactly when the demultiplexer drops a frame and then queues one that is not a
keyframe.
-/

namespace PadPlay.Daemon.Streaming

open PadPlay.Lib PadPlay.Protocol PadPlay.Device.VideoStream

/-! ## Gaps -/

/-- The units of a decoder have no gap inside a group of pictures: each is a keyframe, or the
successor of the one queued before it. -/
structure NoGap (packets : Nat → EncodedPacket) (queued : List Nat) : Prop where
  first : ∀ a ∈ queued.head?, (packets a).keyframe = true
  next : queued.IsChain fun a b => (packets b).keyframe = true ∨ b = a + 1

instance (packets : Nat → EncodedPacket) (queued : List Nat) : Decidable (NoGap packets queued) :=
  decidable_of_iff ((∀ a ∈ queued.head?, (packets a).keyframe = true) ∧
    queued.IsChain fun a b => (packets b).keyframe = true ∨ b = a + 1)
    ⟨fun ⟨hfirst, hnext⟩ => ⟨hfirst, hnext⟩, fun ⟨hfirst, hnext⟩ => ⟨hfirst, hnext⟩⟩

variable {gst : Gst} {packets : Nat → EncodedPacket}

theorem noGap_concat {queued : List Nat} {b : Nat} :
    NoGap packets (queued ++ [b]) ↔ NoGap packets queued ∧
      ((packets b).keyframe = true ∨ ∃ a ∈ queued.getLast?, b = a + 1) := by
  rcases List.eq_nil_or_concat' queued with rfl | ⟨init, a, rfl⟩
  · simp only [List.nil_append, List.getLast?_nil, Option.not_mem_none, false_and, exists_false,
      or_false]
    constructor
    · intro h
      exact ⟨⟨nofun, .nil⟩, h.first b rfl⟩
    · intro h
      exact ⟨fun _ hb => Option.some.inj hb ▸ h.2, .singleton b⟩
  · have hhead : (init ++ [a] ++ [b]).head? = (init ++ [a]).head? := by
      rw [List.head?_append_of_ne_nil _ (by simp)]
    simp only [List.getLast?_concat, Option.mem_some_iff, exists_eq_left']
    constructor
    · intro ⟨hfirst, hnext⟩
      obtain ⟨hinit, -, hlast⟩ := List.isChain_append.1 hnext
      exact ⟨⟨hhead ▸ hfirst, hinit⟩, hlast a (by simp) b rfl⟩
    · intro ⟨⟨hfirst, hnext⟩, hlast⟩
      refine ⟨hhead ▸ hfirst, List.isChain_append.2 ⟨hnext, .singleton b, ?_⟩⟩
      intro x hx y hy
      rw [List.getLast?_concat] at hx
      cases hx
      cases hy
      exact hlast

/-- The frame before the one that arrives was the last one queued, unless it was dropped. -/
theorem last_queued_iff {d : Receiver} (hne : d.demuxed ≠ [])
    (hdemuxed : d.demuxed.map (·.frame) = List.range d.demuxed.length) :
    (∃ a ∈ d.queued.getLast?, d.demuxed.length = a + 1) ↔
      ∀ x ∈ d.demuxed.getLast?, x.queued = true := by
  obtain ⟨init, ⟨last, queued⟩, hconcat⟩ := (List.eq_nil_or_concat' d.demuxed).resolve_left hne
  rw [hconcat, List.map_append, List.length_append, List.length_singleton,
    List.range_succ] at hdemuxed
  obtain ⟨hinit, hlast⟩ := List.append_inj' hdemuxed rfl
  have hlength : last = init.length := (List.cons.inj hlast).1
  rw [Receiver.queued, hconcat, List.getLast?_concat, List.length_append, List.length_singleton,
    List.filter_append, List.map_append]
  simp only [Option.mem_some_iff, forall_eq']
  cases queued with
  | true => simp [hlength]
  | false =>
    simp only [List.filter_cons_of_neg, Bool.false_eq_true, not_false_eq_true, List.filter_nil,
      List.map_nil, List.append_nil, iff_false]
    -- the frames queued before it have smaller numbers
    rintro ⟨a, ha, heq⟩
    have hmem : a ∈ init.map (·.frame) :=
      (List.filter_sublist.map _).subset (List.mem_of_getLast? ha)
    rw [hinit, List.mem_range] at hmem
    omega

/-! ## Runs -/

/-- A video frame that is not a keyframe is queued only if the frame before it was. -/
def ResumesAtKeyframe (packets : Nat → EncodedPacket) (s : Session) : Action → Prop
  | .device (.receive buffer queueThrows escapes) =>
    ∀ packet ∈ s.arriving (.device (.receive buffer queueThrows escapes)),
      s.device.accepts (packets packet).frame buffer queueThrows = true →
      (packets packet).keyframe = true ∨ ∀ x ∈ s.device.demuxed.getLast?, x.queued = true
  | _ => True

instance (s : Session) (a : Action) : Decidable (ResumesAtKeyframe packets s a) := by
  unfold ResumesAtKeyframe
  split <;> infer_instance

/-- **One step** leaves a gap exactly when it queues a frame that is not a keyframe after a dropped
one. -/
theorem Flow.noGap_iff {s s' : Session} {a : Action} (h : Flow s)
    (hkeyframe : (packets 0).keyframe = true)
    (hs : (streaming gst packets).step s a = some s') :
    NoGap packets s'.device.queued ↔
      NoGap packets s.device.queued ∧ ResumesAtKeyframe packets s a := by
  cases onDevice hs with
  | rests _ hquiet hdemuxed _ =>
    have hresumes : ResumesAtKeyframe packets s a := by
      unfold ResumesAtKeyframe
      split
      · exact fun packet harriving => (hquiet packet harriving).elim
      · trivial
    rw [Receiver.queued, hdemuxed]
    exact (and_iff_left hresumes).symm
  | putsOut ho =>
    rw [Receiver.queued, ho.demuxed]
    exact (and_iff_left trivial).symm
  | @takes packet buffer queueThrows escapes harriving hdevice =>
    have hpacket := h.wire.arrives harriving
    simp only [ResumesAtKeyframe, harriving, Option.mem_some_iff, forall_eq']
    rw [hdevice, Receiver.queued, Receiver.onVideoFrame_demuxed, List.filter_append,
      List.map_append]
    cases haccepts : s.device.accepts (packets packet).frame buffer queueThrows with
    | false => simp [Receiver.queued]
    | true =>
      have hlast : ((packets packet).keyframe = true ∨
          ∃ a ∈ s.device.queued.getLast?, packet = a + 1) ↔
          ((packets packet).keyframe = true ∨
            ∀ x ∈ s.device.demuxed.getLast?, x.queued = true) := by
        by_cases hne : s.device.demuxed = []
        · have hzero : packet = 0 := by rw [hpacket, hne]; rfl
          simp [hzero, hkeyframe]
        · rw [hpacket, last_queued_iff hne h.wire.demuxed]
      rw [forall_prop_of_true rfl, ← hlast]
      exact noGap_concat

/-- **Gaps in what is decoded.** When the encoder's output opens with a keyframe, the units queued
into the decoder have no gap if and only if decoding resumes at a keyframe after every dropped
frame. -/
theorem queued_noGap_iff {actions : List Action} {s : Session}
    (hkeyframe : (packets 0).keyframe = true)
    (hrun : (streaming gst packets).run actions = some s) :
    NoGap packets s.device.queued ↔
      (streaming gst packets).Along (ResumesAtKeyframe packets) actions := by
  have hiff := (streaming gst packets).runFrom_iff_along (I := Flow)
    (P := fun s => NoGap packets s.device.queued) (C := ResumesAtKeyframe packets)
    (fun _ _ _ h hs => h.step hs) (fun _ _ _ h hs => h.noGap_iff hkeyframe hs) flow_init hrun
  rw [hiff]
  exact and_iff_right ⟨nofun, .nil⟩

theorem queued_noGap_iff_resumed :
    let packets : Nat → EncodedPacket := fun k => { steadyPackets k with keyframe := k % 3 = 0 }
    ∃ s, (streaming (.plain 1) packets).run (decodeOne 0 ++ decodeOne 1 ++ sendOne ++ decodeOne 2) =
        some s ∧
      s.device.queued = [0, 1, 3] ∧ NoGap packets s.device.queued := by
  intro packets
  obtain ⟨s, hrun, hqueued⟩ : ∃ s ∈ (streaming (.plain 1) packets).run
      (decodeOne 0 ++ decodeOne 1 ++ sendOne ++ decodeOne 2), s.device.queued = [0, 1, 3] := by
    decide +kernel
  exact ⟨s, hrun, hqueued, (queued_noGap_iff (by decide) hrun).2 (by decide +kernel)⟩

/-- One frame finds no free input buffer, and the next is decoded against a reference that is not
there. -/
theorem queued_gap :
    ∃ s ∈ (streaming (.plain 1) steadyPackets).run (decodeOne 0 ++ sendOne ++ decodeOne 1),
      s.device.queued = [0, 2] ∧ ¬NoGap steadyPackets s.device.queued := by
  decide +kernel

end PadPlay.Daemon.Streaming
