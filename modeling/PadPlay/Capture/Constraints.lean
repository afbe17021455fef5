import PadPlay.Capture.Session

/-!
# Constraint generations (`capture::session`)

The compositor sends its constraints in batches, each closed by `done`. The client keeps two flags:
`session_done`, and `caps_consumed`, which `allocate_pool` sets and which makes the next constraint
event start over. The machine below runs the client's state beside the batches as they were sent,
under any interleaving of events with the waiting loops' ends.
-/

namespace PadPlay.CaptureSession

open PadPlay.Lib

/-! ## Batches -/

/-- The batch whose `done` came last, and what has come of the one after it. -/
structure Batches where
  latest : Option (List Constraint)
  current : List Constraint
  deriving DecidableEq, Repr

def Batches.event (b : Batches) : WaylandEvent → Batches
  | .session (.constraint c) => { b with current := b.current ++ [c] }
  | .session .done => ⟨some b.current, []⟩
  | .session .stopped => b
  | .frame _ => b

@[simp] def Constraint.size? : Constraint → Option (UInt32 × UInt32)
  | .bufferSize width height => some (width, height)
  | _ => none

@[simp] def Constraint.shmFormat? : Constraint → Option UInt32
  | .shmFormat (.value format) => some format
  | _ => none

@[simp] def Constraint.device? : Constraint → Option UInt64
  | .dmabufDevice device =>
    if 8 ≤ device.length then some (u64FromNeBytes (device.take 8)) else none
  | _ => none

@[simp] def Constraint.dmabufFormat? : Constraint → Option (UInt32 × List UInt64)
  | .dmabufFormat format modifiers => some (format, modifiersOf modifiers)
  | _ => none

/-- The constraint set of a batch: the last size and device in it, and all its formats. -/
def capsOf (batch : List Constraint) : SessionCaps where
  bufferSize := batch.reverse.findSome? Constraint.size?
  shmFormats := batch.filterMap Constraint.shmFormat?
  dmabufFormats := batch.filterMap Constraint.dmabufFormat?
  dmabufDevice := batch.reverse.findSome? Constraint.device?

theorem capsOf_nil : capsOf [] = .default := rfl

theorem capsOf_concat (batch : List Constraint) (c : Constraint) :
    capsOf (batch ++ [c]) = (capsOf batch).add c := by
  unfold capsOf
  rw [List.reverse_append, List.filterMap_append, List.filterMap_append]
  cases c with
  | bufferSize => simp [SessionCaps.add, List.findSome?_cons]
  | shmFormat format => cases format <;> simp [SessionCaps.add, List.findSome?_cons]
  | dmabufDevice device =>
    by_cases h : 8 ≤ device.length <;> simp [SessionCaps.add, List.findSome?_cons, h]
  | dmabufFormat => simp [SessionCaps.add, List.findSome?_cons]

/-! ## The machine -/

structure Observed where
  state : State
  batches : Batches
  deriving DecidableEq, Repr

inductive Action where
  | event (e : WaylandEvent)
  | startFrame
  /-- `allocate_pool` reads the constraints, and builds a pool from them or fails -/
  | allocate (built : Bool)
  deriving DecidableEq, Repr

/-- What can happen to the client's state between two dispatches of the Wayland queue. A waiting
loop reaches `allocate_pool` only through `session_done`. -/
def negotiation : Machine Observed Action where
  init := ⟨.default, none, []⟩
  step
    | s, .event e => some ⟨s.state.event e, s.batches.event e⟩
    | s, .startFrame => some { s with state := s.state.startFrame }
    | s, .allocate built =>
      if s.state.sessionDone then
        some { s with state := { s.state with capsConsumed := built || s.state.capsConsumed } }
      else none

/-! ### The client's calls are runs of the machine -/

def Reaches (state state' : State) : Prop :=
  ∀ batches, ∃ actions batches',
    negotiation.runFrom ⟨state, batches⟩ actions = some ⟨state', batches'⟩

theorem Reaches.refl (state : State) : Reaches state state := fun batches => ⟨[], batches, rfl⟩

theorem Reaches.trans {s₁ s₂ s₃ : State} (h₁ : Reaches s₁ s₂) (h₂ : Reaches s₂ s₃) :
    Reaches s₁ s₃ := by
  intro batches
  obtain ⟨as, batches', has⟩ := h₁ batches
  obtain ⟨bs, batches'', hbs⟩ := h₂ batches'
  exact ⟨as ++ bs, batches'', (negotiation.runFrom_append).2 ⟨_, has, hbs⟩⟩

theorem Reaches.step {s s' : State} (a : Action)
    (h : ∀ batches, ∃ batches', negotiation.step ⟨s, batches⟩ a = some ⟨s', batches'⟩) :
    Reaches s s' := by
  intro batches
  obtain ⟨batches', hstep⟩ := h batches
  exact ⟨[a], batches', (negotiation.runFrom_cons).2 ⟨_, hstep, rfl⟩⟩

theorem Reaches.startFrame (s : State) : Reaches s s.startFrame :=
  .step .startFrame fun batches => ⟨batches, rfl⟩

theorem State.Leads.reaches {s s' : State} (h : s.Leads s') : Reaches s s' := by
  obtain ⟨events, rfl⟩ := h
  induction events generalizing s with
  | nil => exact .refl s
  | cons e events ih =>
    exact .trans (.step (.event e) fun batches => ⟨batches.event e, rfl⟩) ih

theorem Reaches.allocate {s : State} (built : Bool) (h : s.sessionDone = true) :
    Reaches s { s with capsConsumed := built || s.capsConsumed } :=
  .step (.allocate built) fun batches => ⟨batches, if_pos h⟩

theorem Capture.allocatePool_reaches {c : Capture} (answers : PoolAnswers)
    (h : c.state.sessionDone = true) : Reaches c.state (c.allocatePool answers).2.state := by
  cases hspec : c.allocatePool answers with
  | mk r c' =>
    cases r with
    | ok =>
      rw [(allocatePool_ok hspec).state]
      exact .allocate true h
    | error e =>
      rw [(allocatePool_error hspec).state]
      exact .refl _

theorem Capture.renegotiate_reaches {c c' : Capture} {turns : List Turn} {answers : PoolAnswers}
    {r : Except CaptureError Unit} (h : c.renegotiate turns answers = some (r, c')) :
    Reaches c.state c'.state := by
  unfold renegotiate at h
  split at h
  · cases h
  · next e state hawait =>
    cases h
    exact (awaitDone_spec hawait).1.reaches
  · next state hawait =>
    obtain ⟨hleads, hdone⟩ := awaitDone_spec hawait
    have hpool := Capture.allocatePool_reaches (c := { c with state }) answers (hdone rfl)
    refine hleads.reaches.trans ?_
    split at h
    · next e c₁ hc₁ => cases h; rwa [hc₁] at hpool
    · next c₁ hc₁ =>
      rw [hc₁] at hpool
      split at h <;> · cases h; exact hpool

theorem Capture.tryCaptureFrame_reaches {c c' : Capture} {turns : List Turn}
    {r : Except CaptureError FrameTiming} (h : c.tryCaptureFrame turns = some (r, c')) :
    Reaches c.state c'.state := by
  unfold tryCaptureFrame at h
  split at h
  · cases h; exact .refl _
  · split at h
    · cases h; exact .refl _
    · refine (Reaches.startFrame c.state).trans ?_
      simp only at h
      split at h
      · cases h
      · next e state hawait => cases h; exact (awaitFrame_spec hawait).reaches
      · next state hawait =>
        refine (awaitFrame_spec hawait).reaches.trans ?_
        split at h <;> · cases h; exact .refl _

theorem Capture.new_reaches {config : CaptureConfig} {turns : List Turn} {answers : PoolAnswers}
    {r : Except CaptureError Unit} {c : Capture}
    (h : Capture.new config turns answers = some (r, c)) : Reaches .default c.state := by
  unfold new at h
  simp only at h
  split at h
  · cases h
  · next e state hawait => cases h; exact (awaitNegotiation_spec hawait).1.reaches
  · next state hawait =>
    obtain ⟨hleads, hdone⟩ := awaitNegotiation_spec hawait
    refine hleads.reaches.trans ?_
    have hpool := Capture.allocatePool_reaches
      (c := { state, buffers := [], nextBuffer := 0, width := 0, height := 0,
              mode := config.mode, caps := .default, format := 0, modifier := none,
              poolSize := max config.poolSize 1, allowedModifiers := config.allowedModifiers,
              geometryChanged := false, allocator := none }) answers (hdone rfl)
    rw [Option.some.inj h] at hpool
    exact hpool

/-- **Every `capture_frame` call is a run of the machine**, whatever its waiting loops bring. -/
theorem Capture.captureFrame_reaches {c c' : Capture} {script : FrameScript}
    {r : Except CaptureError FrameTiming} (h : c.captureFrame script = some (r, c')) :
    Reaches c.state c'.state := by
  unfold captureFrame at h
  split at h
  · next c₁ hfirst =>
    refine (tryCaptureFrame_reaches hfirst).trans ?_
    split at h
    · cases h
    · next e c₂ hre => cases h; exact renegotiate_reaches hre
    · next c₂ hre => exact (renegotiate_reaches hre).trans (tryCaptureFrame_reaches h)
  · exact tryCaptureFrame_reaches h

/-! ## Which constraints a pool is built from -/

/-- A batch has a constraint event in it, and its first one comes when the batch before it, if there
is one, is in use. -/
def Timely (s : Observed) : Action → Prop
  | .event (.session (.constraint _)) =>
    s.batches.current = [] → s.batches.latest = none ∨ s.state.capsConsumed = true
  | .event (.session .done) => s.batches.current ≠ []
  | _ => True

instance (s : Observed) : ∀ a, Decidable (Timely s a)
  | .event (.session (.constraint _)) => inferInstanceAs (Decidable (_ → _ ∨ _))
  | .event (.session .done) => inferInstanceAs (Decidable (_ ≠ _))
  | .event (.session .stopped) | .event (.frame _) | .startFrame | .allocate _ => .isTrue trivial

inductive Tracks : Observed → Prop
  | fresh {s : State} (hcaps : s.caps = .default) (hdone : s.sessionDone = false) :
    Tracks ⟨s, none, []⟩
  | filling {s : State} {latest : Option (List Constraint)} {current : List Constraint}
    (hcaps : s.caps = capsOf current) (hdone : s.sessionDone = false)
    (hfresh : s.capsConsumed = false) (hcurrent : current ≠ []) : Tracks ⟨s, latest, current⟩
  | complete {s : State} {batch : List Constraint} (hcaps : s.caps = capsOf batch)
    (hdone : s.sessionDone = true) : Tracks ⟨s, some batch, []⟩

theorem beginGeneration_eq {s : State} (h : s.capsConsumed = false) : s.beginGeneration = s := by
  simp only [State.beginGeneration, h, Bool.false_eq_true, if_false]

theorem beginGeneration_consumed {s : State} (h : s.capsConsumed = true) :
    s.beginGeneration =
      { s with caps := .default, capsConsumed := false, sessionDone := false } := by
  simp only [State.beginGeneration, h, if_true]

theorem Tracks.begins {s : State} {latest : Option (List Constraint)} (c : Constraint)
    (h : s.capsConsumed = true ∨ s.caps = .default ∧ s.sessionDone = false) :
    Tracks ⟨s.sessionEvent (.constraint c), latest, [c]⟩ := by
  have hone : SessionCaps.default.add c = capsOf [c] := by
    rw [← List.nil_append [c], capsOf_concat, capsOf_nil]
  cases hconsumed : s.capsConsumed with
  | true =>
    simp only [State.sessionEvent, beginGeneration_consumed hconsumed]
    exact .filling hone rfl rfl (List.cons_ne_nil _ _)
  | false =>
    obtain ⟨hcaps, hdone⟩ := h.resolve_left (by rw [hconsumed]; nofun)
    simp only [State.sessionEvent, beginGeneration_eq hconsumed, hcaps]
    exact .filling hone hdone hconsumed (List.cons_ne_nil _ _)

theorem Tracks.congr {s s' : State} {b : Batches} (h : Tracks ⟨s, b⟩) (hcaps : s'.caps = s.caps)
    (hdone : s'.sessionDone = s.sessionDone) (hconsumed : s'.capsConsumed = s.capsConsumed) :
    Tracks ⟨s', b⟩ := by
  cases h with
  | fresh hc hd => exact .fresh (hcaps.trans hc) (hdone.trans hd)
  | filling hc hd hf hne =>
    exact .filling (hcaps.trans hc) (hdone.trans hd) (hconsumed.trans hf) hne
  | complete hc hd => exact .complete (hcaps.trans hc) (hdone.trans hd)

theorem Tracks.constraint {s : State} {b : Batches} (c : Constraint) (h : Tracks ⟨s, b⟩)
    (htimely : Timely ⟨s, b⟩ (.event (.session (.constraint c)))) :
    Tracks ⟨s.sessionEvent (.constraint c), b.event (.session (.constraint c))⟩ := by
  cases h with
  | fresh hcaps hdone => exact .begins c (.inr ⟨hcaps, hdone⟩)
  | filling hcaps hdone hfresh hcurrent =>
    simp only [State.sessionEvent, beginGeneration_eq hfresh]
    refine .filling ?_ hdone hfresh (by simp)
    rw [capsOf_concat, hcaps]
  | complete hcaps hdone =>
    exact .begins c (.inl ((htimely rfl).resolve_left (Option.some_ne_none _)))

theorem Tracks.done {s : State} {b : Batches} (h : Tracks ⟨s, b⟩)
    (htimely : Timely ⟨s, b⟩ (.event (.session .done))) :
    Tracks ⟨s.sessionEvent .done, b.event (.session .done)⟩ := by
  cases h with
  | fresh => exact absurd rfl htimely
  | filling hcaps => exact .complete hcaps rfl
  | complete => exact absurd rfl htimely

theorem frameEvent_constraints (s : State) (e : FrameEvent) :
    (s.frameEvent e).caps = s.caps ∧ (s.frameEvent e).sessionDone = s.sessionDone ∧
      (s.frameEvent e).capsConsumed = s.capsConsumed := by
  cases e with
  | failed reason => cases reason <;> exact ⟨rfl, rfl, rfl⟩
  | _ => exact ⟨rfl, rfl, rfl⟩

/-- One timely step keeps the client in step with the batches. -/
theorem Tracks.step {s s' : Observed} {a : Action} (h : Tracks s) (htimely : Timely s a)
    (hstep : negotiation.step s a = some s') : Tracks s' := by
  obtain ⟨s, b⟩ := s
  cases a with
  | event e =>
    cases hstep
    cases e with
    | session e =>
      cases e with
      | constraint c => exact h.constraint c htimely
      | done => exact h.done htimely
      | stopped => exact h.congr rfl rfl rfl
    | frame e =>
      obtain ⟨hcaps, hdone, hconsumed⟩ := frameEvent_constraints s e
      exact h.congr hcaps hdone hconsumed
  | startFrame => cases hstep; exact h.congr rfl rfl rfl
  | allocate built =>
    simp only [negotiation] at hstep
    split at hstep
    · next hready =>
      cases hstep
      cases h with
      | fresh _ hdone => rw [hdone] at hready; cases hready
      | filling _ hdone => rw [hdone] at hready; cases hready
      | complete hcaps hdone => exact .complete hcaps hdone
    · cases hstep

theorem tracks_run {actions : List Action} {s : Observed}
    (htimely : negotiation.Along Timely actions) (hrun : negotiation.run actions = some s) :
    Tracks s :=
  negotiation.run_invariant_along (.fresh rfl rfl) (fun _ _ _ h hC hs => h.step hC hs) htimely hrun

/-- **A pool is built from one batch**, the latest complete one, in every run in which each batch
begins after the one before it has come into use. -/
theorem caps_latest_batch {actions : List Action} {s s' : Observed} {built : Bool}
    (htimely : negotiation.Along Timely actions) (hrun : negotiation.run actions = some s)
    (hread : negotiation.step s (.allocate built) = some s') :
    ∃ batch, s.batches.latest = some batch ∧ s.state.caps = capsOf batch := by
  have hdone : s.state.sessionDone = true := by
    by_contra hno
    rw [Bool.not_eq_true] at hno
    simp [negotiation, hno] at hread
  cases tracks_run htimely hrun with
  | fresh _ h => rw [h] at hdone; cases hdone
  | filling _ h => rw [h] at hdone; cases hdone
  | complete hcaps => exact ⟨_, rfl, hcaps⟩

def smallBatch (width height format : UInt32) : List Constraint :=
  [.bufferSize width height, .dmabufDevice [226, 128, 0, 0, 0, 0, 0, 0],
    .dmabufFormat format [0, 0, 0, 0, 0, 0, 0, 0]]

/-- A second batch, which begins once the first is in use. -/
def renewed : List Action :=
  (completed (smallBatch 64 48 XR24)).map .event ++ [.allocate true] ++
    (completed (smallBatch 32 24 AR24)).map .event

theorem caps_latest_batch_renewed :
    ∃ s s', negotiation.run renewed = some s ∧ negotiation.step s (.allocate true) = some s' ∧
      ∃ batch, s.batches.latest = some batch ∧ s.state.caps = capsOf batch := by
  obtain ⟨s, hs⟩ : ∃ s, negotiation.run renewed = some s := ⟨_, rfl⟩
  obtain ⟨s', hs'⟩ : ∃ s', negotiation.step s (.allocate true) = some s' := by
    cases hs; exact ⟨_, rfl⟩
  exact ⟨s, s', hs, hs', caps_latest_batch (by decide) hs hs'⟩

/-- Two complete batches come while a frame is in flight, which then fails: the new pool is built
from the formats of both. -/
theorem caps_two_batches :
    ∃ c c' timing,
      Capture.new ⟨.dmabuf, 2, [0]⟩ [⟨false, .ok (completed (smallBatch 64 48 XR24))⟩] obliging =
        some (.ok (), c) ∧
      c.captureFrame
          ⟨[⟨false, .ok (completed (smallBatch 64 48 XR24) ++ completed (smallBatch 64 48 AR24) ++
              [.frame (.failed (.value .bufferConstraints))])⟩], [], obliging,
            [⟨false, .ok [.frame .ready]⟩]⟩ = some (.ok timing, c') ∧
      c'.caps.dmabufFormats = [(XR24, [0]), (AR24, [0])] ∧
      c'.caps ≠ capsOf (smallBatch 64 48 AR24) := by
  exact ⟨_, _, _, rfl, rfl, by decide, by decide⟩

end PadPlay.CaptureSession
