import Mathlib.Data.List.Basic

/-!
# KDE Plasma virtual outputs (`capture::plasma`)

`PlasmaVirtualOutput::create` asks KWin for a virtual output. If KWin creates it and then fails to
find it, `create` enables the output and asks for a stream of it as of any other; the first stream
stays open, because closing it would remove the output. Both streams write to one `State`, and
between the requests only `failed` and `closed` are reset. `create_recovered_iff` says when the
outcome is nevertheless the second stream's.
-/

namespace PadPlay.Plasma

/-! ## Events -/

/-- The stream an event comes from: that of the first request, or of the one that recovers. -/
inductive Stream where
  | orphaned
  | recovered
  deriving DecidableEq, Repr

inductive StreamEvent where
  | created (node : UInt32)
  | serial (objectSerialHi objectSerialLow : UInt32)
  | failed (error : String)
  | closed
  deriving DecidableEq, Repr

inductive Message where
  | stream (proxy : Stream) (event : StreamEvent)
  /-- `wl_output::name`, of a proxy that was bound with its place in the list -/
  | outputName (proxy : UInt32) (index : Nat) (name : String)
  deriving DecidableEq, Repr

structure State where
  nodeId : Option UInt32
  objectSerial : Option UInt64
  failed : Option String
  closed : Bool
  outputs : List (UInt32 × Option String)
  deriving DecidableEq, Repr

namespace State

def default : State := ⟨none, none, none, false, []⟩

/-- Whether the compositor has said anything conclusive yet. -/
def settled (s : State) : Bool := s.nodeId.isSome || s.failed.isSome || s.closed

def streamEvent (s : State) : StreamEvent → State
  | .created node => { s with nodeId := some node }
  | .serial hi low =>
    { s with objectSerial := some ((hi.toUInt64 <<< 32) ||| low.toUInt64) }
  | .failed error => { s with failed := some error }
  | .closed => { s with closed := true }

/-- The proxy of a stream event is not looked at. -/
def event (s : State) : Message → State
  | .stream _ e => s.streamEvent e
  | .outputName proxy index name => { s with outputs := s.outputs.set index (proxy, some name) }

end State

/-! ## Waiting -/

inductive CreateError where
  /-- connecting, the registry, or the manager global -/
  | unavailable (message : String)
  /-- timed out waiting for KWin to answer -/
  | timedOut (what : String)
  | dispatch (message : String)
  /-- KWin refused it -/
  | refused (what error : String)
  /-- KWin closed the stream before it was created -/
  | closed (what : String)
  /-- `kscreen-doctor` -/
  | enable (message : String)
  | noOutput (wanted : String) (found : List String)
  /-- KWin reported neither a node nor a failure -/
  | neither
  deriving DecidableEq, Repr

structure Turn where
  late : Bool
  events : Except String (List Message)

def State.conclude (what : String) (s : State) : Except CreateError Unit :=
  match s.failed with
  | some error => .error (.refused what error)
  | none => if s.closed then .error (.closed what) else .ok ()

/-- Pump events until the compositor says something conclusive about a stream. -/
def settle (what : String) (s : State) : List Turn → Option (Except CreateError Unit × State)
  | [] => if s.settled then some (s.conclude what, s) else none
  | turn :: turns =>
    if s.settled then some (s.conclude what, s)
    else if turn.late then some (.error (.timedOut what), s)
    else
      match turn.events with
      | .error e => some (.error (.dispatch e), s)
      | .ok events => settle what (events.foldl State.event s) turns

/-- One round of `find_output`: its two round trips, the `wl_output` globals with their versions,
and whether the deadline has passed at its end. -/
structure Round where
  synced : Except String (List Message)
  globals : List (UInt32 × UInt32)
  enumerated : Except String (List Message)
  late : Bool

/-- The connector name arrives in `wl_output::name`, added in version 4. -/
def State.bindOutputs (s : State) (globals : List (UInt32 × UInt32)) : State :=
  { s with outputs := (globals.filter fun g => 4 ≤ g.2).map fun g => (g.1, none) }

/-- Bind every `wl_output` and return the one with this connector name. -/
def findOutput (wanted : String) (s : State) :
    List Round → Option (Except CreateError UInt32 × State)
  | [] => none
  | round :: rounds =>
    match round.synced with
    | .error e => some (.error (.dispatch e), s)
    | .ok events =>
      let s := (events.foldl State.event s).bindOutputs round.globals
      match round.enumerated with
      | .error e => some (.error (.dispatch e), s)
      | .ok events =>
        let s := events.foldl State.event s
        match s.outputs.find? fun output => output.2 = some wanted with
        | some output => some (.ok output.1, s)
        | none =>
          if round.late then some (.error (.noOutput wanted (s.outputs.filterMap Prod.snd)), s)
          else findOutput wanted s rounds

/-! ## Creating a virtual output -/

def KWIN_ORPHANED_OUTPUT : String := "Could not find output"

structure PlasmaVirtualOutput where
  stream : Stream
  state : State
  name : String
  nodeId : UInt32
  deriving DecidableEq, Repr

/-- What `create` meets: whether it can ask at all, the answers to its first request, how
`kscreen-doctor` and the search for the output go, and the answers to its second request. -/
structure CreateScript where
  bound : Except String Unit
  first : List Turn
  enabled : Except String Unit
  rounds : List Round
  second : List Turn

/-- The end of `create`, with the stream whose request was answered. -/
def State.output (s : State) (stream : Stream) (name : String) :
    Except CreateError PlasmaVirtualOutput :=
  match s.nodeId with
  | none => .error .neither
  | some nodeId => .ok ⟨stream, s, name, nodeId⟩

/-- What is reset before the second request. -/
def State.reset (s : State) : State := { s with failed := none, closed := false }

def wlName (name : String) : String := "Virtual-" ++ name

/-- `PlasmaVirtualOutput::create`. -/
def create (name : String) (script : CreateScript) :
    Option (Except CreateError PlasmaVirtualOutput) :=
  match script.bound with
  | .error e => some (.error (.unavailable e))
  | .ok () =>
    match settle name .default script.first with
    | none => none
    | some (.ok (), s) => some (s.output .orphaned name)
    | some (.error e, s) =>
      if s.failed = some KWIN_ORPHANED_OUTPUT then
        match script.enabled with
        | .error e => some (.error (.enable e))
        | .ok () =>
          match findOutput (wlName name) s script.rounds with
          | none => none
          | some (.error e, _) => some (.error e)
          | some (.ok _, s) =>
            match settle (wlName name) s.reset script.second with
            | none => none
            | some (.error e, _) => some (.error e)
            | some (.ok (), s) => some (s.output .recovered name)
      else some (.error e)

def PlasmaVirtualOutput.objectSerial (output : PlasmaVirtualOutput) : Option UInt64 :=
  output.state.objectSerial

/-! ## What is dispatched -/

/-- The messages that `settle` dispatches. -/
def dispatched (s : State) : List Turn → List Message
  | [] => []
  | turn :: turns =>
    if s.settled || turn.late then []
    else
      match turn.events with
      | .error _ => []
      | .ok events => events ++ dispatched (events.foldl State.event s) turns

/-- The messages that `find_output` dispatches. -/
def foundDispatched (wanted : String) (s : State) : List Round → List Message
  | [] => []
  | round :: rounds =>
    match round.synced with
    | .error _ => []
    | .ok events =>
      let s := (events.foldl State.event s).bindOutputs round.globals
      events ++
        match round.enumerated with
        | .error _ => []
        | .ok events =>
          let s := events.foldl State.event s
          events ++
            if (s.outputs.find? fun output => output.2 = some wanted).isSome || round.late then []
            else foundDispatched wanted s rounds

/-- What the reset does not undo. -/
def Message.lingers : Message → Bool
  | .stream _ (.created _) => true
  | .stream _ (.serial ..) => true
  | _ => false

def Message.isOrphaned : Message → Bool
  | .stream .orphaned _ => true
  | _ => false

def Message.isRecovered : Message → Bool
  | .stream .recovered _ => true
  | _ => false

/-- `create` takes the recovery path: `before` is the state after the first request, `asked` the one
in which the second request is made. -/
structure Recovers (name : String) (script : CreateScript) (before asked : State) : Prop where
  bound : script.bound = .ok ()
  refused : ∃ e, settle name .default script.first = some (.error e, before)
  orphaned : before.failed = some KWIN_ORPHANED_OUTPUT
  enabled : script.enabled = .ok ()
  found : ∃ target s, findOutput (wlName name) before script.rounds = some (.ok target, s) ∧
    asked = s.reset

/-- Everything dispatched before the second request. -/
def CreateScript.early (name : String) (script : CreateScript) (before : State) : List Message :=
  dispatched .default script.first ++ foundDispatched (wlName name) before script.rounds

/-- What `create` makes of how the second request settles. -/
def recoveredOutput (name : String) :
    Except CreateError Unit × State → Except CreateError PlasmaVirtualOutput
  | (.error e, _) => .error e
  | (.ok (), s) => s.output .recovered name

theorem create_recovers {name : String} {script : CreateScript} {before asked : State}
    (h : Recovers name script before asked) (second : List Turn) :
    create name { script with second } =
      (settle (wlName name) asked second).map (recoveredOutput name) := by
  obtain ⟨hbound, ⟨e, hrefused⟩, horphaned, henabled, target, s, hfound, rfl⟩ := h
  simp only [create, hbound, hrefused, horphaned, henabled, hfound, if_true]
  split <;> simp [*, recoveredOutput]

/-! ### Nothing lingers -/

theorem dispatched_cons {s : State} {turn : Turn} {turns : List Turn} {events : List Message}
    (hsettled : s.settled = false) (hlate : turn.late = false)
    (hevents : turn.events = .ok events) :
    dispatched s (turn :: turns) = events ++ dispatched (events.foldl State.event s) turns := by
  simp [dispatched, hsettled, hlate, hevents]

/-- No stream has been named. -/
def State.Clean (s : State) : Prop := s.nodeId = none ∧ s.objectSerial = none

theorem State.event_clean (s : State) (m : Message) :
    (s.event m).Clean ↔ s.Clean ∧ m.lingers = false := by
  cases m with
  | outputName => simp [event, Clean, Message.lingers]
  | stream proxy e =>
    cases e <;> simp [event, streamEvent, Clean, Message.lingers]

theorem State.foldl_clean (s : State) (ms : List Message) :
    (ms.foldl State.event s).Clean ↔ s.Clean ∧ ∀ m ∈ ms, m.lingers = false := by
  induction ms generalizing s with
  | nil => simp
  | cons m ms ih => rw [List.foldl_cons, ih, event_clean, List.forall_mem_cons, and_assoc]

theorem settle_clean {what : String} {s s' : State} {turns : List Turn}
    {r : Except CreateError Unit} (h : settle what s turns = some (r, s')) :
    s'.Clean ↔ s.Clean ∧ ∀ m ∈ dispatched s turns, m.lingers = false := by
  fun_induction settle what s turns with
  | case1 s hsettled => cases h; simp [dispatched]
  | case2 => cases h
  | case3 s turn turns hsettled => cases h; simp [dispatched, hsettled]
  | case4 s turn turns hsettled hlate => cases h; simp [dispatched, hlate]
  | case5 s turn turns hsettled hlate e hevents =>
    cases h
    simp [dispatched, hsettled, hlate, hevents]
  | case6 s turn turns hsettled hlate events hevents ih =>
    rw [ih h, State.foldl_clean,
      dispatched_cons (eq_false_of_ne_true hsettled) (eq_false_of_ne_true hlate) hevents,
      List.forall_mem_append, and_assoc]

theorem State.bindOutputs_clean (s : State) (globals : List (UInt32 × UInt32)) :
    (s.bindOutputs globals).Clean ↔ s.Clean := Iff.rfl

theorem findOutput_clean {wanted : String} {s s' : State} {rounds : List Round}
    {r : Except CreateError UInt32} (h : findOutput wanted s rounds = some (r, s')) :
    s'.Clean ↔ s.Clean ∧ ∀ m ∈ foundDispatched wanted s rounds, m.lingers = false := by
  induction rounds generalizing s with
  | nil => cases h
  | cons round rounds ih =>
    rw [findOutput] at h
    rw [foundDispatched]
    cases hsynced : round.synced with
    | error e =>
      rw [hsynced] at h
      cases h
      simp
    | ok synced =>
      simp only [hsynced] at h
      have hbound : ((synced.foldl State.event s).bindOutputs round.globals).Clean ↔
          s.Clean ∧ ∀ m ∈ synced, m.lingers = false := by
        rw [State.bindOutputs_clean, State.foldl_clean]
      simp only [List.forall_mem_append]
      generalize (synced.foldl State.event s).bindOutputs round.globals = s₁ at h hbound ⊢
      rw [← and_assoc, ← hbound]
      cases henumerated : round.enumerated with
      | error e =>
        simp only [henumerated] at h
        cases h
        simp
      | ok enumerated =>
        simp only [henumerated] at h
        simp only [List.forall_mem_append]
        rw [← and_assoc, ← State.foldl_clean]
        generalize enumerated.foldl State.event s₁ = s₂ at h ⊢
        cases hfind : s₂.outputs.find? fun output => output.2 = some wanted with
        | some output =>
          simp only [hfind] at h ⊢
          cases h
          simp
        | none =>
          simp only [hfind] at h ⊢
          cases hlate : round.late with
          | true =>
            simp only [hlate, if_true] at h
            cases h
            simp
          | false =>
            simp only [hlate, Bool.false_eq_true, if_false] at h
            simpa using ih h

/-- The state of the second request is clean exactly if nothing before it lingers. -/
theorem Recovers.clean {name : String} {script : CreateScript} {before asked : State}
    (h : Recovers name script before asked) :
    asked.Clean ↔ ∀ m ∈ script.early name before, m.lingers = false := by
  obtain ⟨-, ⟨e, hrefused⟩, -, -, target, s, hfound, rfl⟩ := h
  have hbefore := (settle_clean hrefused).trans (and_iff_right ⟨rfl, rfl⟩)
  rw [CreateScript.early, List.forall_mem_append, ← hbefore, ← findOutput_clean hfound]
  rfl

/-! ### The second stream's own outcome -/

def Turn.recoveredOnly (turn : Turn) : Turn :=
  { turn with events := turn.events.map (List.filter Message.isRecovered) }

/-- The node and the object serial that are stored. -/
def outcome (created : Except CreateError PlasmaVirtualOutput) :
    Except CreateError (UInt32 × Option UInt64) :=
  created.map fun o => (o.nodeId, o.objectSerial)

/-- What the second stream alone makes of its events: another `State` waits for it, with nothing in
it and without the other stream's events. -/
def recoveredAlone (name : String) (turns : List Turn) :
    Option (Except CreateError (UInt32 × Option UInt64)) :=
  (settle (wlName name) .default (turns.map Turn.recoveredOnly)).map
    fun settled => outcome (recoveredOutput name settled)

/-- Equal but for the list of outputs. -/
structure State.Alike (s t : State) : Prop where
  nodeId : s.nodeId = t.nodeId
  objectSerial : s.objectSerial = t.objectSerial
  failed : s.failed = t.failed
  closed : s.closed = t.closed

theorem State.Alike.event {s t : State} (h : s.Alike t) (e : StreamEvent) :
    (s.streamEvent e).Alike (t.streamEvent e) := by
  obtain ⟨hnode, hserial, hfailed, hclosed⟩ := h
  cases e with
  | created node => exact ⟨rfl, hserial, hfailed, hclosed⟩
  | serial hi low => exact ⟨hnode, rfl, hfailed, hclosed⟩
  | failed error => exact ⟨hnode, hserial, rfl, hclosed⟩
  | closed => exact ⟨hnode, hserial, hfailed, rfl⟩

theorem State.Alike.foldl {s t : State} (h : s.Alike t) {ms : List Message}
    (hms : ∀ m ∈ ms, m.isOrphaned = false) :
    (ms.foldl State.event s).Alike ((ms.filter Message.isRecovered).foldl State.event t) := by
  induction ms generalizing s t with
  | nil => exact h
  | cons m ms ih =>
    rw [List.forall_mem_cons] at hms
    rw [List.foldl_cons]
    cases m with
    | outputName proxy index name => exact ih ⟨h.nodeId, h.objectSerial, h.failed, h.closed⟩ hms.2
    | stream proxy e =>
      cases proxy with
      | orphaned => cases hms.1
      | recovered => exact ih (h.event e) hms.2

theorem State.Alike.settled {s t : State} (h : s.Alike t) : s.settled = t.settled := by
  rw [State.settled, State.settled, h.nodeId, h.failed, h.closed]

theorem State.Alike.conclude {s t : State} (h : s.Alike t) (what : String) :
    s.conclude what = t.conclude what := by
  rw [State.conclude, State.conclude, h.failed, h.closed]

/-- Without the other stream's events, states that are alike settle alike. -/
theorem settle_alike {what : String} {s t : State} {turns : List Turn} (h : s.Alike t)
    (hlate : ∀ m ∈ dispatched s turns, m.isOrphaned = false) :
    Option.Rel (fun p q => p.1 = q.1 ∧ p.2.Alike q.2) (settle what s turns)
      (settle what t (turns.map Turn.recoveredOnly)) := by
  induction turns generalizing s t with
  | nil =>
    rw [List.map_nil, settle, settle, ← h.settled]
    split
    · exact .some ⟨h.conclude what, h⟩
    · exact .none
  | cons turn turns ih =>
    rw [List.map_cons, settle, settle, ← h.settled]
    cases hsettled : s.settled with
    | true => exact .some ⟨h.conclude what, h⟩
    | false =>
      have hturn : turn.recoveredOnly.late = turn.late := rfl
      simp only [Bool.false_eq_true, if_false, hturn]
      cases hpassed : turn.late with
      | true => exact .some ⟨rfl, h⟩
      | false =>
        simp only [Bool.false_eq_true, if_false, Turn.recoveredOnly]
        cases hevents : turn.events with
        | error e => exact .some ⟨rfl, h⟩
        | ok events =>
          rw [dispatched_cons hsettled hpassed hevents, List.forall_mem_append] at hlate
          exact ih (h.foldl hlate.1) hlate.2

theorem State.Alike.outcome {s t : State} (h : s.Alike t) (name : String) :
    Plasma.outcome (s.output .recovered name) = Plasma.outcome (t.output .recovered name) := by
  rw [State.output, State.output, h.nodeId]
  cases t.nodeId with
  | none => rfl
  | some nodeId =>
    exact congrArg (fun serial => Except.ok (nodeId, serial)) h.objectSerial

theorem outcome_alike {name : String} {l r : Option (Except CreateError Unit × State)}
    (h : Option.Rel (fun p q => p.1 = q.1 ∧ p.2.Alike q.2) l r) :
    (l.map (recoveredOutput name)).map outcome =
      r.map fun settled => outcome (recoveredOutput name settled) := by
  cases h with
  | none => rfl
  | some h =>
    rename_i p q
    obtain ⟨result, s⟩ := p
    obtain ⟨_, t⟩ := q
    obtain ⟨rfl, halike⟩ := h
    cases result with
    | error e => rfl
    | ok _ => exact congrArg some (halike.outcome name)

/-- A clean state that was reset is like a new one. -/
theorem Recovers.alike {name : String} {script : CreateScript} {before asked : State}
    (h : Recovers name script before asked) (hclean : asked.Clean) : asked.Alike .default := by
  obtain ⟨_, s, -, rfl⟩ := h.found
  exact ⟨hclean.1, hclean.2, rfl, rfl⟩

theorem Recovers.conclude {name : String} {script : CreateScript} {before asked : State}
    (h : Recovers name script before asked) (what : String) : asked.conclude what = .ok () := by
  obtain ⟨_, s, -, rfl⟩ := h.found
  rfl

theorem Recovers.settled {name : String} {script : CreateScript} {before asked : State}
    (h : Recovers name script before asked) : asked.settled = asked.nodeId.isSome := by
  obtain ⟨_, s, -, rfl⟩ := h.found
  rw [State.settled, State.reset]
  simp

/-- **A stale node.** If a node was named before the second request, `create` returns it at once,
whatever KWin answers to the request. -/
theorem create_stale {name : String} {script : CreateScript} {before asked : State}
    (h : Recovers name script before asked) {node : UInt32} (hnode : asked.nodeId = some node)
    (second : List Turn) :
    (create name { script with second }).map outcome = some (.ok (node, asked.objectSerial)) := by
  have hsettled : asked.settled = true := by rw [h.settled, hnode]; rfl
  have hsettle : settle (wlName name) asked second = some (.ok (), asked) := by
    cases second <;> simp [settle, hsettled, h.conclude]
  rw [create_recovers h, hsettle, Option.map_some, Option.map_some, recoveredOutput, State.output,
    hnode]
  rfl

/-- A stale serial stays with a node that is named without one. -/
theorem create_stale_serial {name : String} {script : CreateScript} {before asked : State}
    (h : Recovers name script before asked) (hnode : asked.nodeId = none) (node : UInt32) :
    (create name { script with second := [⟨false, .ok [.stream .recovered (.created node)]⟩] }).map
      outcome = some (.ok (node, asked.objectSerial)) := by
  have hwaiting : asked.settled = false := by rw [h.settled, hnode]; rfl
  have hconclude : State.conclude (wlName name) { asked with nodeId := some node } = .ok () :=
    h.conclude (wlName name)
  have hsettle : settle (wlName name) asked [⟨false, .ok [.stream .recovered (.created node)]⟩] =
      some (.ok (), { asked with nodeId := some node }) := by
    rw [settle, hwaiting, if_neg Bool.false_ne_true, if_neg Bool.false_ne_true]
    show settle (wlName name) { asked with nodeId := some node } [] = _
    have hsettled : State.settled { asked with nodeId := some node } = true := rfl
    rw [settle, if_pos hsettled, hconclude]
  rw [create_recovers h, hsettle]
  rfl

/-- **The recovered stream's outcome.** With the events that go before the second request given,
the outcome is the recovered stream's own for all its answers, as long as none of the orphaned
stream's events come among them, exactly if no `created` and no `serial` went before. -/
theorem create_recovered_iff {name : String} {script : CreateScript} {before asked : State}
    (h : Recovers name script before asked) :
    (∀ second, (∀ m ∈ dispatched asked second, m.isOrphaned = false) →
        (create name { script with second }).map outcome = recoveredAlone name second) ↔
      ∀ m ∈ script.early name before, m.lingers = false := by
  rw [← h.clean]
  constructor
  · intro hown
    by_contra hclean
    cases hnode : asked.nodeId with
    | some node =>
      have hsettled : asked.settled = true := by rw [h.settled, hnode]; rfl
      have hown := hown [⟨false, .ok [.stream .recovered (.failed "")]⟩]
        (by simp [dispatched, hsettled])
      rw [create_stale h hnode] at hown
      cases hown
    | none =>
      have hwaiting : asked.settled = false := by rw [h.settled, hnode]; rfl
      have hown := hown [⟨false, .ok [.stream .recovered (.created 0)]⟩]
        (by simp [dispatched, hwaiting, Message.isOrphaned])
      rw [create_stale_serial h hnode] at hown
      have halone : recoveredAlone name [⟨false, .ok [.stream .recovered (.created 0)]⟩] =
          some (.ok (0, none)) := rfl
      rw [halone, Option.some.injEq, Except.ok.injEq, Prod.mk.injEq] at hown
      exact hclean ⟨hnode, hown.2⟩
  · intro hclean second hlate
    rw [create_recovers h, recoveredAlone]
    exact outcome_alike (settle_alike (h.alike hclean) hlate)

/-- KWin sends events of the first stream and then refuses it, and the enabled output is found. -/
def orphanedScript (events : List StreamEvent) (second : List Turn) : CreateScript where
  bound := .ok ()
  first := [⟨false, .ok (events.map (.stream .orphaned) ++
    [.stream .orphaned (.failed KWIN_ORPHANED_OUTPUT)])⟩]
  enabled := .ok ()
  rounds := [⟨.ok [], [(9, 4)], .ok [.outputName 9 0 "Virtual-padplay"], false⟩]
  second := second

theorem create_recovered_node :
    (create "padplay" (orphanedScript [] [⟨false, .ok [.stream .recovered (.created 42)]⟩])).map
      outcome = some (.ok (42, none)) := by
  have hrecovers : Recovers "padplay" (orphanedScript [] [])
      ⟨none, none, some KWIN_ORPHANED_OUTPUT, false, []⟩
      ⟨none, none, none, false, [(9, some "Virtual-padplay")]⟩ :=
    ⟨rfl, ⟨_, rfl⟩, rfl, rfl, 9, _, rfl, rfl⟩
  exact (create_recovered_iff hrecovers).2 (by decide)
    [⟨false, .ok [.stream .recovered (.created 42)]⟩] (by decide)

/-- A node of the orphaned stream is taken for the recovered one's, and its `closed` for a
refusal. -/
theorem orphaned_attributed :
    (create "padplay" (orphanedScript [.created 7]
        [⟨false, .ok [.stream .recovered (.created 42)]⟩])).map outcome = some (.ok (7, none)) ∧
      recoveredAlone "padplay" [⟨false, .ok [.stream .recovered (.created 42)]⟩] =
        some (.ok (42, none)) ∧
      (create "padplay" (orphanedScript []
        [⟨false, .ok [.stream .orphaned .closed]⟩,
          ⟨false, .ok [.stream .recovered (.created 42)]⟩])).map outcome =
        some (.error (.closed "Virtual-padplay")) ∧
      recoveredAlone "padplay" [⟨false, .ok [.stream .orphaned .closed]⟩,
        ⟨false, .ok [.stream .recovered (.created 42)]⟩] = some (.ok (42, none)) := by
  decide +kernel

end PadPlay.Plasma
