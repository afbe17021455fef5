import PadPlay.Device.AcceptLoop
import PadPlay.Device.AudioStream

/-!
# What the screen shows (`VideoStream.phase`, `DisplayActivity.refresh`)

`phase` is one field that every thread running `acceptLoop` writes, and `stop` too; each of them
writes what it knows of its own connection. The screen shows the picture at a refresh if the phase
is one of a connection. `picture_iff` says when that is: exactly when the last writer is a thread
whose session goes on. A session whose thread did not write last goes on behind the home screen;
`picture_clean` says that only `stop` can bring that about, if no `start` finds a thread alive.
-/

namespace PadPlay.Device

/-- The phases the picture is shown for. -/
def Phase.isActive : Phase → Bool
  | .connecting | .streaming => true
  | .waiting | .disconnected _ => false

namespace Phases

open PadPlay.Lib PadPlay.Device.AcceptLoop

/-! ## State -/

inductive Mode where
  | home
  | display
  deriving DecidableEq, Repr

inductive Writer where
  | stop
  | loop (i : Nat)
  deriving DecidableEq, Repr

/-- What a thread has to do with `phase`. -/
structure Task where
  /-- what it writes before it goes on -/
  due : Option Phase
  /-- its session has come to the loop that reads frames -/
  decoding : Bool
  deriving DecidableEq, Repr

/-- The stream with its threads, a task for each of them, and what the activity shows. -/
structure Display where
  stream : VideoStream
  /-- `stop` is about to write -/
  stopping : Bool
  tasks : List Task
  phase : Phase
  /-- who wrote `phase` last -/
  writer : Option Writer
  mode : Mode
  deriving DecidableEq, Repr

/-! ## The machine -/

/-- What a thread that takes a step at a position has to write behind it. -/
def owed (running : Bool) (message : Option String) :
    Position → VideoStream.LoopAction → Option Phase
  | .binding, .bind true => some .waiting
  | .accepting, .accept true => some .connecting
  | .session, .check => if running then none else some (.disconnected none)
  | .session, .sessionEnds => some (.disconnected message)
  | .hangingUp, .go => some .waiting
  | .caught, .check => if running then some (.disconnected message) else none
  | _, _ => none

inductive Action where
  | ui (a : VideoStream.UiAction)
  /-- the last statement of `stop` -/
  | stopped
  | refresh
  /-- a step of a thread's `acceptLoop`, with the message of what it throws, if it does -/
  | thread (i : Nat) (a : VideoStream.LoopAction) (message : Option String)
  /-- a thread writes what is due -/
  | write (i : Nat)
  /-- a thread's session has configured its decoder -/
  | decode (i : Nat)
  deriving DecidableEq, Repr

namespace Display

def init : Display := ⟨.init, false, [], .waiting, none, .home⟩

def threadStep (d : Display) (i : Nat) (a : VideoStream.LoopAction) (message : Option String) :
    Option Display :=
  match d.stream.threads[i]?, d.tasks[i]? with
  | some t, some ⟨none, decoding⟩ =>
    -- a session looks at `running` in its loop only
    if t.position = .session ∧ a = .check ∧ decoding = false then none
    else
      (d.stream.loopStep i t a).map fun stream =>
        let due := owed d.stream.running message t.position a
        { d with stream, tasks := d.tasks.set i ⟨due, decoding && due.isNone⟩ }
  | _, _ => none

def step (d : Display) : Action → Option Display
  | .ui a =>
    if d.stopping then none
    else
      (d.stream.uiStep a).map fun stream =>
        let tasks := if a = .spawn then d.tasks ++ [⟨none, false⟩] else d.tasks
        { d with stream, tasks, stopping := a = .interrupt }
  | .stopped =>
    if d.stopping then
      some { d with stopping := false, phase := .disconnected none, writer := some .stop }
    else none
  | .refresh =>
    if d.stopping ∨ d.stream.ui ≠ .idle then none
    else some { d with mode := if d.phase.isActive then .display else .home }
  | .thread i a message => d.threadStep i a message
  | .write i =>
    match d.tasks[i]? with
    | some ⟨some phase, decoding⟩ =>
      some { d with
        tasks := d.tasks.set i ⟨none, decoding⟩
        phase
        writer := some (.loop i) }
    | _ => none
  | .decode i =>
    match d.stream.positions[i]?, d.tasks[i]? with
    | some .session, some ⟨none, false⟩ =>
      some { d with
        tasks := d.tasks.set i ⟨none, true⟩
        phase := .streaming
        writer := some (.loop i) }
    | _, _ => none

end Display

def showing : Machine Display Action where
  init := .init
  step := Display.step

/-! ## What one step does -/

/-- Where a thread comes to by a step. -/
def next (running : Bool) : Position → VideoStream.LoopAction → Option Position
  | .outer, .check => some (if running then .binding else .exited)
  | .inner, .check => some (if running then .accepting else .unbinding)
  | .session, .check => some (if running then .session else .hangingUp)
  | .caught, .check => some (if running then .sleeping else .cleanup true)
  | .binding, .bind ok => some (if ok then .inner else .caught)
  | .accepting, .accept ok => some (if ok then .session else .caught)
  | .session, .sessionEnds => some .hangingUp
  | .hangingUp, .go => some .inner
  | .unbinding, .go | .sleeping, .go => some (.cleanup false)
  | .cleanup returns, .go => some (if returns then .exited else .outer)
  | _, _ => none

theorem loopStep_next {v v' : VideoStream} {i : Nat} {t : Acceptor} {a : VideoStream.LoopAction}
    (hs : v.loopStep i t a = some v') :
    ∃ p, next v.running t.position a = some p ∧ v'.positions = v.positions.set i p := by
  obtain ⟨position, server, socket⟩ := t
  unfold VideoStream.loopStep at hs
  cases a with
  | check =>
    obtain ⟨p, hp, rfl⟩ := Option.map_eq_some_iff.1 hs
    refine ⟨p, ?_, VideoStream.positions_set ..⟩
    cases position <;> simp_all [next]
  | bind ok =>
    simp only at hs
    split at hs
    · cases ok with
      | false => cases hs; exact ⟨_, rfl, VideoStream.positions_set ..⟩
      | true =>
        simp only [Bool.not_true, Bool.false_eq_true, if_false] at hs
        split at hs
        · cases hs
          exact ⟨_, rfl, VideoStream.positions_set ..⟩
        · cases hs
    · cases hs
  | accept ok =>
    simp only at hs
    split at hs
    · cases ok with
      | false => cases hs; exact ⟨_, rfl, VideoStream.positions_set ..⟩
      | true =>
        simp only [Bool.not_true, Bool.false_eq_true, if_false] at hs
        split at hs
        · cases hs
          exact ⟨_, rfl, VideoStream.positions_set ..⟩
        · cases hs
    · cases hs
  | sessionEnds =>
    simp only at hs
    split at hs
    · cases hs
      exact ⟨_, rfl, VideoStream.positions_set ..⟩
    · cases hs
  | go =>
    simp only at hs
    split at hs
    · cases hs; exact ⟨_, rfl, VideoStream.positions_set ..⟩
    · cases hs; exact ⟨_, rfl, VideoStream.positions_set ..⟩
    · cases hs; exact ⟨_, rfl, VideoStream.positions_set ..⟩
    · cases hs; exact ⟨_, rfl, VideoStream.positions_set ..⟩
    · cases hs

/-- A thread that has told of its session and not yet of its end. -/
def shows : Position → Option Phase → Bool
  | .session, none => true
  | .hangingUp, some _ => true
  | _, _ => false

/-- What can be due at a position. -/
def fits : Position → Option Phase → Bool
  | _, none => true
  | .session, some .connecting => true
  | .inner, some .waiting => true
  | .hangingUp, some (.disconnected _) => true
  | .sleeping, some (.disconnected _) => true
  | _, some _ => false

theorem shows_next {running : Bool} {p p' : Position} {a : VideoStream.LoopAction}
    (message : Option String) (h : next running p a = some p') :
    fits p' (owed running message p a) = true ∧
      shows p' (owed running message p a) = shows p none := by
  unfold next at h
  split at h <;> cases h
  all_goals first
    | exact ⟨rfl, rfl⟩
    | cases running <;> exact ⟨rfl, rfl⟩
    | (rename_i b; cases b <;> exact ⟨rfl, rfl⟩)

theorem shows_written {p : Position} {phase : Phase} (h : fits p (some phase) = true) :
    shows p none = phase.isActive := by
  unfold fits at h
  split at h <;> simp_all [shows, Phase.isActive]

namespace Display

/-- Where each thread is, and what is due there. -/
def stages (d : Display) : List (Position × Option Phase) :=
  d.stream.positions.zip (d.tasks.map (·.due))

/-- Every thread has its task. -/
def Paired (d : Display) : Prop := d.stream.positions.length = d.tasks.length

theorem stages_some {d : Display} {i : Nat} {p : Position} {task : Task}
    (hp : d.stream.positions[i]? = some p) (htask : d.tasks[i]? = some task) :
    d.stages[i]? = some (p, task.due) := by
  rw [stages, List.getElem?_zip_eq_some, List.getElem?_map, htask]
  exact ⟨hp, rfl⟩

theorem set_same {α : Type} {as : List α} {i : Nat} {a : α} (h : as[i]? = some a) :
    as.set i a = as := by
  obtain ⟨hlt, rfl⟩ := List.getElem?_eq_some_iff.1 h
  exact List.set_getElem_self hlt

theorem zip_set {α β : Type} (as : List α) (bs : List β) (i : Nat) (a : α) (b : β) :
    (as.set i a).zip (bs.set i b) = (as.zip bs).set i (a, b) := by
  induction as generalizing bs i with
  | nil => rfl
  | cons x as ih =>
    cases bs with
    | nil => simp
    | cons y bs =>
      cases i with
      | zero => rfl
      | succ i => simp [ih]

/-- What a step does to the threads, the phase and its last writer. -/
inductive Changes (d d' : Display) : Prop
  | rests (hstages : d'.stages = d.stages) (hphase : d'.phase = d.phase)
      (hwriter : d'.writer = d.writer)
  | spawns (hstages : d'.stages = d.stages ++ [(.outer, none)]) (hphase : d'.phase = d.phase)
      (hwriter : d'.writer = d.writer)
  | moves {i p p' due} (hi : d.stages[i]? = some (p, none)) (hfits : fits p' due = true)
      (hshows : shows p' due = shows p none)
      (hstages : d'.stages = d.stages.set i (p', due)) (hphase : d'.phase = d.phase)
      (hwriter : d'.writer = d.writer)
  | writes {i p phase} (hi : d.stages[i]? = some (p, some phase))
      (hstages : d'.stages = d.stages.set i (p, none)) (hphase : d'.phase = phase)
      (hwriter : d'.writer = some (.loop i))
  | decodes {i} (hi : d.stages[i]? = some (.session, none)) (hstages : d'.stages = d.stages)
      (hphase : d'.phase = .streaming) (hwriter : d'.writer = some (.loop i))
  | stops (hstages : d'.stages = d.stages) (hphase : d'.phase = .disconnected none)
      (hwriter : d'.writer = some .stop)

/-- A step of the UI thread adds a thread or moves none. -/
theorem uiStep_positions {v v' : VideoStream} {a : VideoStream.UiAction}
    (hs : v.uiStep a = some v') :
    v'.positions = v.positions ++ if a = .spawn then [.outer] else [] := by
  unfold VideoStream.uiStep at hs
  cases a with
  | start =>
    simp only at hs
    split at hs
    · split at hs <;> cases hs <;> simp [VideoStream.positions]
    · cases hs
  | spawn =>
    simp only at hs
    split at hs
    · cases hs
      exact List.map_append ..
    · cases hs
  | closeClient =>
    simp only at hs
    split at hs
    · cases hs
      simp only [reduceCtorEq, if_false, List.append_nil, VideoStream.positions]
      split
      · rfl
      · exact VideoStream.positions_modify _ _ _ fun _ => rfl
    · cases hs
  | closeServer =>
    simp only at hs
    split at hs
    · cases hs
      simp only [reduceCtorEq, if_false, List.append_nil, VideoStream.positions]
      split
      · rfl
      · exact VideoStream.positions_modify _ _ _ fun _ => rfl
    · cases hs
  | stop =>
    simp only at hs
    split at hs
    · cases hs
      simp [VideoStream.positions]
    · cases hs
  | interrupt =>
    simp only at hs
    split at hs
    · cases hs
      simp [VideoStream.positions]
    · cases hs

theorem threadStep_some {d d' : Display} {i : Nat} {a : VideoStream.LoopAction}
    {message : Option String} (hs : d.threadStep i a message = some d') :
    ∃ t decoding stream, d.stream.threads[i]? = some t ∧ d.tasks[i]? = some ⟨none, decoding⟩ ∧
      d.stream.loopStep i t a = some stream ∧
      d' = { d with
        stream
        tasks := d.tasks.set i ⟨owed d.stream.running message t.position a,
          decoding && (owed d.stream.running message t.position a).isNone⟩ } := by
  unfold threadStep at hs
  split at hs
  · next t decoding ht htask =>
    split at hs
    · cases hs
    · obtain ⟨stream, hstream, rfl⟩ := Option.map_eq_some_iff.1 hs
      exact ⟨t, decoding, stream, ht, htask, hstream, rfl⟩
  · cases hs

theorem step_changes {d d' : Display} {a : Action} (hpaired : d.Paired)
    (hs : d.step a = some d') : Changes d d' ∧ d'.Paired := by
  unfold Paired at hpaired ⊢
  cases a with
  | ui a =>
    simp only [step] at hs
    split at hs
    · cases hs
    · obtain ⟨stream, hstream, rfl⟩ := Option.map_eq_some_iff.1 hs
      have hpositions := uiStep_positions hstream
      by_cases hspawn : a = .spawn
      · subst hspawn
        rw [if_pos rfl] at hpositions
        refine ⟨.spawns ?_ rfl rfl, by simp [hpositions, hpaired]⟩
        simp only [stages, hpositions, if_true, List.map_append]
        exact List.zip_append (by rw [List.length_map, hpaired])
      · rw [if_neg hspawn, List.append_nil] at hpositions
        exact ⟨.rests (by simp only [stages, hpositions, if_neg hspawn]) rfl rfl,
          by simp only [hpositions, if_neg hspawn, hpaired]⟩
  | stopped =>
    simp only [step] at hs
    split at hs
    · cases hs
      exact ⟨.stops rfl rfl rfl, hpaired⟩
    · cases hs
  | refresh =>
    simp only [step] at hs
    split at hs
    · cases hs
    · cases hs
      exact ⟨.rests rfl rfl rfl, hpaired⟩
  | thread i a message =>
    obtain ⟨t, decoding, stream, ht, htask, hstream, rfl⟩ := threadStep_some hs
    obtain ⟨p, hnext, hpositions⟩ := loopStep_next hstream
    obtain ⟨hfits, hshows⟩ := shows_next message hnext
    have hposition : d.stream.positions[i]? = some t.position := by
      rw [VideoStream.positions, List.getElem?_map, ht]
      rfl
    refine ⟨.moves (stages_some hposition htask) hfits hshows ?_ rfl rfl,
      by simp only [hpositions, List.length_set, hpaired]⟩
    simp only [stages, hpositions, List.map_set, zip_set]
  | write i =>
    simp only [step] at hs
    split at hs
    · next phase decoding htask =>
      cases hs
      have hlt : i < d.stream.positions.length := by
        rw [hpaired]
        exact (List.getElem?_eq_some_iff.1 htask).1
      have hposition := List.getElem?_eq_getElem hlt
      refine ⟨.writes (stages_some hposition htask) ?_ rfl rfl,
        by simp only [List.length_set, hpaired]⟩
      simp only [stages, List.map_set, ← zip_set, set_same hposition]
    · cases hs
  | decode i =>
    simp only [step] at hs
    split at hs
    · next hposition htask =>
      cases hs
      refine ⟨.decodes (stages_some hposition htask) ?_ rfl rfl,
        by simp only [List.length_set, hpaired]⟩
      have hdue : (d.tasks.map (·.due))[i]? = some none := by rw [List.getElem?_map, htask]; rfl
      simp only [stages, List.map_set, set_same hdue]
    · cases hs

/-! ## Who shows the picture -/

/-- Thread `i` has told of its session and not yet of its end. -/
def Showing (d : Display) (i : Nat) : Prop :=
  ∃ p due, d.stages[i]? = some (p, due) ∧ shows p due = true

theorem showing_set {d d' : Display} {i : Nat} {p p' : Position} {due due' : Option Phase}
    (hi : d.stages[i]? = some (p, due)) (hstages : d'.stages = d.stages.set i (p', due'))
    (hshows : shows p' due' = shows p due) (j : Nat) : d'.Showing j ↔ d.Showing j := by
  have hlt := (List.getElem?_eq_some_iff.1 hi).1
  unfold Showing
  rw [hstages]
  by_cases hij : i = j
  · subst hij
    rw [List.getElem?_set_self hlt, hi]
    simp only [Option.some.injEq, Prod.mk.injEq]
    constructor
    · rintro ⟨_, _, ⟨rfl, rfl⟩, hshown⟩
      exact ⟨p, due, ⟨rfl, rfl⟩, hshows ▸ hshown⟩
    · rintro ⟨_, _, ⟨rfl, rfl⟩, hshown⟩
      exact ⟨p', due', ⟨rfl, rfl⟩, hshows ▸ hshown⟩
  · rw [List.getElem?_set_ne hij]

theorem showing_spawned {d d' : Display} (hstages : d'.stages = d.stages ++ [(.outer, none)])
    (j : Nat) : d'.Showing j ↔ d.Showing j := by
  unfold Showing
  rw [hstages, List.getElem?_append]
  split
  · rfl
  · next hlt =>
    rw [List.getElem?_eq_none (Nat.le_of_not_lt hlt)]
    constructor
    · rintro ⟨p, due, hj, hshown⟩
      obtain ⟨rfl, rfl⟩ := Prod.mk.inj (List.mem_singleton.1 (List.mem_of_getElem? hj))
      cases hshown
    · rintro ⟨_, _, hj, -⟩
      cases hj

theorem due_set {stages : List (Position × Option Phase)} {i : Nat} {p : Position}
    {due : Option Phase} (h : ∀ s ∈ stages, fits s.1 s.2 = true) (hfits : fits p due = true) :
    ∀ s ∈ stages.set i (p, due), fits s.1 s.2 = true := by
  intro s hs
  rcases List.mem_or_eq_of_mem_set hs with hmem | rfl
  · exact h s hmem
  · exact hfits

/-- The phase is one of a connection exactly when its last writer's session goes on. -/
structure Sound (d : Display) : Prop where
  paired : d.Paired
  due : ∀ s ∈ d.stages, fits s.1 s.2 = true
  told : d.phase.isActive = true ↔ ∃ i, d.writer = some (.loop i) ∧ d.Showing i

theorem sound_init : Sound (init : Display) := by
  refine ⟨rfl, ?_, ?_⟩
  · intro s hs
    cases hs
  · simp [init, Phase.isActive]

theorem Sound.step {d d' : Display} {a : Action} (h : Sound d) (hs : d.step a = some d') :
    Sound d' := by
  obtain ⟨hchanges, hpaired⟩ := step_changes h.paired hs
  cases hchanges with
  | rests hstages hphase hwriter =>
    refine ⟨hpaired, hstages ▸ h.due, ?_⟩
    unfold Showing
    rw [hphase, hwriter, hstages]
    exact h.told
  | spawns hstages hphase hwriter =>
    refine ⟨hpaired, ?_, ?_⟩
    · rw [hstages, List.forall_mem_append, List.forall_mem_singleton]
      exact ⟨h.due, rfl⟩
    · simp only [hphase, hwriter, showing_spawned hstages]
      exact h.told
  | @moves i p p' due hi hfits hshows hstages hphase hwriter =>
    refine ⟨hpaired, ?_, ?_⟩
    · rw [hstages]
      exact due_set h.due hfits
    · simp only [hphase, hwriter, showing_set hi hstages hshows]
      exact h.told
  | @writes i p phase hi hstages hphase hwriter =>
    have hlt := (List.getElem?_eq_some_iff.1 hi).1
    refine ⟨hpaired, ?_, ?_⟩
    · rw [hstages]
      exact due_set h.due rfl
    · have hwritten := shows_written (h.due _ (List.mem_of_getElem? hi))
      rw [hphase, hwriter, ← hwritten]
      constructor
      · intro hshown
        exact ⟨i, rfl, p, none, by rw [hstages, List.getElem?_set_self hlt], hshown⟩
      · rintro ⟨j, hj, q, due, hstage, hshown⟩
        cases hj
        rw [hstages, List.getElem?_set_self hlt] at hstage
        cases hstage
        exact hshown
  | @decodes i hi hstages hphase hwriter =>
    refine ⟨hpaired, hstages ▸ h.due, ?_⟩
    rw [hphase, hwriter]
    simp only [Phase.isActive, true_iff]
    exact ⟨i, rfl, .session, none, hstages ▸ hi, rfl⟩
  | stops hstages hphase hwriter =>
    refine ⟨hpaired, hstages ▸ h.due, ?_⟩
    simp [hphase, hwriter, Phase.isActive]

theorem sound_run {actions : List Action} {d : Display}
    (hrun : showing.run actions = some d) : Sound d :=
  showing.run_invariant sound_init (fun _ _ _ h => h.step) hrun

theorem refresh_mode {d d' : Display} (hs : d.step .refresh = some d') :
    d'.mode = .display ↔ d.phase.isActive = true := by
  simp only [step] at hs
  split at hs
  · cases hs
  · cases hs
    cases d.phase.isActive <;> simp

/-- **The picture** is what a refresh shows exactly when the thread that wrote the phase last has
told of a session and not yet of its end. -/
theorem picture_iff {actions : List Action} {d d' : Display}
    (hrun : showing.run actions = some d) (hrefresh : d.step .refresh = some d') :
    d'.mode = .display ↔ ∃ i, d.writer = some (.loop i) ∧ d.Showing i :=
  (refresh_mode hrefresh).trans (sound_run hrun).told

/-- Off and on again while a host streams: the next host's session decodes, and then the first
thread tells of the end of its own. The picture is gone. -/
theorem picture_iff_toggled :
    let actions : List Action := [.ui .start, .ui .spawn, .thread 0 .check none,
      .thread 0 (.bind true) none, .write 0, .thread 0 .check none, .thread 0 (.accept true) none,
      .write 0, .decode 0, .ui .stop, .ui .closeClient, .ui .closeServer, .ui .interrupt, .stopped,
      .ui .start, .ui .spawn, .thread 1 .check none, .thread 1 (.bind true) none, .write 1,
      .thread 1 .check none, .thread 1 (.accept true) none, .write 1, .decode 1,
      .thread 0 .sessionEnds (some "closed"), .write 0]
    ∃ d d', showing.run actions = some d ∧ d.step .refresh = some d' ∧
      d.stream.running = true ∧ d.Showing 1 ∧ d'.mode = .home := by
  intro actions
  obtain ⟨d, hrun, hrunning, hshowing, hwriter, hended, d', hrefresh⟩ : ∃ d,
      showing.run actions = some d ∧ d.stream.running = true ∧ d.Showing 1 ∧
      d.writer = some (.loop 0) ∧ d.stages[0]? = some (.hangingUp, none) ∧
      ∃ d', d.step .refresh = some d' :=
    ⟨_, rfl, rfl, ⟨_, _, rfl, rfl⟩, rfl, rfl, _, rfl⟩
  refine ⟨d, d', hrun, hrefresh, hrunning, hshowing, ?_⟩
  cases hmode : d'.mode with
  | home => rfl
  | display =>
    obtain ⟨i, hi, p, due, hstage, hshown⟩ := (picture_iff hrun hrefresh).1 hmode
    cases hi.symm.trans hwriter
    cases hstage.symm.trans hended
    cases hshown

/-! ## Clean starts -/

/-- `start` finds no thread of an earlier `start` alive, unless it has nothing to do. -/
def StartsClean (d : Display) : Action → Prop
  | .ui a => d.stream.StartsClean (.ui a)
  | _ => True

instance (d : Display) (a : Action) : Decidable (d.StartsClean a) := by
  unfold StartsClean
  split <;> infer_instance

/-- Behind the phase, the stream takes the steps it takes without one. -/
theorem step_stream {d d' : Display} {a : Action} (hclean : d.StartsClean a)
    (hs : d.step a = some d') :
    d'.stream = d.stream ∨
      ∃ b, d.stream.StartsClean b ∧ toggling.step d.stream b = some d'.stream := by
  cases a with
  | ui a =>
    simp only [step] at hs
    split at hs
    · cases hs
    · obtain ⟨stream, hstream, rfl⟩ := Option.map_eq_some_iff.1 hs
      exact .inr ⟨.ui a, hclean, hstream⟩
  | stopped =>
    simp only [step] at hs
    split at hs <;> cases hs
    exact .inl rfl
  | refresh =>
    simp only [step] at hs
    split at hs <;> cases hs
    exact .inl rfl
  | thread i a message =>
    obtain ⟨t, decoding, stream, ht, -, hstream, rfl⟩ := threadStep_some hs
    refine .inr ⟨.thread i a, trivial, ?_⟩
    simp only [toggling, ht]
    exact hstream
  | write i =>
    simp only [step] at hs
    split at hs <;> cases hs
    exact .inl rfl
  | decode i =>
    simp only [step] at hs
    split at hs <;> cases hs
    exact .inl rfl

/-- A session goes on behind the home screen only if `stop` wrote last. -/
structure Current (d : Display) : Prop where
  sound : Sound d
  one : d.stream.OneAlive
  last : ∀ i, d.Showing i → d.writer = some .stop ∨ d.writer = some (.loop i)

theorem position_of_stage {d : Display} {i : Nat} {p : Position} {due : Option Phase}
    (hi : d.stages[i]? = some (p, due)) : d.stream.positions[i]? = some p :=
  (List.getElem?_zip_eq_some.1 hi).1

/-- Two threads that both have something to tell are one. -/
theorem Current.same {d : Display} {i j : Nat} {p : Position} {due : Option Phase}
    (h : Current d) (hi : d.stages[i]? = some (p, due)) (hp : p ≠ .exited) (hj : d.Showing j) :
    j = i := by
  obtain ⟨q, due', hstage, hshown⟩ := hj
  apply h.one.one j i q p (position_of_stage hstage) (position_of_stage hi) _ hp
  rintro rfl
  cases due' <;> cases hshown

theorem current_init : Current (init : Display) := by
  refine ⟨sound_init, VideoStream.oneAlive_init, ?_⟩
  rintro i ⟨p, due, hi, -⟩
  cases hi

theorem Current.step {d d' : Display} {a : Action} (h : Current d) (hclean : d.StartsClean a)
    (hs : d.step a = some d') : Current d' := by
  have hsound := h.sound.step hs
  have hone : d'.stream.OneAlive := by
    rcases step_stream hclean hs with hstream | ⟨b, hb, hstream⟩
    · exact hstream ▸ h.one
    · exact h.one.step hb hstream
  refine ⟨hsound, hone, ?_⟩
  intro j hj
  cases (step_changes h.sound.paired hs).1 with
  | rests hstages hphase hwriter =>
    unfold Showing at hj
    rw [hstages] at hj
    rw [hwriter]
    exact h.last j hj
  | spawns hstages hphase hwriter =>
    rw [hwriter]
    exact h.last j ((showing_spawned hstages j).1 hj)
  | moves hi hfits hshows hstages hphase hwriter =>
    rw [hwriter]
    exact h.last j ((showing_set hi hstages hshows j).1 hj)
  | @writes i p phase hi hstages hphase hwriter =>
    apply Or.inr
    rw [hwriter, Option.some.injEq, Writer.loop.injEq]
    by_contra hne
    obtain ⟨q, due, hstage, hshown⟩ := hj
    rw [hstages, List.getElem?_set_ne hne] at hstage
    refine hne (h.same hi ?_ ⟨q, due, hstage, hshown⟩).symm
    rintro rfl
    have hdue := h.sound.due _ (List.mem_of_getElem? hi)
    simp [fits] at hdue
  | @decodes i hi hstages hphase hwriter =>
    unfold Showing at hj
    rw [hstages] at hj
    rw [hwriter, h.same hi (by simp) hj]
    exact .inr rfl
  | stops hstages hphase hwriter => exact .inl hwriter

/-- **One thread at a time**: the picture is what a refresh shows exactly while a thread has told of
a session and not yet of its end, unless `stop` wrote the phase since. -/
theorem picture_clean {actions : List Action} {d d' : Display}
    (hclean : showing.Along StartsClean actions) (hrun : showing.run actions = some d)
    (hrefresh : d.step .refresh = some d') :
    d'.mode = .display ↔ (∃ i, d.Showing i) ∧ d.writer ≠ some .stop := by
  have hcurrent : Current d := showing.run_invariant_along current_init
    (fun _ _ _ h hclean hs => h.step hclean hs) hclean hrun
  rw [refresh_mode hrefresh, hcurrent.sound.told]
  constructor
  · rintro ⟨i, hwriter, hshowing⟩
    refine ⟨⟨i, hshowing⟩, ?_⟩
    rw [hwriter]
    intro hstop
    cases hstop
  · rintro ⟨⟨i, hshowing⟩, hstop⟩
    exact ⟨i, (hcurrent.last i hshowing).resolve_left hstop, hshowing⟩

/-- Switched off while a host streams: the session's thread has not noticed yet. -/
theorem picture_clean_off :
    let connect : List Action := [.ui .start, .ui .spawn, .thread 0 .check none,
      .thread 0 (.bind true) none, .write 0, .thread 0 .check none, .thread 0 (.accept true) none,
      .write 0, .decode 0]
    let off : List Action :=
      [.ui .stop, .ui .closeClient, .ui .closeServer, .ui .interrupt, .stopped]
    (∃ d d', showing.run connect = some d ∧ d.step .refresh = some d' ∧
        d'.mode = .display) ∧
      ∃ d d', showing.run (connect ++ off) = some d ∧ d.step .refresh = some d' ∧
        d.Showing 0 ∧ d'.mode = .home := by
  intro connect off
  obtain ⟨d, hrun, hlast, d', hrefresh⟩ : ∃ d, showing.run connect = some d ∧
      (d.Showing 0 ∧ d.writer = some (.loop 0)) ∧ ∃ d', d.step .refresh = some d' :=
    ⟨_, rfl, ⟨⟨_, _, rfl, rfl⟩, rfl⟩, _, rfl⟩
  obtain ⟨e, hrun', hlast', e', hrefresh'⟩ : ∃ d, showing.run (connect ++ off) = some d ∧
      (d.Showing 0 ∧ d.writer = some .stop) ∧ ∃ d', d.step .refresh = some d' :=
    ⟨_, rfl, ⟨⟨_, _, rfl, rfl⟩, rfl⟩, _, rfl⟩
  refine ⟨⟨d, d', hrun, hrefresh, ?_⟩, e, e', hrun', hrefresh', hlast'.1, ?_⟩
  · refine (picture_clean (by decide) hrun hrefresh).2 ⟨⟨0, hlast.1⟩, ?_⟩
    simp [hlast.2]
  · have hpicture := picture_clean (by decide) hrun' hrefresh'
    cases hmode : e'.mode with
    | home => rfl
    | display => exact absurd hlast'.2 (hpicture.1 hmode).2

end Display

end Phases

end PadPlay.Device
