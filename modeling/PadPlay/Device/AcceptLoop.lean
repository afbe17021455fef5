import PadPlay.Lib.Machine

/-!
# Starting and stopping (`VideoStream.start`, `stop`, `acceptLoop`)

The UI thread starts and stops accepting connections; every start spawns a thread that runs
`acceptLoop`. One flag, `running`, speaks to all of these threads, and `stop` does not wait for
them: a thread that was stopped but has not looked at the flag yet does not see that it was set
again. `one_acceptor_iff` says when that cannot happen: exactly when no `start` finds a thread of an
earlier one alive.
-/

namespace PadPlay.Device.AcceptLoop

open PadPlay.Lib

/-! ## State -/

/-- Where a thread is in `acceptLoop`. -/
inductive Position where
  /-- at the outer `while (running)` -/
  | outer
  | binding
  /-- at the inner `while (running)` -/
  | inner
  | accepting
  | session
  /-- behind `session`: the socket is about to be closed -/
  | hangingUp
  /-- behind the inner loop: `use` is about to close the server -/
  | unbinding
  /-- at the `if (!running) return` of the `catch` block -/
  | caught
  | sleeping
  /-- in the `finally` block, and then back to the outer loop or out of the function -/
  | cleanup (returns : Bool)
  | exited
  deriving DecidableEq, Repr

/-- Past the check of its outer loop, and not out of the function. -/
def Position.inside : Position → Bool
  | .outer | .exited => false
  | _ => true

structure Acceptor where
  position : Position
  /-- its server socket is open -/
  server : Bool
  /-- the socket of its client is open -/
  socket : Bool
  deriving DecidableEq, Repr

/-- Where the UI thread is in `start` or `stop`. -/
inductive Ui where
  | idle
  | spawning
  | closingClient
  | closingServer
  | interrupting
  deriving DecidableEq, Repr

/-- The fields of `VideoStream` that its threads share, and the threads in the order they were
spawned; `stopped` of them were spawned before the last `stop`. -/
structure VideoStream where
  running : Bool
  serverSocket : Option Nat
  client : Option Nat
  ui : Ui
  threads : List Acceptor
  stopped : Nat
  deriving DecidableEq, Repr

namespace VideoStream

def init : VideoStream := ⟨false, none, none, .idle, [], 0⟩

def positions (v : VideoStream) : List Position := v.threads.map (·.position)

/-! ## The UI thread -/

inductive UiAction where
  | start
  | spawn
  | stop
  | closeClient
  | closeServer
  | interrupt
  deriving DecidableEq, Repr

def uiStep (v : VideoStream) : UiAction → Option VideoStream
  | .start =>
    match v.ui with
    | .idle => some (if v.running then v else { v with running := true, ui := .spawning })
    | _ => none
  | .spawn =>
    match v.ui with
    | .spawning =>
      some { v with ui := .idle, threads := v.threads ++ [⟨.outer, false, false⟩] }
    | _ => none
  | .stop =>
    match v.ui with
    | .idle => some { v with running := false, ui := .closingClient, stopped := v.threads.length }
    | _ => none
  | .closeClient =>
    match v.ui with
    | .closingClient =>
      let threads := match v.client with
        | none => v.threads
        | some i => v.threads.modify i fun t => { t with socket := false }
      some { v with ui := .closingServer, threads }
    | _ => none
  | .closeServer =>
    match v.ui with
    | .closingServer =>
      let threads := match v.serverSocket with
        | none => v.threads
        | some i => v.threads.modify i fun t => { t with server := false }
      some { v with ui := .interrupting, threads }
    | _ => none
  | .interrupt => -- at most ends a sleep or a session, which may end at any time
    match v.ui with
    | .interrupting => some { v with ui := .idle }
    | _ => none

/-! ## `acceptLoop` -/

inductive LoopAction where
  /-- a look at `running`, wherever one is due -/
  | check
  | bind (ok : Bool)
  | accept (ok : Bool)
  /-- `session` returns or throws; both are taken the same way -/
  | sessionEnds
  /-- whatever else comes next -/
  | go
  deriving DecidableEq, Repr

/-- One step of thread `i`, which is `t`. The name of the server socket is free when no thread has
its server open. -/
def loopStep (v : VideoStream) (i : Nat) (t : Acceptor) : LoopAction → Option VideoStream
  | .check =>
    let next := match t.position with
      | .outer => some (if v.running then Position.binding else .exited)
      | .inner => some (if v.running then Position.accepting else .unbinding)
      | .session => some (if v.running then Position.session else .hangingUp)
      | .caught => some (if v.running then Position.sleeping else .cleanup true)
      | _ => none
    next.map fun position => { v with threads := v.threads.set i { t with position } }
  | .bind ok =>
    match t.position with
    | .binding =>
      if !ok then some { v with threads := v.threads.set i { t with position := .caught } }
      else if v.threads.all (!·.server) then
        some { v with
          serverSocket := some i
          threads := v.threads.set i { t with position := .inner, server := true } }
      else none
    | _ => none
  | .accept ok =>
    match t.position with
    | .accepting =>
      if !ok then
        some { v with threads := v.threads.set i { t with position := .caught, server := false } }
      else if t.server then
        some { v with
          client := some i
          threads := v.threads.set i { t with position := .session, socket := true } }
      else none
    | _ => none
  | .sessionEnds =>
    match t.position with
    | .session => some { v with threads := v.threads.set i { t with position := .hangingUp } }
    | _ => none
  | .go =>
    match t.position with
    | .hangingUp =>
      some { v with
        client := none
        threads := v.threads.set i { t with position := .inner, socket := false } }
    | .unbinding =>
      some { v with
        threads := v.threads.set i { t with position := .cleanup false, server := false } }
    | .sleeping =>
      some { v with threads := v.threads.set i { t with position := .cleanup false } }
    | .cleanup returns =>
      let position := if returns then Position.exited else .outer
      some { v with serverSocket := none, threads := v.threads.set i { t with position } }
    | _ => none

end VideoStream

/-! ## The machine -/

inductive Action where
  | ui (a : VideoStream.UiAction)
  | thread (i : Nat) (a : VideoStream.LoopAction)
  deriving DecidableEq, Repr

def toggling : Machine VideoStream Action where
  init := .init
  step
    | v, .ui a => v.uiStep a
    | v, .thread i a =>
      match v.threads[i]? with
      | none => none
      | some t => v.loopStep i t a

namespace VideoStream

/-! ## What one step does -/

/-- A step of a thread: it moves this thread, which has not left the loop before. -/
structure Moves (v v' : VideoStream) (i : Nat) : Prop where
  running : v'.running = v.running
  ui : v'.ui = v.ui
  stopped : v'.stopped = v.stopped
  position : ∃ old new, v.positions[i]? = some old ∧ old ≠ .exited ∧
    v'.positions = v.positions.set i new

theorem positions_set (v : VideoStream) (i : Nat) (t : Acceptor) :
    (v.threads.set i t).map (·.position) = v.positions.set i t.position := by
  rw [List.map_set, positions]

theorem loopStep_moves {v v' : VideoStream} {i : Nat} {t : Acceptor} {a : LoopAction}
    (ht : v.threads[i]? = some t) (hs : v.loopStep i t a = some v') : Moves v v' i := by
  have hold : v.positions[i]? = some t.position := by
    rw [positions, List.getElem?_map, ht]
    rfl
  have hmoves (u : VideoStream) (t' : Acceptor) (hlive : t.position ≠ .exited)
      (hu : u.threads = v.threads.set i t') (hrunning : u.running = v.running) (hui : u.ui = v.ui)
      (hstopped : u.stopped = v.stopped) : Moves v u i := by
    refine ⟨hrunning, hui, hstopped, t.position, t'.position, hold, hlive, ?_⟩
    rw [positions, hu, positions_set]
  unfold loopStep at hs
  cases a with
  | check =>
    obtain ⟨position, hposition, rfl⟩ := Option.map_eq_some_iff.1 hs
    refine hmoves _ _ ?_ rfl rfl rfl rfl
    intro hexited
    rw [hexited] at hposition
    cases hposition
  | bind ok =>
    simp only at hs
    split at hs
    · next hposition =>
      have hlive : t.position ≠ .exited := by rw [hposition]; nofun
      split at hs
      · cases hs
        exact hmoves _ _ hlive rfl rfl rfl rfl
      · split at hs
        · cases hs
          exact hmoves _ _ hlive rfl rfl rfl rfl
        · cases hs
    · cases hs
  | accept ok =>
    simp only at hs
    split at hs
    · next hposition =>
      have hlive : t.position ≠ .exited := by rw [hposition]; nofun
      split at hs
      · cases hs
        exact hmoves _ _ hlive rfl rfl rfl rfl
      · split at hs
        · cases hs
          exact hmoves _ _ hlive rfl rfl rfl rfl
        · cases hs
    · cases hs
  | sessionEnds =>
    simp only at hs
    split at hs
    · next hposition =>
      cases hs
      exact hmoves _ _ (by rw [hposition]; nofun) rfl rfl rfl rfl
    · cases hs
  | go =>
    simp only at hs
    split at hs
    · next hposition => cases hs; exact hmoves _ _ (by rw [hposition]; nofun) rfl rfl rfl rfl
    · next hposition => cases hs; exact hmoves _ _ (by rw [hposition]; nofun) rfl rfl rfl rfl
    · next hposition => cases hs; exact hmoves _ _ (by rw [hposition]; nofun) rfl rfl rfl rfl
    · next hposition => cases hs; exact hmoves _ _ (by rw [hposition]; nofun) rfl rfl rfl rfl
    · cases hs

/-! ## Safety -/

/-- At most one thread is inside its loops, and a thread that was stopped finds `running` false
whenever it looks. -/
structure Safe (v : VideoStream) : Prop where
  one : ∀ (i j : Nat) (p q : Position), v.positions[i]? = some p → v.positions[j]? = some q →
    p.inside = true → q.inside = true → i = j
  leaves : ∀ (i : Nat) (p : Position), i < v.stopped → v.positions[i]? = some p → p ≠ .exited →
    v.running = false

/-- `start` finds no thread of an earlier `start` alive, unless it has nothing to do. -/
def StartsClean (v : VideoStream) : Action → Prop
  | .ui .start => v.ui = .idle → v.running = false → ∀ p ∈ v.positions, p = .exited
  | _ => True

instance (v : VideoStream) (a : Action) : Decidable (StartsClean v a) := by
  unfold StartsClean
  split <;> infer_instance

/-! ## The invariant -/

structure OneAlive (v : VideoStream) : Prop where
  one : ∀ (i j : Nat) (p q : Position), v.positions[i]? = some p → v.positions[j]? = some q →
    p ≠ .exited → q ≠ .exited → i = j
  bound : v.stopped ≤ v.positions.length
  /-- while `running` is set, the threads that were stopped are gone -/
  gone : v.running = true → ∀ (i : Nat) (p : Position), i < v.stopped → v.positions[i]? = some p →
    p = .exited
  /-- while it is not, all threads have been stopped -/
  fresh : v.running = false → v.positions.length ≤ v.stopped
  spawning : v.ui = .spawning → v.running = true ∧ ∀ p ∈ v.positions, p = .exited

theorem oneAlive_init : OneAlive init := by
  constructor
  · intro i j p q hp
    cases hp
  · exact Nat.le_refl _
  · intro _ i p hi
    exact absurd hi (Nat.not_lt_zero i)
  · intro _
    exact Nat.le_refl _
  · intro hspawning
    cases hspawning

theorem OneAlive.safe {v : VideoStream} (h : OneAlive v) : Safe v := by
  have hinside : ∀ {p : Position}, p.inside = true → p ≠ .exited := by
    rintro p hp rfl
    cases hp
  constructor
  · intro i j p q hi hj hp hq
    exact h.one i j p q hi hj (hinside hp) (hinside hq)
  · intro i p hi hp hlive
    cases hrunning : v.running with
    | false => rfl
    | true => exact absurd (h.gone hrunning i p hi hp) hlive

theorem OneAlive.moves {v v' : VideoStream} {i : Nat} (h : OneAlive v) (hm : Moves v v' i) :
    OneAlive v' := by
  obtain ⟨hrunning, hui, hstopped, old, new, hold, hlive, hpositions⟩ := hm
  -- whoever is alive now was alive before
  have hback : ∀ (j : Nat) (p : Position), v'.positions[j]? = some p → p ≠ .exited →
      ∃ q, v.positions[j]? = some q ∧ q ≠ .exited := by
    intro j p hj hp
    by_cases hij : i = j
    · subst hij
      exact ⟨old, hold, hlive⟩
    · rw [hpositions, List.getElem?_set_ne hij] at hj
      exact ⟨p, hj, hp⟩
  constructor
  · intro j k p q hj hk hp hq
    obtain ⟨p', hj', hp'⟩ := hback j p hj hp
    obtain ⟨q', hk', hq'⟩ := hback k q hk hq
    exact h.one j k p' q' hj' hk' hp' hq'
  · rw [hstopped, hpositions, List.length_set]
    exact h.bound
  · rw [hrunning, hstopped]
    intro hr j p hj hp
    by_cases hexited : p = .exited
    · exact hexited
    · obtain ⟨q, hq, hqlive⟩ := hback j p hp hexited
      exact absurd (h.gone hr j q hj hq) hqlive
  · rw [hrunning, hstopped, hpositions, List.length_set]
    exact h.fresh
  · rw [hui, hrunning]
    intro hspawning
    obtain ⟨-, hall⟩ := h.spawning hspawning
    exact absurd (hall old (List.mem_of_getElem? hold)) hlive

/-- Closing a socket moves no thread. -/
theorem positions_modify (threads : List Acceptor) (i : Nat) (f : Acceptor → Acceptor)
    (hf : ∀ t, (f t).position = t.position) :
    (threads.modify i f).map (·.position) = threads.map (·.position) := by
  apply List.ext_getElem?
  intro j
  rw [List.getElem?_map, List.getElem?_map, List.getElem?_modify]
  split
  · cases threads[j]? with
    | none => rfl
    | some t => exact congrArg some (hf t)
  · cases threads[j]? <;> rfl

theorem OneAlive.closes {v : VideoStream} (h : OneAlive v) (threads : List Acceptor) {ui : Ui}
    (hthreads : threads.map (·.position) = v.positions) (hui : ui ≠ .spawning) :
    OneAlive { v with ui, threads } := by
  have hpositions : positions { v with ui, threads } = v.positions := hthreads
  refine ⟨?_, ?_, ?_, ?_, fun hspawning => absurd hspawning hui⟩
  · rw [hpositions]
    exact h.one
  · rw [hpositions]
    exact h.bound
  · rw [hpositions]
    exact h.gone
  · rw [hpositions]
    exact h.fresh

theorem OneAlive.uiStep {v v' : VideoStream} {a : UiAction} (h : OneAlive v)
    (hclean : StartsClean v (.ui a)) (hs : v.uiStep a = some v') : OneAlive v' := by
  unfold VideoStream.uiStep at hs
  cases a with
  | start =>
    simp only at hs
    split at hs
    · next hidle =>
      split at hs
      · cases hs
        exact h
      · next hstopped =>
        cases hs
        have hall := hclean hidle (Bool.not_eq_true _ ▸ hstopped)
        refine ⟨h.one, h.bound, ?_, ?_, fun _ => ⟨rfl, hall⟩⟩
        · intro _ i p _ hp
          exact hall p (List.mem_of_getElem? hp)
        · intro hno
          cases hno
    · cases hs
  | spawn =>
    simp only at hs
    split at hs
    · next hspawning =>
      cases hs
      obtain ⟨hrunning, hall⟩ := h.spawning hspawning
      have hpositions : positions { v with
          ui := .idle, threads := v.threads ++ [⟨.outer, false, false⟩] } =
          v.positions ++ [.outer] := List.map_append ..
      -- the new thread is the only one alive
      have hlast : ∀ (j : Nat) (p : Position), (v.positions ++ [Position.outer])[j]? = some p →
          p ≠ .exited → j = v.positions.length := by
        intro j p hj hp
        rcases Nat.lt_trichotomy j v.positions.length with hlt | heq | hgt
        · rw [List.getElem?_append_left hlt] at hj
          exact absurd (hall p (List.mem_of_getElem? hj)) hp
        · exact heq
        · rw [List.getElem?_eq_none (by rw [List.length_append]; exact hgt)] at hj
          cases hj
      refine ⟨?_, ?_, ?_, ?_, nofun⟩
      · rw [hpositions]
        intro j k p q hj hk hp hq
        rw [hlast j p hj hp, hlast k q hk hq]
      · rw [hpositions, List.length_append]
        exact Nat.le_trans h.bound (Nat.le_add_right _ _)
      · rw [hpositions]
        intro _ j p hstopped hp
        rw [List.getElem?_append_left (Nat.lt_of_lt_of_le hstopped h.bound)] at hp
        exact hall p (List.mem_of_getElem? hp)
      · intro hno
        rw [show v.running = false from hno] at hrunning
        cases hrunning
    · cases hs
  | stop =>
    simp only at hs
    split at hs
    · cases hs
      have hall : v.positions.length = v.threads.length := List.length_map _
      refine ⟨h.one, Nat.le_of_eq hall.symm, fun hno => ?_, fun _ => Nat.le_of_eq hall, nofun⟩
      cases hno
    · cases hs
  | closeClient =>
    simp only at hs
    split at hs
    · cases hs
      apply h.closes _
      · split
        · rfl
        · exact positions_modify _ _ _ fun _ => rfl
      · nofun
    · cases hs
  | closeServer =>
    simp only at hs
    split at hs
    · cases hs
      apply h.closes _
      · split
        · rfl
        · exact positions_modify _ _ _ fun _ => rfl
      · nofun
    · cases hs
  | interrupt =>
    simp only at hs
    split at hs
    · cases hs
      exact h.closes v.threads rfl nofun
    · cases hs

theorem OneAlive.step {v v' : VideoStream} {a : Action} (h : OneAlive v)
    (hclean : StartsClean v a) (hs : toggling.step v a = some v') : OneAlive v' := by
  cases a with
  | ui a => exact h.uiStep hclean hs
  | thread i a =>
    simp only [toggling] at hs
    split at hs
    · cases hs
    · next t ht => exact h.moves (loopStep_moves ht hs)

/-- A `start` that finds a thread alive sets the flag this thread was to see cleared. -/
theorem OneAlive.startsClean {v : VideoStream} {a : Action} (h : OneAlive v)
    (hsafe : toggling.Reaching Safe v a) : StartsClean v a := by
  unfold StartsClean
  split
  · intro hidle hstopped p hp
    have hstep : toggling.step v (.ui .start) =
        some { v with running := true, ui := .spawning } := by
      simp [toggling, VideoStream.uiStep, hidle, hstopped]
    obtain ⟨i, hi⟩ := List.getElem?_of_mem hp
    have hlt : i < v.stopped :=
      Nat.lt_of_lt_of_le (List.getElem?_eq_some_iff.1 hi).1 (h.fresh hstopped)
    by_cases hexited : p = .exited
    · exact hexited
    · have hrunning := (hsafe _ hstep).leaves i p hlt hi hexited
      cases hrunning
  · trivial

/-- **One accept loop at a time**: every state a run reaches is safe exactly when no `start` of the
run finds a thread of an earlier one alive. -/
theorem one_acceptor_iff (actions : List Action) :
    toggling.Along (toggling.Reaching Safe) actions ↔ toggling.Along StartsClean actions := by
  refine (toggling.alongFrom_congr (fun _ _ _ h hclean hs => h.step hclean hs) ?_
    oneAlive_init actions).symm
  intro v a h
  constructor
  · intro hclean v' hs
    exact (h.step hclean hs).safe
  · exact h.startsClean

/-- The switch is turned off and on again while a client is connected. Two threads are inside their
loops, and the stopped one looks at `running` and goes on to accept another client. -/
theorem toggled_twice :
    let connect : List Action := [.ui .start, .ui .spawn, .thread 0 .check, .thread 0 (.bind true),
      .thread 0 .check, .thread 0 (.accept true)]
    let toggle : List Action := [.ui .stop, .ui .closeClient, .ui .closeServer, .ui .interrupt,
      .ui .start, .ui .spawn, .thread 1 .check]
    let goOn : List Action := [.thread 0 .sessionEnds, .thread 0 .go, .thread 0 .check]
    (∃ v, toggling.run (connect ++ toggle) = some v ∧
        v.positions = [.session, .binding] ∧ ¬Safe v) ∧
      ∃ v, toggling.run (connect ++ toggle ++ goOn) = some v ∧ 0 < v.stopped ∧
        v.positions = [.accepting, .binding] := by
  intro connect toggle goOn
  refine ⟨⟨_, rfl, rfl, ?_⟩, _, rfl, by decide, rfl⟩
  intro hsafe
  have hsame := hsafe.one 0 1 .session .binding rfl rfl rfl rfl
  cases hsame

end VideoStream

end PadPlay.Device.AcceptLoop
