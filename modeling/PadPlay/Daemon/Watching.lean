import PadPlay.Daemon.Tracker
import PadPlay.Lib.Checked
import PadPlay.Lib.Machine

/-!
# Watching for devices (the loop of `daemon::main`)

The list of devices, the failure counter and the tracker connection outlive the iterations of the
loop, which change them on different branches. `due` says what the loop owes at each point of a
log of what it did, in terms of the log alone; the loop pays at once (`Lawful`), whatever the
tracker and the sessions do, and from this alone follows when sessions start and how long the pauses
are (`watch_lawful`).
-/

namespace PadPlay.Daemon.Watching

open PadPlay.Lib PadPlay.Daemon.Tracker

/-! ## The loop -/

inductive Event where
  | update (devices : List Device)
  | timeout
  | lost (e : TrackerError)
  | connect (ok : Bool)
  | idle (devices : List Device)
  | session (serial : Text)
  | ended (ok : Bool)
  | sleep (seconds : Nat)
  deriving DecidableEq, Repr

inductive Exit where
  | shutDown
  | failed
  | overflow
  deriving DecidableEq, Repr

/-- Where an iteration stands: at its head, behind the `match` on `next_update`, in `session::run`,
or behind the loop. -/
inductive Phase where
  | polling
  | attending
  | running (serial : Text)
  | exited (how : Exit)
  deriving DecidableEq, Repr

/-- The variables of the loop, with a log of what it did, the latest first. -/
structure Watch where
  devices : List Device
  consecutiveFailures : Nat
  announcedIdle : Bool
  phase : Phase
  log : List Event
  deriving DecidableEq, Repr

/-- What an iteration meets until `next_update` has returned, and, if the tracker is lost, in
connecting again. -/
structure Poll where
  shutdown : Bool
  setTimeout : Bool
  update : Except TrackerError (List Device)
  connects : Bool

def Watch.poll (w : Watch) (a : Poll) : Watch :=
  if a.shutdown then { w with phase := .exited .shutDown }
  else if !a.setTimeout then { w with phase := .exited .failed }
  else
    match a.update with
    | .ok update =>
      { w with devices := update, announcedIdle := false, consecutiveFailures := 0,
               phase := .attending, log := .update update :: w.log }
    | .error e =>
      if isTimeout e then { w with phase := .attending, log := .timeout :: w.log }
      else
        { w with devices := [], log := .connect a.connects :: .sleep 2 :: .lost e :: w.log }

def Watch.attend (w : Watch) : Watch :=
  match w.devices.find? Device.isReady with
  | none =>
    { w with announcedIdle := true, phase := .polling,
             log := if w.announcedIdle then w.log else .idle w.devices :: w.log }
  | some device =>
    { w with phase := .running device.serial, log := .session device.serial :: w.log }

/-- In seconds. -/
def backoff (consecutiveFailures : Nat) : Nat := 2 * max (min consecutiveFailures 8) 1

def Watch.pause (w : Watch) : Watch :=
  { w with phase := .polling, log := .sleep (backoff w.consecutiveFailures) :: w.log }

def Watch.finish (once : Bool) (w : Watch) (ok shutdown : Bool) : Watch :=
  let w := { w with log := .ended ok :: w.log }
  if once || shutdown then { w with phase := .exited .shutDown }
  else if ok then { w with consecutiveFailures := 0 }.pause
  else
    match Checked.add 32 w.consecutiveFailures 1 with
    | none => { w with phase := .exited .overflow }
    | some consecutiveFailures => { w with consecutiveFailures }.pause

inductive Action where
  | poll (a : Poll)
  | attend
  /-- `session::run` returns; `shutdown` is read behind it -/
  | finish (ok shutdown : Bool)

def Watch.step (once : Bool) (w : Watch) (a : Action) : Option Watch :=
  match a with
  | .poll a => if w.phase = .polling then some (w.poll a) else none
  | .attend => if w.phase = .attending then some w.attend else none
  | .finish ok shutdown =>
    match w.phase with
    | .running _ => some (w.finish once ok shutdown)
    | _ => none

/-- `main` from the point where the tracker is connected. -/
def watching (once : Bool) : Machine Watch Action where
  init := ⟨[], 0, false, .polling, []⟩
  step := Watch.step once

/-! ## What the log says -/

/-- `next_update` returned, and the tracker was not lost. -/
def Event.Stands : Event → Prop
  | .update _ | .timeout => True
  | _ => False

/-- The list of devices that stands after a log. -/
def standing : List Event → List Device
  | .update devices :: _ => devices
  | .lost _ :: _ => []
  | _ :: log => standing log
  | [] => []

/-- The sessions that failed since the last clean one, or the last list. -/
def failing : List Event → Nat
  | .update _ :: _ | .ended true :: _ => 0
  | .ended false :: log => failing log + 1
  | _ :: log => failing log
  | [] => 0

/-- The pause after a session, for the log that ends with it. -/
def pauseAfter (ok : Bool) (log : List Event) : Nat :=
  if ok then 2 else 2 * min (failing log) 8

/-- What has to come next. -/
def due (log : List Event) : Option Event :=
  match log with
  | .update _ :: _ | .timeout :: _ =>
    ((standing log).find? Device.isReady).map fun device => .session device.serial
  | .ended ok :: _ => some (.sleep (pauseAfter ok log))
  | _ => none

structure Follows (log : List Event) (e : Event) : Prop where
  paid : ∀ e', due log = some e' → e = e'
  owed : ∀ serial, e = .session serial → due log = some e

/-- The loop always does at once what is due, and starts sessions only when they are. -/
def Lawful : List Event → Prop
  | [] => True
  | e :: log => Follows log e ∧ Lawful log

theorem Lawful.follows {log older newer : List Event} {e : Event} (h : Lawful log)
    (hlog : log = newer ++ e :: older) : Follows older e := by
  induction newer generalizing log with
  | nil =>
    subst hlog
    exact h.1
  | cons e' newer ih =>
    subst hlog
    exact ih h.2 rfl

theorem Follows.free {log : List Event} {e : Event} (hdue : due log = none)
    (he : ∀ serial, e ≠ .session serial) : Follows log e := by
  constructor
  · intro e' h
    rw [hdue] at h
    cases h
  · intro serial h
    exact absurd h (he serial)

theorem Follows.of_due {log : List Event} {e : Event} (hdue : due log = some e) :
    Follows log e := by
  constructor
  · intro e' h
    rw [hdue] at h
    cases h
    rfl
  · intro serial _
    exact hdue

/-! ## The loop keeps to it -/

/-- What holds of the log and the counter in a phase. -/
def Phase.Fits (log : List Event) (consecutiveFailures : Nat) : Phase → Prop
  | .polling | .running _ => due log = none ∧ consecutiveFailures = failing log
  | .attending =>
    (∃ poll older, log = poll :: older ∧ poll.Stands) ∧ consecutiveFailures = failing log
  | .exited _ => ∀ serial, due log ≠ some (.session serial)

structure Keeps (w : Watch) : Prop where
  lawful : Lawful w.log
  devices : w.devices = standing w.log
  fits : w.phase.Fits w.log w.consecutiveFailures

theorem Keeps.polls {w : Watch} (h : Keeps w) (hphase : w.phase = .polling) (a : Poll) :
    Keeps (w.poll a) := by
  have hfits := h.fits
  rw [hphase] at hfits
  obtain ⟨hdue, hfailures⟩ := hfits
  have hexits : ∀ serial, due w.log ≠ some (.session serial) := by simp [hdue]
  unfold Watch.poll
  split
  · exact ⟨h.lawful, h.devices, hexits⟩
  · split
    · exact ⟨h.lawful, h.devices, hexits⟩
    · split
      · next update _ =>
        have hfollows : Follows w.log (.update update) := .free hdue (by simp)
        exact ⟨⟨hfollows, h.lawful⟩, rfl, ⟨_, _, rfl, trivial⟩, rfl⟩
      · next e _ =>
        split
        · have hfollows : Follows w.log .timeout := .free hdue (by simp)
          exact ⟨⟨hfollows, h.lawful⟩, h.devices, ⟨_, _, rfl, trivial⟩, hfailures⟩
        · have hlost : Lawful (.connect a.connects :: .sleep 2 :: .lost e :: w.log) :=
            ⟨.free rfl (by simp), .free rfl (by simp), .free hdue (by simp), h.lawful⟩
          refine ⟨hlost, rfl, ?_⟩
          dsimp only
          rw [hphase]
          exact ⟨rfl, hfailures⟩

theorem due_of_stands {poll : Event} (older : List Event) (h : poll.Stands) :
    due (poll :: older) = ((standing (poll :: older)).find? Device.isReady).map fun device =>
      .session device.serial := by
  cases poll <;> first | rfl | cases h

theorem Keeps.attends {w : Watch} (h : Keeps w) (hphase : w.phase = .attending) :
    Keeps w.attend := by
  have hfits := h.fits
  rw [hphase] at hfits
  obtain ⟨⟨poll, older, hlog, hstands⟩, hfailures⟩ := hfits
  have hdue := due_of_stands older hstands
  rw [← hlog, ← h.devices] at hdue
  unfold Watch.attend
  split
  · next hnone =>
    rw [hnone, Option.map_none] at hdue
    cases hidle : w.announcedIdle with
    | true => exact ⟨h.lawful, h.devices, hdue, hfailures⟩
    | false =>
      have hfollows : Follows w.log (.idle w.devices) := .free hdue (by simp)
      exact ⟨⟨hfollows, h.lawful⟩, h.devices, rfl, hfailures⟩
  · next device hsome =>
    rw [hsome, Option.map_some] at hdue
    exact ⟨⟨.of_due hdue, h.lawful⟩, h.devices, rfl, hfailures⟩

theorem backoff_succ (n : Nat) : backoff (n + 1) = 2 * min (n + 1) 8 := by
  unfold backoff
  omega

/-- The pause, once the counter is that of the log. -/
theorem Keeps.pauses {w : Watch} {ok : Bool} {older : List Event}
    (hlog : w.log = .ended ok :: older) (hlawful : Lawful w.log)
    (hdevices : w.devices = standing w.log)
    (hfailures : w.consecutiveFailures = failing w.log) : Keeps w.pause := by
  have hbackoff : backoff w.consecutiveFailures = pauseAfter ok w.log := by
    rw [hfailures, hlog]
    cases ok with
    | true => rfl
    | false => exact backoff_succ _
  have hdue : due w.log = some (.sleep (backoff w.consecutiveFailures)) := by
    rw [hbackoff, hlog]
    rfl
  exact ⟨⟨.of_due hdue, hlawful⟩, hdevices, rfl, hfailures⟩

theorem Keeps.finishes {w : Watch} {serial : Text} (h : Keeps w)
    (hphase : w.phase = .running serial) (once ok shutdown : Bool) :
    Keeps (w.finish once ok shutdown) := by
  have hfits := h.fits
  rw [hphase] at hfits
  obtain ⟨hdue, hfailures⟩ := hfits
  have hlawful : Lawful (.ended ok :: w.log) := ⟨.free hdue (by simp), h.lawful⟩
  have hexits : ∀ serial, due (.ended ok :: w.log) ≠ some (.session serial) := by simp [due]
  unfold Watch.finish
  dsimp only
  split
  · exact ⟨hlawful, h.devices, hexits⟩
  · cases ok with
    | true => exact .pauses rfl hlawful h.devices rfl
    | false =>
      cases hsum : Checked.add 32 w.consecutiveFailures 1 with
      | none => exact ⟨hlawful, h.devices, hexits⟩
      | some n =>
        obtain ⟨-, rfl⟩ := Checked.add_eq_some.1 hsum
        refine .pauses rfl hlawful h.devices ?_
        rw [hfailures]
        rfl

theorem Keeps.step {once : Bool} {w w' : Watch} {a : Action} (h : Keeps w)
    (hs : (watching once).step w a = some w') : Keeps w' := by
  cases a with
  | poll a =>
    simp only [watching, Watch.step] at hs
    split at hs
    · next hphase =>
      cases hs
      exact h.polls hphase a
    · cases hs
  | attend =>
    simp only [watching, Watch.step] at hs
    split at hs
    · next hphase =>
      cases hs
      exact h.attends hphase
    · cases hs
  | finish ok shutdown =>
    simp only [watching, Watch.step] at hs
    split at hs
    · next hphase =>
      cases hs
      exact h.finishes hphase once ok shutdown
    · cases hs

theorem keeps_run {once : Bool} {w : Watch} {actions : List Action}
    (hrun : (watching once).run actions = some w) : Keeps w := by
  refine (watching once).run_invariant ?_ (fun _ _ _ h hs => h.step hs) hrun
  exact ⟨trivial, rfl, rfl, rfl⟩

/-! ## What follows from the log -/

theorem Lawful.next {older newer : List Event} {e : Event} (h : Lawful (newer ++ older))
    (hdue : due older = some e) : newer = [] ∨ ∃ newer', newer = newer' ++ [e] := by
  rcases List.eq_nil_or_concat newer with hnil | ⟨newer', x, hnewer⟩
  · exact .inl hnil
  · refine .inr ⟨newer', ?_⟩
    rw [List.concat_eq_append] at hnewer
    have hlog : newer ++ older = newer' ++ x :: older := by
      rw [hnewer]
      simp
    rw [hnewer, (h.follows hlog).paid e hdue]

theorem due_session {log : List Event} {serial : Text} (h : due log = some (.session serial)) :
    ∃ device, (standing log).find? Device.isReady = some device ∧ device.serial = serial := by
  unfold due at h
  split at h
  · obtain ⟨device, hfind, hserial⟩ := Option.map_eq_some_iff.1 h
    exact ⟨device, hfind, by cases hserial; rfl⟩
  · obtain ⟨device, hfind, hserial⟩ := Option.map_eq_some_iff.1 h
    exact ⟨device, hfind, by cases hserial; rfl⟩
  · cases h
  · cases h

/-- Nothing stands after a loss until a list comes. -/
theorem standing_lost {newer older : List Event} {e : TrackerError}
    (h : ∀ devices, .update devices ∉ newer) : standing (newer ++ .lost e :: older) = [] := by
  induction newer with
  | nil => rfl
  | cons x newer ih =>
    have hrest := ih fun devices hmem => h devices (List.mem_cons_of_mem _ hmem)
    cases x with
    | update devices => exact absurd List.mem_cons_self (h devices)
    | lost e' => rfl
    | timeout | connect _ | idle _ | session _ | ended _ | sleep _ => exact hrest

/-- The events of a failing streak: no list, and no clean session. -/
def Event.Fails : Event → Prop
  | .update _ | .ended true => False
  | _ => True

theorem failing_le {newer older : List Event} (h : ∀ e ∈ newer, e.Fails) :
    failing older ≤ failing (newer ++ older) := by
  induction newer with
  | nil => exact Nat.le_refl _
  | cons x newer ih =>
    have hx := h x List.mem_cons_self
    have hrest := ih fun e hmem => h e (List.mem_cons_of_mem _ hmem)
    cases x with
    | update devices => cases hx
    | ended ok =>
      cases ok with
      | true => cases hx
      | false => exact Nat.le_succ_of_le hrest
    | timeout | lost _ | connect _ | idle _ | session _ | sleep _ => exact hrest

theorem pauseAfter_range (ok : Bool) (older : List Event) :
    2 ≤ pauseAfter ok (.ended ok :: older) ∧ pauseAfter ok (.ended ok :: older) ≤ 16 := by
  cases ok with
  | true =>
    simp only [pauseAfter, if_true]
    omega
  | false =>
    simp only [pauseAfter, failing, Bool.false_eq_true, if_false]
    omega

/-- Why the loop is left: its last action, and what the log ends with. -/
inductive Exits (once : Bool) (log : List Event) : Exit → Action → Prop
  | told {a : Poll} (hshutdown : a.shutdown = true) : Exits once log .shutDown (.poll a)
  | failed {a : Poll} (hset : a.setTimeout = false) : Exits once log .failed (.poll a)
  | behind {ok shutdown : Bool} {older : List Event} (hlog : log = .ended ok :: older)
      (htold : once = true ∨ shutdown = true) : Exits once log .shutDown (.finish ok shutdown)
  | overflow {older : List Event} (hlog : log = .ended false :: older)
      (hfailing : 2 ^ 32 ≤ failing log) : Exits once log .overflow (.finish false false)

/-- When the loop starts sessions, how long it pauses behind them, and why it is left: what every
state it reaches has behind it, and what the next action makes of that state. -/
structure Watches (once : Bool) (actions : List Action) (w : Watch) : Prop where
  /-- a poll that does not lose the tracker goes on to the list that stands then -/
  polls : w.phase = .polling → ∀ a : Poll, a.shutdown = false → a.setTimeout = true →
    (∀ e, a.update = .error e → isTimeout e = true) →
    ∃ w' poll, (watching once).step w (.poll a) = some w' ∧ w'.phase = .attending ∧
      w'.log = poll :: w.log ∧ poll.Stands ∧
      ∀ devices, a.update = .ok devices → poll = .update devices
  /-- and starts a session for its first ready device, if there is one -/
  attends : w.phase = .attending → ∀ device,
    (standing w.log).find? Device.isReady = some device →
    ∃ w', (watching once).step w .attend = some w' ∧ w'.phase = .running device.serial ∧
      w'.log = .session device.serial :: w.log
  /-- and polls again, if there is none, or behind a lost tracker -/
  idles : w.phase = .attending → (standing w.log).find? Device.isReady = none →
    ∃ w', (watching once).step w .attend = some w' ∧ w'.phase = .polling
  loses : w.phase = .polling → ∀ a : Poll, a.shutdown = false → a.setTimeout = true →
    ∀ e, a.update = .error e → isTimeout e = false →
    ∃ w', (watching once).step w (.poll a) = some w' ∧ w'.phase = .polling ∧
      w'.log = .connect a.connects :: .sleep 2 :: .lost e :: w.log
  /-- a session that ends leads back to polling, unless it was the only one or shutdown is asked for
  or the counter overflows -/
  finishes : ∀ serial, w.phase = .running serial → ∀ ok, once = false →
    (ok = false → failing w.log + 1 < 2 ^ 32) →
    ∃ w', (watching once).step w (.finish ok false) = some w' ∧ w'.phase = .polling ∧
      w'.log = .sleep (pauseAfter ok (.ended ok :: w.log)) :: .ended ok :: w.log
  exits : ∀ how, w.phase = .exited how →
    ∃ before a, actions = before ++ [a] ∧ Exits once w.log how a
  /-- a list that stands and has a ready device makes a session for the first one -/
  starts : ∀ newer poll older device, w.log = newer ++ poll :: older → poll.Stands →
    (standing (poll :: older)).find? Device.isReady = some device →
      newer = [] ∧ w.phase = .attending ∨ ∃ newer', newer = newer' ++ [.session device.serial]
  only : ∀ newer serial older, w.log = newer ++ .session serial :: older →
    ∃ device, (standing older).find? Device.isReady = some device ∧ device.serial = serial
  quiet : ∀ newer e older, w.log = newer ++ .lost e :: older →
    (∀ devices, .update devices ∉ newer) → ∀ serial, .session serial ∉ newer
  /-- every session is followed by its pause, unless the loop ends with it -/
  pauses : ∀ newer ok older, w.log = newer ++ .ended ok :: older →
    (newer = [] ∧ ∃ how, w.phase = .exited how) ∨
      ∃ newer', newer = newer' ++ [.sleep (pauseAfter ok (.ended ok :: older))]
  range : ∀ newer seconds ok older, w.log = newer ++ .sleep seconds :: .ended ok :: older →
    2 ≤ seconds ∧ seconds ≤ 16
  grows : ∀ newer later between sooner older,
    w.log = newer ++ .sleep later :: .ended false ::
      (between ++ .sleep sooner :: .ended false :: older) →
    (∀ e ∈ between, e.Fails) → sooner ≤ later

/-- The pause behind a session in the log. -/
theorem Lawful.pause {log newer older : List Event} {seconds : Nat} {ok : Bool} (h : Lawful log)
    (hlog : log = newer ++ .sleep seconds :: .ended ok :: older) :
    seconds = pauseAfter ok (.ended ok :: older) := by
  have heq := (h.follows hlog).paid _ rfl
  cases heq
  rfl

/-- No list is left to start a session from. -/
theorem Lawful.quiet {log newer older : List Event} {e : TrackerError} (h : Lawful log)
    (hlog : log = newer ++ .lost e :: older) (hnone : ∀ devices, .update devices ∉ newer)
    (serial : Text) : .session serial ∉ newer := by
  intro hmem
  obtain ⟨newer₁, newer₂, hsplit⟩ := List.append_of_mem hmem
  have hlog' : log = newer₁ ++ .session serial :: (newer₂ ++ .lost e :: older) := by
    rw [hlog, hsplit]
    simp
  obtain ⟨device, hfind, -⟩ := due_session ((h.follows hlog').owed serial rfl)
  rw [standing_lost, List.find?_nil] at hfind
  · cases hfind
  · intro devices hupdate
    apply hnone devices
    rw [hsplit]
    exact List.mem_append_right _ (List.mem_cons_of_mem _ hupdate)

theorem Lawful.grows {log newer between older : List Event} {sooner later : Nat} (h : Lawful log)
    (hlog : log = newer ++ .sleep later :: .ended false ::
      (between ++ .sleep sooner :: .ended false :: older))
    (hfails : ∀ e ∈ between, e.Fails) : sooner ≤ later := by
  have hlog' : log = (newer ++ .sleep later :: .ended false :: between) ++
      .sleep sooner :: .ended false :: older := by
    rw [hlog]
    simp
  have hle : failing (.sleep sooner :: .ended false :: older) ≤
      failing (between ++ .sleep sooner :: .ended false :: older) := failing_le hfails
  have hlater := h.pause hlog
  have hsooner := h.pause hlog'
  simp only [pauseAfter, failing, Bool.false_eq_true, if_false] at hle hlater hsooner
  omega

theorem Keeps.attending_of_due {w : Watch} (h : Keeps w) {serial : Text}
    (hdue : due w.log = some (.session serial)) : w.phase = .attending := by
  have hfits := h.fits
  cases hphase : w.phase with
  | attending => rfl
  | polling | running =>
    rw [hphase] at hfits
    rw [hfits.1] at hdue
    cases hdue
  | exited how =>
    rw [hphase] at hfits
    exact absurd hdue (hfits serial)

theorem Keeps.exited_of_ended {w : Watch} (h : Keeps w) {ok : Bool} {older : List Event}
    (hlog : w.log = .ended ok :: older) : ∃ how, w.phase = .exited how := by
  have hfits := h.fits
  rw [hlog] at hfits
  cases hphase : w.phase with
  | exited how => exact ⟨how, rfl⟩
  | attending =>
    rw [hphase] at hfits
    obtain ⟨⟨poll, older', heq, hstands⟩, -⟩ := hfits
    cases heq
    cases hstands
  | polling | running =>
    rw [hphase] at hfits
    cases hfits.1

/-! ## What the next action does -/

section
variable {w : Watch} {a : Poll}

theorem poll_stands (hshutdown : a.shutdown = false) (hset : a.setTimeout = true)
    (htimeout : ∀ e, a.update = .error e → isTimeout e = true) :
    ∃ poll, (w.poll a).phase = .attending ∧ (w.poll a).log = poll :: w.log ∧ poll.Stands ∧
      ∀ devices, a.update = .ok devices → poll = .update devices := by
  unfold Watch.poll
  rw [hshutdown, hset]
  cases hupdate : a.update with
  | ok devices =>
    refine ⟨.update devices, rfl, rfl, trivial, ?_⟩
    intro devices' h
    cases h
    rfl
  | error e =>
    refine ⟨.timeout, ?_⟩
    simp [htimeout e hupdate, Event.Stands]

theorem poll_loses {e : TrackerError} (hshutdown : a.shutdown = false)
    (hset : a.setTimeout = true) (hupdate : a.update = .error e) (hlost : isTimeout e = false) :
    (w.poll a).phase = w.phase ∧
      (w.poll a).log = .connect a.connects :: .sleep 2 :: .lost e :: w.log := by
  unfold Watch.poll
  rw [hshutdown, hset, hupdate]
  simp [hlost]

theorem attend_ready {device : Device} (h : w.devices.find? Device.isReady = some device) :
    w.attend.phase = .running device.serial ∧ w.attend.log = .session device.serial :: w.log := by
  unfold Watch.attend
  rw [h]
  exact ⟨rfl, rfl⟩

theorem attend_idle (h : w.devices.find? Device.isReady = none) : w.attend.phase = .polling := by
  unfold Watch.attend
  rw [h]

/-- The pause, for the counter of the log. -/
theorem finish_pauses {ok : Bool} (hfailures : w.consecutiveFailures = failing w.log)
    (hroom : ok = false → failing w.log + 1 < 2 ^ 32) :
    (w.finish false ok false).phase = .polling ∧ (w.finish false ok false).log =
      .sleep (pauseAfter ok (.ended ok :: w.log)) :: .ended ok :: w.log := by
  unfold Watch.finish
  cases ok with
  | true => exact ⟨rfl, rfl⟩
  | false =>
    have hsum : Checked.add 32 w.consecutiveFailures 1 = some (failing w.log + 1) := by
      rw [hfailures]
      exact Checked.add_eq_some.2 ⟨hroom rfl, rfl⟩
    simp only [Bool.or_false, Bool.false_eq_true, if_false, hsum]
    refine ⟨rfl, ?_⟩
    rw [Watch.pause, backoff_succ]
    rfl

end

theorem exits_poll {once : Bool} {w : Watch} {a : Poll} {how : Exit} (hpolling : w.phase = .polling)
    (h : (w.poll a).phase = .exited how) : Exits once (w.poll a).log how (.poll a) := by
  unfold Watch.poll at h
  split at h
  · next hshutdown =>
    cases h
    exact .told hshutdown
  · split at h
    · next hset =>
      cases h
      exact .failed (by simpa using hset)
    · split at h
      · cases h
      · split at h
        · cases h
        · dsimp only at h
          rw [hpolling] at h
          cases h

theorem exits_finish {once ok shutdown : Bool} {w : Watch} {how : Exit}
    (hfailures : w.consecutiveFailures = failing w.log)
    (h : (w.finish once ok shutdown).phase = .exited how) :
    Exits once (w.finish once ok shutdown).log how (.finish ok shutdown) := by
  unfold Watch.finish at h ⊢
  dsimp only at h ⊢
  split at h
  · next htold =>
    cases h
    rw [if_pos htold]
    exact .behind rfl (by simpa using htold)
  · next hgoes =>
    rw [if_neg hgoes]
    cases ok with
    | true => cases h
    | false =>
      simp only [Bool.false_eq_true, if_false] at h ⊢
      split at h
      · next hsum =>
        cases h
        simp only [Bool.or_eq_true, not_or, Bool.not_eq_true] at hgoes
        rw [hgoes.2]
        refine .overflow rfl ?_
        rw [← Nat.not_lt]
        intro hroom
        rw [failing, ← hfailures] at hroom
        have hadd : Checked.add 32 w.consecutiveFailures 1 = some (w.consecutiveFailures + 1) :=
          Checked.add_eq_some.2 ⟨hroom, rfl⟩
        rw [hsum] at hadd
        cases hadd
      · cases h

/-- The reason a run is over is its last action. -/
theorem exits_run {once : Bool} {w : Watch} {actions : List Action} {how : Exit}
    (hrun : (watching once).run actions = some w) (hphase : w.phase = .exited how) :
    ∃ before a, actions = before ++ [a] ∧ Exits once w.log how a := by
  rcases List.eq_nil_or_concat actions with rfl | ⟨before, a, rfl⟩
  · cases hrun
    cases hphase
  rw [List.concat_eq_append] at hrun ⊢
  refine ⟨before, a, rfl, ?_⟩
  obtain ⟨w₀, hbefore, hlast⟩ := (watching once).runFrom_append.1 hrun
  obtain ⟨w₁, hs, hnil⟩ := (watching once).runFrom_cons.1 hlast
  cases hnil
  have hkeeps := keeps_run hbefore
  cases a with
  | poll a =>
    simp only [watching, Watch.step] at hs
    split at hs
    · next hpolling =>
      cases hs
      exact exits_poll hpolling hphase
    · cases hs
  | attend =>
    simp only [watching, Watch.step] at hs
    split at hs
    · cases hs
      unfold Watch.attend at hphase
      split at hphase <;> cases hphase
    · cases hs
  | finish ok shutdown =>
    simp only [watching, Watch.step] at hs
    split at hs
    · next serial hrunning =>
      cases hs
      have hfits := hkeeps.fits
      rw [hrunning] at hfits
      exact exits_finish hfits.2 hphase
    · cases hs

/-- **The loop in watch mode**, whatever the tracker answers and however the sessions end. -/
theorem watch_lawful (once : Bool) (actions : List Action) (w : Watch)
    (hrun : (watching once).run actions = some w) : Watches once actions w := by
  have h := keeps_run hrun
  constructor
  · intro hphase a hshutdown hset htimeout
    obtain ⟨poll, hattending, hlog⟩ := poll_stands (w := w) hshutdown hset htimeout
    exact ⟨w.poll a, poll, by simp [watching, Watch.step, hphase], hattending, hlog⟩
  · intro hphase device hfind
    rw [← h.devices] at hfind
    exact ⟨w.attend, by simp [watching, Watch.step, hphase], attend_ready hfind⟩
  · intro hphase hfind
    rw [← h.devices] at hfind
    exact ⟨w.attend, by simp [watching, Watch.step, hphase], attend_idle hfind⟩
  · intro hphase a hshutdown hset e hupdate hlost
    obtain ⟨hpolling, hlog⟩ := poll_loses (w := w) hshutdown hset hupdate hlost
    exact ⟨w.poll a, by simp [watching, Watch.step, hphase], hpolling.trans hphase, hlog⟩
  · intro serial hphase ok honce hroom
    have hfits := h.fits
    rw [hphase] at hfits
    subst honce
    exact ⟨w.finish false ok false, by simp [watching, Watch.step, hphase],
      finish_pauses hfits.2 hroom⟩
  · intro how hphase
    exact exits_run hrun hphase
  · intro newer poll older device hlog hstands hfind
    have hdue := due_of_stands older hstands
    rw [hfind, Option.map_some] at hdue
    rcases (hlog ▸ h.lawful).next hdue with hnil | hnext
    · subst hnil
      exact .inl ⟨rfl, h.attending_of_due (by rw [hlog]; exact hdue)⟩
    · exact .inr hnext
  · intro newer serial older hlog
    exact due_session ((h.lawful.follows hlog).owed serial rfl)
  · intro newer e older hlog hnone serial
    exact h.lawful.quiet hlog hnone serial
  · intro newer ok older hlog
    rcases (hlog ▸ h.lawful).next rfl with hnil | hnext
    · subst hnil
      exact .inl ⟨rfl, h.exited_of_ended hlog⟩
    · exact .inr hnext
  · intro newer seconds ok older hlog
    rw [h.lawful.pause hlog]
    exact pauseAfter_range ok older
  · intro newer later between sooner older hlog hfails
    exact h.lawful.grows hlog hfails

/-- A tablet that is refused twice, is lost with the tracker, and is back. -/
theorem watch_lawful_refused :
    let tablet : Device := ⟨['8', '1', '2', 'f'], ['d', 'e', 'v', 'i', 'c', 'e']⟩
    let poll (update : Except TrackerError (List Device)) : Action :=
      .poll ⟨false, true, update, true⟩
    let silence : TrackerError := ⟨"reading ADB length", some .timeout⟩
    let closed : TrackerError := ⟨"reading ADB length", some .eof⟩
    let actions : List Action :=
      [poll (.ok [tablet]), .attend, .finish false false, poll (.error silence), .attend,
        .finish false false, poll (.error closed), poll (.error silence), .attend,
        poll (.ok [tablet]), .attend, .finish true false]
    ∃ w, (watching false).run actions = some w ∧ w.log.head? = some (.sleep 2) ∧
      Watches false actions w := by
  intro tablet poll silence closed actions
  exact ⟨_, rfl, rfl, watch_lawful false actions _ rfl⟩

end PadPlay.Daemon.Watching
