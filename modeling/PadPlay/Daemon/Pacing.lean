import PadPlay.Lib.Checked
import PadPlay.Lib.Machine
import Mathlib.Tactic.Ring

/-!
# Pacing (the timing of the loop in `session::run`)

Instants and durations in nanoseconds. Each iteration moves `next_tick` on by one frame duration and
sleeps until then, is late by at most another one and goes on at once, or gives the ticks it missed
up. No iteration begins before its tick (`Turned.due`), and no tick is set more than one frame
duration before the iteration that sets it began (`Turned.behind`): together they bound the rate
(`pacing_rate`). Video is stamped with the number of the tick, so what a resync gives up stays
between its timestamps and the clock (`resyncs_behind`); without one the two stay within two frames
(`pts_in_tune`), with one by any amount (`pts_adrift`).
-/

namespace PadPlay.Daemon.Pacing

open PadPlay.Lib

def frameDurationNs (fps : Nat) : Option Nat := Checked.div 1000000000 fps

/-- What takes time in an iteration: `capture_and_push`, the sends, and, once the clock has been
read, whatever makes the sleep or the way back to the head of the loop longer than it had to be. -/
structure Turn where
  capture : Nat
  sends : Nat
  late : Nat
  deriving DecidableEq, Repr

/-- The variables of the loop when an iteration begins, and the instant it begins at. The resyncs
are counted beside. -/
structure Ticker where
  index : Nat
  nextTick : Nat
  begun : Nat
  resyncs : Nat
  deriving DecidableEq, Repr

section
variable (frameDuration : Nat)

/-- `index * frame_duration_ns`. -/
def Ticker.pts (p : Ticker) : Option Nat := Checked.mul 64 p.index frameDuration

/-- `Instant::now()` behind the sends. -/
def Ticker.now (p : Ticker) (t : Turn) : Nat := p.begun + t.capture + t.sends

/-- One iteration that is not left early. -/
def Ticker.turn (p : Ticker) (t : Turn) : Option Ticker :=
  match p.pts frameDuration, Checked.add 64 p.index 1 with
  | some _, some index =>
    let nextTick := p.nextTick + frameDuration
    let now := p.now t
    if now < nextTick then
      some { p with index, nextTick, begun := now + (nextTick - now) + t.late }
    else if now > nextTick + frameDuration then
      some { index, nextTick := now, begun := now + t.late, resyncs := p.resyncs + 1 }
    else some { p with index, nextTick, begun := now + t.late }
  | _, _ => none

/-- The loop, entered some time after `session_start`. -/
def pacing (sessionStart setup : Nat) : Machine Ticker Turn where
  init := ⟨0, sessionStart, sessionStart + setup, 0⟩
  step := Ticker.turn frameDuration

/-! ## One iteration -/

/-- The iteration ends no more than a frame duration past its deadline. -/
def OnTime (p : Ticker) (t : Turn) : Prop :=
  p.now t ≤ p.nextTick + frameDuration + frameDuration

instance (p : Ticker) (t : Turn) : Decidable (OnTime frameDuration p t) :=
  inferInstanceAs (Decidable (_ ≤ _))

/-- What one iteration does to the tick and the clock. -/
structure Turned (p : Ticker) (t : Turn) (q : Ticker) : Prop where
  index : q.index = p.index + 1
  due : q.nextTick ≤ q.begun
  behind : p.begun ≤ q.nextTick + frameDuration
  onTime : OnTime frameDuration p t →
    q.nextTick = p.nextTick + frameDuration ∧ q.resyncs = p.resyncs
  resync : ¬OnTime frameDuration p t →
    p.nextTick + frameDuration + frameDuration ≤ q.nextTick ∧ q.resyncs = p.resyncs + 1

end

section
variable {frameDuration : Nat} {p q : Ticker} {t : Turn}

theorem turn_spec (h : p.turn frameDuration t = some q) : Turned frameDuration p t q := by
  unfold Ticker.turn at h
  split at h
  · next pts index _ hindex =>
    obtain ⟨-, rfl⟩ := Checked.add_eq_some.1 hindex
    have hbegun : p.begun ≤ p.now t := by
      unfold Ticker.now
      omega
    dsimp only at h
    split at h
    · next hearly =>
      cases h
      refine ⟨rfl, ?_, ?_, fun _ => ⟨rfl, rfl⟩, ?_⟩
      · dsimp only
        omega
      · dsimp only
        omega
      · intro hlate
        unfold OnTime at hlate
        omega
    · next hdue =>
      split at h
      · next hresync =>
        cases h
        refine ⟨rfl, Nat.le_add_right _ _, Nat.le_add_right_of_le hbegun, ?_, ?_⟩
        · intro honTime
          exact absurd honTime (Nat.not_le.2 hresync)
        · intro _
          exact ⟨Nat.le_of_lt hresync, rfl⟩
      · next hslightly =>
        cases h
        refine ⟨rfl, ?_, ?_, fun _ => ⟨rfl, rfl⟩, ?_⟩
        · dsimp only
          omega
        · dsimp only
          omega
        · intro hlate
          unfold OnTime at hlate
          omega
  · cases h

/-- The tick moves on by at least a frame duration. -/
theorem Turned.nextTick (h : Turned frameDuration p t q) :
    p.nextTick + frameDuration ≤ q.nextTick := by
  by_cases honTime : OnTime frameDuration p t
  · exact Nat.le_of_eq (h.onTime honTime).1.symm
  · have := (h.resync honTime).1
    omega

end

/-! ## The rate -/

section
variable {frameDuration sessionStart setup : Nat} {p q : Ticker} {turns : List Turn}

theorem due_runFrom (hdue : p.nextTick ≤ p.begun)
    (hrun : (pacing frameDuration sessionStart setup).runFrom p turns = some q) :
    q.nextTick ≤ q.begun := by
  induction turns generalizing p with
  | nil =>
    cases hrun
    exact hdue
  | cons t turns ih =>
    obtain ⟨r, hr, hrun⟩ := ((pacing frameDuration sessionStart setup).runFrom_cons).1 hrun
    exact ih (turn_spec hr).due hrun

theorem due_run (hrun : (pacing frameDuration sessionStart setup).run turns = some p) :
    p.nextTick ≤ p.begun :=
  due_runFrom (Nat.le_add_right _ _) hrun

theorem nextTick_runFrom
    (hrun : (pacing frameDuration sessionStart setup).runFrom p turns = some q) :
    p.nextTick + turns.length * frameDuration ≤ q.nextTick := by
  induction turns generalizing p with
  | nil =>
    cases hrun
    simp
  | cons t turns ih =>
    obtain ⟨r, hr, hrun⟩ := ((pacing frameDuration sessionStart setup).runFrom_cons).1 hrun
    have hfirst := (turn_spec hr).nextTick
    have hrest := ih hrun
    rw [List.length_cons, Nat.succ_mul]
    omega

/-- Over a stretch of iterations that are all on time, the tick keeps time exactly. -/
theorem nextTick_onTime
    (hrun : (pacing frameDuration sessionStart setup).runFrom p turns = some q)
    (honTime : (pacing frameDuration sessionStart setup).AlongFrom (OnTime frameDuration) p turns) :
    q.nextTick = p.nextTick + turns.length * frameDuration := by
  induction turns generalizing p with
  | nil =>
    cases hrun
    simp
  | cons t turns ih =>
    obtain ⟨r, hr, hrun⟩ := ((pacing frameDuration sessionStart setup).runFrom_cons).1 hrun
    have hfirst := ((turn_spec hr).onTime honTime.1).1
    rw [ih hrun (honTime.2 r hr), hfirst, List.length_cons, Nat.succ_mul]
    omega

/-- **The rate**: of any `k` iterations in a row, the last begins no less than `k - 2` frame
durations after the one before the first, whatever stalls there were; and the tick keeps time
exactly while every iteration is on time. -/
theorem pacing_rate (frameDuration sessionStart setup : Nat) (turns : List Turn) (p q : Ticker)
    (hq : (pacing frameDuration sessionStart setup).runFrom p turns = some q) :
    ((turns.length : Int) - 2) * frameDuration ≤ (q.begun : Int) - p.begun ∧
      ((pacing frameDuration sessionStart setup).AlongFrom (OnTime frameDuration) p turns →
        q.nextTick = p.nextTick + turns.length * frameDuration) := by
  refine ⟨?_, nextTick_onTime hq⟩
  cases turns with
  | nil =>
    cases hq
    have hnonneg : (0 : Int) ≤ frameDuration := Int.natCast_nonneg _
    rw [List.length_nil]
    omega
  | cons t turns =>
    obtain ⟨r, hr, hq⟩ := ((pacing frameDuration sessionStart setup).runFrom_cons).1 hq
    have hturned := turn_spec hr
    have hbehind := hturned.behind
    have hticks := nextTick_runFrom hq
    have hdue := due_runFrom hturned.due hq
    have hrate : p.begun + turns.length * frameDuration ≤ q.begun + frameDuration := by omega
    have hcast : ((p.begun + turns.length * frameDuration : Nat) : Int) ≤
        ((q.begun + frameDuration : Nat) : Int) := Int.ofNat_le.2 hrate
    push_cast at hcast
    have hexpand : (((t :: turns).length : Int) - 2) * frameDuration =
        turns.length * frameDuration - frameDuration := by
      rw [List.length_cons]
      push_cast
      ring
    rw [hexpand]
    omega

/-- Frames of ten nanoseconds, entered late: a resync, a sleep that is too long, a stall and two
iterations at once behind it. -/
theorem pacing_rate_stalled :
    let before : List Turn := [⟨3, 1, 0⟩, ⟨2, 2, 25⟩]
    let turns : List Turn := [⟨100, 0, 0⟩, ⟨12, 0, 0⟩, ⟨9, 2, 1⟩]
    ∃ p q, (pacing 10 1000 50).run before = some p ∧ (pacing 10 1000 50).runFrom p turns = some q ∧
      (((turns.length : Int) - 2) * (10 : Nat) ≤ (q.begun : Int) - p.begun ∧
        ((pacing 10 1000 50).AlongFrom (OnTime 10) p turns →
          q.nextTick = p.nextTick + turns.length * 10)) := by
  intro before turns
  exact ⟨_, _, rfl, rfl, pacing_rate 10 1000 50 turns _ _ rfl⟩

/-! ## Timestamps and the clock -/

/-- The time since `session_start`, which is what the audio packets are stamped with. -/
def Ticker.elapsed (sessionStart : Nat) (p : Ticker) : Nat := p.begun - sessionStart

/-- The timestamp of the frame differs from the time elapsed by at most `bound` frame durations. -/
def Within (frameDuration sessionStart bound : Nat) (p : Ticker) (_ : Turn) : Prop :=
  ∀ pts, p.pts frameDuration = some pts →
    pts ≤ p.elapsed sessionStart + bound * frameDuration ∧
      p.elapsed sessionStart ≤ pts + bound * frameDuration

/-- What the resyncs gave up is never made good: each costs more than one frame duration. -/
theorem resyncs_behind (hrun : (pacing frameDuration sessionStart setup).run turns = some p) :
    (p.index + p.resyncs) * frameDuration ≤ p.elapsed sessionStart := by
  have htick : sessionStart + (p.index + p.resyncs) * frameDuration ≤ p.nextTick := by
    refine (pacing frameDuration sessionStart setup).run_invariant
      (I := fun p => sessionStart + (p.index + p.resyncs) * frameDuration ≤ p.nextTick)
      ?_ ?_ hrun
    · simp [pacing]
    · intro p t q h hs
      have hturned := turn_spec hs
      by_cases honTime : OnTime frameDuration p t
      · obtain ⟨htick, hresyncs⟩ := hturned.onTime honTime
        have hsum : (q.index + q.resyncs) * frameDuration =
            (p.index + p.resyncs) * frameDuration + frameDuration := by
          rw [hturned.index, hresyncs]
          ring
        omega
      · obtain ⟨htick, hresyncs⟩ := hturned.resync honTime
        have hsum : (q.index + q.resyncs) * frameDuration =
            (p.index + p.resyncs) * frameDuration + frameDuration + frameDuration := by
          rw [hturned.index, hresyncs]
          ring
        omega
  have hdue := due_run hrun
  unfold Ticker.elapsed
  omega

/-- The tick is where the number of the iteration puts it. -/
structure InTune (frameDuration sessionStart : Nat) (p : Ticker) : Prop where
  tick : p.nextTick = sessionStart + p.index * frameDuration
  due : p.nextTick ≤ p.begun

theorem InTune.turn (h : InTune frameDuration sessionStart p) {t : Turn}
    (honTime : OnTime frameDuration p t) (hs : p.turn frameDuration t = some q) :
    InTune frameDuration sessionStart q := by
  have hturned := turn_spec hs
  refine ⟨?_, hturned.due⟩
  rw [(hturned.onTime honTime).1, h.tick, hturned.index, Nat.succ_mul, Nat.add_assoc]

theorem InTune.within (h : InTune frameDuration sessionStart p) {t : Turn}
    (honTime : OnTime frameDuration p t) : Within frameDuration sessionStart 2 p t := by
  intro pts hpts
  obtain ⟨-, rfl⟩ := Checked.mul_eq_some.1 hpts
  have htick := h.tick
  have hdue := h.due
  unfold OnTime Ticker.now at honTime
  unfold Ticker.elapsed
  omega

/-- **Timestamps keep to the clock**, within two frame durations, in every run whose iterations all
end no more than one past their deadline. -/
theorem pts_in_tune (frameDuration sessionStart setup : Nat) (turns : List Turn)
    (honTime : (pacing frameDuration sessionStart setup).Along (OnTime frameDuration) turns) :
    (pacing frameDuration sessionStart setup).Along (Within frameDuration sessionStart 2)
      turns := by
  refine (pacing frameDuration sessionStart setup).alongFrom_imp
    (I := InTune frameDuration sessionStart) ?_ ?_ ?_ honTime
  · intro p t q h ht hs
    exact h.turn ht hs
  · intro p t h ht
    exact h.within ht
  · refine ⟨?_, Nat.le_add_right _ _⟩
    simp [pacing]

end

/-- An early iteration, one that sleeps too long, and one that is slightly late. -/
theorem pts_in_tune_late :
    (pacing 10 1000 3).Along (Within 10 1000 2)
      [⟨2, 1, 0⟩, ⟨4, 1, 7⟩, ⟨8, 3, 2⟩, ⟨1, 1, 0⟩] := by
  exact pts_in_tune 10 1000 3 _ (by decide)

/-- A capture that waits for an idle output makes up any number of frame durations. -/
theorem idle_adrift {frameDuration : Nat} (hpos : 0 < frameDuration)
    (hfits : frameDuration < 2 ^ 64) (bound : Nat) :
    ¬(pacing frameDuration 0 0).Along (Within frameDuration 0 bound)
      [⟨(bound + 3) * frameDuration, 0, 0⟩, ⟨0, 0, 0⟩] := by
  intro hidle
  have hexpand : (bound + 3) * frameDuration = bound * frameDuration + 3 * frameDuration := by ring
  generalize (bound + 3) * frameDuration = idle at hidle hexpand
  have hresync : (pacing frameDuration 0 0).step (pacing frameDuration 0 0).init ⟨idle, 0, 0⟩ =
      some ⟨1, idle, idle, 1⟩ := by
    have hlate : frameDuration + frameDuration < idle := by omega
    have hpast : ¬idle < frameDuration := by omega
    simp [pacing, Ticker.turn, Ticker.pts, Ticker.now, Checked.add, Checked.mul, Checked.fit,
      hlate, hpast]
  have hpts : Ticker.pts frameDuration ⟨1, idle, idle, 1⟩ = some frameDuration := by
    refine Checked.mul_eq_some.2 ⟨?_, Nat.one_mul _⟩
    rw [Nat.one_mul]
    exact hfits
  have hwithin := ((hidle.2 _ hresync).1 _ hpts).2
  unfold Ticker.elapsed at hwithin
  dsimp only at hwithin
  omega

/-- At 60 frames per second no number of frame durations is enough. -/
theorem pts_adrift :
    frameDurationNs 60 = some 16666666 ∧
      ¬∃ bound, ∀ setup turns,
        (pacing 16666666 0 setup).Along (Within 16666666 0 bound) turns := by
  refine ⟨rfl, ?_⟩
  rintro ⟨bound, h⟩
  exact idle_adrift (by decide) (by decide) bound (h 0 _)

end PadPlay.Daemon.Pacing
