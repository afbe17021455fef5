import PadPlay.Daemon.Pacing

/-!
# The cadence on evdi (`session::run`, `FrameSource::capture_and_push`)

On evdi an iteration does not wait for a new frame longer than `evdi_timeout`, half a frame duration
kept within 2 and 50 ms, so that the stream keeps its rate on an idle desktop. That leaves the other
half for everything else only while the lower bound of 2 ms is no more than half a frame:
`evdi_cadence_iff` says that iterations whose other work fits into that half never cost more than
one resync exactly up to 250 frames per second, and how many resyncs idle iterations that need this
half in full cost above.
-/

namespace PadPlay.Daemon.Pacing

open PadPlay.Lib

/-- `(frame_duration / 2).clamp(2 ms, 50 ms)`. -/
def evdiTimeout (frameDuration : Nat) : Nat := min (max (frameDuration / 2) 2000000) 50000000

/-- What takes time in an iteration on evdi. -/
structure EvdiTurn where
  /-- the time until `request_update` reported an update, if it did before its timeout -/
  update : Option Nat
  /-- the rest of `capture_and_push` -/
  push : Nat
  sends : Nat
  late : Nat
  deriving DecidableEq, Repr

/-- Whether there was an update or not, the buffer is pushed as it is. -/
def EvdiTurn.turn (frameDuration : Nat) (t : EvdiTurn) : Turn where
  capture := t.update.getD (evdiTimeout frameDuration) + t.push
  sends := t.sends
  late := t.late

/-- `request_update` keeps to its timeout, and the rest takes at most half a frame duration. -/
structure EvdiTurn.Fits (frameDuration : Nat) (t : EvdiTurn) : Prop where
  update : ∀ after, t.update = some after → after ≤ evdiTimeout frameDuration
  work : 2 * (t.push + t.sends + t.late) ≤ frameDuration

section
variable {frameDuration sessionStart setup : Nat} {p q : Ticker}

/-! ## Iterations that take no longer than a frame -/

/-- An iteration is late by what made it late, or by what it did; a resync makes up for the
latter. -/
theorem turn_begun {t : Turn} (h : p.turn frameDuration t = some q) :
    p.now t ≤ q.begun ∧
      (q.begun ≤ q.nextTick + t.late ∨ q.begun ≤ p.now t + t.late ∧ q.resyncs = p.resyncs) := by
  unfold Ticker.turn at h
  split at h
  · dsimp only at h
    split at h
    · next hearly =>
      cases h
      dsimp only
      exact ⟨by omega, .inl (by omega)⟩
    · split at h
      · cases h
        exact ⟨Nat.le_add_right _ _, .inl (Nat.le_refl _)⟩
      · cases h
        exact ⟨Nat.le_add_right _ _, .inr ⟨Nat.le_refl _, rfl⟩⟩
  · cases h

/-- An iteration that takes no longer than a frame. -/
def Brisk (frameDuration : Nat) (t : Turn) : Prop := t.capture + t.sends + t.late ≤ frameDuration

/-- There was no resync yet, or one, and no iteration since then has been late by more than a frame
duration. -/
def Settled (frameDuration : Nat) (p : Ticker) : Prop :=
  p.resyncs = 0 ∨ p.resyncs = 1 ∧ p.begun ≤ p.nextTick + frameDuration

theorem Settled.turn {t : Turn} (h : Settled frameDuration p) (ht : Brisk frameDuration t)
    (hs : p.turn frameDuration t = some q) : Settled frameDuration q := by
  have hturned := turn_spec hs
  obtain ⟨-, hbegun⟩ := turn_begun hs
  unfold Brisk at ht
  unfold Ticker.now at hbegun
  by_cases honTime : OnTime frameDuration p t
  · obtain ⟨htick, hresyncs⟩ := hturned.onTime honTime
    rcases h with hnone | ⟨hone, hlag⟩
    · exact .inl (hresyncs.trans hnone)
    · refine .inr ⟨hresyncs.trans hone, ?_⟩
      omega
  · obtain ⟨htick, hresyncs⟩ := hturned.resync honTime
    unfold OnTime Ticker.now at honTime
    rcases h with hnone | ⟨-, hlag⟩
    · refine .inr ⟨?_, ?_⟩ <;> omega
    · omega

theorem Settled.runFrom {turns : List Turn} (h : Settled frameDuration p)
    (hbrisk : ∀ t ∈ turns, Brisk frameDuration t)
    (hrun : (pacing frameDuration sessionStart setup).runFrom p turns = some q) :
    Settled frameDuration q := by
  induction turns generalizing p with
  | nil =>
    cases hrun
    exact h
  | cons t turns ih =>
    obtain ⟨r, hr, hrun⟩ := ((pacing frameDuration sessionStart setup).runFrom_cons).1 hrun
    rw [List.forall_mem_cons] at hbrisk
    exact ih (h.turn hbrisk.1 hr) hbrisk.2 hrun

/-! ## Iterations that take longer -/

/-- The lag, and for each resync what may have been the lag before it. -/
def Ticker.potential (frameDuration excess : Nat) (p : Ticker) : Nat :=
  p.resyncs * (frameDuration + excess) + (p.begun - p.nextTick)

/-- What an iteration takes longer than a frame makes for more lag, or for a resync. -/
theorem potential_turn {excess : Nat} {t : Turn}
    (hheavy : frameDuration + excess ≤ t.capture + t.sends) (hlate : t.late = 0)
    (hdue : p.nextTick ≤ p.begun) (hlag : p.begun ≤ p.nextTick + frameDuration)
    (hs : p.turn frameDuration t = some q) :
    q.begun ≤ q.nextTick + frameDuration ∧
      p.potential frameDuration excess + excess ≤ q.potential frameDuration excess := by
  have hturned := turn_spec hs
  obtain ⟨hnow, hbegun⟩ := turn_begun hs
  unfold Ticker.potential
  by_cases honTime : OnTime frameDuration p t
  · obtain ⟨htick, hresyncs⟩ := hturned.onTime honTime
    unfold OnTime Ticker.now at *
    rw [hresyncs]
    refine ⟨?_, ?_⟩ <;> omega
  · obtain ⟨-, hresyncs⟩ := hturned.resync honTime
    have hcost : q.resyncs * (frameDuration + excess) =
        p.resyncs * (frameDuration + excess) + (frameDuration + excess) := by
      rw [hresyncs, Nat.succ_mul]
    refine ⟨?_, ?_⟩ <;> omega

theorem turn_isSome {t : Turn} (hindex : p.index + 1 < 2 ^ 64)
    (hpts : p.index * frameDuration < 2 ^ 64) : ∃ q, p.turn frameDuration t = some q := by
  have hadd : Checked.add 64 p.index 1 = some (p.index + 1) := Checked.add_eq_some.2 ⟨hindex, rfl⟩
  have hmul : p.pts frameDuration = some (p.index * frameDuration) :=
    Checked.mul_eq_some.2 ⟨hpts, rfl⟩
  unfold Ticker.turn
  rw [hmul, hadd]
  dsimp only
  split
  · exact ⟨_, rfl⟩
  · split <;> exact ⟨_, rfl⟩

/-- Heavy iterations one after the other: what they take too long is made up of the lag and the
resyncs. -/
theorem exists_heavy {excess : Nat} {t : Turn}
    (hheavy : frameDuration + excess ≤ t.capture + t.sends) (hlate : t.late = 0) (n : Nat)
    (hindex : n < 2 ^ 64) (hpts : n * frameDuration < 2 ^ 64) :
    ∃ p, (pacing frameDuration 0 0).run (List.replicate n t) = some p ∧ p.index = n ∧
      p.nextTick ≤ p.begun ∧ p.begun ≤ p.nextTick + frameDuration ∧
      n * excess ≤ p.potential frameDuration excess := by
  induction n with
  | zero =>
    refine ⟨_, rfl, rfl, Nat.le_refl _, Nat.zero_le _, ?_⟩
    rw [Nat.zero_mul]
    exact Nat.zero_le _
  | succ n ih =>
    have hfewer : n * frameDuration < 2 ^ 64 := by
      rw [Nat.succ_mul] at hpts
      omega
    obtain ⟨p, hrun, rfl, hdue, hlag, hpotential⟩ := ih (by omega) hfewer
    obtain ⟨q, hs⟩ := turn_isSome (t := t) (by omega) hfewer
    obtain ⟨hlag', hmore⟩ := potential_turn hheavy hlate hdue hlag hs
    have hturned := turn_spec hs
    refine ⟨q, ?_, hturned.index, hturned.due, hlag', ?_⟩
    · rw [List.replicate_succ', Machine.run, Machine.runFrom_append]
      exact ⟨p, hrun, (pacing frameDuration 0 0).runFrom_cons.2 ⟨q, hs, rfl⟩⟩
    · rw [Nat.succ_mul]
      omega

end

/-! ## The threshold -/

theorem evdiTimeout_le {frameDuration : Nat} (h : 4000000 ≤ frameDuration) :
    evdiTimeout frameDuration ≤ frameDuration / 2 := by
  unfold evdiTimeout
  omega

/-- Iterations whose work beside the wait fits into half a frame duration never cost more than one
resync, the one that makes up for the set-up. -/
def KeepsCadence (frameDuration : Nat) : Prop :=
  ∀ (sessionStart setup : Nat) (turns : List EvdiTurn) (p : Ticker),
    (∀ t ∈ turns, t.Fits frameDuration) →
    (pacing frameDuration sessionStart setup).run (turns.map (·.turn frameDuration)) = some p →
    p.resyncs ≤ 1

theorem EvdiTurn.Fits.brisk {frameDuration : Nat} {t : EvdiTurn} (h : t.Fits frameDuration)
    (hlong : 4000000 ≤ frameDuration) : Brisk frameDuration (t.turn frameDuration) := by
  have htimeout := evdiTimeout_le hlong
  have hwork := h.work
  unfold Brisk EvdiTurn.turn
  cases hwait : t.update with
  | none =>
    dsimp only [Option.getD_none]
    omega
  | some after =>
    have hafter := h.update after hwait
    dsimp only [Option.getD_some]
    omega

theorem keepsCadence_of_long {frameDuration : Nat} (hlong : 4000000 ≤ frameDuration) :
    KeepsCadence frameDuration := by
  intro sessionStart setup turns p hfits hrun
  have hbrisk : ∀ t ∈ turns.map (·.turn frameDuration), Brisk frameDuration t := by
    intro t ht
    obtain ⟨e, he, rfl⟩ := List.mem_map.1 ht
    exact (hfits e he).brisk hlong
  have hstart : Settled frameDuration (pacing frameDuration sessionStart setup).init := .inl rfl
  rcases hstart.runFrom hbrisk hrun with hnone | ⟨hone, -⟩ <;> omega

/-- An iteration on an idle desktop that needs half a frame beside the wait. -/
def idle (frameDuration : Nat) : EvdiTurn := ⟨none, frameDuration / 2, 0, 0⟩

/-- What it takes longer than a frame. -/
def idleExcess (frameDuration : Nat) : Nat :=
  evdiTimeout frameDuration + frameDuration / 2 - frameDuration

theorem idle_fits (frameDuration : Nat) : (idle frameDuration).Fits frameDuration := by
  constructor
  · intro after hafter
    cases hafter
  · dsimp only [idle]
    omega

theorem idleExcess_pos {frameDuration : Nat} (hshort : frameDuration < 3999999) :
    0 < idleExcess frameDuration := by
  unfold idleExcess evdiTimeout
  omega

/-- **Idle iterations** with less than 4 ms to a frame: so many nanoseconds too long, so many
resyncs. -/
theorem idle_resyncs {frameDuration : Nat} (hshort : frameDuration < 3999999) (n : Nat)
    (hindex : n < 2 ^ 64) (hpts : n * frameDuration < 2 ^ 64) :
    ∃ p, (pacing frameDuration 0 0).run
        (List.replicate n ((idle frameDuration).turn frameDuration)) = some p ∧
      n * idleExcess frameDuration ≤
        p.resyncs * (frameDuration + idleExcess frameDuration) + frameDuration := by
  have hheavy : frameDuration + idleExcess frameDuration ≤
      ((idle frameDuration).turn frameDuration).capture +
        ((idle frameDuration).turn frameDuration).sends := by
    dsimp only [EvdiTurn.turn, idle, Option.getD_none]
    unfold idleExcess evdiTimeout
    omega
  obtain ⟨p, hrun, -, -, hlag, hpotential⟩ := exists_heavy hheavy rfl n hindex hpts
  refine ⟨p, hrun, ?_⟩
  unfold Ticker.potential at hpotential
  omega

theorem not_keepsCadence {frameDuration : Nat} (hshort : frameDuration < 3999999) :
    ¬KeepsCadence frameDuration := by
  intro hkeeps
  have hpts : 2 * (frameDuration + 1) * frameDuration < 2 ^ 64 :=
    Nat.lt_of_le_of_lt
      (Nat.mul_le_mul (by omega : 2 * (frameDuration + 1) ≤ 7999998) (Nat.le_of_lt hshort))
      (by decide)
  obtain ⟨p, hrun, hcost⟩ :=
    idle_resyncs hshort (2 * (frameDuration + 1)) (by omega) hpts
  have hone : p.resyncs ≤ 1 := by
    apply hkeeps 0 0 (List.replicate (2 * (frameDuration + 1)) (idle frameDuration)) p
    · intro t ht
      exact List.eq_of_mem_replicate ht ▸ idle_fits frameDuration
    · rwa [List.map_replicate]
  -- one resync and a frame's lag are less than the iterations take too long
  have hfew : p.resyncs * (frameDuration + idleExcess frameDuration) ≤
      1 * (frameDuration + idleExcess frameDuration) := Nat.mul_le_mul_right _ hone
  have hpos := idleExcess_pos hshort
  have hsplit : 2 * (frameDuration + 1) * idleExcess frameDuration =
      2 * frameDuration * idleExcess frameDuration + 2 * idleExcess frameDuration := by
    rw [Nat.mul_add, Nat.add_mul]
  have hlong : 2 * frameDuration ≤ 2 * frameDuration * idleExcess frameDuration :=
    Nat.le_mul_of_pos_right _ hpos
  omega

/-- **The cadence on evdi** is kept by iterations that leave the other half of a frame alone exactly
up to 250 frames per second. Above, idle iterations that need this half have a resync for each frame
duration that they have been too long, but for the last one. -/
theorem evdi_cadence_iff {fps frameDuration : Nat} (h : frameDurationNs fps = some frameDuration) :
    (KeepsCadence frameDuration ↔ fps ≤ 250) ∧
      (250 < fps → 0 < idleExcess frameDuration ∧
        ∀ n, n < 2 ^ 64 → n * frameDuration < 2 ^ 64 →
          ∃ p, (pacing frameDuration 0 0).run
              (List.replicate n ((idle frameDuration).turn frameDuration)) = some p ∧
            n * idleExcess frameDuration ≤
              p.resyncs * (frameDuration + idleExcess frameDuration) + frameDuration) := by
  obtain ⟨hpos, rfl⟩ := Checked.div_eq_some.1 h
  have hshort : 250 < fps → 1000000000 / fps < 3999999 := by
    intro hmany
    have hdiv : 1000000000 / fps ≤ 1000000000 / 251 := Nat.div_le_div_left hmany (by decide)
    exact Nat.lt_of_le_of_lt hdiv (by decide)
  refine ⟨⟨?_, ?_⟩, ?_⟩
  · intro hkeeps
    by_contra hmany
    exact not_keepsCadence (hshort (by omega)) hkeeps
  · intro hfew
    have hlong : 1000000000 / 250 ≤ 1000000000 / fps :=
      Nat.div_le_div_left hfew (Nat.pos_of_ne_zero hpos)
    exact keepsCadence_of_long hlong
  · intro hmany
    exact ⟨idleExcess_pos (hshort hmany), idle_resyncs (hshort hmany)⟩

/-- The default rate keeps it. At 300 frames per second an idle iteration is a third of a
millisecond too long: a million of them have at least ninety thousand resyncs. -/
theorem evdi_cadence_iff_default : KeepsCadence 16666666 ∧ ¬KeepsCadence 3333333 ∧
    ∃ p, (pacing 3333333 0 0).run
        (List.replicate 1000000 ((idle 3333333).turn 3333333)) = some p ∧ 90000 ≤ p.resyncs := by
  obtain ⟨hkept, hmore⟩ := @evdi_cadence_iff 300 _ rfl
  refine ⟨(@evdi_cadence_iff 60 _ rfl).1.2 (by decide), ?_, ?_⟩
  · intro hkeeps
    exact absurd (hkept.1 hkeeps) (by decide)
  · obtain ⟨p, hrun, hcost⟩ := (hmore (by decide)).2 1000000 (by decide) (by decide)
    refine ⟨p, hrun, ?_⟩
    have hexcess : idleExcess (1000000000 / 300) = 333333 := by decide
    rw [hexcess] at hcost
    omega

end PadPlay.Daemon.Pacing
