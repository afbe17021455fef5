import PadPlay.Lib.Machine

/-!
# The render target (`VideoStream.setSurface`, `awaitSurface`, `session`)

Surfaces come and go while a session runs. `setSurface` writes the field `surface`, reads the field
`codec` and swaps the output of the decoder it finds; a session looks at `surface`, configures a
decoder for what it found and writes `codec` only then. A surface that is set in between finds no
decoder, and the decoder does not find the surface: `stale_iff` says that this, or a swap that does
not go through, is the only way in which frames are rendered to anything but the surface set last.

One session runs at a time, and the UI thread makes one call after the other.
-/

namespace PadPlay.Device.Surfaces

open PadPlay.Lib

variable {S : Type}

/-! ## State -/

/-- Where the session's thread is; with a decoder, the surface that it renders to. -/
inductive Place (S : Type) where
  | idle
  /-- in `awaitSurface` -/
  | awaiting
  /-- in `configureCodec` -/
  | chosen (target : S)
  /-- behind `configureCodec`: `codec` is not written yet -/
  | configured (output : S)
  | streaming (output : S)
  /-- in the `finally` block, behind `codec = null` -/
  | stopping (output : S)
  deriving DecidableEq, Repr

def Place.target : Place S → Option S
  | .idle | .awaiting => none
  | .chosen t | .configured t | .streaming t | .stopping t => some t

/-- What a call of `setSurface` found: its argument, and the session and its place when the call
read `codec`. -/
structure Reading (S : Type) where
  surface : Option S
  session : Nat
  place : Place S
  deriving DecidableEq, Repr

inductive Outcome where
  /-- `codec` was null -/
  | noCodec
  /-- the argument is null or not valid -/
  | noSurface
  /-- `setOutputSurface` threw -/
  | threw
  | swapped
  deriving DecidableEq, Repr

/-- A call of `setSurface` that has returned. -/
structure Call (S : Type) extends Reading S where
  outcome : Outcome
  deriving DecidableEq, Repr

/-- Where the UI thread is in `setSurface`. -/
inductive Ui (S : Type) where
  | idle
  /-- `surface` is written -/
  | wrote
  /-- `codec` was read, and is the decoder of the session -/
  | holding (reading : Reading S)
  deriving DecidableEq, Repr

/-- The fields `surface` and `codec`, a decoder being named by its session, the two threads, and the
calls that have returned. -/
structure Rendering (S : Type) where
  surface : Option S
  codec : Option Nat
  session : Nat
  place : Place S
  ui : Ui S
  calls : List (Call S)
  deriving DecidableEq, Repr

/-! ## Steps -/

inductive Action (S : Type) where
  | setSurface (surface : Option S)
  | readCodec
  /-- `setOutputSurface`, if the surface is valid -/
  | swap (valid throws : Bool)
  | begin
  /-- a look at `surface` in `awaitSurface`, and whether what is there is valid -/
  | look (valid : Bool)
  /-- the deadline of `awaitSurface`, or an interrupt -/
  | giveUp
  | configure (ok : Bool)
  | publish
  | finish
  | release
  deriving DecidableEq, Repr

/-- `setOutputSurface` on the decoder of a session; a released decoder throws. -/
def Rendering.setOutput (r : Rendering S) (session : Nat) (s : S) : Option (Rendering S) :=
  if session = r.session then
    match r.place with
    | .streaming _ => some { r with place := .streaming s }
    | .stopping _ => some { r with place := .stopping s }
    | _ => none
  else none

/-- What `setSurface` does with the decoder it found. -/
def Rendering.swap (r : Rendering S) (found : Reading S) (valid throws : Bool) :
    Outcome × Rendering S :=
  match found.surface with
  | none => (.noSurface, r)
  | some s =>
    if !valid then (.noSurface, r)
    else if throws then (.threw, r)
    else
      match r.setOutput found.session s with
      | none => (.threw, r)
      | some r => (.swapped, r)

def Rendering.step (r : Rendering S) : Action S → Option (Rendering S)
  | .setSurface surface =>
    match r.ui with
    | .idle => some { r with surface, ui := .wrote }
    | _ => none
  | .readCodec =>
    match r.ui, r.codec with
    | .wrote, none =>
      some { r with ui := .idle, calls := r.calls ++ [⟨⟨r.surface, r.session, r.place⟩, .noCodec⟩] }
    | .wrote, some session => some { r with ui := .holding ⟨r.surface, session, r.place⟩ }
    | _, _ => none
  | .swap valid throws =>
    match r.ui with
    | .holding found =>
      let (outcome, r) := r.swap found valid throws
      some { r with ui := .idle, calls := r.calls ++ [⟨found, outcome⟩] }
    | _ => none
  | .begin =>
    match r.place with
    | .idle => some { r with session := r.session + 1, place := .awaiting }
    | _ => none
  | .look valid =>
    match r.place, r.surface with
    | .awaiting, some current => some (if valid then { r with place := .chosen current } else r)
    | .awaiting, none => some r
    | _, _ => none
  | .giveUp =>
    match r.place with
    | .awaiting => some { r with place := .idle }
    | _ => none
  | .configure ok =>
    match r.place with
    | .chosen target => some { r with place := if ok then .configured target else .idle }
    | _ => none
  | .publish =>
    match r.place with
    | .configured output => some { r with place := .streaming output, codec := some r.session }
    | _ => none
  | .finish =>
    match r.place with
    | .streaming output => some { r with place := .stopping output, codec := none }
    | _ => none
  | .release =>
    match r.place with
    | .stopping _ => some { r with place := .idle }
    | _ => none

def rendering (S : Type) : Machine (Rendering S) (Action S) where
  init := ⟨none, none, 0, .idle, .idle, []⟩
  step := Rendering.step

/-! ## One step -/

/-- How far a session is. -/
def Place.rank : Place S → Nat
  | .awaiting => 0
  | .chosen _ => 1
  | .configured _ => 2
  | .streaming _ => 3
  | .stopping _ => 4
  | .idle => 5

/-- What the session's thread can do: to begin, to find the surface that is set, or to go on with
what it has. -/
inductive Moves (r : Rendering S) : Rendering S → Prop
  | begins (hidle : r.place = .idle) :
    Moves r { r with session := r.session + 1, place := .awaiting }
  | looks {current : S} (hawaiting : r.place = .awaiting) (hsurface : r.surface = some current) :
    Moves r { r with place := .chosen current }
  | goes {place : Place S} {codec : Option Nat} (hrank : r.place.rank ≤ place.rank)
    (htarget : place.target = none ∨ place.target = r.place.target) :
    Moves r { r with place, codec }

/-- What the UI thread can do. -/
inductive Calls (r : Rendering S) : Rendering S → Prop
  | writes {surface : Option S} (hui : r.ui = .idle) :
    Calls r { r with surface, ui := .wrote }
  | misses (hui : r.ui = .wrote) (hcodec : r.codec = none) :
    Calls r { r with
      ui := .idle
      calls := r.calls ++ [⟨⟨r.surface, r.session, r.place⟩, .noCodec⟩] }
  | finds {session : Nat} (hui : r.ui = .wrote) (hcodec : r.codec = some session) :
    Calls r { r with ui := .holding ⟨r.surface, session, r.place⟩ }
  | fails {found : Reading S} {outcome : Outcome} (hui : r.ui = .holding found)
    (houtcome : outcome = .noSurface ∨ outcome = .threw) :
    Calls r { r with ui := .idle, calls := r.calls ++ [⟨found, outcome⟩] }
  | swaps {found : Reading S} {s : S} {place : Place S} (hui : r.ui = .holding found)
    (hsurface : found.surface = some s) (hsession : found.session = r.session)
    (hrank : place.rank = r.place.rank) (htarget : place.target = some s) :
    Calls r { r with place, ui := .idle, calls := r.calls ++ [⟨found, .swapped⟩] }

theorem swap_cases {r r' : Rendering S} {found : Reading S} {valid throws : Bool}
    {outcome : Outcome} (h : r.swap found valid throws = (outcome, r')) :
    (outcome = .noSurface ∨ outcome = .threw) ∧ r' = r ∨
      outcome = .swapped ∧ found.session = r.session ∧ ∃ s place, found.surface = some s ∧
        place.rank = r.place.rank ∧ place.target = some s ∧ r' = { r with place } := by
  unfold Rendering.swap at h
  split at h
  · cases h
    exact .inl ⟨.inl rfl, rfl⟩
  · next s hsurface =>
    split at h
    · cases h
      exact .inl ⟨.inl rfl, rfl⟩
    · split at h
      · cases h
        exact .inl ⟨.inr rfl, rfl⟩
      · split at h
        · cases h
          exact .inl ⟨.inr rfl, rfl⟩
        · next r'' hset =>
          cases h
          unfold Rendering.setOutput at hset
          split at hset
          · next hsession =>
            split at hset
            · next hplace =>
              cases hset
              exact .inr ⟨rfl, hsession, s, .streaming s, hsurface, by rw [hplace]; rfl, rfl, rfl⟩
            · next hplace =>
              cases hset
              exact .inr ⟨rfl, hsession, s, .stopping s, hsurface, by rw [hplace]; rfl, rfl, rfl⟩
            · cases hset
          · cases hset

theorem step_cases {r r' : Rendering S} {a : Action S} (h : r.step a = some r') :
    Moves r r' ∨ Calls r r' := by
  cases a with
  | setSurface surface =>
    simp only [Rendering.step] at h
    split at h <;> cases h
    exact .inr (.writes ‹_›)
  | readCodec =>
    simp only [Rendering.step] at h
    split at h <;> cases h
    · exact .inr (.misses ‹_› ‹_›)
    · exact .inr (.finds ‹_› ‹_›)
  | swap valid throws =>
    simp only [Rendering.step] at h
    split at h
    · next found hui =>
      generalize hswap : r.swap found valid throws = out at h
      obtain ⟨outcome, r''⟩ := out
      cases h
      rcases swap_cases hswap with ⟨houtcome, rfl⟩ | ⟨rfl, hsession, s, place, hs, hrank, ht, rfl⟩
      · exact .inr (.fails hui houtcome)
      · exact .inr (.swaps hui hs hsession hrank ht)
    · cases h
  | begin =>
    simp only [Rendering.step] at h
    split at h <;> cases h
    exact .inl (.begins ‹_›)
  | look valid =>
    simp only [Rendering.step] at h
    split at h
    · next hawaiting hsurface =>
      cases h
      cases valid with
      | true => exact .inl (.looks hawaiting hsurface)
      | false => exact .inl (.goes (Nat.le_refl _) (.inr rfl))
    · cases h
      exact .inl (.goes (Nat.le_refl _) (.inr rfl))
    · cases h
  | giveUp =>
    simp only [Rendering.step] at h
    split at h <;> cases h
    next hplace => exact .inl (.goes (by rw [hplace]; exact Nat.zero_le _) (.inl rfl))
  | configure ok =>
    simp only [Rendering.step] at h
    split at h <;> cases h
    next hplace =>
      cases ok with
      | true =>
        exact .inl (.goes (by rw [hplace]; exact Nat.le_succ _) (.inr (by rw [hplace]; rfl)))
      | false => exact .inl (.goes (by rw [hplace]; exact Nat.le_add_left 1 4) (.inl rfl))
  | publish =>
    simp only [Rendering.step] at h
    split at h <;> cases h
    next hplace =>
      exact .inl (.goes (by rw [hplace]; exact Nat.le_succ _) (.inr (by rw [hplace]; rfl)))
  | finish =>
    simp only [Rendering.step] at h
    split at h <;> cases h
    next hplace =>
      exact .inl (.goes (by rw [hplace]; exact Nat.le_succ _) (.inr (by rw [hplace]; rfl)))
  | release =>
    simp only [Rendering.step] at h
    split at h <;> cases h
    next hplace => exact .inl (.goes (by rw [hplace]; exact Nat.le_succ _) (.inl rfl))

/-! ## What the last call tells -/

/-- The field `codec` holds the decoder of a session that streams. -/
def Rendering.Named (r : Rendering S) : Prop :=
  r.codec = if r.place.rank = 3 then some r.session else none

theorem Place.rank_streaming {place : Place S} (h : place.rank = 3) :
    ∃ output, place = .streaming output := by
  cases place with
  | streaming output => exact ⟨output, rfl⟩
  | _ => cases h

theorem Place.target_of_rank {place : Place S} (h : place.rank ≤ 0) : place.target = none := by
  cases place with
  | awaiting => rfl
  | _ => exact absurd h (by simp [Place.rank])

theorem Rendering.Named.step {r r' : Rendering S} {a : Action S} (h : r.Named)
    (hs : r.step a = some r') : r'.Named := by
  unfold Rendering.Named at h ⊢
  cases a with
  | setSurface | readCodec =>
    simp only [Rendering.step] at hs
    split at hs <;> cases hs <;> exact h
  | swap valid throws =>
    simp only [Rendering.step] at hs
    split at hs
    · next found hui =>
      generalize hswap : r.swap found valid throws = out at hs
      obtain ⟨outcome, r''⟩ := out
      cases hs
      rcases swap_cases hswap with ⟨-, rfl⟩ | ⟨-, -, s, place, -, hrank, -, rfl⟩
      · exact h
      · simpa only [hrank] using h
    · cases hs
  | look valid =>
    simp only [Rendering.step] at hs
    split at hs
    · next hplace _ =>
      rw [hplace] at h
      cases valid <;> cases hs <;> simpa [hplace, Place.rank] using h
    · cases hs
      exact h
    · cases hs
  | configure ok =>
    simp only [Rendering.step] at hs
    split at hs <;> cases hs
    next hplace =>
      rw [hplace] at h
      cases ok <;> simpa [Place.rank] using h
  | publish | finish =>
    simp only [Rendering.step] at hs
    split at hs <;> cases hs
    rfl
  | begin | giveUp | release =>
    simp only [Rendering.step] at hs
    split at hs <;> cases hs
    next hplace => simpa [hplace, Place.rank] using h

/-- What a call found accounts for the surface a decoder renders to: a decoder that was not chosen
for when the call read `codec` has the surface the call wrote before, any other has the one it had,
unless the call swapped it. -/
structure Explains (r : Rendering S) (found : Reading S) (swapped : Prop) : Prop where
  surface : found.surface = r.surface
  session : found.session ≤ r.session
  rank : found.session = r.session → found.place.rank ≤ r.place.rank
  early : found.session ≠ r.session ∨ found.place.target = none →
    ∀ t, r.place.target = some t → r.surface = some t
  late : found.session = r.session → ∀ t t', found.place.target = some t →
    r.place.target = some t' → swapped ∧ r.surface = some t' ∨ ¬ swapped ∧ t' = t

theorem Explains.moves {r r' : Rendering S} {found : Reading S} {swapped : Prop}
    (h : Explains r found swapped) (hm : Moves r r') : Explains r' found swapped := by
  cases hm with
  | begins hidle =>
    have hne : found.session ≠ r.session + 1 := fun heq => by
      have hle := h.session
      omega
    refine ⟨h.surface, Nat.le_succ_of_le h.session, fun heq => absurd heq hne, ?_,
      fun heq => absurd heq hne⟩
    intro _ t ht
    cases ht
  | @looks current hawaiting hsurface =>
    refine ⟨h.surface, h.session, fun heq => ?_, ?_, ?_⟩
    · have hrank := h.rank heq
      rw [hawaiting] at hrank
      exact Nat.le_succ_of_le hrank
    · intro _ t ht
      cases ht
      exact hsurface
    · intro heq t t' ht _
      have hrank := h.rank heq
      rw [hawaiting] at hrank
      rw [Place.target_of_rank hrank] at ht
      cases ht
  | @goes place codec hrank htarget =>
    refine ⟨h.surface, h.session, fun heq => Nat.le_trans (h.rank heq) hrank, ?_, ?_⟩
    · intro hearly t ht
      rcases htarget with hnone | hsame
      · rw [hnone] at ht
        cases ht
      · exact h.early hearly t (hsame ▸ ht)
    · intro heq t t' ht ht'
      rcases htarget with hnone | hsame
      · rw [hnone] at ht'
        cases ht'
      · exact h.late heq t t' ht (hsame ▸ ht')

/-- What is known of the last call. -/
def Rendering.Told (r : Rendering S) : Prop :=
  match r.ui with
  | .idle =>
    match r.calls.getLast? with
    | none => r.surface = none ∧ r.place.target = none
    | some call => Explains r call.toReading (call.outcome = .swapped) ∧
      (call.outcome = .noCodec ↔ call.place.rank ≠ 3)
  | .wrote => True
  | .holding found => Explains r found False ∧ found.place.rank = 3

/-- The invariant of the machine. -/
structure Sound (r : Rendering S) : Prop where
  named : r.Named
  told : r.Told

theorem Rendering.Told.moves {r r' : Rendering S} (h : r.Told) (hm : Moves r r') : r'.Told := by
  have hui : r'.ui = r.ui := by cases hm <;> rfl
  have hcalls : r'.calls = r.calls := by cases hm <;> rfl
  unfold Rendering.Told at h ⊢
  rw [hui, hcalls]
  cases hr : r.ui with
  | idle =>
    simp only [hr] at h ⊢
    cases hlast : r.calls.getLast? with
    | none =>
      simp only [hlast] at h ⊢
      obtain ⟨hsurface, htarget⟩ := h
      cases hm with
      | begins => exact ⟨hsurface, rfl⟩
      | looks _ hcurrent =>
        rw [hsurface] at hcurrent
        cases hcurrent
      | goes _ hplace =>
        refine ⟨hsurface, ?_⟩
        rcases hplace with hnone | hsame
        · exact hnone
        · exact hsame.trans htarget
    | some call =>
      simp only [hlast] at h ⊢
      exact ⟨h.1.moves hm, h.2⟩
  | wrote => trivial
  | holding found =>
    simp only [hr] at h ⊢
    exact ⟨h.1.moves hm, h.2⟩

theorem Place.target_of_streaming {place : Place S} (h : place.rank = 3) :
    ∃ output, place.target = some output := by
  obtain ⟨output, rfl⟩ := place.rank_streaming h
  exact ⟨output, rfl⟩

/-- A call that has read `codec` explains the decoder that is there then. -/
theorem explains_reading (r : Rendering S) :
    Explains r ⟨r.surface, r.session, r.place⟩ False := by
  refine ⟨rfl, Nat.le_refl _, fun _ => Nat.le_refl _, ?_, ?_⟩
  · rintro (hne | hnone) t ht
    · exact absurd rfl hne
    · rw [ht] at hnone
      cases hnone
  · intro _ t t' ht ht'
    exact .inr ⟨not_false, Option.some.inj (ht'.symm.trans ht)⟩

theorem Sound.calls {r r' : Rendering S} (h : Sound r) (hc : Calls r r') : r'.Told := by
  have hnamed := h.named
  have htold := h.told
  unfold Rendering.Named at hnamed
  unfold Rendering.Told at htold
  cases hc with
  | writes => trivial
  | misses hui hcodec =>
    have hrank : r.place.rank ≠ 3 := by
      intro heq
      rw [hcodec, if_pos heq] at hnamed
      cases hnamed
    have hexplains := explains_reading r
    unfold Rendering.Told
    simp only [List.getLast?_concat, reduceCtorEq]
    exact ⟨⟨hexplains.surface, hexplains.session, hexplains.rank, hexplains.early, hexplains.late⟩,
      by simp [hrank]⟩
  | @finds session hui hcodec =>
    rw [hcodec] at hnamed
    split at hnamed
    · next hrank =>
      cases hnamed
      have hexplains := explains_reading r
      exact ⟨⟨hexplains.surface, hexplains.session, hexplains.rank, hexplains.early,
        hexplains.late⟩, hrank⟩
    · cases hnamed
  | @fails found outcome hui houtcome =>
    simp only [hui] at htold
    obtain ⟨hexplains, hrank⟩ := htold
    have hswapped : (outcome = .swapped) = False := by rcases houtcome with rfl | rfl <;> simp
    have hnoCodec : outcome ≠ .noCodec := by rcases houtcome with rfl | rfl <;> simp
    unfold Rendering.Told
    simp only [List.getLast?_concat, hswapped]
    exact ⟨⟨hexplains.surface, hexplains.session, hexplains.rank, hexplains.early, hexplains.late⟩,
      by simp [hnoCodec, hrank]⟩
  | @swaps found s place hui hsurface hsession hrank htarget =>
    simp only [hui] at htold
    obtain ⟨hexplains, hstreaming⟩ := htold
    obtain ⟨output, houtput⟩ := Place.target_of_streaming hstreaming
    unfold Rendering.Told
    simp only [List.getLast?_concat]
    refine ⟨⟨hexplains.surface, hexplains.session, fun heq => hrank ▸ hexplains.rank heq, ?_, ?_⟩,
      by simp [hstreaming]⟩
    · rintro (hne | hnone)
      · exact absurd hsession hne
      · rw [houtput] at hnone
        cases hnone
    · intro _ t t' _ ht'
      have hs : s = t' := Option.some.inj (htarget.symm.trans ht')
      exact .inl ⟨trivial, hexplains.surface.symm.trans (hs ▸ hsurface)⟩

theorem sound_run {actions : List (Action S)} {r : Rendering S}
    (hrun : (rendering S).run actions = some r) : Sound r := by
  refine (rendering S).run_invariant ⟨rfl, rfl, rfl⟩ ?_ hrun
  intro r a r' h hs
  refine ⟨h.named.step hs, ?_⟩
  rcases step_cases hs with hm | hc
  · exact h.told.moves hm
  · exact h.calls hc

/-- The call came into its session when `t` was chosen already, and left it at that: it found no
decoder yet, or did not swap its output. -/
def Call.Leaves (call : Call S) (t : S) : Prop :=
  (call.place = .chosen t ∨ call.place = .configured t) ∧ call.outcome = .noCodec ∨
    call.place = .streaming t ∧ (call.outcome = .noSurface ∨ call.outcome = .threw)

theorem Call.Leaves.target {call : Call S} {t : S} (h : call.Leaves t) :
    call.place.target = some t ∧ call.outcome ≠ .swapped := by
  rcases h with ⟨hplace | hplace, houtcome⟩ | ⟨hplace, houtcome | houtcome⟩ <;>
    exact ⟨by rw [hplace]; rfl, by simp [houtcome]⟩

/-- **A stale target.** Between calls of `setSurface`, a decoder renders to another surface than the
one set last exactly when the last call came into its session with another one chosen already, and
either found no decoder yet or did not swap its output. -/
theorem stale_iff {actions : List (Action S)} {r : Rendering S} {output s : S}
    (hrun : (rendering S).run actions = some r) (hui : r.ui = .idle)
    (hplace : r.place = .streaming output) (hsurface : r.surface = some s) :
    output ≠ s ↔ ∃ call t, r.calls.getLast? = some call ∧ call.session = r.session ∧
      call.Leaves t ∧ t ≠ s := by
  have htold := (sound_run hrun).told
  unfold Rendering.Told at htold
  simp only [hui] at htold
  have htarget : r.place.target = some output := by rw [hplace]; rfl
  cases hlast : r.calls.getLast? with
  | none =>
    rw [hlast] at htold
    rw [htold.1] at hsurface
    cases hsurface
  | some call =>
    simp only [hlast] at htold
    obtain ⟨hexplains, hnoCodec⟩ := htold
    constructor
    · intro hstale
      have hother : r.surface ≠ some output := fun heq =>
        hstale (Option.some.inj (heq.symm.trans hsurface))
      have hsession : call.session = r.session := by
        by_contra hne
        exact hother (hexplains.early (.inl hne) output htarget)
      have hrank := hexplains.rank hsession
      rw [hplace] at hrank
      have hleft : ∀ t, call.place.target = some t → call.outcome ≠ .swapped ∧ output = t := by
        intro t ht
        rcases hexplains.late hsession t output ht htarget with ⟨-, heq⟩ | hleft
        · exact absurd heq hother
        · exact hleft
      cases hfound : call.place with
      | idle | stopping t => simp [hfound, Place.rank] at hrank
      | awaiting =>
        exact absurd (hexplains.early (.inr (by rw [hfound]; rfl)) output htarget) hother
      | chosen t | configured t =>
        obtain ⟨-, rfl⟩ := hleft t (by rw [hfound]; rfl)
        have houtcome : call.outcome = .noCodec := hnoCodec.2 (by simp [hfound, Place.rank])
        exact ⟨call, output, rfl, hsession, .inl ⟨by simp [hfound], houtcome⟩, hstale⟩
      | streaming t =>
        obtain ⟨hswapped, rfl⟩ := hleft t (by rw [hfound]; rfl)
        have houtcome : call.outcome = .noSurface ∨ call.outcome = .threw := by
          cases h : call.outcome with
          | noCodec => exact absurd (hnoCodec.1 h) (by simp [hfound, Place.rank])
          | swapped => exact absurd h hswapped
          | noSurface => exact .inl rfl
          | threw => exact .inr rfl
        exact ⟨call, output, rfl, hsession, .inr ⟨hfound, houtcome⟩, hstale⟩
    · rintro ⟨call', t, hcall, hsession, hleaves, hne⟩
      cases hcall
      obtain ⟨ht, hswapped⟩ := hleaves.target
      rcases hexplains.late hsession t output ht htarget with ⟨h, -⟩ | ⟨-, rfl⟩
      · exact absurd h hswapped
      · exact hne

/-- The surface is replaced between `configureCodec` and the write of `codec`. -/
theorem stale_iff_replaced :
    let actions : List (Action Nat) := [.setSurface (some 1), .readCodec, .begin, .look true,
      .configure true, .setSurface none, .readCodec, .setSurface (some 2), .readCodec, .publish]
    ∃ r call, (rendering Nat).run actions = some r ∧ r.place = .streaming 1 ∧
      r.surface = some 2 ∧ r.calls.getLast? = some call ∧ call.Leaves 1 := by
  intro actions
  obtain ⟨r, hrun, hui, hplace, hsurface, call, hlast, hcall⟩ : ∃ r,
      (rendering Nat).run actions = some r ∧ r.ui = .idle ∧ r.place = .streaming 1 ∧
      r.surface = some 2 ∧ ∃ call, r.calls.getLast? = some call ∧ call.place = .configured 1 :=
    ⟨_, rfl, rfl, rfl, rfl, _, rfl, rfl⟩
  obtain ⟨call', t, hlast', -, hleaves, -⟩ := (stale_iff hrun hui hplace hsurface).1 (by decide)
  cases hlast.symm.trans hlast'
  have ht : t = 1 := Option.some.inj (hleaves.target.1.symm.trans (by rw [hcall]; rfl))
  exact ⟨r, call, hrun, hplace, hsurface, hlast, ht ▸ hleaves⟩

end PadPlay.Device.Surfaces
