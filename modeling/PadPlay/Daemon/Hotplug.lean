import PadPlay.Daemon.Watching

/-!
# The loop and the tracker's socket

Updates queue up in the socket of the tracker while a session or a pause is in progress, and an
iteration takes at most one of them. `tracking` runs the loop beside the server, which sends lists,
and the network, which delivers any number of their bytes between two steps of the loop. A session
is started for a device that the newest list to have arrived calls ready if no list is left unread
then (`sessions_current`), and need not be otherwise (`session_stale`).
-/

namespace PadPlay.Daemon.Watching

open PadPlay.Lib PadPlay.Daemon.Tracker

/-! ## The socket -/

/-- One connection to the server, with the lists sent over it so far, how many of their bytes have
arrived, and how many lists have been read. -/
structure Socket where
  sent : List SentList
  arrived : Nat
  read : Nat
  unread : List UInt8
  closed : Bool

def Socket.fresh : Socket := ⟨[], 0, 0, [], false⟩

/-- The lists of which the first `n` bytes hold the whole frame. -/
def complete : List SentList → Nat → List SentList
  | [], _ => []
  | l :: ls, n => if l.frame.length ≤ n then l :: complete ls (n - l.frame.length) else []

/-- The newest list that has arrived as a whole. -/
def Socket.newest (s : Socket) : Option SentList := (complete s.sent s.arrived).getLast?

/-- What a call of `next_update` meets that begins now, if `during` is what arrives meanwhile. -/
def Socket.stream (s : Socket) (during : List Arrival) : List Arrival := .chunk s.unread :: during

/-- The socket after `next_update`: what it has not consumed stays, and an end of the stream means
that the server has closed the connection. -/
def Socket.nextUpdate (s : Socket) (during : List Arrival) :
    Except TrackerError (List Device) × Socket :=
  let (update, rest) := Tracker.nextUpdate (s.stream during)
  let arrived := s.arrived + (Arrival.bytes during).length
  let unread := Arrival.bytes rest
  match update with
  | .ok devices => (.ok devices, { s with arrived, unread, read := s.read + 1 })
  | .error e =>
    (.error e, { s with arrived, unread, closed := s.closed || e.cause = some .eof })

/-! ## The machine -/

structure Tracking where
  watch : Watch
  socket : Socket

inductive TrackingAction where
  | poll (shutdown setTimeout connects : Bool) (during : List Arrival)
  | attend
  | finish (ok shutdown : Bool)
  | sends (l : SentList)
  | arrives (n : Nat)
  | closes

/-- The bytes that are still under way. -/
def Socket.underWay (s : Socket) : List UInt8 := (wire s.sent).drop s.arrived

def Tracking.poll (t : Tracking) (shutdown setTimeout connects : Bool) (during : List Arrival) :
    Tracking :=
  if shutdown || !setTimeout then
    { t with watch := t.watch.poll ⟨shutdown, setTimeout, .ok [], connects⟩ }
  else
    let (update, socket) := t.socket.nextUpdate during
    { watch := t.watch.poll ⟨shutdown, setTimeout, update, connects⟩
      socket := match update with
        | .ok _ => socket
        | .error e => if !isTimeout e && connects then .fresh else socket }

def Tracking.step (once : Bool) (t : Tracking) : TrackingAction → Option Tracking
  | .poll shutdown setTimeout connects during =>
    if t.watch.phase = .polling ∧ Arrival.bytes during <+: t.socket.underWay ∧
        (t.socket.closed = true → during = []) then
      some (t.poll shutdown setTimeout connects during)
    else none
  | .attend => (t.watch.step once .attend).map fun watch => { t with watch }
  | .finish ok shutdown =>
    (t.watch.step once (.finish ok shutdown)).map fun watch => { t with watch }
  | .sends l =>
    if t.socket.closed then none
    else some { t with socket := { t.socket with sent := t.socket.sent ++ [l] } }
  | .arrives n =>
    if t.socket.closed then none
    else
      let bytes := t.socket.underWay.take n
      some { t with socket := { t.socket with
        arrived := t.socket.arrived + bytes.length, unread := t.socket.unread ++ bytes } }
  | .closes => some { t with socket := { t.socket with closed := true } }

/-- `main` from the point where the tracker is connected. -/
def tracking (once : Bool) : Machine Tracking TrackingAction where
  init := ⟨(watching once).init, .fresh⟩
  step := Tracking.step once

/-! ## Conditions on steps -/

/-- The newest list to have arrived calls the device with this serial ready. -/
def Socket.ListsReady (s : Socket) (serial : Text) : Prop :=
  (s.newest.any fun l => l.devices.any fun d => d.isReady && d.serial = serial) = true

instance (s : Socket) (serial : Text) : Decidable (s.ListsReady serial) :=
  inferInstanceAs (Decidable (_ = true))

/-- A session is only started for a device that is ready in the newest list to have arrived. -/
def StartsCurrent (t : Tracking) (a : TrackingAction) : Prop :=
  match a with
  | .attend => t.watch.phase = .attending →
    ∀ serial, t.watch.attend.phase = .running serial → t.socket.ListsReady serial
  | _ => True

instance (phase : Phase) (P : Text → Prop) [∀ serial, Decidable (P serial)] :
    Decidable (∀ serial, phase = .running serial → P serial) :=
  match phase with
  | .running serial => decidable_of_iff (P serial) (by simp)
  | .polling | .attending | .exited _ => .isTrue (by simp)

instance (t : Tracking) (a : TrackingAction) : Decidable (StartsCurrent t a) :=
  match a with
  | .attend => inferInstanceAs (Decidable (_ → ∀ serial, _ = Phase.running serial → _))
  | .poll .. | .finish .. | .sends _ | .arrives _ | .closes => .isTrue trivial

/-- Of a frame that is read, a call of `next_update` waits for its first byte only: each silence it
meets comes before that, or behind the whole frame. -/
def Whole (lists : List SentList) (stream : List Arrival) : Prop :=
  ∀ i < stream.length, stream[i]? = some .timeout →
    Arrival.bytes (stream.take i) = [] ∨
      (lists.head?.any fun l => l.frame.length ≤ (Arrival.bytes (stream.take i)).length) = true

instance (lists : List SentList) (stream : List Arrival) : Decidable (Whole lists stream) :=
  inferInstanceAs (Decidable (∀ i < stream.length, _))

/-- No call of `next_update` is cut short inside a frame. -/
def ReadsWhole (t : Tracking) (a : TrackingAction) : Prop :=
  match a with
  | .poll shutdown setTimeout _ during => (shutdown || !setTimeout) = false →
    Whole (t.socket.sent.drop t.socket.read) (t.socket.stream during)
  | _ => True

/-- When the loop goes on with a ready device, no list that has arrived is left unread. -/
def Drained (t : Tracking) (a : TrackingAction) : Prop :=
  match a with
  | .attend => t.watch.phase = .attending → t.watch.devices.any Device.isReady = true →
    (complete t.socket.sent t.socket.arrived).length ≤ t.socket.read
  | _ => True

instance (t : Tracking) (a : TrackingAction) : Decidable (ReadsWhole t a ∧ Drained t a) :=
  match a with
  | .poll .. => inferInstanceAs (Decidable ((_ → Whole _ _) ∧ True))
  | .attend => inferInstanceAs (Decidable (True ∧ (_ → _ → _ ≤ _)))
  | .finish .. | .sends _ | .arrives _ | .closes => .isTrue ⟨trivial, trivial⟩

/-! ## What one call reads -/

/-- What a call of `next_update` has done that was not cut short inside a frame. -/
inductive Took (lists : List SentList) (s : List Arrival) :
    Except TrackerError (List Device) × List Arrival → Prop
  | list {l : SentList} {ls : List SentList} {s' : List Arrival} (hlists : lists = l :: ls)
      (hbytes : Arrival.bytes s = l.frame ++ Arrival.bytes s') : Took lists s (.ok l.devices, s')
  | silence {e : TrackerError} {s' : List Arrival} (he : isTimeout e = true)
      (hbytes : Arrival.bytes s' = Arrival.bytes s) : Took lists s (.error e, s')
  | ended {e : TrackerError} (he : e.cause = some .eof) : Took lists s (.error e, [])

/-- The first four bytes of what is sent announce the length of a list. -/
theorem announced_front {lists : List SentList} {digits : List UInt8}
    (hpre : digits <+: wire lists) (hfour : digits.length = 4) :
    ∃ l ls, lists = l :: ls ∧ announced digits = some (payload l.devices).length := by
  cases lists with
  | nil =>
    have hlen := hpre.length_le
    simp [wire, hfour] at hlen
  | cons l ls =>
    refine ⟨l, ls, rfl, ?_⟩
    obtain ⟨hhex, hhexlen⟩ := announced_hex4 l.short
    rw [wire_cons, SentList.frame, List.append_assoc] at hpre
    rw [List.prefix_iff_eq_take, hfour, ← hhexlen, List.take_left] at hpre
    rw [hpre, hhex]

/-- A call that neither returns a list nor times out has come to the end of the stream. -/
theorem nextUpdate_ended {lists : List SentList} {s s' : List Arrival} {e : TrackerError}
    (hpre : Arrival.bytes s <+: wire lists) (h : Tracker.nextUpdate s = (.error e, s'))
    (he : isTimeout e = false) : e.cause = some .eof ∧ s' = [] := by
  unfold Tracker.nextUpdate readPayload at h
  have h₁ := Arrival.readExact_spec 4 s
  rcases hread : Arrival.readExact 4 s with ⟨r, s₁⟩
  rw [hread] at h h₁
  cases h₁ with
  | silence =>
    cases h
    cases he
  | ended =>
    cases h
    exact ⟨rfl, rfl⟩
  | @read digits _ hdigits hbytes =>
    have hfront : digits <+: wire lists := (List.prefix_append ..).trans (hbytes ▸ hpre)
    obtain ⟨l, ls, -, hannounced⟩ := announced_front hfront hdigits
    obtain ⟨text, hutf, hradix⟩ := Option.bind_eq_some_iff.1 hannounced
    simp only [hutf, hradix] at h
    have h₂ := Arrival.readExact_spec (payload l.devices).length s₁
    rcases hread₂ : Arrival.readExact (payload l.devices).length s₁ with ⟨r₂, s₂⟩
    rw [hread₂] at h h₂
    cases h₂ with
    | silence =>
      cases h
      cases he
    | ended =>
      cases h
      exact ⟨rfl, rfl⟩
    | read => cases h

/-- **One call**, in step with what was sent. -/
theorem nextUpdate_took {lists : List SentList} {s : List Arrival}
    (hpre : Arrival.bytes s <+: wire lists) (hwhole : Whole lists s) :
    Took lists s (Tracker.nextUpdate s) := by
  rcases hnext : Tracker.nextUpdate s with ⟨r, s'⟩
  cases r with
  | ok devices =>
    obtain ⟨digits, buf, hread, rfl⟩ := nextUpdate_ok hnext
    have hbytes := hread.bytes
    rw [hbytes] at hpre
    cases lists with
    | nil =>
      have hlen := hpre.length_le
      simp [wire, hread.four] at hlen
    | cons l ls =>
      obtain ⟨hbuf, hframe, -⟩ := SentList.frame_prefix hread.four hread.len hpre
      rw [hbuf, parseDevices_payload l.plain]
      rw [hframe] at hbytes
      exact .list rfl hbytes
  | error e =>
    cases he : isTimeout e with
    | false =>
      obtain ⟨heof, rfl⟩ := nextUpdate_ended hpre hnext he
      exact .ended heof
    | true =>
      obtain ⟨before, hsilence⟩ := nextUpdate_timeout hnext he
      have htake : s.take before.length = before := by rw [hsilence.stream, List.take_left]
      have hcase := hwhole before.length (by rw [hsilence.stream]; simp)
        (by rw [hsilence.stream]; simp)
      rw [htake] at hcase
      refine .silence he ?_
      rw [hsilence.stream, Arrival.bytes_append, Arrival.bytes_timeout]
      rcases hcase with hnone | hframe
      · rw [hnone, List.nil_append]
      · -- a whole frame in front of the silence would have been read
        obtain ⟨l, hhead, hle⟩ := (Option.any_eq_true _ _).1 hframe
        have hle : l.frame.length ≤ (Arrival.bytes before).length := of_decide_eq_true hle
        have hlen := l.frame_length
        have hfirst : (Arrival.bytes before).take 4 <+: wire lists := by
          refine (List.take_prefix ..).trans (List.IsPrefix.trans ?_ hpre)
          rw [hsilence.stream, Arrival.bytes_append]
          exact List.prefix_append ..
        obtain ⟨l', ls, rfl, hannounced⟩ :=
          announced_front hfirst (by rw [List.length_take]; omega)
        cases hhead
        have hpart := hsilence.part _ hannounced
        omega

/-! ## In step with the socket -/

theorem complete_take {lists : List SentList} {n : Nat} :
    complete lists n = lists.take (complete lists n).length := by
  induction lists generalizing n with
  | nil => rfl
  | cons l ls ih =>
    rw [complete]
    split
    · rw [List.length_cons, List.take_succ_cons, ← ih]
    · rfl

theorem le_complete {lists : List SentList} {k n : Nat} (hk : k ≤ lists.length)
    (hn : (wire (lists.take k)).length ≤ n) : k ≤ (complete lists n).length := by
  induction lists generalizing k n with
  | nil => exact hk
  | cons l ls ih =>
    cases k with
    | zero => exact Nat.zero_le _
    | succ k =>
      rw [List.take_succ_cons, wire_cons, List.length_append] at hn
      rw [complete, if_pos (by omega), List.length_cons]
      have hrest := ih (Nat.le_of_succ_le_succ hk) (n := n - l.frame.length) (by omega)
      omega

/-- The loop has read the first `read` of the lists sent, and stands on the last of them or on
none; what has arrived behind them is unread. -/
structure Synced (devices : List Device) (s : Socket) : Prop where
  read : s.read ≤ s.sent.length
  unread : wire (s.sent.take s.read) ++ s.unread = (wire s.sent).take s.arrived
  arrived : s.arrived ≤ (wire s.sent).length
  stands : devices = [] ∨
    ∃ l, (s.sent.take s.read).getLast? = some l ∧ devices = l.devices

/-- A connection that is over, and not replaced yet. -/
structure Over (devices : List Device) (s : Socket) : Prop where
  closed : s.closed = true
  unread : s.unread = []
  devices : devices = []

def InSync (t : Tracking) : Prop :=
  Synced t.watch.devices t.socket ∨ Over t.watch.devices t.socket

theorem synced_fresh : Synced [] .fresh := ⟨Nat.le_refl _, rfl, Nat.le_refl _, .inl rfl⟩

section
variable {devices : List Device} {s : Socket}

theorem Synced.sends (h : Synced devices s) (l : SentList) :
    Synced devices { s with sent := s.sent ++ [l] } := by
  have hwire : wire (s.sent ++ [l]) = wire s.sent ++ l.frame := by simp [wire]
  refine ⟨?_, ?_, ?_, ?_⟩
  · rw [List.length_append]
    exact Nat.le_add_right_of_le h.read
  · rw [hwire, List.take_append_of_le_length h.read, List.take_append_of_le_length h.arrived]
    exact h.unread
  · rw [hwire, List.length_append]
    exact Nat.le_add_right_of_le h.arrived
  · rw [List.take_append_of_le_length h.read]
    exact h.stands

/-- More of the bytes that are under way have arrived. -/
theorem Synced.arrives (h : Synced devices s) {bytes : List UInt8} (hbytes : bytes <+: s.underWay) :
    Synced devices
      { s with arrived := s.arrived + bytes.length, unread := s.unread ++ bytes } := by
  have htake : bytes = s.underWay.take bytes.length := List.prefix_iff_eq_take.1 hbytes
  refine ⟨h.read, ?_, ?_, h.stands⟩
  · rw [← List.append_assoc, h.unread, List.take_add]
    exact congrArg _ htake
  · have hlen := hbytes.length_le
    rw [Socket.underWay, List.length_drop] at hlen
    have harrived := h.arrived
    dsimp only
    omega

theorem Synced.closes (h : Synced devices s) : Synced devices { s with closed := true } :=
  ⟨h.read, h.unread, h.arrived, h.stands⟩

/-- What is unread is at the front of the lists that are still to be read. -/
theorem Synced.front (h : Synced devices s) : s.unread <+: wire (s.sent.drop s.read) := by
  have hsplit : wire (s.sent.take s.read) ++ wire (s.sent.drop s.read) = wire s.sent := by
    rw [wire, wire, ← List.flatMap_append, List.take_append_drop]
    rfl
  rw [← List.prefix_append_right_inj (wire (s.sent.take s.read)), hsplit, h.unread]
  exact List.take_prefix ..

/-- A list has been read. -/
theorem Synced.reads (h : Synced devices s) {l : SentList} {ls : List SentList}
    {unread : List UInt8} (hlists : s.sent.drop s.read = l :: ls)
    (hunread : s.unread = l.frame ++ unread) :
    Synced l.devices { s with unread, read := s.read + 1 } := by
  have hlt : s.read < s.sent.length := by
    have hlen := congrArg List.length hlists
    rw [List.length_drop, List.length_cons] at hlen
    omega
  have hget : s.sent[s.read] = l := by
    rw [List.drop_eq_getElem_cons hlt] at hlists
    exact (List.cons.inj hlists).1
  have htake : s.sent.take (s.read + 1) = s.sent.take s.read ++ [l] := by
    rw [← hget, List.take_append_getElem]
  refine ⟨hlt, ?_, h.arrived, .inr ⟨l, ?_, rfl⟩⟩
  · have hwire : wire (s.sent.take s.read ++ [l]) = wire (s.sent.take s.read) ++ l.frame := by
      simp [wire]
    dsimp only
    rw [htake, hwire, List.append_assoc, ← hunread]
    exact h.unread
  · dsimp only
    rw [htake, List.getLast?_concat]

/-- **A call of `next_update` stays in step** if it is not cut short inside a frame. -/
theorem Synced.nextUpdate (h : Synced devices s) {during : List Arrival}
    (hduring : Arrival.bytes during <+: s.underWay)
    (hwhole : Whole (s.sent.drop s.read) (s.stream during)) :
    match s.nextUpdate during with
    | (.ok devices', s') => Synced devices' s'
    | (.error e, s') => if isTimeout e then Synced devices s' else Over [] s' := by
  have harrived := h.arrives hduring
  have hfront := harrived.front
  have htook := nextUpdate_took (s := s.stream during) hfront hwhole
  unfold Socket.nextUpdate
  rcases hnext : Tracker.nextUpdate (s.stream during) with ⟨r, rest⟩
  rw [hnext] at htook
  cases htook with
  | list hlists hbytes => exact harrived.reads hlists hbytes
  | silence he hbytes =>
    dsimp only
    rw [if_pos he, hbytes]
    exact ⟨harrived.read, harrived.unread, harrived.arrived, harrived.stands⟩
  | @ended e he =>
    have hno : isTimeout e = false := by simp [isTimeout, he]
    dsimp only
    rw [hno, if_neg Bool.false_ne_true]
    exact ⟨by simp [he], rfl, rfl⟩

/-- Nothing more comes over a connection that is over. -/
theorem Over.nextUpdate (h : Over devices s) :
    ∃ e, (s.nextUpdate []).1 = .error e ∧ isTimeout e = false ∧ Over [] (s.nextUpdate []).2 := by
  have hstream : s.stream [] = [.chunk []] := by rw [Socket.stream, h.unread]
  have hnext : Tracker.nextUpdate (s.stream []) =
      (.error ⟨"reading ADB length", some .eof⟩, []) := by
    rw [hstream]
    rfl
  refine ⟨⟨"reading ADB length", some .eof⟩, ?_, rfl, ?_⟩
  · simp only [Socket.nextUpdate, hnext]
  · simp only [Socket.nextUpdate, hnext]
    exact ⟨by simp, rfl, rfl⟩

end

/-! ## In step throughout a run -/

theorem poll_ok_devices (w : Watch) (shutdown setTimeout connects : Bool) (devices : List Device)
    (h : (shutdown || !setTimeout) = false) :
    (w.poll ⟨shutdown, setTimeout, .ok devices, connects⟩).devices = devices := by
  rw [Bool.or_eq_false_iff] at h
  simp [Watch.poll, h.1, h.2]

theorem poll_error_devices (w : Watch) (shutdown setTimeout connects : Bool) (e : TrackerError)
    (h : (shutdown || !setTimeout) = false) :
    (w.poll ⟨shutdown, setTimeout, .error e, connects⟩).devices =
      if isTimeout e then w.devices else [] := by
  rw [Bool.or_eq_false_iff] at h
  simp only [Watch.poll, h.1, h.2, Bool.false_eq_true, if_false]
  cases isTimeout e <;> rfl

theorem poll_exit_devices (w : Watch) (shutdown setTimeout connects : Bool)
    (h : (shutdown || !setTimeout) = true) (update : Except TrackerError (List Device)) :
    (w.poll ⟨shutdown, setTimeout, update, connects⟩).devices = w.devices := by
  cases shutdown with
  | true => rfl
  | false =>
    cases setTimeout with
    | true => cases h
    | false => rfl

theorem attend_devices (w : Watch) : w.attend.devices = w.devices := by
  unfold Watch.attend
  split <;> rfl

theorem finish_devices (once : Bool) (w : Watch) (ok shutdown : Bool) :
    (w.finish once ok shutdown).devices = w.devices := by
  unfold Watch.finish
  dsimp only
  split
  · rfl
  · split
    · rfl
    · split <;> rfl

theorem InSync.poll {t : Tracking} {shutdown setTimeout connects : Bool} {during : List Arrival}
    (h : InSync t) (hduring : Arrival.bytes during <+: t.socket.underWay)
    (hclosed : t.socket.closed = true → during = [])
    (hwhole : (shutdown || !setTimeout) = false →
      Whole (t.socket.sent.drop t.socket.read) (t.socket.stream during)) :
    InSync (t.poll shutdown setTimeout connects during) := by
  unfold Tracking.poll
  by_cases hexit : (shutdown || !setTimeout) = true
  · rw [if_pos hexit]
    unfold InSync
    rw [poll_exit_devices _ _ _ _ hexit]
    exact h
  · rw [if_neg hexit]
    rw [Bool.not_eq_true] at hexit
    rcases h with hsynced | hover
    · have hnext := hsynced.nextUpdate hduring (hwhole hexit)
      rcases hread : t.socket.nextUpdate during with ⟨update, socket⟩
      rw [hread] at hnext
      unfold InSync
      cases update with
      | ok devices =>
        dsimp only at hnext ⊢
        rw [poll_ok_devices _ _ _ _ _ hexit]
        exact .inl hnext
      | error e =>
        dsimp only at hnext ⊢
        rw [poll_error_devices _ _ _ _ _ hexit]
        cases he : isTimeout e with
        | true =>
          rw [if_pos he] at hnext
          exact .inl hnext
        | false =>
          rw [he, if_neg Bool.false_ne_true] at hnext
          cases connects with
          | true => exact .inl synced_fresh
          | false => exact .inr hnext
    · rw [hclosed hover.closed]
      obtain ⟨e, herror, he, hnext⟩ := hover.nextUpdate
      rcases hread : t.socket.nextUpdate [] with ⟨update, socket⟩
      rw [hread] at herror hnext
      subst herror
      unfold InSync
      dsimp only
      rw [poll_error_devices _ _ _ _ _ hexit, he]
      cases connects with
      | true => exact .inl synced_fresh
      | false => exact .inr hnext

theorem InSync.step {once : Bool} {t t' : Tracking} {a : TrackingAction} (h : InSync t)
    (hwhole : ReadsWhole t a) (hs : (tracking once).step t a = some t') : InSync t' := by
  cases a with
  | poll shutdown setTimeout connects during =>
    simp only [tracking, Tracking.step] at hs
    split at hs
    · next hguard =>
      cases hs
      exact h.poll hguard.2.1 hguard.2.2 hwhole
    · cases hs
  | attend =>
    simp only [tracking, Tracking.step, Watch.step] at hs
    split at hs
    · cases hs
      unfold InSync
      rw [attend_devices]
      exact h
    · cases hs
  | finish ok shutdown =>
    simp only [tracking, Tracking.step, Watch.step] at hs
    split at hs
    · cases hs
      unfold InSync
      rw [finish_devices]
      exact h
    · cases hs
  | sends l =>
    simp only [tracking, Tracking.step] at hs
    split at hs
    · cases hs
    · next hopen =>
      cases hs
      rcases h with hsynced | hover
      · exact .inl (hsynced.sends l)
      · exact absurd hover.closed hopen
  | arrives n =>
    simp only [tracking, Tracking.step] at hs
    split at hs
    · cases hs
    · next hopen =>
      cases hs
      rcases h with hsynced | hover
      · exact .inl (hsynced.arrives (List.take_prefix ..))
      · exact absurd hover.closed hopen
  | closes =>
    simp only [tracking, Tracking.step] at hs
    cases hs
    rcases h with hsynced | hover
    · exact .inl hsynced.closes
    · exact .inr ⟨rfl, hover.unread, hover.devices⟩

/-- A session that is started in step, with nothing left unread, is for a current device. -/
theorem InSync.startsCurrent {t : Tracking} {a : TrackingAction} (h : InSync t)
    (hdrained : Drained t a) : StartsCurrent t a := by
  cases a with
  | attend =>
    intro hphase serial hstarts
    unfold Watch.attend at hstarts
    split at hstarts
    · cases hstarts
    · next device hfind =>
      cases hstarts
      have hmem := List.mem_of_find?_eq_some hfind
      have hready := List.find?_some hfind
      have hle := hdrained hphase (List.any_eq_true.2 ⟨device, hmem, hready⟩)
      rcases h with hsynced | hover
      · rcases hsynced.stands with hnone | ⟨l, hlast, hdevices⟩
        · rw [hnone] at hmem
          cases hmem
        · have hwire : (wire (t.socket.sent.take t.socket.read)).length ≤ t.socket.arrived := by
            have hlen := congrArg List.length hsynced.unread
            rw [List.length_append, List.length_take] at hlen
            omega
          have hge := le_complete hsynced.read hwire
          have hnewest : t.socket.newest = some l := by
            rw [Socket.newest, complete_take, Nat.le_antisymm hle hge]
            exact hlast
          rw [hdevices] at hmem
          rw [Socket.ListsReady, hnewest]
          exact List.any_eq_true.2 ⟨device, hmem, by simp [hready]⟩
      · rw [hover.devices] at hmem
        cases hmem
  | poll | finish | sends | arrives | closes => trivial

/-- **Sessions are started for current devices** in every run in which no call of `next_update` is
cut short inside a frame and no list is left unread when the loop goes on with a ready device. -/
theorem sessions_current (once : Bool) (actions : List TrackingAction)
    (h : (tracking once).Along (fun t a => ReadsWhole t a ∧ Drained t a) actions) :
    (tracking once).Along StartsCurrent actions := by
  refine (tracking once).alongFrom_imp (I := InSync) ?_ ?_ (.inl synced_fresh) h
  · intro t a t' hsync hC hs
    exact hsync.step hC.1 hs
  · intro t a hsync hC
    exact hsync.startsCurrent hC.2

/-- A list cut into two reads, the loop waiting in between, and a second one during the session. -/
theorem sessions_current_replugged :
    let tablet : Device := ⟨['8', '1', '2', 'f'], ['d', 'e', 'v', 'i', 'c', 'e']⟩
    let plugged : SentList := ⟨[tablet], by decide, by decide +kernel⟩
    let unplugged : SentList := ⟨[], by decide, by decide +kernel⟩
    let bytes := plugged.frame
    (tracking false).Along StartsCurrent
      [.sends plugged, .poll false true true [.timeout, .chunk (bytes.take 3)], .attend,
        .arrives 20, .poll false true true [], .attend, .sends unplugged, .arrives 4,
        .finish false false, .poll false true true [], .attend, .closes,
        .poll false true false [], .closes, .poll false true true []] := by
  intro tablet plugged unplugged bytes
  exact sessions_current false _ (by decide +kernel)

/-- During a session the tablet becomes ready beside another device, and is unplugged: the loop
reads the first of the two lists, and starts a session for it. -/
theorem session_stale :
    let tablet : Device := ⟨['8', '1', '2', 'f'], ['d', 'e', 'v', 'i', 'c', 'e']⟩
    let phone : Device := ⟨['p'], ['o', 'f', 'f', 'l', 'i', 'n', 'e']⟩
    let plugged : SentList := ⟨[tablet], by decide, by decide +kernel⟩
    let both : SentList := ⟨[tablet, phone], by decide, by decide +kernel⟩
    let unplugged : SentList := ⟨[phone], by decide, by decide +kernel⟩
    ¬(tracking false).Along StartsCurrent
      [.sends plugged, .arrives 16, .poll false true true [], .attend, .sends both,
        .sends unplugged, .arrives 100, .finish false false, .poll false true true [],
        .attend] := by
  decide +kernel

end PadPlay.Daemon.Watching
