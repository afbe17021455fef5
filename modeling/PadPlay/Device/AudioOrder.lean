import PadPlay.Device.AudioLedger

/-!
# What the tracks are given (`AudioStream.kt`)

The threads of several set-ups share one queue, and those of a set-up that was torn down may still
be on their way: a drain that has passed its check offers once more, a writer that is in `poll` may
take once more. `pcm_in_order` says what that comes to in every run.
-/

namespace PadPlay.Device.AudioThreads

open PadPlay.Lib PadPlay.Device.Protocol

/-! ## Chunks by set-up -/

namespace Player

/-- What the drain of a set-up put on the queue. -/
def offeredBy (s : Player) (j : Nat) : List Chunk := s.offered.filter (·.setUp = j)

def waitingOf (s : Player) (j : Nat) : List Chunk := s.pendingPcm.filter (·.setUp = j)

/-- What any writer took of the chunks of a set-up. -/
def takenFrom (s : Player) (j : Nat) : List Chunk := (s.taken.map (·.chunk)).filter (·.setUp = j)

/-- What the writer of a set-up took. -/
def takenBy (s : Player) (k : Nat) : List Chunk := (s.taken.filter (·.writer = k)).map (·.chunk)

/-- How many chunks of later set-ups a writer took. -/
def overreach (s : Player) (w : Nat) : Nat :=
  s.taken.countP fun t => t.writer = w ∧ w < t.chunk.setUp

/-- How many chunks of a set-up the writers of later ones took. -/
def strays (s : Player) (j : Nat) : Nat :=
  s.taken.countP fun t => t.chunk.setUp = j ∧ j < t.writer

end Player

/-- How often a drain that does not check again can still offer. -/
def DrainAt.mayOffer : DrainAt → Nat
  | .dequeuing | .offering _ => 1
  | _ => 0

def WriterAt.mayTake : WriterAt → Nat
  | .polling => 1
  | _ => 0

/-- What a track has accepted, given where its writer is and what it took. A writer that ended may
have left off inside the last chunk. -/
def Accepted (played : List UInt8) (taken : List Chunk) : WriterAt → Prop
  | .checking | .polling => played = taken.flatMap (·.pcm)
  | .writing pcm written => written ≤ pcm.length ∧ ∃ front chunk, taken = front ++ [chunk] ∧
      chunk.pcm = pcm ∧ played = front.flatMap (·.pcm) ++ pcm.take written
  | .ended => played = taken.flatMap (·.pcm) ∨ ∃ front chunk written, taken = front ++ [chunk] ∧
      written < chunk.pcm.length ∧ played = front.flatMap (·.pcm) ++ chunk.pcm.take written

/-- A writer can end anywhere. -/
theorem Accepted.ended {played : List UInt8} {taken : List Chunk} {a : WriterAt}
    (h : Accepted played taken a) : Accepted played taken .ended := by
  cases a with
  | checking | polling => exact .inl h
  | writing pcm written =>
    obtain ⟨hle, front, chunk, htaken, rfl, hplayed⟩ := h
    rcases Nat.lt_or_eq_of_le hle with hlt | rfl
    · exact .inr ⟨front, chunk, written, htaken, hlt, hplayed⟩
    · left
      rw [hplayed, htaken, List.take_length, List.flatMap_append, List.flatMap_singleton]
  | ended => exact h

/-! ## The invariant -/

namespace Player

/-- A later set-up has been accepted, or a header whose teardown has emptied the queue is about to
be. -/
def Retired (s : Player) (j : Nat) : Prop :=
  j + 1 < s.setUps ∨
    (j < s.setUps ∧ ∃ t, (∃ header, .acceptHeader header ∈ s.calls t) ∧ .clearPcm ∉ s.calls t)

structure Ordered (s : Player) : Prop where
  drain : ∀ k, s.drains k ≠ .ended → s.begun .outputDrainThread k
  writer : ∀ k, s.writers k ≠ .ended → s.begun .writerThread k
  source : ∀ c ∈ s.offered, s.begun .outputDrainThread c.setUp
  taker : ∀ t ∈ s.taken, s.begun .writerThread t.writer
  /-- a writer is interrupted before a later drain is started -/
  before : ∀ j w, s.begun .outputDrainThread j → s.begun .writerThread w → w < j →
    s.settled .writerThread w
  once : ∀ j, (s.takenFrom j ++ s.waitingOf j).Sublist (s.offeredBy j)
  kept : ∀ j, s.settled .outputDrainThread j = false →
    s.offeredBy j = s.takenFrom j ++ s.waitingOf j
  first : ∀ w, s.settled .writerThread w = false → s.overreach w = 0
  last : ∀ w, s.overreach w + (s.writers w).mayTake ≤ 1
  late : ∀ j, s.Retired j → (s.begun .outputDrainThread j → s.settled .outputDrainThread j) ∧
    s.strays j + (s.waitingOf j).length + (s.drains j).mayOffer ≤ 1
  accepted : ∀ k, Accepted (s.played k) (s.takenBy k) (s.writers k)

/-- The two states have the same threads and chunks. -/
structure SamePcm (s s' : Player) : Prop where
  begun : s'.begun = s.begun
  settled : s'.settled = s.settled
  drains : s'.drains = s.drains
  writers : s'.writers = s.writers
  pendingPcm : s'.pendingPcm = s.pendingPcm
  offered : s'.offered = s.offered
  taken : s'.taken = s.taken
  played : s'.played = s.played

theorem Ordered.congr {s s' : Player} (h : s.Ordered) (hs : SamePcm s s')
    (hretired : ∀ j, s'.Retired j → s.Retired j) : s'.Ordered where
  drain := by rw [hs.drains, hs.begun]; exact h.drain
  writer := by rw [hs.writers, hs.begun]; exact h.writer
  source := by rw [hs.offered, hs.begun]; exact h.source
  taker := by rw [hs.taken, hs.begun]; exact h.taker
  before := by rw [hs.begun, hs.settled]; exact h.before
  once := by
    simp only [takenFrom, waitingOf, offeredBy, hs.taken, hs.pendingPcm, hs.offered]
    exact h.once
  kept := by
    simp only [takenFrom, waitingOf, offeredBy, hs.taken, hs.pendingPcm, hs.offered, hs.settled]
    exact h.kept
  first := by simp only [overreach, hs.taken, hs.settled]; exact h.first
  last := by simp only [overreach, hs.taken, hs.writers]; exact h.last
  late := by
    intro j hj
    simp only [strays, waitingOf, hs.taken, hs.pendingPcm, hs.drains, hs.begun, hs.settled]
    exact h.late j (hretired j hj)
  accepted := by simp only [takenBy, hs.played, hs.taken, hs.writers]; exact h.accepted

/-- The rest of a call retires nothing, unless the queue has just been emptied. -/
theorem retired_goOn {s : Player} {t : Nat} {p : List Stmt} {j : Nat}
    (h : (s.goOn t p).Retired j)
    (hp : (∃ header, .acceptHeader header ∈ p) → .clearPcm ∉ p →
      (∃ header, .acceptHeader header ∈ s.calls t) ∧ .clearPcm ∉ s.calls t) : s.Retired j := by
  rcases h with hlt | ⟨hlt, t', haccept, hclear⟩
  · exact .inl hlt
  · refine .inr ⟨hlt, t', ?_⟩
    by_cases heq : t' = t
    · subst heq
      exact hp (by simpa using haccept) (by simpa using hclear)
    · exact ⟨by simpa [Function.update_of_ne heq] using haccept,
        by simpa [Function.update_of_ne heq] using hclear⟩

theorem retired_rest {s : Player} {t : Nat} {stmt : Stmt} {rest : List Stmt} {j : Nat}
    (hcalls : s.calls t = stmt :: rest) (hstmt : stmt ≠ .clearPcm)
    (h : (s.goOn t rest).Retired j) : s.Retired j := by
  apply retired_goOn h
  rintro ⟨header, hheader⟩ hclear
  rw [hcalls]
  refine ⟨⟨header, List.mem_cons_of_mem _ hheader⟩, ?_⟩
  rw [List.mem_cons, not_or]
  exact ⟨hstmt.symm, hclear⟩

/-! ## Calls -/

/-- A statement that does nothing to threads and chunks. -/
theorem Ordered.skip {s s' : Player} (h : s.Ordered) {t : Nat} {stmt : Stmt} {rest : List Stmt}
    (hcalls : s.calls t = stmt :: rest) (hstmt : stmt ≠ .clearPcm) (hs : SamePcm s s')
    (hsetUps : s'.setUps = s.setUps) (hcalls' : s'.calls = s.calls) :
    (s'.goOn t rest).Ordered := by
  have hframe : SamePcm s (s'.goOn t rest) :=
    ⟨hs.begun, hs.settled, hs.drains, hs.writers, hs.pendingPcm, hs.offered, hs.taken, hs.played⟩
  apply h.congr hframe
  intro j hj
  have hj' : s'.Retired j := retired_rest (hcalls' ▸ hcalls) hstmt hj
  rwa [Retired, hsetUps, hcalls'] at hj'

theorem Ordered.settle {s : Player} (h : s.Ordered) {x : Field} {k : Nat} :
    ({ s with
      settled := mark s.settled x k
      releases := s.releases ++ [(x, k)] } : Player).Ordered := by
  have hfalse : ∀ {y j}, mark s.settled x k y j = false → s.settled y j = false := by
    intro y j hmark
    by_contra hset
    rw [mark_of (by simpa using hset)] at hmark
    cases hmark
  exact { h with
    before := fun j w hj hw hlt => mark_of (h.before j w hj hw hlt)
    kept := fun j hset => h.kept j (hfalse hset)
    first := fun w hset => h.first w (hfalse hset)
    late := fun j hj => ⟨fun hb => mark_of ((h.late j hj).1 hb), (h.late j hj).2⟩ }

/-- Nothing of a set-up is lost with the queue if its drain is interrupted or not started. -/
theorem Ordered.empty {s : Player} (h : s.Ordered)
    (hover : ∀ j, s.begun .outputDrainThread j → s.settled .outputDrainThread j) :
    ({ s with pendingPcm := [] } : Player).Ordered := by
  have hnone : ∀ j, ({ s with pendingPcm := [] } : Player).waitingOf j = [] := fun _ => rfl
  have htaken : ∀ j, ({ s with pendingPcm := [] } : Player).takenFrom j = s.takenFrom j :=
    fun _ => rfl
  exact { h with
    once := by
      intro j
      rw [hnone, htaken, List.append_nil]
      exact (List.sublist_append_left _ _).trans (h.once j)
    kept := by
      intro j hset
      rw [hnone, htaken, List.append_nil]
      have hidle : s.offeredBy j = [] := by
        apply List.filter_eq_nil_iff.2
        intro c hc hj
        have hbegun := h.source c hc
        rw [of_decide_eq_true hj] at hbegun
        rw [hover j hbegun] at hset
        cases hset
      have hsub := h.once j
      rw [hidle, List.sublist_nil, List.append_eq_nil_iff] at hsub
      exact hidle.trans hsub.1.symm
    late := by
      intro j hj
      obtain ⟨hset, hle⟩ := h.late j hj
      refine ⟨hset, Nat.le_trans (Nat.add_le_add_right ?_ _) hle⟩
      exact Nat.add_le_add_left (Nat.zero_le _) _ }

/-- Chunks stray only to writers of set-ups that exist. -/
theorem Ordered.strays_eq_zero {s : Player} (h : s.Ordered) (hk : s.Kept) {j : Nat}
    (hj : s.setUps ≤ j + 1) : s.strays j = 0 := by
  apply List.countP_eq_zero.2
  intro t ht hstray
  have hold := hk.old _ _ (h.taker t ht)
  have hlt := (of_decide_eq_true hstray).2
  omega

/-- The queue is emptied once both threads are interrupted; from then on a drain offers at most
once more. -/
theorem Ordered.clearPcm {s : Player} (h : s.Ordered) (hk : s.Kept) (ha : s.Alone) {t : Nat}
    {rest : List Stmt} (hcalls : s.calls t = .clearPcm :: rest) :
    (({ s with pendingPcm := [] } : Player).goOn t rest).Ordered := by
  have hheads := hk.heads hcalls
  have hidle : ∀ t', ¬SetsUp (s.calls t') := by
    apply ha.none_setsUp (t := t) (by simp [hcalls])
    rw [hcalls, setsUp_cons, not_or]
    exact ⟨by simp [Stmt.setUp?], hheads.tears (.inr rfl)⟩
  have hnone : ∀ x, s.held x = none := by
    intro x
    refine (hk.cleared t (.inr (.inl (by simp [hcalls]))) x).resolve_left ?_
    rw [hcalls]
    simpa using hheads.clears rfl x
  have hover : ∀ j, s.begun .outputDrainThread j → s.settled .outputDrainThread j :=
    fun j hbegun => hk.thread_settled (.inr rfl) (hk.over hnone hidle hbegun)
  have hempty := h.empty hover
  exact { hempty with
    late := by
      intro j hj
      by_cases hold : s.Retired j
      · exact hempty.late j hold
      · refine ⟨hover j, ?_⟩
        have hlatest : s.setUps ≤ j + 1 := by
          by_contra hlt
          exact hold (.inl (Nat.lt_of_not_le hlt))
        have hstrays : s.strays j = 0 := h.strays_eq_zero hk hlatest
        calc s.strays j + 0 + (s.drains j).mayOffer = (s.drains j).mayOffer := by
              rw [hstrays, Nat.add_zero, Nat.zero_add]
          _ ≤ 1 := by cases s.drains j <;> simp [DrainAt.mayOffer] }

theorem Ordered.resetPcm {s : Player} (h : s.Ordered) (hk : s.Kept) {t k : Nat} {rest : List Stmt}
    (hcalls : s.calls t = .resetPcm k :: rest) :
    (({ s with pendingPcm := [] } : Player).goOn t rest).Ordered := by
  have hsets : SetsUp (s.calls t) := by
    rw [hcalls]
    exact setsUp_cons.2 (.inl (by simp [Stmt.setUp?]))
  have hlatest : k + 1 = s.setUps := hk.latest t (.resetPcm k) (by simp [hcalls]) k rfl
  have hover : ∀ j, s.begun .outputDrainThread j → s.settled .outputDrainThread j := by
    intro j hbegun
    by_cases hj : j + 1 = s.setUps
    · obtain rfl : j = k := Nat.succ_injective (hj.trans hlatest.symm)
      have hmem := (hk.heads hcalls).resets j rfl
      have hfresh := hk.fresh t _ j (by rw [hcalls]; exact List.mem_cons_of_mem _ hmem)
      rw [hfresh] at hbegun
      cases hbegun
    · exact hk.thread_settled (.inr rfl) (hk.others t hsets _ j hbegun hj)
  have hempty := h.empty hover
  exact hempty.skip hcalls (by simp) ⟨rfl, rfl, rfl, rfl, rfl, rfl, rfl, rfl⟩ rfl rfl

/-- A header is accepted: the set-up before is retired, its queue was emptied by the same call. -/
theorem Ordered.acceptHeader {s : Player} (h : s.Ordered) (hk : s.Kept) {t : Nat}
    {header : StreamHeader} {rest : List Stmt} (hcalls : s.calls t = .acceptHeader header :: rest)
    (ha : (({ s with setUps := s.setUps + 1 } : Player).goOn t
      (.phase .connecting :: configure header s.setUps)).Alone) :
    (({ s with setUps := s.setUps + 1 } : Player).goOn t
      (.phase .connecting :: configure header s.setUps)).Ordered := by
  have hlast := (hk.heads hcalls).returns (.inr ⟨header, rfl⟩)
  rw [hlast] at hcalls
  refine h.congr ⟨rfl, rfl, rfl, rfl, rfl, rfl, rfl, rfl⟩ ?_
  have hnow : ∀ j < s.setUps, s.Retired j := by
    intro j hj
    exact .inr ⟨hj, t, ⟨header, by simp [hcalls]⟩, by simp [hcalls]⟩
  rintro j (hlt | ⟨hlt, t', ⟨header', hmem⟩, -⟩)
  · exact hnow j (Nat.lt_of_succ_lt_succ hlt)
  · -- nobody else is in a call
    exfalso
    have hsets : SetsUp (Function.update s.calls t
        (.phase .connecting :: configure header s.setUps) t) := by
      simp [SetsUp, configure, Stmt.setUp?]
    have heq : t' = t := ha t t' hsets (List.ne_nil_of_mem hmem)
    subst heq
    simp [configure] at hmem

theorem update_drains {s : Player} {k : Nat} {a : DrainAt} {P : Nat → DrainAt → Prop} (hk : P k a)
    (h : ∀ j ≠ k, P j (s.drains j)) (j : Nat) : P j (Function.update s.drains k a j) := by
  by_cases heq : j = k
  · subst heq
    simpa using hk
  · simpa [Function.update_of_ne heq] using h j heq

theorem update_writers {s : Player} {k : Nat} {a : WriterAt} {P : Nat → WriterAt → Prop}
    (hk : P k a) (h : ∀ j ≠ k, P j (s.writers j)) (j : Nat) :
    P j (Function.update s.writers k a j) := by
  by_cases heq : j = k
  · subst heq
    simpa using hk
  · simpa [Function.update_of_ne heq] using h j heq

theorem begun_other {s : Player} {x y : Field} {k j : Nat} (hxy : y ≠ x)
    (h : mark s.begun x k y j) : s.begun y j := by
  rcases mark_iff.1 h with hold | ⟨rfl, -⟩
  · exact hold
  · exact absurd rfl hxy

theorem Ordered.createDrain {s : Player} (h : s.Ordered) (hk : s.Kept) (ha : s.Alone) {t k : Nat}
    {rest : List Stmt} (hcalls : s.calls t = .create .outputDrainThread k :: rest) :
    (s.create .outputDrainThread k).Ordered := by
  have hsets : SetsUp (s.calls t) := by
    rw [hcalls]
    exact setsUp_cons.2 (.inl (by simp [Stmt.setUp?]))
  have hlatest : k + 1 = s.setUps :=
    hk.latest t (.create .outputDrainThread k) (by simp [hcalls]) k rfl
  have hnot : ¬s.Retired k := by
    rintro (hlt | ⟨-, t', ⟨header, hheader⟩, -⟩)
    · omega
    · exact hk.none_tears ha hsets t' (.inr (.inr ⟨header, hheader⟩))
  exact { h with
    drain := update_drains (P := fun j a => a ≠ .ended → mark s.begun .outputDrainThread k _ j)
      (fun _ => mark_self ..) fun j _ hj => mark_of (h.drain j hj)
    writer := fun j hj => mark_of (h.writer j hj)
    source := fun c hc => mark_of (h.source c hc)
    taker := fun t ht => mark_of (h.taker t ht)
    before := by
      intro j w hj hw hlt
      have hw' : s.begun .writerThread w := begun_other (by simp) hw
      rcases mark_iff.1 hj with hold | ⟨-, rfl⟩
      · exact h.before j w hold hw' hlt
      · exact hk.thread_settled (.inl rfl) (hk.others t hsets _ w hw' (by omega))
    late := by
      intro j hj
      have hne : j ≠ k := by
        rintro rfl
        exact hnot hj
      have hold := h.late j hj
      refine ⟨?_, ?_⟩
      · intro hbegun
        rcases mark_iff.1 hbegun with hb | ⟨-, rfl⟩
        · exact hold.1 hb
        · exact absurd rfl hne
      · change s.strays j + (s.waitingOf j).length +
          (Function.update s.drains k .checking j).mayOffer ≤ 1
        rw [Function.update_of_ne hne]
        exact hold.2 }

theorem Ordered.createWriter {s : Player} (h : s.Ordered) (hk : s.Kept) {t k : Nat}
    {rest : List Stmt} (hcalls : s.calls t = .create .writerThread k :: rest) :
    (s.create .writerThread k).Ordered := by
  have hlatest : k + 1 = s.setUps :=
    hk.latest t (.create .writerThread k) (by simp [hcalls]) k rfl
  have hfresh : s.begun .writerThread k = false := hk.fresh t .writerThread k (by simp [hcalls])
  have hended : s.writers k = .ended := by
    by_contra hat
    rw [h.writer k hat] at hfresh
    cases hfresh
  have htaken : s.takenBy k = [] := by
    rw [takenBy, List.map_eq_nil_iff, List.filter_eq_nil_iff]
    intro t ht hwriter
    have hbegun := h.taker t ht
    rw [of_decide_eq_true hwriter, hfresh] at hbegun
    cases hbegun
  have hplayed : s.played k = [] := by
    have haccepted := h.accepted k
    rw [hended, htaken] at haccepted
    rcases haccepted with hnil | ⟨front, chunk, written, htaken, -⟩
    · exact hnil
    · simp at htaken
  exact { h with
    drain := fun j hj => mark_of (h.drain j hj)
    writer := update_writers (P := fun j a => a ≠ .ended → mark s.begun .writerThread k _ j)
      (fun _ => mark_self ..) fun j _ hj => mark_of (h.writer j hj)
    source := fun c hc => mark_of (h.source c hc)
    taker := fun t ht => mark_of (h.taker t ht)
    before := by
      intro j w hj hw hlt
      have hj' : s.begun .outputDrainThread j := begun_other (by simp) hj
      rcases mark_iff.1 hw with hold | ⟨-, rfl⟩
      · exact h.before j w hj' hold hlt
      · have hold := hk.old _ j hj'
        omega
    last := update_writers (P := fun j a => s.overreach j + a.mayTake ≤ 1)
      (Nat.le_trans (Nat.add_le_add_left (Nat.zero_le _) _) (h.last k)) fun j _ => h.last j
    late := fun j hj => ⟨fun hb => (h.late j hj).1 (begun_other (by simp) hb), (h.late j hj).2⟩
    accepted := update_writers (P := fun j a => Accepted (s.played j) (s.takenBy j) a)
      (by simp [Accepted, hplayed, htaken]) fun j _ => h.accepted j }

/-- A decoder or a track is no thread. -/
theorem Ordered.createOther {s : Player} (h : s.Ordered) {x : Field} {k : Nat}
    (hdrain : x ≠ .outputDrainThread) (hwriter : x ≠ .writerThread) :
    (s.create x k).Ordered := by
  have hmarked : ({ s with begun := mark s.begun x k } : Player).Ordered :=
    { h with
      drain := fun j hj => mark_of (h.drain j hj)
      writer := fun j hj => mark_of (h.writer j hj)
      source := fun c hc => mark_of (h.source c hc)
      taker := fun t ht => mark_of (h.taker t ht)
      before := fun j w hj hw =>
        h.before j w (begun_other hdrain.symm hj) (begun_other hwriter.symm hw)
      late := fun j hj =>
        ⟨fun hb => (h.late j hj).1 (begun_other hdrain.symm hb), (h.late j hj).2⟩ }
  cases x with
  | outputDrainThread => exact absurd rfl hdrain
  | writerThread => exact absurd rfl hwriter
  | codec | track => exact hmarked

theorem Ordered.exec {s : Player} (h : s.Ordered) (hk : s.Kept) (ha : s.Alone) {t : Nat}
    {stmt : Stmt} {rest : List Stmt} (hcalls : s.calls t = stmt :: rest)
    (ha' : (s.exec t stmt rest).Alone) : (s.exec t stmt rest).Ordered := by
  cases stmt with
  | unlessRunning =>
    simp only [Player.exec]
    split
    · refine h.congr ⟨rfl, rfl, rfl, rfl, rfl, rfl, rfl, rfl⟩ fun j hj => ?_
      exact retired_goOn hj (by simp)
    · refine h.congr ⟨rfl, rfl, rfl, rfl, rfl, rfl, rfl, rfl⟩ fun j hj => ?_
      exact retired_goOn hj (by simp)
  | acceptHeader header =>
    simp only [Player.exec] at ha' ⊢
    split
    · refine h.congr ⟨rfl, rfl, rfl, rfl, rfl, rfl, rfl, rfl⟩ fun j hj => ?_
      exact retired_goOn hj (by simp)
    · next hrun =>
      rw [if_neg hrun] at ha'
      exact h.acceptHeader hk hcalls ha'
  | settle x =>
    have hsettled : (s.settle x).Ordered ∧ (s.settle x).setUps = s.setUps ∧
        (s.settle x).calls = s.calls := by
      unfold Player.settle
      cases s.held x with
      | none => exact ⟨h, rfl, rfl⟩
      | some k => exact ⟨h.settle, rfl, rfl⟩
    obtain ⟨hord, -, hcalls'⟩ := hsettled
    rw [← hcalls'] at hcalls
    exact hord.skip hcalls (by simp) ⟨rfl, rfl, rfl, rfl, rfl, rfl, rfl, rfl⟩ rfl rfl
  | clearPcm => exact h.clearPcm hk ha hcalls
  | resetPcm k => exact h.resetPcm hk hcalls
  | create x k =>
    have hcreated : (s.create x k).Ordered ∧ (s.create x k).calls = s.calls := by
      cases x with
      | outputDrainThread => exact ⟨h.createDrain hk ha hcalls, rfl⟩
      | writerThread => exact ⟨h.createWriter hk hcalls, rfl⟩
      | codec | track => exact ⟨h.createOther (by simp) (by simp), rfl⟩
    rw [← hcreated.2] at hcalls
    exact hcreated.1.skip hcalls (by simp) ⟨rfl, rfl, rfl, rfl, rfl, rfl, rfl, rfl⟩ rfl rfl
  | running | phase | lastError | channels | attempt | forget | store =>
    exact h.skip hcalls (by simp) ⟨rfl, rfl, rfl, rfl, rfl, rfl, rfl, rfl⟩ rfl rfl

/-! ## Threads -/

/-- A drain that goes on without offering. -/
theorem Ordered.drains {s : Player} (h : s.Ordered) {k : Nat} {a : DrainAt}
    {lastError : Option String} (hfrom : s.drains k ≠ .ended)
    (hchecked : a = .dequeuing → s.settled .outputDrainThread k = false)
    (hdequeued : ∀ pcm, a = .offering pcm → s.drains k = .dequeuing) :
    ({ s with lastError, drains := Function.update s.drains k a } : Player).Ordered := by
  have hbegun := h.drain k hfrom
  exact { h with
    drain := update_drains (P := fun j a => a ≠ .ended → s.begun .outputDrainThread j)
      (fun _ => hbegun) fun j _ => h.drain j
    late := by
      intro j hj
      obtain ⟨hset, hle⟩ := h.late j hj
      refine ⟨hset, ?_⟩
      refine Nat.le_trans (Nat.add_le_add_left ?_ _) hle
      refine update_drains (P := fun j a => s.Retired j → a.mayOffer ≤ (s.drains j).mayOffer)
        ?_ (fun _ _ _ => Nat.le_refl _) j hj
      intro hk
      cases ha : a with
      | dequeuing =>
        have hsettled := (h.late k hk).1 hbegun
        rw [hchecked ha] at hsettled
        cases hsettled
      | offering pcm => rw [hdequeued pcm ha]; exact Nat.le_refl _
      | checking | releasing | ended => exact Nat.zero_le _ }

theorem filter_setUp {l : List Chunk} {c : Chunk} {j : Nat} :
    (l ++ [c]).filter (·.setUp = j) =
      l.filter (·.setUp = j) ++ if c.setUp = j then [c] else [] := by
  rw [List.filter_append, List.filter_singleton]
  simp

theorem Ordered.offers {s : Player} (h : s.Ordered) {k : Nat} {pcm : List UInt8}
    (hfrom : s.drains k = .offering pcm) :
    ({ s with
      drains := Function.update s.drains k .releasing
      pendingPcm := s.pendingPcm ++ [⟨k, pcm⟩]
      offered := s.offered ++ [⟨k, pcm⟩] } : Player).Ordered := by
  have hbegun := h.drain k (by simp [hfrom])
  let chunk : Chunk := ⟨k, pcm⟩
  have hwaiting : ∀ j, (s.pendingPcm ++ [chunk]).filter (·.setUp = j) =
      s.waitingOf j ++ if k = j then [chunk] else [] := fun _ => filter_setUp
  have hoffered : ∀ j, (s.offered ++ [chunk]).filter (·.setUp = j) =
      s.offeredBy j ++ if k = j then [chunk] else [] := fun _ => filter_setUp
  exact { h with
    drain := update_drains (P := fun j a => a ≠ .ended → s.begun .outputDrainThread j)
      (fun _ => hbegun) fun j _ => h.drain j
    source := by
      intro c hc
      rcases List.mem_append.1 hc with hold | hnew
      · exact h.source c hold
      · rw [List.mem_singleton.1 hnew]
        exact hbegun
    once := by
      intro j
      rw [waitingOf, offeredBy, hwaiting, hoffered, ← List.append_assoc]
      exact (h.once j).append_right _
    kept := by
      intro j hset
      rw [waitingOf, offeredBy, hwaiting, hoffered, ← List.append_assoc]
      exact congrArg (· ++ _) (h.kept j hset)
    late := by
      intro j hj
      obtain ⟨hset, hle⟩ := h.late j hj
      refine ⟨hset, ?_⟩
      rw [waitingOf, hwaiting]
      by_cases heq : k = j
      · subst heq
        rw [hfrom] at hle
        simpa [Nat.add_assoc, DrainAt.mayOffer, strays] using hle
      · simpa [heq, Function.update_of_ne (Ne.symm heq), strays] using hle }

/-- A writer that goes on without taking or writing. -/
theorem Ordered.goesOn {s : Player} (h : s.Ordered) {k : Nat} {a : WriterAt}
    {lastError : Option String} (hfrom : s.writers k ≠ .ended)
    (hchecked : a = .polling → s.writers k = .checking ∧ s.settled .writerThread k = false)
    (hpolled : ∀ pcm written, a ≠ .writing pcm written)
    (hwritten : ∀ pcm written, s.writers k = .writing pcm written → a ≠ .ended →
      pcm.length ≤ written) :
    ({ s with lastError, writers := Function.update s.writers k a } : Player).Ordered := by
  have hbegun := h.writer k hfrom
  have hall : a ≠ .ended → s.played k = (s.takenBy k).flatMap (·.pcm) := by
    intro ha
    have haccepted := h.accepted k
    cases hat : s.writers k with
    | checking | polling =>
      rw [hat] at haccepted
      exact haccepted
    | ended => exact absurd hat hfrom
    | writing pcm written =>
      rw [hat] at haccepted
      obtain ⟨-, front, chunk, htaken, rfl, hplayed⟩ := haccepted
      rw [hplayed, htaken, List.take_of_length_le (hwritten _ _ hat ha), List.flatMap_append,
        List.flatMap_singleton]
  exact { h with
    writer := update_writers (P := fun j a => a ≠ .ended → s.begun .writerThread j)
      (fun _ => hbegun) fun j _ => h.writer j
    last := by
      refine update_writers (P := fun j a => s.overreach j + a.mayTake ≤ 1) ?_ fun j _ => h.last j
      cases ha : a with
      | polling => rw [h.first k (hchecked ha).2]; exact Nat.le_refl _
      | checking | writing | ended =>
        exact Nat.le_trans (Nat.add_le_add_left (Nat.zero_le _) _) (h.last k)
    accepted := by
      refine update_writers (P := fun j a => Accepted (s.played j) (s.takenBy j) a) ?_
        fun j _ => h.accepted j
      cases ha : a with
      | checking | polling => exact hall (by simp [ha])
      | writing pcm written => exact absurd ha (hpolled pcm written)
      | ended => exact (h.accepted k).ended }

theorem countP_taken {l : List Taken} {new : Taken} (p : Taken → Prop) [DecidablePred p] :
    (l ++ [new]).countP (fun t => decide (p t)) =
      l.countP (fun t => decide (p t)) + if p new then 1 else 0 := by
  rw [List.countP_append, List.countP_singleton]
  simp

/-- A writer takes the head of the queue. -/
theorem Ordered.takes {s : Player} (h : s.Ordered) {k : Nat} {chunk : Chunk}
    {pendingPcm : List Chunk} (hfrom : s.writers k = .polling)
    (hpending : s.pendingPcm = chunk :: pendingPcm) :
    ({ s with
      writers := Function.update s.writers k (.writing chunk.pcm 0)
      pendingPcm
      taken := s.taken ++ [⟨k, chunk⟩] } : Player).Ordered := by
  let new : Taken := ⟨k, chunk⟩
  have hbegun := h.writer k (by simp [hfrom])
  have hwaiting : ∀ j, s.waitingOf j =
      (if chunk.setUp = j then [chunk] else []) ++ pendingPcm.filter (·.setUp = j) := by
    intro j
    rw [waitingOf, hpending]
    by_cases heq : chunk.setUp = j <;> simp [heq]
  have hfrom' : ∀ j, ((s.taken ++ [new]).map (·.chunk)).filter (·.setUp = j) =
      s.takenFrom j ++ if chunk.setUp = j then [chunk] else [] := by
    intro j
    rw [List.map_append]
    exact filter_setUp
  have hmoved : ∀ j, ((s.taken ++ [new]).map (·.chunk)).filter (·.setUp = j) ++
      pendingPcm.filter (·.setUp = j) = s.takenFrom j ++ s.waitingOf j := by
    intro j
    rw [hfrom', hwaiting, List.append_assoc]
  -- the chunk was offered, so its drain was started
  have hsource : s.begun .outputDrainThread chunk.setUp := by
    apply h.source chunk
    have hmem : chunk ∈ s.takenFrom chunk.setUp ++ s.waitingOf chunk.setUp := by
      rw [hwaiting]
      simp
    exact List.mem_of_mem_filter ((h.once chunk.setUp).subset hmem)
  exact { h with
    writer := update_writers (P := fun j a => a ≠ .ended → s.begun .writerThread j)
      (fun _ => hbegun) fun j _ => h.writer j
    taker := by
      intro t ht
      rcases List.mem_append.1 ht with hold | hnew
      · exact h.taker t hold
      · rw [List.mem_singleton.1 hnew]
        exact hbegun
    once := by
      intro j
      rw [takenFrom, waitingOf, hmoved]
      exact h.once j
    kept := by
      intro j hset
      rw [takenFrom, waitingOf, hmoved]
      exact h.kept j hset
    first := by
      intro w hset
      have hold : s.overreach w = 0 := h.first w hset
      have hnew : ¬(k = w ∧ w < chunk.setUp) := by
        rintro ⟨rfl, hlt⟩
        have hsettled := h.before chunk.setUp k hsource hbegun hlt
        rw [hset] at hsettled
        cases hsettled
      rw [overreach, countP_taken fun t => t.writer = w ∧ w < t.chunk.setUp, if_neg hnew]
      exact hold
    last := by
      refine update_writers (P := fun j a => (s.taken ++ [new]).countP
        (fun t => t.writer = j ∧ j < t.chunk.setUp) + a.mayTake ≤ 1) ?_ ?_
      · have hle : s.overreach k + 1 ≤ 1 := by
          have hlast := h.last k
          rwa [hfrom] at hlast
        rw [countP_taken fun t => t.writer = k ∧ k < t.chunk.setUp,
          show WriterAt.mayTake (.writing chunk.pcm 0) = 0 from rfl, Nat.add_zero]
        refine Nat.le_trans (Nat.add_le_add_left ?_ _) hle
        split <;> simp
      · intro j hne
        have hnot : ¬(new.writer = j ∧ j < new.chunk.setUp) := fun hboth => hne hboth.1.symm
        rw [countP_taken fun t => t.writer = j ∧ j < t.chunk.setUp, if_neg hnot]
        exact h.last j
    late := by
      intro j hj
      obtain ⟨hset, hle⟩ := h.late j hj
      refine ⟨hset, Nat.le_trans (Nat.add_le_add_right ?_ _) hle⟩
      -- what strays was waiting
      rw [strays, countP_taken fun t => t.chunk.setUp = j ∧ j < t.writer, Nat.add_assoc]
      refine Nat.add_le_add_left ?_ _
      rw [hwaiting j, List.length_append]
      refine Nat.add_le_add_right ?_ _
      by_cases heq : chunk.setUp = j
      · rw [if_pos heq]
        split <;> simp
      · rw [if_neg heq, if_neg fun hboth => heq hboth.1]
        exact Nat.le_refl _
    accepted := by
      have hby : ∀ j, ((s.taken ++ [new]).filter (·.writer = j)).map (·.chunk) =
          s.takenBy j ++ if k = j then [chunk] else [] := by
        intro j
        rw [List.filter_append, List.map_append, List.filter_singleton]
        by_cases heq : k = j <;> simp [heq, new, takenBy]
      refine update_writers (P := fun j a => Accepted (s.played j)
        (((s.taken ++ [new]).filter (·.writer = j)).map (·.chunk)) a) ?_ ?_
      · have haccepted := h.accepted k
        rw [hfrom] at haccepted
        rw [hby, if_pos rfl]
        refine ⟨Nat.zero_le _, s.takenBy k, chunk, rfl, rfl, ?_⟩
        rw [List.take_zero, List.append_nil]
        exact haccepted
      · intro j hne
        rw [hby, if_neg hne.symm, List.append_nil]
        exact h.accepted j }

theorem Ordered.writes {s : Player} (h : s.Ordered) {k written n : Nat} {pcm : List UInt8}
    (hfrom : s.writers k = .writing pcm written) (hn : n ≤ pcm.length - written) :
    ({ s with
      writers := Function.update s.writers k (.writing pcm (written + n))
      played := Function.update s.played k (s.played k ++ (pcm.drop written).take n) } :
        Player).Ordered := by
  have hbegun := h.writer k (by simp [hfrom])
  exact { h with
    writer := update_writers (P := fun j a => a ≠ .ended → s.begun .writerThread j)
      (fun _ => hbegun) fun j _ => h.writer j
    last := update_writers (P := fun j a => s.overreach j + a.mayTake ≤ 1)
      (Nat.le_trans (Nat.add_le_add_left (Nat.zero_le _) _) (h.last k)) fun j _ => h.last j
    accepted := by
      intro j
      by_cases heq : j = k
      · subst heq
        have haccepted := h.accepted j
        rw [hfrom] at haccepted
        obtain ⟨hle, front, chunk, htaken, hchunk, hplayed⟩ := haccepted
        simp only [Function.update_self]
        refine ⟨by omega, front, chunk, htaken, hchunk, ?_⟩
        rw [hplayed, List.append_assoc, List.take_add]
      · simp only [Function.update_of_ne heq]
        exact h.accepted j }

theorem Ordered.threaded {s s' : Player} (h : s.Ordered) (hs : Threaded s s') : s'.Ordered := by
  cases hs with
  | drains hfrom _ hchecked hdequeued => exact h.drains hfrom (fun ha => (hchecked ha).2) hdequeued
  | offers hfrom => exact h.offers hfrom
  | goesOn hfrom hchecked hpolled hwritten => exact h.goesOn hfrom hchecked hpolled hwritten
  | takes hfrom hpending => exact h.takes hfrom hpending
  | writes hfrom hn _ => exact h.writes hfrom hn

end Player

/-! ## Runs -/

theorem ordered_init : init.Ordered := by
  constructor <;> simp [init, Player.Retired, Player.takenFrom, Player.waitingOf, Player.offeredBy,
    Player.overreach, Player.takenBy, WriterAt.mayTake, Accepted]

theorem ordered_step {s s' : Player} {a : Action} (h : s.Ordered) (hk : s.Kept ∧ s.Alone)
    (ha : machine.Reaching Player.Alone s a) (hstep : machine.step s a = some s') :
    s'.Ordered := by
  have ha' := ha s' hstep
  cases step_cases hstep with
  | calls c hidle =>
    refine h.congr ⟨rfl, rfl, rfl, rfl, rfl, rfl, rfl, rfl⟩ fun j hj => ?_
    apply Player.retired_goOn hj
    rintro ⟨header, hheader⟩ hclear
    cases c with
    | start => simp [Call.body] at hheader
    | stop | onStreamHeader | onSessionEnded => simp [Call.body, teardown] at hclear
  | executes hcalls => exact h.exec hk.1 hk.2 hcalls ha'
  | raises message hcalls hthrows =>
    refine h.congr ⟨rfl, rfl, rfl, rfl, rfl, rfl, rfl, rfl⟩ fun j hj => ?_
    apply Player.retired_goOn hj
    rintro ⟨header, hheader⟩
    simp [configureFailed, teardown] at hheader
  | threads hthread => exact h.threaded hthread

theorem ordered_run {as : List Action} {s : Player}
    (halone : machine.Along (machine.Reaching Player.Alone) as) (hrun : machine.run as = some s) :
    s.Ordered ∧ s.Kept := by
  have hrun' := machine.run_invariant_along (I := fun s => s.Ordered ∧ s.Kept ∧ s.Alone)
    ⟨ordered_init, kept_init, by simp [Player.Alone, machine, init]⟩
    (fun _ _ _ h ha hstep => ⟨ordered_step h.1 h.2 ha hstep, kept_step h.2 ha hstep⟩) halone hrun
  exact ⟨hrun'.1, hrun'.2.1⟩

/-- **What the tracks are given.** In any run of calls, drains and writers, step by step, with no
other call while one is in `configure`: the chunks of a decoder are taken in the order it put them
out, none twice, and until its drain is interrupted none is lost; a track has accepted whole chunks
in the order its writer took them, but for the last one, of which it may have a part; and at most
one chunk of a decoder goes to later tracks, at most one chunk of later decoders to a track. -/
theorem pcm_in_order {as : List Action} {s : Player}
    (halone : machine.Along (machine.Reaching Player.Alone) as) (hrun : machine.run as = some s) :
    (∀ j, (s.takenFrom j ++ s.waitingOf j).Sublist (s.offeredBy j)) ∧
    (∀ j, s.settled .outputDrainThread j = false →
      s.offeredBy j = s.takenFrom j ++ s.waitingOf j) ∧
    (∀ k, Accepted (s.played k) (s.takenBy k) (s.writers k)) ∧
    (∀ j, s.strays j ≤ 1) ∧ ∀ w, s.overreach w ≤ 1 := by
  obtain ⟨h, hk⟩ := ordered_run halone hrun
  refine ⟨h.once, h.kept, h.accepted, ?_, fun w => Nat.le_of_add_right_le (h.last w)⟩
  intro j
  by_cases hj : j + 1 < s.setUps
  · have hle := (h.late j (.inl hj)).2
    omega
  · rw [h.strays_eq_zero hk (Nat.le_of_not_lt hj)]
    exact Nat.zero_le _

/-- A drain that is torn down between its check and its `offer`: its chunk goes to the next track,
before the first one of the decoder that belongs to it. -/
def lateOffer : List Action :=
  let header : StreamHeader := ⟨1920, 1080, 60, "video/avc", 1, 48000, 2, 312⟩
  .call 0 .start :: List.replicate 3 (.next 0) ++
    .call 0 (.onStreamHeader header) :: List.replicate 28 (.next 0) ++
    [.drainCheck 0, .drainDequeue 0 (.buffer (some [1, 2])), .call 0 (.onStreamHeader header)] ++
    List.replicate 28 (.next 0) ++
    [.drainOffer 0, .drainCheck 1, .drainDequeue 1 (.buffer (some [3])), .drainOffer 1,
      .writerCheck 1, .writerPoll 1 .head, .writerWrite 1 (.returns 2), .writerCount 1 none,
      .writerCheck 1, .writerPoll 1 .head, .writerWrite 1 (.returns 1), .writerCount 1 none]

theorem pcm_in_order_lateOffer : ∃ s, machine.run lateOffer = some s ∧ s.strays 0 = 1 ∧
    s.played 1 = [1, 2, 3] ∧
    (∀ j, (s.takenFrom j ++ s.waitingOf j).Sublist (s.offeredBy j)) ∧
    (∀ j, s.settled .outputDrainThread j = false →
      s.offeredBy j = s.takenFrom j ++ s.waitingOf j) ∧
    (∀ k, Accepted (s.played k) (s.takenBy k) (s.writers k)) ∧
    (∀ j, s.strays j ≤ 1) ∧ ∀ w, s.overreach w ≤ 1 := by
  have hsome : (machine.run lateOffer).map (fun s => (s.strays 0, s.played 1)) =
      some (1, [1, 2, 3]) := by decide
  obtain ⟨s, hrun, hs⟩ := Option.map_eq_some_iff.1 hsome
  rw [Prod.mk.injEq] at hs
  exact ⟨s, hrun, hs.1, hs.2,
    pcm_in_order (along_alone_of_within (t := 0) (fun _ _ => rfl) (by decide)) hrun⟩

end PadPlay.Device.AudioThreads
