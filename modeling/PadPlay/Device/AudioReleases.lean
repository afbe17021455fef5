import PadPlay.Device.AudioLedger

/-!
# How often the audio side releases (`AudioStream.kt`)

`teardown` reads a field, releases what it holds, and only then forgets it. One teardown never does
this twice to one thing: between the two statements nothing reads the field. Two teardowns that
overlap (`stop` from the user interface, `onSessionEnded` from the loop that reads the connection)
can, and then a decoder or a track is released twice.
-/

namespace PadPlay.Device.AudioThreads

open PadPlay.Lib PadPlay.Device.Protocol

namespace Player

/-- What has been released is on the list of releases, and a caller is about to forget it if a field
still holds it. -/
structure Counted (s : Player) : Prop where
  settled : ∀ x k, s.settled x k ↔ (x, k) ∈ s.releases
  ahead : ∀ x k, s.held x = some k → s.settled x k → ∃ t q, s.calls t = .forget x :: q

/-- A step of one caller that releases nothing: what it stores has not been released, and what it
was about to forget is forgotten. -/
theorem Counted.frame {s s' : Player} (h : s.Counted) {t : Nat}
    (hothers : ∀ t' ≠ t, s'.calls t' = s.calls t') (hsettled : s'.settled = s.settled)
    (hreleases : s'.releases = s.releases)
    (hheld : ∀ x k, s'.held x = some k → s.settled x k → s.held x = some k)
    (hforget : ∀ x q, s.calls t = .forget x :: q → s'.held x = none) : s'.Counted where
  settled := by rw [hsettled, hreleases]; exact h.settled
  ahead := by
    intro x k hx hs
    rw [hsettled] at hs
    obtain ⟨t', q, hq⟩ := h.ahead x k (hheld x k hx hs) hs
    have ht : t' ≠ t := by
      rintro rfl
      rw [hforget x q hq] at hx
      cases hx
    exact ⟨t', q, (hothers t' ht).trans hq⟩

theorem Counted.congr {s s' : Player} (h : s.Counted) (hs : SameBooks s s') : s'.Counted where
  settled := by rw [hs.settled, hs.releases]; exact h.settled
  ahead := by rw [hs.held, hs.settled, hs.calls]; exact h.ahead

/-- A caller goes on from anywhere but the statement that forgets a field. -/
theorem Counted.goOn {s : Player} (h : s.Counted) {t : Nat} {p : List Stmt}
    (hforget : ∀ x q, s.calls t ≠ .forget x :: q) : (s.goOn t p).Counted :=
  h.frame (fun _ => goOn_others) rfl rfl (fun _ _ hx _ => hx)
    fun x q hq => absurd hq (hforget x q)

theorem Counted.settle {s : Player} (h : s.Counted) {t : Nat} {x : Field} {rest : List Stmt}
    (hcalls : s.calls t = .settle x :: rest) (hrest : ∃ q, rest = .forget x :: q) :
    ((s.settle x).goOn t rest).Counted := by
  obtain ⟨q, rfl⟩ := hrest
  unfold Player.settle
  cases hheld : s.held x with
  | none => exact h.goOn (by simp [hcalls])
  | some j =>
    refine ⟨?_, ?_⟩
    · intro y k
      change mark s.settled x j y k ↔ (y, k) ∈ s.releases ++ [(x, j)]
      rw [mark_iff, List.mem_append, List.mem_singleton, Prod.mk.injEq, h.settled]
    · intro y k hy hs
      rcases mark_iff.1 hs with hs | ⟨rfl, rfl⟩
      · obtain ⟨t', q', hq'⟩ := h.ahead y k hy hs
        have ht : t' ≠ t := by
          rintro rfl
          rw [hcalls] at hq'
          cases hq'
        exact ⟨t', q', (goOn_others ht).trans hq'⟩
      · exact ⟨t, q, by simp⟩

theorem Counted.forget {s : Player} (h : s.Counted) {t : Nat} {x : Field} {rest : List Stmt}
    (hcalls : s.calls t = .forget x :: rest) :
    (({ s with held := Function.update s.held x none } : Player).goOn t rest).Counted := by
  refine h.frame (t := t) (fun _ => goOn_others) rfl rfl ?_ ?_
  · intro y k hy _
    exact (held_update hy).resolve_left (by simp)
  · intro y q hq
    rw [hcalls] at hq
    cases hq
    exact Function.update_self ..

/-- What is stored is new: it has not been released. -/
theorem Counted.store {s : Player} (h : s.Counted) {t : Nat} {x : Field} {j : Nat}
    {rest : List Stmt} (hcalls : s.calls t = .store x j :: rest) (hnew : s.settled x j = false) :
    (({ s with held := Function.update s.held x (some j) } : Player).goOn t rest).Counted := by
  refine h.frame (t := t) (fun _ => goOn_others) rfl rfl ?_ (by simp [hcalls])
  intro y k hy hs
  rcases held_update hy with ⟨rfl, hk⟩ | hy
  · cases hk
    rw [hnew] at hs
    cases hs
  · exact hy

theorem Counted.exec {s : Player} (h : s.Counted) (hk : s.Kept) {t : Nat} {stmt : Stmt}
    {rest : List Stmt} (hcalls : s.calls t = stmt :: rest) : (s.exec t stmt rest).Counted := by
  have hgo : ∀ p, (∀ x, stmt ≠ .forget x) → (s.goOn t p).Counted := by
    intro p hstmt
    refine h.goOn fun x q hq => ?_
    rw [hcalls] at hq
    cases hq
    exact hstmt x rfl
  cases stmt with
  | settle x => exact h.settle hcalls ((hk.heads hcalls).discards x rfl)
  | forget x => exact h.forget hcalls
  | store x k => exact h.store hcalls (hk.unstored t x k (by simp [hcalls]))
  | unlessRunning =>
    simp only [Player.exec]
    split <;> exact hgo _ (by simp)
  | acceptHeader header =>
    simp only [Player.exec]
    split
    · exact hgo _ (by simp)
    · exact { hgo _ (by simp) with }
  | create x k => cases x <;> exact { hgo rest (by simp) with }
  | running | phase | lastError | clearPcm | resetPcm | channels | attempt =>
    exact { hgo rest (by simp) with }

/-- While no two calls overlap, what a teardown releases has not been released. -/
theorem Counted.once {s : Player} (h : s.Counted) (hsolo : s.Solo) {t : Nat} {x : Field}
    {rest : List Stmt} (hcalls : s.calls t = .settle x :: rest) {k : Nat}
    (hheld : s.held x = some k) : (x, k) ∉ s.releases := by
  intro hmem
  obtain ⟨t', q, hq⟩ := h.ahead x k hheld ((h.settled x k).2 hmem)
  have ht : t' = t := hsolo t t' (by simp [hcalls]) (by simp [hq])
  rw [ht, hcalls] at hq
  cases hq

end Player

/-! ## Runs -/

theorem counted_init : init.Counted := by
  constructor <;> simp [init]

theorem counted_step {s s' : Player} {a : Action} (hk : s.Kept) (h : s.Counted)
    (hstep : machine.step s a = some s') : s'.Counted := by
  cases step_cases hstep with
  | calls c hidle => exact h.goOn (by simp [hidle])
  | executes hcalls => exact h.exec hk hcalls
  | raises message hcalls hthrows =>
    refine h.frame (fun _ => goOn_others) rfl rfl (fun _ _ hx _ => hx) ?_
    intro x q hq
    rw [hcalls] at hq
    cases hq
    cases hthrows
  | threads hthread => exact h.congr hthread.sameBooks

theorem counted_run {as : List Action} {s : Player}
    (halone : machine.Along (machine.Reaching Player.Alone) as) (hrun : machine.run as = some s) :
    s.Counted := by
  have hrun' : (s.Kept ∧ s.Alone) ∧ s.Counted := by
    refine machine.run_invariant_along (I := fun s => (s.Kept ∧ s.Alone) ∧ s.Counted)
      ⟨⟨kept_init, by simp [Player.Alone, machine, init]⟩, counted_init⟩ ?_ halone hrun
    intro s a s' h ha hstep
    exact ⟨kept_step h.1 ha hstep, counted_step h.1.1 h.2 hstep⟩
  exact hrun'.2

/-- Only a teardown releases. -/
theorem releases_step {s s' : Player} {a : Action} (hstep : machine.step s a = some s') :
    s'.releases = s.releases ∨ ∃ t x rest k, s.calls t = .settle x :: rest ∧ s.held x = some k ∧
      s'.releases = s.releases ++ [(x, k)] := by
  cases step_cases hstep with
  | calls | raises => exact .inl rfl
  | threads hthread => exact .inl hthread.sameBooks.releases
  | @executes t stmt rest hcalls =>
    cases stmt with
    | settle x =>
      cases hheld : s.held x with
      | none => exact .inl (by simp [Player.exec, Player.settle, hheld, Player.goOn])
      | some k =>
        exact .inr ⟨t, x, rest, k, hcalls, hheld, by
          simp [Player.exec, Player.settle, hheld, Player.goOn]⟩
    | create x k => cases x <;> exact .inl rfl
    | unlessRunning | acceptHeader =>
      simp only [Player.exec]
      split <;> exact .inl rfl
    | running | phase | lastError | clearPcm | resetPcm | channels | attempt | forget | store =>
      exact .inl rfl

theorem nodup_run {as : List Action} {s : Player}
    (hsolo : machine.Along (machine.Reaching Player.Solo) as) (hrun : machine.run as = some s) :
    s.releases.Nodup := by
  have hinit : (init.Kept ∧ init.Solo) ∧ init.Counted ∧ init.releases.Nodup :=
    ⟨⟨kept_init, by simp [Player.Solo, init]⟩, counted_init, List.nodup_nil⟩
  have hrun' : (s.Kept ∧ s.Solo) ∧ s.Counted ∧ s.releases.Nodup := by
    refine machine.run_invariant_along
      (I := fun s => (s.Kept ∧ s.Solo) ∧ s.Counted ∧ s.releases.Nodup) hinit ?_ hsolo hrun
    rintro s a s' ⟨⟨hk, hs⟩, hc, hnodup⟩ ha hstep
    have halone : machine.Reaching Player.Alone s a := fun s' hstep => (ha s' hstep).alone
    refine ⟨⟨(kept_step ⟨hk, hs.alone⟩ halone hstep).1, ha s' hstep⟩, counted_step hk hc hstep, ?_⟩
    rcases releases_step hstep with heq | ⟨t, x, rest, k, hcalls, hheld, heq⟩
    · rw [heq]
      exact hnodup
    · rw [heq, List.nodup_append]
      refine ⟨hnodup, List.pairwise_singleton _ _, ?_⟩
      rintro p hp _ hq rfl
      rw [List.mem_singleton] at hq
      exact hc.once hs hcalls hheld (hq ▸ hp)
  exact hrun'.2.2

/-! ## The ledger -/

/-- **The ledger.** After any calls by any callers, interleaved statement by statement, with no
other call while one is in `configure`: when no call is in progress, each decoder, track and thread
ever made has been released (a thread: interrupted), or is in its field, or is a decoder or track
that an exception kept from its field; and the four fields are empty, or all of one set-up and none
of them released. If no two calls ever overlapped, nothing has been released twice. -/
theorem made_accounted {as : List Action} {s : Player}
    (halone : machine.Along (machine.Reaching Player.Alone) as) (hrun : machine.run as = some s)
    (hidle : ∀ t, s.calls t = []) :
    (∀ x k, s.begun x k → (x, k) ∈ s.releases ∨ s.held x = some k ∨
      (s.abandoned x k ∧ (x = .codec ∨ x = .track))) ∧
    ((∀ x, s.held x = none) ∨ ∃ k, ∀ x, s.held x = some k ∧ (x, k) ∉ s.releases) ∧
    (machine.Along (machine.Reaching Player.Solo) as → s.releases.Nodup) := by
  obtain ⟨h, -⟩ := kept_run halone hrun
  have hcounted := counted_run halone hrun
  refine ⟨?_, ?_, fun hsolo => nodup_run hsolo hrun⟩
  · intro x k hbegun
    rcases h.made x k hbegun with hs | hh | ⟨t, ht⟩ | ha
    · exact .inl ((hcounted.settled x k).1 hs)
    · exact .inr (.inl hh)
    · simp [hidle] at ht
    · exact .inr (.inr ⟨ha, h.lost x k ha⟩)
  · by_cases hnone : ∀ x, s.held x = none
    · exact .inl hnone
    · obtain ⟨x, hx⟩ := not_forall.1 hnone
      obtain ⟨k, hk⟩ := Option.ne_none_iff_exists'.1 hx
      refine .inr ⟨k, fun y => ?_⟩
      have hy : s.held y = some k := by
        rcases h.whole x y k hk with hy | ⟨t, ht⟩ | ⟨t, ht⟩
        · exact hy
        · simp [hidle] at ht
        · simp [hidle] at ht
      refine ⟨hy, ?_⟩
      intro hmem
      obtain ⟨t, q, hq⟩ := hcounted.ahead y k hy ((hcounted.settled y k).2 hmem)
      simp [hidle] at hq

/-- A session that is set up, a second one whose decoder cannot be configured, and a third one. -/
def threeSessions : List Action :=
  let header : StreamHeader := ⟨1920, 1080, 60, "video/avc", 1, 48000, 2, 312⟩
  .call 0 .start :: List.replicate 3 (.next 0) ++
    .call 0 (.onStreamHeader header) :: List.replicate 28 (.next 0) ++
    .call 0 (.onStreamHeader header) :: List.replicate 14 (.next 0) ++
    .throws 0 (some "unsupported") :: List.replicate 11 (.next 0) ++
    .call 0 (.onStreamHeader header) :: List.replicate 28 (.next 0)

theorem made_accounted_threeSessions : ∃ s, machine.run threeSessions = some s ∧
    ((.codec, 0) ∈ s.releases ∧ s.abandoned .codec 1 ∧ s.held .codec = some 2) ∧
    (∀ x k, s.begun x k → (x, k) ∈ s.releases ∨ s.held x = some k ∨
      (s.abandoned x k ∧ (x = .codec ∨ x = .track))) ∧
    ((∀ x, s.held x = none) ∨ ∃ k, ∀ x, s.held x = some k ∧ (x, k) ∉ s.releases) ∧
    s.releases.Nodup := by
  have hwithin : ∀ a ∈ threeSessions, a.Within 0 := by decide
  have hidle : ∀ t ≠ 0, machine.init.calls t = [] := fun _ _ => rfl
  have hsolo := along_solo_of_within hidle hwithin
  have hend : ∃ s, machine.run threeSessions = some s ∧ s.calls 0 = [] ∧
      (.codec, 0) ∈ s.releases ∧ s.abandoned .codec 1 ∧ s.held .codec = some 2 := by
    have hdec : ((machine.run threeSessions).map fun s => decide (s.calls 0 = [] ∧
        (.codec, 0) ∈ s.releases ∧ s.abandoned .codec 1 ∧ s.held .codec = some 2)) = some true := by
      decide
    obtain ⟨s, hrun, hs⟩ := Option.map_eq_some_iff.1 hdec
    exact ⟨s, hrun, of_decide_eq_true hs⟩
  obtain ⟨s, hrun, hcalls, hs⟩ := hend
  have hall : ∀ t, s.calls t = [] := by
    intro t
    by_cases ht : t = 0
    · rw [ht, hcalls]
    · rw [within_runFrom hwithin hrun ht, hidle t ht]
  obtain ⟨hmade, hheld, honce⟩ := made_accounted (along_alone_of_solo hsolo) hrun hall
  exact ⟨s, hrun, hs, hmade, hheld, honce hsolo⟩

-- `stop` comes between the release and the forgetting of `onSessionEnded`'s teardown
example : (machine.run (.call 0 .start :: List.replicate 3 (.next 0) ++
    .call 0 (.onStreamHeader ⟨1920, 1080, 60, "video/avc", 1, 48000, 2, 312⟩) ::
      List.replicate 28 (.next 0) ++
    .call 0 .onSessionEnded :: List.replicate 5 (.next 0) ++
    .call 1 .stop :: List.replicate 11 (.next 1) ++ List.replicate 5 (.next 0))).map
      (fun s => (s.calls 0, s.calls 1, s.releases.count (.codec, 0))) = some ([], [], 2) := by
  decide

end PadPlay.Device.AudioThreads
