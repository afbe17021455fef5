import PadPlay.Device.AcceptLoop

/-!
# What `stop` brings about (`VideoStream.stop`, `acceptLoop`)

`stop` does not wait for the thread of `acceptLoop`. It clears `running`, closes the client's socket
and then the server's, and the thread finds out on its own: at its next look at the flag, or from an
`accept` that throws. It does so as long as `serverSocket` is the server it waits on, which is what
`Serving` says; with this, no host is accepted behind `stop` and the thread leaves in a few steps
(`stop_ends`).
-/

namespace PadPlay.Device.AcceptLoop

open PadPlay.Lib

/-- Between `bind` and the end of `use`. -/
def Position.listens : Position → Bool
  | .inner | .accepting | .session | .hangingUp | .unbinding => true
  | _ => false

/-- The most steps a thread takes to the end of `acceptLoop`, once `running` is false and its
server is closed. -/
def Position.left : Position → Nat
  | .exited => 0
  | .outer | .cleanup true => 1
  | .caught | .cleanup false => 2
  | .accepting | .sleeping | .unbinding => 3
  | .inner => 4
  | .binding | .hangingUp => 5
  | .session => 6

theorem Position.left_le (p : Position) : p.left ≤ 6 := by
  cases p with
  | cleanup returns => cases returns <;> decide
  | _ => decide

theorem Position.alive_of_listens {p : Position} (h : p.listens = true) : p ≠ .exited := by
  rintro rfl
  cases h

/-- A step of thread `i`. -/
def Action.isOf (i : Nat) : Action → Bool
  | .ui _ => false
  | .thread j _ => j == i

namespace VideoStream

/-- What thread `i` has left; nothing, if there is no such thread. -/
def left (v : VideoStream) (i : Nat) : Nat := (v.positions[i]?.map (·.left)).getD 0

theorem left_of_getElem? {v : VideoStream} {i : Nat} {t : Acceptor}
    (ht : v.threads[i]? = some t) : v.left i = t.position.left := by
  rw [left, positions, List.getElem?_map, ht]
  rfl

theorem left_le (v : VideoStream) (i : Nat) : v.left i ≤ 6 := by
  unfold left
  cases v.positions[i]? with
  | none => exact Nat.zero_le _
  | some p => exact p.left_le

/-! ## What one step of a thread does -/

/-- A step of thread `i`, which is `t`, by what it does to the sockets. -/
inductive LoopStep (v : VideoStream) (i : Nat) (t : Acceptor) : LoopAction → VideoStream → Prop
  | moves {a p} (hlistens : t.position.listens = true → p.listens = true)
      (hrunning : v.running = false → p ≠ .accepting ∧ p.left < t.position.left)
      (haccept : a ≠ .accept true) :
      LoopStep v i t a { v with threads := v.threads.set i { t with position := p } }
  | binds (hposition : t.position = .binding) :
      LoopStep v i t (.bind true) { v with
        serverSocket := some i
        threads := v.threads.set i { t with position := .inner, server := true } }
  | refuses (hposition : t.position = .accepting) :
      LoopStep v i t (.accept false) { v with
        threads := v.threads.set i { t with position := .caught, server := false } }
  | accepts (hposition : t.position = .accepting) (hserver : t.server = true) :
      LoopStep v i t (.accept true) { v with
        client := some i
        threads := v.threads.set i { t with position := .session, socket := true } }
  | hangsUp (hposition : t.position = .hangingUp) :
      LoopStep v i t .go { v with
        client := none
        threads := v.threads.set i { t with position := .inner, socket := false } }
  | unbinds (hposition : t.position = .unbinding) :
      LoopStep v i t .go { v with
        threads := v.threads.set i { t with position := .cleanup false, server := false } }
  | cleansUp {returns p} (hposition : t.position = .cleanup returns)
      (hp : p = if returns then .exited else .outer) :
      LoopStep v i t .go { v with
        serverSocket := none
        threads := v.threads.set i { t with position := p } }

theorem loopStep_cases {v v' : VideoStream} {i : Nat} {t : Acceptor} {a : LoopAction}
    (hs : v.loopStep i t a = some v') : LoopStep v i t a v' := by
  unfold loopStep at hs
  cases a with
  | check =>
    obtain ⟨p, hp, rfl⟩ := Option.map_eq_some_iff.1 hs
    refine .moves ?_ ?_ (by simp)
    all_goals
      cases hposition : t.position <;>
        simp only [hposition, reduceCtorEq, Option.some.injEq] at hp <;> subst hp <;>
        cases v.running <;> simp [Position.listens, Position.left]
  | bind ok =>
    simp only at hs
    split at hs
    · next hposition =>
      cases ok with
      | false =>
        cases hs
        refine .moves ?_ ?_ (by simp) <;> simp [hposition, Position.listens, Position.left]
      | true =>
        simp only [Bool.not_true, Bool.false_eq_true, if_false] at hs
        split at hs
        · cases hs
          exact .binds hposition
        · cases hs
    · cases hs
  | accept ok =>
    simp only at hs
    split at hs
    · next hposition =>
      cases ok with
      | false =>
        cases hs
        exact .refuses hposition
      | true =>
        simp only [Bool.not_true, Bool.false_eq_true, if_false] at hs
        split at hs
        · next hserver =>
          cases hs
          exact .accepts hposition hserver
        · cases hs
    · cases hs
  | sessionEnds =>
    simp only at hs
    split at hs
    · next hposition =>
      cases hs
      refine .moves ?_ ?_ (by simp) <;> simp [hposition, Position.listens, Position.left]
    · cases hs
  | go =>
    simp only at hs
    split at hs
    · next hposition =>
      cases hs
      exact .hangsUp hposition
    · next hposition =>
      cases hs
      exact .unbinds hposition
    · next hposition =>
      cases hs
      refine .moves ?_ ?_ (by simp) <;> simp [hposition, Position.listens, Position.left]
    · next hposition =>
      cases hs
      exact .cleansUp hposition rfl
    · cases hs

theorem exists_loopStep {v v' : VideoStream} {i : Nat} {a : LoopAction}
    (hs : toggling.step v (.thread i a) = some v') :
    ∃ t, v.threads[i]? = some t ∧ v.loopStep i t a = some v' := by
  simp only [toggling] at hs
  split at hs
  · cases hs
  · next t ht => exact ⟨t, ht, hs⟩

/-- The thread that moves has not left the loop. -/
theorem alive_of_loopStep {v v' : VideoStream} {i : Nat} {t : Acceptor} {a : LoopAction}
    (ht : v.threads[i]? = some t) (hs : v.loopStep i t a = some v') : t.position ≠ .exited := by
  obtain ⟨old, new, hold, hlive, -⟩ := (loopStep_moves ht hs).position
  rw [positions, List.getElem?_map, ht] at hold
  cases hold
  exact hlive

/-! ## What one step of the UI thread does -/

/-- Every server that is open now was open before, and its thread has not moved. -/
def Closes (threads threads' : List Acceptor) : Prop :=
  ∀ (i : Nat) (t : Acceptor), threads'[i]? = some t → t.server = true →
    ∃ u, threads[i]? = some u ∧ u.server = true ∧ u.position = t.position

theorem Closes.refl (threads : List Acceptor) : Closes threads threads := by
  intro i t ht hserver
  exact ⟨t, ht, hserver, rfl⟩

theorem closes_modify (threads : List Acceptor) (k : Nat) {f : Acceptor → Acceptor}
    (hposition : ∀ t, (f t).position = t.position)
    (hserver : ∀ t, (f t).server = true → t.server = true) :
    Closes threads (threads.modify k f) := by
  intro i t ht hopen
  rw [List.getElem?_modify] at ht
  obtain ⟨u, hu, rfl⟩ := Option.map_eq_some_iff.1 ht
  refine ⟨u, hu, ?_⟩
  split at hopen
  · next hki =>
    rw [if_pos hki]
    exact ⟨hserver u hopen, (hposition u).symm⟩
  · next hki =>
    rw [if_neg hki]
    exact ⟨hopen, rfl⟩

/-- But for the thread `start` spawns, the UI thread opens nothing and moves nobody. -/
theorem uiStep_closes {v v' : VideoStream} {a : UiAction} (ha : a ≠ .spawn)
    (hs : v.uiStep a = some v') : Closes v.threads v'.threads ∧ v'.positions = v.positions ∧
      v'.serverSocket = v.serverSocket := by
  unfold VideoStream.uiStep at hs
  cases a with
  | start =>
    simp only at hs
    split at hs
    · cases hs
      split <;> exact ⟨.refl _, rfl, rfl⟩
    · cases hs
  | spawn => exact absurd rfl ha
  | stop =>
    simp only at hs
    split at hs
    · cases hs
      exact ⟨.refl _, rfl, rfl⟩
    · cases hs
  | closeClient =>
    simp only at hs
    split at hs
    · cases hs
      unfold positions
      split
      · exact ⟨.refl _, rfl, rfl⟩
      · exact ⟨closes_modify _ _ (fun _ => rfl) fun _ h => h,
          positions_modify _ _ _ fun _ => rfl, rfl⟩
    · cases hs
  | closeServer =>
    simp only at hs
    split at hs
    · cases hs
      unfold positions
      split
      · exact ⟨.refl _, rfl, rfl⟩
      · refine ⟨closes_modify _ _ (fun _ => rfl) ?_, positions_modify _ _ _ fun _ => rfl, rfl⟩
        intro t h
        cases h
    · cases hs
  | interrupt =>
    simp only at hs
    split at hs
    · cases hs
      exact ⟨.refl _, rfl, rfl⟩
    · cases hs

/-! ## `serverSocket` is the server that is open -/

structure Serving (v : VideoStream) : Prop where
  server : ∀ (i : Nat) (t : Acceptor), v.threads[i]? = some t → t.server = true →
    t.position.listens = true ∧ v.serverSocket = some i
  stopping : v.ui = .closingClient ∨ v.ui = .closingServer → v.running = false

theorem serving_init : Serving init := by
  constructor
  · intro i t ht
    cases ht
  · rintro (h | h) <;> cases h

/-- Only the thread that moves can have a server: it is alive, and whoever has one is alive. -/
theorem Serving.set {v u : VideoStream} {i : Nat} {t t' : Acceptor} (h : Serving v)
    (hone : OneAlive v) (ht : v.threads[i]? = some t) (hlive : t.position ≠ .exited)
    (hthreads : u.threads = v.threads.set i t') (hrunning : u.running = v.running)
    (hui : u.ui = v.ui)
    (hown : t'.server = true → t'.position.listens = true ∧ u.serverSocket = some i) :
    Serving u := by
  constructor
  · intro j x hx hserver
    rw [hthreads] at hx
    by_cases hij : i = j
    · subst hij
      have hbound : i < v.threads.length := (List.getElem?_eq_some_iff.1 ht).1
      rw [List.getElem?_set_self hbound] at hx
      cases hx
      exact hown hserver
    · rw [List.getElem?_set_ne hij] at hx
      have hother : x.position ≠ .exited :=
        Position.alive_of_listens (h.server j x hx hserver).1
      refine absurd (hone.one i j t.position x.position ?_ ?_ hlive hother) hij
      · rw [positions, List.getElem?_map, ht]
        rfl
      · rw [positions, List.getElem?_map, hx]
        rfl
  · rw [hui, hrunning]
    exact h.stopping

theorem Serving.loopStep {v v' : VideoStream} {i : Nat} {t : Acceptor} {a : LoopAction}
    (h : Serving v) (hone : OneAlive v) (ht : v.threads[i]? = some t)
    (hs : v.loopStep i t a = some v') : Serving v' := by
  have hlive := alive_of_loopStep ht hs
  have hown := h.server i t ht
  cases loopStep_cases hs with
  | moves hlistens =>
    refine h.set hone ht hlive rfl rfl rfl ?_
    intro hserver
    exact ⟨hlistens (hown hserver).1, (hown hserver).2⟩
  | binds => exact h.set hone ht hlive rfl rfl rfl fun _ => ⟨rfl, rfl⟩
  | refuses =>
    refine h.set hone ht hlive rfl rfl rfl ?_
    intro hserver
    cases hserver
  | accepts _ hserver =>
    exact h.set hone ht hlive rfl rfl rfl fun _ => ⟨rfl, (hown hserver).2⟩
  | hangsUp => exact h.set hone ht hlive rfl rfl rfl fun hserver => ⟨rfl, (hown hserver).2⟩
  | unbinds =>
    refine h.set hone ht hlive rfl rfl rfl ?_
    intro hserver
    cases hserver
  | cleansUp hposition =>
    refine h.set hone ht hlive rfl rfl rfl ?_
    intro hserver
    have hlistens := (hown hserver).1
    rw [hposition] at hlistens
    cases hlistens

theorem Serving.uiStep {v v' : VideoStream} {a : UiAction} (h : Serving v)
    (hs : v.uiStep a = some v') : Serving v' := by
  have hserver : ∀ (i : Nat) (t : Acceptor), v'.threads[i]? = some t → t.server = true →
      t.position.listens = true ∧ v'.serverSocket = some i := by
    intro i t ht hopen
    by_cases ha : a = .spawn
    · subst ha
      simp only [VideoStream.uiStep] at hs
      split at hs
      · cases hs
        rw [List.getElem?_append] at ht
        split at ht
        · exact h.server i t ht hopen
        · rw [List.mem_singleton.1 (List.mem_of_getElem? ht)] at hopen
          cases hopen
      · cases hs
    · obtain ⟨hcloses, -, hsocket⟩ := uiStep_closes ha hs
      obtain ⟨u, hu, huopen, hposition⟩ := hcloses i t ht hopen
      rw [hsocket, ← hposition]
      exact h.server i u hu huopen
  refine ⟨hserver, ?_⟩
  intro hclosing
  unfold VideoStream.uiStep at hs
  cases a with
  | start =>
    simp only at hs
    split at hs
    · next hidle =>
      cases hs
      split at hclosing
      · rw [hidle] at hclosing
        rcases hclosing with h | h <;> cases h
      · rcases hclosing with h | h <;> cases h
    · cases hs
  | stop =>
    simp only at hs
    split at hs
    · cases hs
      rfl
    · cases hs
  | closeClient =>
    simp only at hs
    split at hs
    · next hui =>
      cases hs
      exact h.stopping (.inl hui)
    · cases hs
  | spawn | closeServer | interrupt =>
    simp only at hs
    split at hs
    · cases hs
      rcases hclosing with h | h <;> cases h
    · cases hs

theorem serving_run {actions : List Action} {v : VideoStream}
    (hclean : toggling.Along StartsClean actions) (hrun : toggling.run actions = some v) :
    OneAlive v ∧ Serving v := by
  refine toggling.run_invariant_along (C := StartsClean) (I := fun v => OneAlive v ∧ Serving v)
    ⟨oneAlive_init, serving_init⟩ ?_ hclean hrun
  rintro s a s' ⟨hone, hserving⟩ hclean hs
  refine ⟨hone.step hclean hs, ?_⟩
  cases a with
  | ui a => exact hserving.uiStep hs
  | thread i a =>
    obtain ⟨t, ht, hs⟩ := exists_loopStep hs
    exact hserving.loopStep hone ht hs

/-! ## Behind `stop` -/

/-- Told to stop, with no server left for a thread to wait on. -/
structure Stopped (v : VideoStream) : Prop where
  running : v.running = false
  ui : v.ui ≠ .spawning
  closed : ∀ t ∈ v.threads, t.position = .accepting → t.server = false

/-- The server `stop` closes is the only one a thread can be waiting on. -/
theorem Serving.stopped {v v' : VideoStream} (h : Serving v)
    (hs : v.uiStep .closeServer = some v') : Stopped v' := by
  simp only [VideoStream.uiStep] at hs
  split at hs
  · next hui =>
    cases hs
    refine ⟨h.stopping (.inr hui), by simp, ?_⟩
    intro t ht _
    obtain ⟨j, hj⟩ := List.getElem?_of_mem ht
    split at hj
    · next hnone =>
      cases hserver : t.server with
      | false => rfl
      | true =>
        have hsome := (h.server j t hj hserver).2
        rw [hnone] at hsome
        cases hsome
    · next i hsome =>
      rw [List.getElem?_modify] at hj
      obtain ⟨u, hu, rfl⟩ := Option.map_eq_some_iff.1 hj
      by_cases hij : i = j
      · rw [if_pos hij]
      · rw [if_neg hij]
        cases hserver : u.server with
        | false => rfl
        | true =>
          have hother := (h.server j u hu hserver).2
          rw [hsome, Option.some.injEq] at hother
          exact absurd hother hij
  · cases hs

/-- A step of a thread behind `stop`: it accepts no host, and it has less left. -/
theorem Stopped.loopStep_cases {v v' : VideoStream} {i : Nat} {t : Acceptor} {a : LoopAction}
    (h : Stopped v) (ht : v.threads[i]? = some t) (hs : v.loopStep i t a = some v') :
    a ≠ .accept true ∧ v'.running = v.running ∧ v'.ui = v.ui ∧ ∃ t',
      v'.threads = v.threads.set i t' ∧ t'.position ≠ .accepting ∧
      t'.position.left < t.position.left := by
  cases VideoStream.loopStep_cases hs with
  | moves _ hrunning haccept =>
    obtain ⟨haccepting, hleft⟩ := hrunning h.running
    exact ⟨haccept, rfl, rfl, _, rfl, haccepting, hleft⟩
  | binds hposition =>
    refine ⟨by simp, rfl, rfl, _, rfl, by simp, ?_⟩
    simp [hposition, Position.left]
  | refuses hposition =>
    refine ⟨by simp, rfl, rfl, _, rfl, by simp, ?_⟩
    simp [hposition, Position.left]
  | accepts hposition hserver =>
    have hclosed := h.closed t (List.mem_of_getElem? ht) hposition
    rw [hserver] at hclosed
    cases hclosed
  | hangsUp hposition =>
    refine ⟨by simp, rfl, rfl, _, rfl, by simp, ?_⟩
    simp [hposition, Position.left]
  | unbinds hposition =>
    refine ⟨by simp, rfl, rfl, _, rfl, by simp, ?_⟩
    simp [hposition, Position.left]
  | @cleansUp returns p hposition hp =>
    subst hp
    refine ⟨by simp, rfl, rfl, _, rfl, ?_, ?_⟩
    · cases returns <;> simp
    · cases returns <;> simp [hposition, Position.left]

theorem Stopped.uiStep {v v' : VideoStream} {a : UiAction} (h : Stopped v) (ha : a ≠ .start)
    (hs : v.uiStep a = some v') : Stopped v' ∧ v'.positions = v.positions := by
  have hspawn : a ≠ .spawn := by
    rintro rfl
    simp only [VideoStream.uiStep] at hs
    split at hs
    · next hui => exact h.ui hui
    · cases hs
  obtain ⟨hcloses, hpositions, -⟩ := uiStep_closes hspawn hs
  have hclosed : ∀ t ∈ v'.threads, t.position = .accepting → t.server = false := by
    intro t ht haccepting
    obtain ⟨j, hj⟩ := List.getElem?_of_mem ht
    cases hserver : t.server with
    | false => rfl
    | true =>
      obtain ⟨u, hu, huopen, hposition⟩ := hcloses j t hj hserver
      have hno := h.closed u (List.mem_of_getElem? hu) (hposition.trans haccepting)
      rw [huopen] at hno
      cases hno
  refine ⟨?_, hpositions⟩
  unfold VideoStream.uiStep at hs
  cases a with
  | start => exact absurd rfl ha
  | spawn => exact absurd rfl hspawn
  | stop =>
    simp only at hs
    split at hs
    · cases hs
      exact ⟨rfl, by simp, hclosed⟩
    · cases hs
  | closeClient | closeServer | interrupt =>
    simp only at hs
    split at hs
    · cases hs
      exact ⟨h.running, by simp, hclosed⟩
    · cases hs

theorem Stopped.step {v v' : VideoStream} {a : Action} (h : Stopped v) (ha : a ≠ .ui .start)
    (hs : toggling.step v a = some v') : Stopped v' := by
  cases a with
  | ui a => exact (h.uiStep (by simpa using ha) hs).1
  | thread i a =>
    obtain ⟨t, ht, hs⟩ := exists_loopStep hs
    obtain ⟨-, hrunning, hui, t', hthreads, haccepting, -⟩ := h.loopStep_cases ht hs
    refine ⟨hrunning.trans h.running, hui ▸ h.ui, ?_⟩
    intro x hx
    rw [hthreads] at hx
    rcases List.mem_or_eq_of_mem_set hx with hx | rfl
    · exact h.closed x hx
    · intro habsurd
      exact absurd habsurd haccepting

/-- A step of thread `i` takes from what it has left, and no other step gives it any. -/
theorem Stopped.left_step {v v' : VideoStream} {a : Action} (h : Stopped v) (ha : a ≠ .ui .start)
    (hs : toggling.step v a = some v') (i : Nat) :
    v'.left i + (if a.isOf i then 1 else 0) ≤ v.left i := by
  cases a with
  | ui a =>
    have hpositions := (h.uiStep (by simpa using ha) hs).2
    simp [left, hpositions, Action.isOf]
  | thread j a =>
    obtain ⟨t, ht, hs⟩ := exists_loopStep hs
    obtain ⟨-, -, -, t', hthreads, -, hlt⟩ := h.loopStep_cases ht hs
    by_cases hij : j = i
    · subst hij
      have hbound : j < v.threads.length := (List.getElem?_eq_some_iff.1 ht).1
      have ht' : v'.threads[j]? = some t' := by
        rw [hthreads, List.getElem?_set_self hbound]
      rw [left_of_getElem? ht, left_of_getElem? ht', if_pos (by simp [Action.isOf])]
      exact hlt
    · have hpositions : v'.positions[i]? = v.positions[i]? := by
        rw [positions, hthreads, positions_set, List.getElem?_set_ne hij]
      simp [left, hpositions, Action.isOf, hij]

theorem Stopped.accepts_none {v v' : VideoStream} {i : Nat} {a : LoopAction} (h : Stopped v)
    (hs : toggling.step v (.thread i a) = some v') : a ≠ .accept true := by
  obtain ⟨t, ht, hs⟩ := exists_loopStep hs
  exact (h.loopStep_cases ht hs).1

/-- A thread that has not left the loop has a step, whatever the flag and the sockets are. -/
theorem exists_turn (v : VideoStream) {i : Nat} (h : 0 < v.left i) :
    ∃ a, (toggling.step v (.thread i a)).isSome = true := by
  have hturn (t : Acceptor) (hlive : t.position ≠ .exited) :
      ∃ a, (v.loopStep i t a).isSome = true := by
    cases hposition : t.position with
    | outer => exact ⟨.check, by simp [loopStep, hposition]⟩
    | binding => exact ⟨.bind false, by simp [loopStep, hposition]⟩
    | inner => exact ⟨.check, by simp [loopStep, hposition]⟩
    | accepting => exact ⟨.accept false, by simp [loopStep, hposition]⟩
    | session => exact ⟨.sessionEnds, by simp [loopStep, hposition]⟩
    | hangingUp => exact ⟨.go, by simp [loopStep, hposition]⟩
    | unbinding => exact ⟨.go, by simp [loopStep, hposition]⟩
    | caught => exact ⟨.check, by simp [loopStep, hposition]⟩
    | sleeping => exact ⟨.go, by simp [loopStep, hposition]⟩
    | cleanup returns => exact ⟨.go, by simp [loopStep, hposition]⟩
    | exited => exact absurd hposition hlive
  cases ht : v.threads[i]? with
  | none =>
    rw [left, positions, List.getElem?_map, ht] at h
    exact absurd h (Nat.lt_irrefl 0)
  | some t =>
    simp only [toggling, ht]
    apply hturn
    intro hexited
    rw [left_of_getElem? ht, hexited] at h
    exact absurd h (Nat.lt_irrefl 0)

/-- **The accept loop ends.** When no `start` has found a thread of an earlier one alive, `stop` is
final once it has closed the server: until the next `start` no host is accepted, and every thread
takes at most six more steps, and has one it can take until it is out of `acceptLoop`. -/
theorem stop_ends {before after : List Action} {v : VideoStream}
    (hclean : toggling.Along StartsClean before)
    (hrun : toggling.run (before ++ .ui .closeServer :: after) = some v)
    (hafter : .ui .start ∉ after) (i : Nat) :
    .thread i (.accept true) ∉ after ∧ v.left i + after.countP (·.isOf i) ≤ 6 ∧
      (0 < v.left i → ∃ a, (toggling.step v (.thread i a)).isSome = true) := by
  obtain ⟨u, hbefore, hrun⟩ := toggling.runFrom_append.1 hrun
  obtain ⟨w, hclose, hrun⟩ := toggling.runFrom_cons.1 hrun
  have hstopped : Stopped w := (serving_run hclean hbefore).2.stopped hclose
  have hC : toggling.AlongFrom (fun _ a => a ≠ .ui .start) w after := by
    apply toggling.alongFrom_of_mem
    rintro a ha rfl
    exact hafter ha
  have hstep : ∀ s a s', Stopped s → a ≠ .ui .start → toggling.step s a = some s' → Stopped s' :=
    fun _ _ _ h ha hs => h.step ha hs
  refine ⟨?_, ?_, exists_turn v⟩
  · have hcount := toggling.runFrom_countdown_along (f := fun _ => 0)
      (p := fun a => a = .thread i (.accept true)) hstep ?_ hstopped hC hrun
    · rw [Nat.zero_add, Nat.le_zero, List.countP_eq_zero] at hcount
      intro haccept
      simpa using hcount _ haccept
    · intro s a s' h _ hs
      have hne : a ≠ .thread i (.accept true) := by
        rintro rfl
        exact h.accepts_none hs rfl
      simp [hne]
  · have hcount := toggling.runFrom_countdown_along (f := fun v => v.left i)
      (p := fun a => a.isOf i) hstep (fun s a s' h ha hs => h.left_step ha hs i) hstopped hC hrun
    exact Nat.le_trans hcount (w.left_le i)

/-- Stopped while it waits for a host: `accept` throws, and the thread returns. -/
theorem stop_ends_waiting : ∃ v,
    toggling.run ([.ui .start, .ui .spawn, .thread 0 .check, .thread 0 (.bind true),
      .thread 0 .check, .ui .stop, .ui .closeClient] ++ .ui .closeServer ::
      [.thread 0 (.accept false), .ui .interrupt, .thread 0 .check, .thread 0 .go]) = some v ∧
    v.positions = [.exited] ∧
    .thread 0 (.accept true) ∉ ([.thread 0 (.accept false), .ui .interrupt, .thread 0 .check,
      .thread 0 .go] : List Action) ∧
    v.left 0 + [Action.thread 0 (.accept false), .ui .interrupt, .thread 0 .check,
      .thread 0 .go].countP (·.isOf 0) ≤ 6 := by
  obtain ⟨v, hrun, hexited⟩ : ∃ v,
      toggling.run ([.ui .start, .ui .spawn, .thread 0 .check, .thread 0 (.bind true),
        .thread 0 .check, .ui .stop, .ui .closeClient] ++ .ui .closeServer ::
        [.thread 0 (.accept false), .ui .interrupt, .thread 0 .check, .thread 0 .go]) = some v ∧
      v.positions = [.exited] :=
    ⟨_, rfl, rfl⟩
  obtain ⟨haccept, hcount, -⟩ := stop_ends (by decide) hrun (by decide) 0
  exact ⟨v, hrun, hexited, haccept, hcount⟩

/-- The switch is turned off and on while a client is connected. The first thread clears
`serverSocket` behind the second one's `bind`: the next `stop` closes nothing, and the second thread
accepts a host behind it. -/
example :
    let toggle : List Action := [.ui .start, .ui .spawn, .thread 0 .check, .thread 0 (.bind true),
      .thread 0 .check, .thread 0 (.accept true), .ui .stop, .ui .closeClient, .ui .closeServer,
      .ui .interrupt, .ui .start, .ui .spawn]
    let serve : List Action := [.thread 1 .check, .thread 1 (.bind true), .thread 1 .check,
      .thread 0 .sessionEnds, .thread 0 .go, .thread 0 .check, .thread 0 (.accept false),
      .thread 0 .check, .thread 0 .go, .thread 0 .go]
    let stop : List Action := [.ui .stop, .ui .closeClient, .ui .closeServer]
    ∃ v, toggling.run (toggle ++ serve ++ stop ++ [.thread 1 (.accept true)]) = some v ∧
      v.running = false :=
  ⟨_, rfl, rfl⟩

end VideoStream

end PadPlay.Device.AcceptLoop
