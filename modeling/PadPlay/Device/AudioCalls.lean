import PadPlay.Device.AudioThreads

/-!
# Calls into the audio side (`AudioStream.kt`)

What is left of a call, as a list of statements, and the condition under which the calls are safe:
no other call is in progress while one is in `configure` (`Player.Alone`). Calls that one thread
makes one after the other meet it (`along_alone_of_within`), and more: no two calls overlap
(`Player.Solo`).
-/

namespace PadPlay.Device.AudioThreads

open PadPlay.Lib PadPlay.Device.Protocol

/-! ## Calls in progress -/

/-- The set-up a statement of `configure` belongs to. -/
def Stmt.setUp? : Stmt → Option Nat
  | .create _ k | .attempt k | .store _ k | .resetPcm k => some k
  | _ => none

/-- There are statements of `configure` left. -/
def SetsUp (p : List Stmt) : Prop := ∃ stmt ∈ p, stmt.setUp? ≠ none

/-- A teardown is on, or done in the same call. -/
def Tears (p : List Stmt) : Prop :=
  (∃ x, .forget x ∈ p) ∨ .clearPcm ∈ p ∨ ∃ header, .acceptHeader header ∈ p

/-- No other call is in progress while one is in `configure`. -/
def Player.Alone (s : Player) : Prop := ∀ t t', SetsUp (s.calls t) → s.calls t' ≠ [] → t' = t

/-- No two calls overlap. -/
def Player.Solo (s : Player) : Prop := ∀ t t', s.calls t ≠ [] → s.calls t' ≠ [] → t' = t

theorem SetsUp.ne_nil {p : List Stmt} (h : SetsUp p) : p ≠ [] := by
  obtain ⟨stmt, hmem, -⟩ := h
  exact List.ne_nil_of_mem hmem

theorem Player.Solo.alone {s : Player} (h : s.Solo) : s.Alone :=
  fun t t' hsets hne => h t t' hsets.ne_nil hne

theorem setsUp_cons {stmt : Stmt} {rest : List Stmt} :
    SetsUp (stmt :: rest) ↔ stmt.setUp? ≠ none ∨ SetsUp rest := by
  simp only [SetsUp, List.mem_cons, exists_eq_or_imp]

theorem SetsUp.tail {stmt : Stmt} {rest : List Stmt} (h : SetsUp rest) : SetsUp (stmt :: rest) :=
  setsUp_cons.2 (.inr h)

theorem Tears.tail {stmt : Stmt} {rest : List Stmt} (h : Tears rest) : Tears (stmt :: rest) := by
  rcases h with ⟨x, hx⟩ | hclear | ⟨header, hheader⟩
  · exact .inl ⟨x, List.mem_cons_of_mem _ hx⟩
  · exact .inr (.inl (List.mem_cons_of_mem _ hclear))
  · exact .inr (.inr ⟨header, List.mem_cons_of_mem _ hheader⟩)

/-- What a statement of a call has behind it. -/
structure Heads (stmt : Stmt) (rest : List Stmt) : Prop where
  /-- a field is settled before it is forgotten -/
  settles : ∀ x q, rest = .forget x :: q → stmt = .settle x
  /-- what is made is stored -/
  stores : ∀ x k, stmt = .create x k → .store x k ∈ rest ∧ .create x k ∉ rest
  /-- nothing throws once the threads are started -/
  throws : stmt.throws → ∀ x k, .store x k ∈ rest → .create x k ∉ rest → x = .codec ∨ x = .track
  sets_up : stmt.setUp? ≠ none → ¬Tears rest
  tears : ((∃ x, stmt = .forget x) ∨ stmt = .clearPcm) → ¬SetsUp rest
  discards : ∀ x, stmt = .settle x → ∃ q, rest = .forget x :: q
  clears : stmt = .clearPcm → ∀ x, .forget x ∉ rest
  /-- the queue is empty before the threads start -/
  resets : ∀ k, stmt = .resetPcm k → .create .outputDrainThread k ∈ rest
  returns : (stmt = .unlessRunning ∨ ∃ header, stmt = .acceptHeader header) → rest = []

def WellFormed : List Stmt → Prop
  | [] => True
  | stmt :: rest => Heads stmt rest ∧ WellFormed rest

/-- `configure` and the teardowns do not mix in one call. -/
theorem WellFormed.not_tears {p : List Stmt} (h : WellFormed p) (hsets : SetsUp p) : ¬Tears p := by
  induction p with
  | nil => simp [SetsUp] at hsets
  | cons stmt rest ih =>
    obtain ⟨hheads, hrest⟩ := h
    rcases setsUp_cons.1 hsets with hstmt | hin
    · rintro (⟨x, hx⟩ | hclear | ⟨header, hheader⟩)
      · rcases List.mem_cons.1 hx with rfl | hx
        · exact hstmt rfl
        · exact hheads.sets_up hstmt (.inl ⟨x, hx⟩)
      · rcases List.mem_cons.1 hclear with rfl | hclear
        · exact hstmt rfl
        · exact hheads.sets_up hstmt (.inr (.inl hclear))
      · rcases List.mem_cons.1 hheader with rfl | hheader
        · exact hstmt rfl
        · exact hheads.sets_up hstmt (.inr (.inr ⟨header, hheader⟩))
    · rintro (⟨x, hx⟩ | hclear | ⟨header, hheader⟩)
      · rcases List.mem_cons.1 hx with rfl | hx
        · exact hheads.tears (.inl ⟨x, rfl⟩) hin
        · exact ih hrest hin (.inl ⟨x, hx⟩)
      · rcases List.mem_cons.1 hclear with rfl | hclear
        · exact hheads.tears (.inr rfl) hin
        · exact ih hrest hin (.inr (.inl hclear))
      · rcases List.mem_cons.1 hheader with rfl | hheader
        · rw [hheads.returns (.inr ⟨header, rfl⟩)] at hin
          simp [SetsUp] at hin
        · exact ih hrest hin (.inr (.inr ⟨header, hheader⟩))

theorem wellFormed_discard {x : Field} {rest : List Stmt} (h : WellFormed rest)
    (hsets : ¬SetsUp rest) (hforget : ∀ y q, rest ≠ .forget y :: q) :
    WellFormed (.settle x :: .forget x :: rest) := by
  refine ⟨?_, ?_, h⟩
  · constructor <;> simp [Stmt.setUp?, Stmt.throws]
  · constructor <;> simp [Stmt.setUp?, Stmt.throws, hsets, hforget]

theorem wellFormed_teardown {rest : List Stmt} (h : WellFormed rest) (hsets : ¬SetsUp rest)
    (hforget : ∀ x, .forget x ∉ rest) : WellFormed (teardown ++ rest) := by
  have hhead : ∀ x q, rest ≠ .forget x :: q := by
    intro x q hrest
    exact hforget x (by simp [hrest])
  have hclear : WellFormed (.clearPcm :: rest) := by
    refine ⟨?_, h⟩
    constructor <;> simp [Stmt.setUp?, Stmt.throws, hforget, hsets, hhead]
  have htrack := wellFormed_discard (x := .track) hclear
    (by simp [setsUp_cons, Stmt.setUp?, hsets]) (by simp)
  refine wellFormed_discard (wellFormed_discard (wellFormed_discard htrack ?_ ?_) ?_ ?_) ?_ ?_ <;>
    simp [setsUp_cons, Stmt.setUp?, hsets]

theorem wellFormed_last {stmt : Stmt} (h : stmt.setUp? = none) (hthrows : stmt.throws = false)
    (hsettle : ∀ x, stmt ≠ .settle x) : WellFormed [stmt] := by
  refine ⟨?_, trivial⟩
  constructor <;> simp [h, hthrows, hsettle, SetsUp]
  · intro x k hstmt
    rw [hstmt] at h
    cases h
  · intro k hstmt
    rw [hstmt] at h
    cases h

theorem wellFormed_body (c : Call) : WellFormed c.body := by
  cases c with
  | start => exact wellFormed_last rfl rfl nofun
  | stop =>
    refine ⟨?_, wellFormed_teardown (wellFormed_last rfl rfl nofun) ?_ ?_⟩
    · constructor <;> simp [Stmt.setUp?, Stmt.throws, teardown]
    · simp [SetsUp, Stmt.setUp?]
    · simp
  | onStreamHeader header =>
    exact wellFormed_teardown (wellFormed_last rfl rfl nofun) (by simp [SetsUp, Stmt.setUp?])
      (by simp)
  | onSessionEnded =>
    exact wellFormed_teardown (wellFormed_last rfl rfl nofun) (by simp [SetsUp, Stmt.setUp?])
      (by simp)

theorem wellFormed_configureFailed (message : Option String) :
    WellFormed (configureFailed message) := by
  have hnil : WellFormed [] := trivial
  have hteardown : WellFormed teardown :=
    wellFormed_teardown hnil (by simp [SetsUp]) (by simp)
  refine ⟨?_, ?_, hteardown⟩ <;> constructor <;> simp [Stmt.setUp?, Stmt.throws, teardown]

theorem wellFormed_configure (header : StreamHeader) (k : Nat) :
    WellFormed (configure header k) := by
  simp only [configure, WellFormed, and_true]
  repeat' apply And.intro
  all_goals constructor <;> simp [Stmt.setUp?, Stmt.throws, Tears, SetsUp]
  all_goals
    intro x
    cases x <;> simp

/-! ## What the threads leave alone -/

namespace Player

/-- The bookkeeping of two states is the same. -/
structure SameBooks (s s' : Player) : Prop where
  held : s'.held = s.held
  setUps : s'.setUps = s.setUps
  calls : s'.calls = s.calls
  begun : s'.begun = s.begun
  settled : s'.settled = s.settled
  abandoned : s'.abandoned = s.abandoned
  releases : s'.releases = s.releases

theorem SameBooks.refl (s : Player) : SameBooks s s := ⟨rfl, rfl, rfl, rfl, rfl, rfl, rfl⟩

end Player

theorem Threaded.sameBooks {s s' : Player} (h : Threaded s s') : s.SameBooks s' := by
  cases h <;> exact ⟨rfl, rfl, rfl, rfl, rfl, rfl, rfl⟩

/-! ## Calls from one thread -/

/-- The step is not one of another caller. -/
def Action.Within (t : Nat) : Action → Prop
  | .call t' _ | .next t' | .throws t' _ => t' = t
  | _ => True

instance Action.decidableWithin (t : Nat) (a : Action) : Decidable (a.Within t) := by
  unfold Action.Within
  split <;> infer_instance

theorem goOn_others {s : Player} {t t' : Nat} {p : List Stmt} (h : t' ≠ t) :
    (s.goOn t p).calls t' = s.calls t' := by
  simp [Function.update_of_ne h]

theorem exec_others {s : Player} {t t' : Nat} {stmt : Stmt} {rest : List Stmt} (h : t' ≠ t) :
    (s.exec t stmt rest).calls t' = s.calls t' := by
  have hcreate : ∀ x k, (s.create x k).calls = s.calls := fun x _ => by cases x <;> rfl
  have hsettle : ∀ x, (s.settle x).calls = s.calls := by
    intro x
    unfold Player.settle
    split <;> rfl
  cases stmt with
  | create x k => exact (goOn_others h).trans (congrFun (hcreate x k) t')
  | settle x => exact (goOn_others h).trans (congrFun (hsettle x) t')
  | unlessRunning | acceptHeader =>
    simp only [Player.exec]
    split <;> exact goOn_others h
  | running | phase | lastError | clearPcm | resetPcm | channels | attempt | forget | store =>
    exact goOn_others h

theorem within_calls {s s' : Player} {t : Nat} {a : Action} (ha : a.Within t)
    (h : step s a = some s') {t' : Nat} (ht : t' ≠ t) : s'.calls t' = s.calls t' := by
  cases a with
  | call _ call =>
    obtain rfl := ha
    simp only [step] at h
    split at h
    · cases h; exact goOn_others ht
    · cases h
  | next _ =>
    obtain rfl := ha
    simp only [step] at h
    split at h
    · cases h
    · cases h; exact exec_others ht
  | throws _ message =>
    obtain rfl := ha
    simp only [step] at h
    split at h
    · cases h
    · split at h
      · cases h; exact goOn_others ht
      · cases h
  | drainCheck k => rw [(Player.drainCheck_cases h).sameBooks.calls]
  | drainDequeue k answer => rw [(Player.drainDequeue_cases h).sameBooks.calls]
  | drainOffer k => rw [(Player.drainOffer_cases h).sameBooks.calls]
  | drainRelease k throws => rw [(Player.drainRelease_cases h).sameBooks.calls]
  | writerCheck k => rw [(Player.writerCheck_cases h).sameBooks.calls]
  | writerPoll k answer => rw [(Player.writerPoll_cases h).sameBooks.calls]
  | writerWrite k answer => rw [(Player.writerWrite_cases h).sameBooks.calls]
  | writerCount k message => rw [(Player.writerCount_cases h).sameBooks.calls]

theorem within_runFrom {s s' : Player} {t : Nat} {as : List Action} (has : ∀ a ∈ as, a.Within t)
    (h : machine.runFrom s as = some s') {t' : Nat} (ht : t' ≠ t) : s'.calls t' = s.calls t' := by
  induction as generalizing s with
  | nil => cases h; rfl
  | cons a as ih =>
    obtain ⟨s₁, hstep, hrun⟩ := machine.runFrom_cons.1 h
    rw [ih (fun a' ha' => has a' (List.mem_cons_of_mem _ ha')) hrun,
      within_calls (has a List.mem_cons_self) hstep ht]

/-- Calls that one thread makes one after the other do not overlap. -/
theorem along_solo_of_within {t : Nat} {s : Player} {as : List Action}
    (hs : ∀ t' ≠ t, s.calls t' = []) (has : ∀ a ∈ as, a.Within t) :
    machine.AlongFrom (machine.Reaching Player.Solo) s as := by
  induction as generalizing s with
  | nil => trivial
  | cons a as ih =>
    have hnext : ∀ s', machine.step s a = some s' → ∀ t' ≠ t, s'.calls t' = [] := by
      intro s' hstep t' ht
      rw [within_calls (has a List.mem_cons_self) hstep ht, hs t' ht]
    have hcall : ∀ s', machine.step s a = some s' → ∀ t', s'.calls t' ≠ [] → t' = t := by
      intro s' hstep t' hne
      by_contra ht
      exact hne (hnext s' hstep t' ht)
    refine ⟨?_, ?_⟩
    · intro s' hstep t₁ t₂ hne₁ hne₂
      rw [hcall s' hstep t₁ hne₁, hcall s' hstep t₂ hne₂]
    · intro s' hstep
      exact ih (hnext s' hstep) fun a' ha' => has a' (List.mem_cons_of_mem _ ha')

theorem along_alone_of_solo {s : Player} {as : List Action}
    (h : machine.AlongFrom (machine.Reaching Player.Solo) s as) :
    machine.AlongFrom (machine.Reaching Player.Alone) s as :=
  machine.alongFrom_imp (I := fun _ => True) (fun _ _ _ _ _ _ => trivial)
    (fun _ _ _ hsolo s' hstep => (hsolo s' hstep).alone) trivial h

theorem along_alone_of_within {t : Nat} {s : Player} {as : List Action}
    (hs : ∀ t' ≠ t, s.calls t' = []) (has : ∀ a ∈ as, a.Within t) :
    machine.AlongFrom (machine.Reaching Player.Alone) s as :=
  along_alone_of_solo (along_solo_of_within hs has)

end PadPlay.Device.AudioThreads
