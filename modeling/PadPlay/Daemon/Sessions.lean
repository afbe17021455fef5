import PadPlay.Daemon.Run

/-!
# What the sessions of a daemon leave behind

The main loop starts one session after the other, and each meets the outputs, forward rules and
sinks that are there when it begins. A removal can fail: the drops of the output and of the sink
warn of it, and that of the rule does not look. A session can leave Hyprland's output behind, but
the next one finds it listed and takes it over instead of creating another. Null sinks do pile up,
one for each session whose `pactl load-module` does not print its number (`sessions_leave`).
-/

namespace PadPlay.Daemon

open PadPlay.Lib

/-- A session the main loop starts: its device, and what it is answered. -/
structure Attempt where
  serial : String
  answers : RunAnswers
  /-- which of the uses in its log are removals that fail -/
  fails : Nat → Bool

def Attempt.log (config : Config) (s : Attempt) : List (Use Resource) :=
  (run s.serial config s.answers).log

/-- What is there outside the daemon after its sessions. -/
def left (config : Config) (world : List Resource) (attempts : List Attempt) : List Resource :=
  attempts.foldl (fun world s => after world (effects s.fails (s.log config))) world

/-- `hyprctl monitors` lists the output if it is there. -/
def Truthful (config : Config) (world : List Resource) (s : Attempt) : Prop :=
  s.answers.output.compositor = .hyprland → ∀ saved, s.answers.output.monitors = some saved →
    (config.outputName ∈ saved ↔ .output config.outputName ∈ world)

/-- A removal of the resource fails in the session. -/
def Attempt.Keeps (config : Config) (s : Attempt) (r : Resource) : Prop :=
  Stays s.fails r (s.log config)

/-- The session creates the output and loses it. -/
def Attempt.Strands (config : Config) (s : Attempt) : Prop :=
  s.answers.Prepared config ∧ s.answers.output.Strands config.outputName

/-- The session comes to own the output, so that it sets out to remove it however it ends. -/
def Attempt.Owns (config : Config) (s : Attempt) : Prop :=
  s.answers.Prepared config ∧ s.answers.output.compositor = .hyprland ∧
    s.answers.output.Yields config.outputName

/-- The session creates the output, and it stays. -/
def Attempt.Leaves (config : Config) (s : Attempt) : Prop :=
  s.Strands config ∨ s.Owns config ∧ s.Keeps config (.output config.outputName) ∧
    ∃ saved, s.answers.output.monitors = some saved ∧ config.outputName ∉ saved

def Attempt.Removes (config : Config) (s : Attempt) : Prop :=
  s.Owns config ∧ ¬ s.Keeps config (.output config.outputName)

/-- The session gets as far as the sink, and `pactl` does not print the module it loads. -/
def Attempt.LosesSink (config : Config) (s : Attempt) : Prop :=
  s.answers.Prepared config ∧ s.answers.output.Yields config.outputName ∧
    s.answers.forwarded = true ∧ s.answers.Started ∧ s.answers.BlankModule config

/-! ## The output -/

theorem untouched_nil (r : Resource) : Untouched r [] := ⟨List.not_mem_nil, List.not_mem_nil⟩

/-- Only Hyprland's outputs are created or removed by name. -/
theorem VirtualOutput.create_ok {name : String} {answers : OutputAnswers} {output : VirtualOutput}
    {log : List (Use Resource)} (h : create name answers = ⟨.ok output, log⟩) :
    answers.compositor = .hyprland ∧ output.drop = [.removed (.output name)] ∨
      answers.compositor ≠ .hyprland ∧ Untouched (.output name) log ∧
        Untouched (.output name) output.drop := by
  cases hcompositor : answers.compositor with
  | hyprland =>
    refine .inl ⟨rfl, ?_⟩
    simp only [create, hcompositor] at h
    split at h
    · cases h
    · split at h
      · cases h
      · split at h
        · cases h
        · split at h
          · cases h
          · split at h <;> cases h
            rfl
  | labwc =>
    simp only [create, hcompositor] at h
    split at h <;> cases h
    exact .inr ⟨by simp, untouched_nil _, untouched_nil _⟩
  | niri =>
    simp only [create, hcompositor] at h
    split at h
    · cases h
    · cases h
    · split at h
      · cases h
      · split at h <;> cases h
        exact .inr ⟨by simp, by simp [Untouched], by simp [Untouched, drop]⟩
  | sway | unsupported =>
    simp only [create, hcompositor, Compositor.ensureSupported] at h
    cases h

section
variable {config : Config} {s : Attempt}

/-- A session that has its output, from the creation to the last drop. -/
theorem log_created (hprepared : s.answers.Prepared config) {output : VirtualOutput}
    {log : List (Use Resource)}
    (hcreate : VirtualOutput.create config.outputName s.answers.output = ⟨.ok output, log⟩) :
    s.log config = log ++ ((withOutput s.serial config s.answers output).log ++ output.drop ++
      dropHeld (withOutput s.serial config s.answers output).outcome) := by
  rw [Attempt.log, run_prepared hprepared, hcreate]

theorem log_stranded (h : s.Strands config) :
    s.log config = [.created (.output config.outputName)] := by
  have hspec := VirtualOutput.create_spec config.outputName s.answers.output
  rw [Attempt.log, run_prepared h.1]
  generalize VirtualOutput.create config.outputName s.answers.output = out at hspec
  cases hspec with
  | stranded => rfl
  | owned _ hfree | reused _ hfree | refused _ hfree | undone _ hfree => exact absurd h.2 hfree

/-- A session that owns the output removes it once, at its end, and has created it unless it was
listed. -/
theorem log_owner (h : s.Owns config) : ∃ saved inner outer,
    s.answers.output.monitors = some saved ∧
    s.log config = (if config.outputName ∈ saved then [] else
      [.created (.output config.outputName)]) ++ inner ++
        .removed (.output config.outputName) :: outer ∧
    Untouched (.output config.outputName) inner ∧
      Untouched (.output config.outputName) outer := by
  obtain ⟨hprepared, hcompositor, hyields⟩ := h
  simp only [OutputAnswers.Yields, hcompositor] at hyields
  obtain ⟨⟨saved, hmonitors, hthere⟩, hconfigured⟩ := hyields
  obtain ⟨log, rfl, ⟨-, hcreate⟩ | ⟨hno, -⟩⟩ :=
    VirtualOutput.create_configure hcompositor hmonitors hthere
  · have hevdi : (VirtualOutput.managed .hyprland config.outputName).isEvdi = true ↔
        s.answers.output.compositor = .niri := by simp [VirtualOutput.isEvdi, hcompositor]
    obtain ⟨hinner, hheld, -⟩ := withOutput_spec s.serial config hevdi
    refine ⟨saved, _, _, hmonitors, ?_, hinner _ (.inl ⟨_, rfl⟩), hheld _ (.inl ⟨_, rfl⟩)⟩
    rw [log_created hprepared hcreate, VirtualOutput.drop]
    simp only [List.append_assoc, List.singleton_append]
  · exact absurd hconfigured hno

theorem log_spared (hstrands : ¬ s.Strands config) (howns : ¬ s.Owns config) :
    Untouched (.output config.outputName) (s.log config) := by
  by_cases hprepared : s.answers.Prepared config
  · have hspec := VirtualOutput.create_spec config.outputName s.answers.output
    cases hcreate : VirtualOutput.create config.outputName s.answers.output with
    | mk outcome log =>
      cases outcome with
      | error e =>
        rw [Attempt.log, run_prepared hprepared, hcreate]
        rw [hcreate] at hspec
        cases hspec with
        | refused => exact untouched_nil _
        | undone => simp [Untouched]
        | stranded _ hlost => exact absurd ⟨hprepared, hlost⟩ hstrands
      | ok output =>
        rw [hcreate] at hspec
        have hyields : s.answers.output.Yields config.outputName ∧
            (output.isEvdi = true ↔ s.answers.output.compositor = .niri) := by
          cases hspec with
          | owned hyields _ hevdi | reused hyields _ hevdi => exact ⟨hyields, hevdi⟩
        obtain ⟨hinner, hheld, -⟩ := withOutput_spec s.serial config hyields.2
        have hname : (∃ name, Resource.output config.outputName = .output name) ∨
            Resource.output config.outputName = .evdi := .inl ⟨_, rfl⟩
        rcases VirtualOutput.create_ok hcreate with ⟨hhyprland, -⟩ | ⟨-, hlog, hdrop⟩
        · exact absurd ⟨hprepared, hhyprland, hyields.1⟩ howns
        · rw [log_created hprepared hcreate]
          exact untouched_append.2 ⟨hlog, untouched_append.2
            ⟨untouched_append.2 ⟨hinner _ hname, hdrop⟩, hheld _ hname⟩⟩
  · rw [Attempt.log, run_unprepared hprepared]
    exact untouched_nil _

end

/-! ## Everything else -/

/-- The log does not leave the resource there, unless it was there before. -/
def Clears (r : Resource) (log : List (Use Resource)) : Prop := lastUse r log ≠ some true

theorem Clears.append {r : Resource} {l₁ l₂ : List (Use Resource)} (h₁ : Clears r l₁)
    (h₂ : Clears r l₂) : Clears r (l₁ ++ l₂) := by
  unfold Clears at h₁ h₂ ⊢
  rw [lastUse_append]
  cases hlast : lastUse r l₂ with
  | none => exact h₁
  | some there => rwa [hlast] at h₂

/-- What a scope of another resource does not change. -/
theorem Clears.around {r r' : Resource} {inner outer : List (Use Resource)} (hne : r ≠ r')
    (h : Clears r (inner ++ outer)) :
    Clears r (.created r' :: (inner ++ .removed r' :: outer)) := by
  have hne' : r' ≠ r := hne.symm
  unfold Clears at h ⊢
  rw [lastUse_append] at h
  rw [lastUse, lastUse_append, lastUse, if_neg hne', if_neg hne', Option.or_none, Option.or_none]
  exact h

theorem Clears.owned {r : Resource} (inner : List (Use Resource)) {outer : List (Use Resource)}
    (houter : Untouched r outer) : Clears r (inner ++ .removed r :: outer) := by
  rw [Clears, lastUse_owned inner houter]
  nofun

theorem openAudio_clears {r : Resource} (hr : r ≠ .sink []) (config : Config)
    (answers : RunAnswers) :
    Clears r ((openAudio config answers).2 ++ dropSink (openAudio config answers).1) := by
  have hspec := openAudio_spec config answers
  generalize openAudio config answers = out at hspec ⊢
  cases hspec with
  | silent => exact nofun
  | @closed m | @opened m =>
    by_cases hsink : r = .sink m
    · simp [Clears, lastUse, dropSink, VirtualSink.drop, hsink]
    · simp [Clears, lastUse, dropSink, VirtualSink.drop, Ne.symm hsink]
  | stranded => simp [Clears, lastUse, dropSink, hr.symm]

theorem setUp_clears {r : Resource} (hr : r ≠ .sink []) (config : Config)
    {answers : RunAnswers} {output : VirtualOutput}
    (hevdi : output.isEvdi = true ↔ answers.output.compositor = .niri) :
    Clears r ((setUp config answers output).log ++
      dropHeld (setUp config answers output).outcome) := by
  rcases setUp_log config hevdi with ⟨-, hlog⟩ | ⟨-, hlog⟩
  · rw [hlog]
    exact nofun
  · rw [hlog]
    exact openAudio_clears hr config answers

theorem withOutput_clears {r : Resource} (hr : r ≠ .sink []) (serial : String)
    (config : Config) (answers : RunAnswers) {output : VirtualOutput}
    (hevdi : output.isEvdi = true ↔ answers.output.compositor = .niri) :
    Clears r ((withOutput serial config answers output).log ++
      dropHeld (withOutput serial config answers output).outcome) := by
  have hsetUp := setUp_clears hr config hevdi
  obtain ⟨hsinks, -⟩ := setUp_spec config hevdi
  unfold withOutput Forward.new
  by_cases hforwarded : answers.forwarded = true
  · simp only [hforwarded, if_true]
    generalize setUp config answers output = out at hsetUp hsinks ⊢
    obtain ⟨outcome, log⟩ := out
    simp only at hsetUp hsinks ⊢
    have hstale : Clears r [.removed (.forward serial localRule)] := by
      by_cases hrule : Resource.forward serial localRule = r <;> simp [Clears, lastUse, hrule]
    have hscope : Clears r (.created (.forward serial localRule) ::
        (log ++ .removed (.forward serial localRule) :: dropHeld outcome)) := by
      by_cases hrule : r = .forward serial localRule
      · subst hrule
        exact .owned (.created _ :: log) (untouched_append.1 (hsinks _ (by simp))).2
      · exact .around hrule hsetUp
    have happend := hstale.append hscope
    simpa [Forward.drop] using happend
  · simp only [hforwarded, Bool.false_eq_true, if_false, dropHeld, List.append_nil]
    by_cases hrule : Resource.forward serial localRule = r <;> simp [Clears, lastUse, hrule]

/-- A session leaves nothing there but the output and a sink whose module it cannot name. -/
theorem log_clears {config : Config} {s : Attempt} {r : Resource}
    (houtput : r ≠ .output config.outputName) (hr : r ≠ .sink []) :
    Clears r (s.log config) := by
  by_cases hprepared : s.answers.Prepared config
  · have hspec := VirtualOutput.create_spec config.outputName s.answers.output
    rw [Attempt.log, run_prepared hprepared]
    generalize VirtualOutput.create config.outputName s.answers.output = out at hspec
    cases hspec with
    | refused => simp [Clears, lastUse]
    | undone => by_cases hevdi : Resource.evdi = r <;> simp [Clears, lastUse, hevdi]
    | stranded => simp [Clears, lastUse, houtput.symm]
    | @owned output r' hyields hfree hevdi hr' hdrop =>
      have hinner := withOutput_clears hr s.serial config s.answers hevdi
      obtain ⟨-, hheld, -⟩ := withOutput_spec s.serial config hevdi
      simp only [hdrop, List.append_assoc, List.singleton_append]
      by_cases hown : r = r'
      · subst hown
        exact .owned (.created r :: _) (hheld _ (hr'.imp (fun heq => ⟨_, heq⟩) id))
      · exact .around hown hinner
    | @reused output hyields hfree hevdi hdrop =>
      have hinner := withOutput_clears hr s.serial config s.answers hevdi
      simp only [List.nil_append]
      rcases hdrop with hdrop | hdrop
      · rw [hdrop, List.append_nil]
        exact hinner
      · have hnone : lastUse r [.removed (.output config.outputName)] = none := by
          simp [lastUse, houtput.symm]
        unfold Clears at hinner ⊢
        rw [hdrop, lastUse_append, lastUse_append, hnone, Option.none_or, ← lastUse_append]
        exact hinner
  · rw [Attempt.log, run_unprepared hprepared]
    simp [Clears, lastUse]

/-! ## Session after session -/

/-- An output is created by name only when Hyprland does not list it. -/
theorem VirtualOutput.create_created {name : String} {answers : OutputAnswers}
    (h : .created (.output name) ∈ (create name answers).log) :
    answers.compositor = .hyprland ∧ ∃ saved, answers.monitors = some saved ∧ name ∉ saved := by
  have hspec := create_spec name answers
  cases hcompositor : answers.compositor with
  | hyprland =>
    cases hmonitors : answers.monitors with
    | none => simp [create, hcompositor, hmonitors] at h
    | some saved =>
      refine ⟨rfl, saved, rfl, ?_⟩
      intro hname
      obtain ⟨log, hlog, ⟨-, hcreate⟩ | ⟨-, e, hcreate⟩⟩ :=
        create_configure hcompositor hmonitors (.inl hname)
      · rw [hcreate, hlog, if_pos hname] at h
        cases h
      · rw [hcreate, hlog, if_pos hname] at h
        cases h
  | labwc =>
    simp only [create, hcompositor] at h
    split at h <;> cases h
  | niri =>
    simp only [create, hcompositor] at h
    split at h
    · cases h
    · simp at h
    · split at h
      · simp at h
      · split at h <;> simp at h
  | sway | unsupported => simp [create, hcompositor, Compositor.ensureSupported] at h

theorem created_absent {config : Config} {s : Attempt} {world : List Resource}
    (htruthful : Truthful config world s)
    (hcreated : .created (.output config.outputName) ∈ s.log config) :
    .output config.outputName ∉ world := by
  have hlog : .created (.output config.outputName) ∈
      (VirtualOutput.create config.outputName s.answers.output).log := by
    by_cases hprepared : s.answers.Prepared config
    · have hspec := VirtualOutput.create_spec config.outputName s.answers.output
      cases hcreate : VirtualOutput.create config.outputName s.answers.output with
      | mk outcome log =>
        rw [hcreate] at hspec
        cases outcome with
        | error e =>
          rw [Attempt.log, run_prepared hprepared, hcreate] at hcreated
          exact hcreated
        | ok output =>
          have hevdi : output.isEvdi = true ↔ s.answers.output.compositor = .niri := by
            cases hspec with
            | owned _ _ hevdi | reused _ _ hevdi => exact hevdi
          obtain ⟨hinner, hheld, -⟩ := withOutput_spec s.serial config hevdi
          have hdrop : .created (.output config.outputName) ∉ output.drop := by
            rcases VirtualOutput.create_ok hcreate with ⟨-, hdrop⟩ | ⟨-, -, hdrop⟩
            · simp [hdrop]
            · exact hdrop.1
          rw [log_created hprepared hcreate] at hcreated
          simp only [List.mem_append] at hcreated
          rcases hcreated with hlog | (hlog | hlog) | hlog
          · exact hlog
          · exact absurd hlog (hinner _ (.inl ⟨_, rfl⟩)).1
          · exact absurd hlog hdrop
          · exact absurd hlog (hheld _ (.inl ⟨_, rfl⟩)).1
    · rw [Attempt.log, run_unprepared hprepared] at hcreated
      cases hcreated
  obtain ⟨hcompositor, saved, hmonitors, hname⟩ := VirtualOutput.create_created hlog
  intro hworld
  exact hname ((htruthful hcompositor saved hmonitors).2 hworld)

theorem mem_left_imp {config : Config} {world : List Resource} {attempts : List Attempt}
    {r : Resource} (houtput : r ≠ .output config.outputName) (hr : r ≠ .sink [])
    (hkeeps : ∀ s ∈ attempts, ¬ s.Keeps config r)
    (hmem : r ∈ left config world attempts) : r ∈ world := by
  induction attempts generalizing world with
  | nil => exact hmem
  | cons s attempts ih =>
    rw [List.forall_mem_cons] at hkeeps
    have hafter := mem_after.1 (ih hkeeps.2 hmem)
    have hclears := log_clears (s := s) houtput hr
    rw [lastUse_effects hkeeps.1] at hafter
    cases hlast : lastUse r (s.log config) with
    | none => simpa [hlast] using hafter
    | some there =>
      cases there with
      | true => exact absurd hlast hclears
      | false => simp [hlast] at hafter

/-- What one session comes to for the output. -/
theorem output_after {config : Config} {world : List Resource} {s : Attempt} :
    .output config.outputName ∈ after world (effects s.fails (s.log config)) ↔
      s.Leaves config ∨ .output config.outputName ∈ world ∧ ¬ s.Removes config := by
  rw [mem_after]
  by_cases hstrands : s.Strands config
  · simp [log_stranded hstrands, effects, lastUse, Attempt.Leaves, hstrands]
  · by_cases howns : s.Owns config
    · obtain ⟨saved, inner, outer, hmonitors, hlog, hinner, houter⟩ := log_owner howns
      by_cases hkeeps : s.Keeps config (.output config.outputName)
      · have hlast := hkeeps
        rw [Attempt.Keeps, hlog] at hlast
        rw [hlog, lastUse_stays ?_ houter hlast, lastUse_append, lastUse_untouched hinner]
        · simp only [Attempt.Leaves, Attempt.Removes, hstrands, howns, hkeeps, hmonitors,
            Option.some.injEq, exists_eq_left', true_and, false_or, not_true, and_false,
            not_false_iff, and_true]
          by_cases hname : config.outputName ∈ saved <;> simp [hname, lastUse]
        · rw [List.mem_append, not_or]
          refine ⟨?_, hinner.2⟩
          split <;> simp
      · have hlast : lastUse (.output config.outputName) (s.log config) = some false := by
          rw [hlog]
          exact lastUse_owned _ houter
        simp [lastUse_effects hkeeps, hlast, Attempt.Leaves, Attempt.Removes, hstrands, howns,
          hkeeps]
    · have huntouched := log_spared hstrands howns
      rw [lastUse_effects (not_stays huntouched.2), lastUse_untouched huntouched]
      simp [Attempt.Leaves, Attempt.Removes, hstrands, howns]

/-- A session left the output, and none since then removed it. -/
def Stranded (config : Config) (attempts : List Attempt) : Prop :=
  ∃ before s later, attempts = before ++ s :: later ∧ s.Leaves config ∧
    ∀ t ∈ later, ¬ t.Removes config

theorem stranded_cons {config : Config} {s : Attempt} {attempts : List Attempt} :
    Stranded config (s :: attempts) ↔
      Stranded config attempts ∨ s.Leaves config ∧ ∀ t ∈ attempts, ¬ t.Removes config := by
  constructor
  · rintro ⟨before, t, later, heq, hleaves, hno⟩
    cases before with
    | nil =>
      obtain ⟨rfl, rfl⟩ := List.cons.inj heq
      exact .inr ⟨hleaves, hno⟩
    | cons _ before => exact .inl ⟨before, t, later, (List.cons.inj heq).2, hleaves, hno⟩
  · rintro (⟨before, t, later, rfl, hleaves, hno⟩ | ⟨hleaves, hno⟩)
    · exact ⟨s :: before, t, later, rfl, hleaves, hno⟩
    · exact ⟨[], s, attempts, rfl, hleaves, hno⟩

theorem left_cons {config : Config} {world : List Resource} {s : Attempt}
    {attempts : List Attempt} : left config world (s :: attempts) =
      left config (after world (effects s.fails (s.log config))) attempts := rfl

theorem output_left {config : Config} {world : List Resource} {attempts : List Attempt} :
    .output config.outputName ∈ left config world attempts ↔
      Stranded config attempts ∨
        .output config.outputName ∈ world ∧ ∀ t ∈ attempts, ¬ t.Removes config := by
  induction attempts generalizing world with
  | nil => simp [left, Stranded]
  | cons s attempts ih =>
    rw [left_cons, ih, output_after, stranded_cons, List.forall_mem_cons]
    tauto

/-! ## Null sinks without a number -/

/-- Nobody removes a sink without a number, and so many of them are created. -/
def LosesSinks (n : Nat) (log : List (Use Resource)) : Prop :=
  .removed (.sink []) ∉ log ∧ log.count (.created (.sink [])) = n

theorem losesSinks_nil : LosesSinks 0 [] := ⟨List.not_mem_nil, rfl⟩

open Classical in
theorem openAudio_losesSinks (config : Config) (answers : RunAnswers) :
    LosesSinks (if answers.BlankModule config then 1 else 0)
      ((openAudio config answers).2 ++ dropSink (openAudio config answers).1) := by
  have hspec := openAudio_spec config answers
  generalize openAudio config answers = out at hspec ⊢
  cases hspec with
  | silent h => simp [LosesSinks, dropSink, h]
  | closed h hm | opened h hm => simp [LosesSinks, dropSink, VirtualSink.drop, h, hm, hm.symm]
  | stranded h => simp [LosesSinks, dropSink, h]

open Classical in
theorem withOutput_losesSinks (serial : String) (config : Config) {answers : RunAnswers}
    {output : VirtualOutput} (hevdi : output.isEvdi = true ↔ answers.output.compositor = .niri) :
    LosesSinks (if answers.forwarded = true ∧ answers.Started ∧ answers.BlankModule config then 1
        else 0)
      ((withOutput serial config answers output).log ++
        dropHeld (withOutput serial config answers output).outcome) := by
  unfold withOutput Forward.new
  by_cases hforwarded : answers.forwarded = true
  · simp only [hforwarded, if_true, true_and]
    have hsetUp : LosesSinks (if answers.Started ∧ answers.BlankModule config then 1 else 0)
        ((setUp config answers output).log ++ dropHeld (setUp config answers output).outcome) := by
      rcases setUp_log config hevdi with ⟨hno, hlog⟩ | ⟨hstarted, hlog⟩
      · rw [hlog, if_neg fun h => hno h.1]
        exact losesSinks_nil
      · simp only [hlog, hstarted, true_and]
        exact openAudio_losesSinks config answers
    generalize setUp config answers output = out at hsetUp ⊢
    obtain ⟨outcome, log⟩ := out
    simpa [LosesSinks, Forward.drop] using hsetUp
  · simp [hforwarded, LosesSinks, dropHeld]

open Classical in
/-- A session loses a sink, or none. -/
theorem log_losesSinks {config : Config} {s : Attempt} :
    LosesSinks (if s.LosesSink config then 1 else 0) (s.log config) := by
  by_cases hprepared : s.answers.Prepared config
  · have hspec := VirtualOutput.create_spec config.outputName s.answers.output
    simp only [Attempt.LosesSink, hprepared, true_and]
    rw [Attempt.log, run_prepared hprepared]
    generalize VirtualOutput.create config.outputName s.answers.output = out at hspec ⊢
    cases hspec with
    | refused hno | undone hno | stranded hno => simp [LosesSinks, hno]
    | owned hyields hfree hevdi hr' hdrop =>
      have hinner := withOutput_losesSinks s.serial config hevdi
      simp only [hyields, true_and]
      rcases hr' with rfl | rfl <;> simpa [LosesSinks, hdrop] using hinner
    | reused hyields hfree hevdi hdrop =>
      have hinner := withOutput_losesSinks s.serial config hevdi
      simp only [hyields, true_and]
      rcases hdrop with hdrop | hdrop <;> simpa [LosesSinks, hdrop] using hinner
  · rw [Attempt.log, run_unprepared hprepared, if_neg fun h => hprepared h.1]
    exact losesSinks_nil

open Classical in
/-- They pile up. -/
theorem count_left {config : Config} {world : List Resource} {attempts : List Attempt} :
    (left config world attempts).count (.sink []) =
      world.count (.sink []) + attempts.countP fun s => s.LosesSink config := by
  induction attempts generalizing world with
  | nil => rfl
  | cons s attempts ih =>
    obtain ⟨hremoved, hcount⟩ : LosesSinks _ (s.log config) := log_losesSinks
    rw [left_cons, ih, count_after fun h => hremoved (mem_effects h), count_created_effects, hcount,
      List.countP_cons]
    simp only [decide_eq_true_eq]
    omega

open Classical in
/-- **What the sessions leave.** After any number of sessions, with any devices, whatever is
answered in them and whichever of their removals fail, there is nothing new but what a removal
failed to take, Hyprland's output, and for each session of which `pactl` did not print the module
one more null sink. The output is there just when a session left it, or it was there before, and no
session since then removed it; and no session creates it while it is listed. -/
theorem sessions_leave (config : Config) (world : List Resource) (attempts : List Attempt) :
    (∀ r ∈ left config world attempts,
      r ∈ world ∨ r = .output config.outputName ∨ r = .sink [] ∨ ∃ s ∈ attempts, s.Keeps config r) ∧
    (left config world attempts).count (.sink []) =
      world.count (.sink []) + attempts.countP (fun s => s.LosesSink config) ∧
    (.output config.outputName ∈ left config world attempts ↔
      Stranded config attempts ∨
        .output config.outputName ∈ world ∧ ∀ t ∈ attempts, ¬ t.Removes config) ∧
    ∀ before s later, attempts = before ++ s :: later →
      Truthful config (left config world before) s →
      .created (.output config.outputName) ∈ s.log config →
      .output config.outputName ∉ left config world before := by
  refine ⟨?_, count_left, output_left, ?_⟩
  · intro r hr
    by_cases houtput : r = .output config.outputName
    · exact .inr (.inl houtput)
    · by_cases hsink : r = .sink []
      · exact .inr (.inr (.inl hsink))
      · by_cases hkeeps : ∃ s ∈ attempts, s.Keeps config r
        · exact .inr (.inr (.inr hkeeps))
        · exact .inl (mem_left_imp houtput hsink (fun s hs h => hkeeps ⟨s, hs, h⟩) hr)
  · intro before s later _ htruthful hcreated
    exact created_absent htruthful hcreated

/-- The second session removes the output of the first one, and the third its own but not the rule.
The two that get to the audio leave a sink each. -/
example :
    let blank (saved : List String) : RunAnswers := { strandingAnswers with
      output := { strandingAnswers.output with keyword := some [], monitors := some saved }
      loadModule := some [] }
    left ⟨some (1920, 1200), "padplay", true⟩ [] [⟨"serial", strandingAnswers, fun _ => false⟩,
        ⟨"serial", blank ["eDP-1", "padplay"], fun _ => false⟩,
        ⟨"serial", blank ["eDP-1"], fun n => n = 4⟩] =
      [.sink [], .forward "serial" localRule, .sink []] := by
  decide +kernel

end PadPlay.Daemon
