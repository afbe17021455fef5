import PadPlay.Daemon.Output
import PadPlay.Transport.Adb

/-!
# The resources of a session (`session::run`)

`run` acquires a virtual output, an adb forward rule and a null sink, each behind a value whose
`Drop` removes it, and can return early at every step between them.
-/

namespace PadPlay.Daemon

open PadPlay.Lib

/-! ## The adb forward rule (`transport::adb::Forward`) -/

structure Forward where
  serial : String
  rule : String

def Forward.drop (f : Forward) : List (Use Resource) := [.removed (.forward f.serial f.rule)]

def localRule : String := "tcp:27183"

def remoteRule : String := "localabstract:padplay"

/-- Clear any stale rule from a previous run, then install ours. -/
def Forward.new (serial : String) (installed : Bool) : Traced Resource String Forward :=
  let stale : Use Resource := .removed (.forward serial localRule)
  if installed then ⟨.ok ⟨serial, localRule⟩, [stale, .created (.forward serial localRule)]⟩
  else ⟨.error s!"forwarding {localRule} -> {remoteRule}", [stale]⟩

/-! ## The null sink (`audio::VirtualSink`) -/

structure VirtualSink where
  moduleId : Text

def VirtualSink.drop (s : VirtualSink) : List (Use Resource) := [.removed (.sink s.moduleId)]

/-- What `pactl load-module` printed, if it ran and exited with success. -/
def VirtualSink.create (stdout : Option Text) : Traced Resource String VirtualSink :=
  match stdout with
  | none => ⟨.error "pactl load-module module-null-sink failed", []⟩
  | some stdout =>
    let moduleId := Text.trim stdout
    let log := [.created (.sink moduleId)]
    if moduleId = [] then ⟨.error "pactl load-module module-null-sink returned no module id", log⟩
    else ⟨.ok ⟨moduleId⟩, log⟩

/-! ## The session (`session::run`) -/

/-- The part of the session's configuration that decides what is created. -/
structure Config where
  resolution : Option (UInt32 × UInt32)
  outputName : String
  audioEnabled : Bool

def APP_PACKAGE : Text := "com.padplay.display".toList

/-- What the host and the device answer during one session, step by step. -/
structure RunAnswers where
  /-- `pm list packages` -/
  packages : Except String Text
  /-- `adb::display_size` -/
  display : Except String Transport.Panel
  output : OutputAnswers
  forwarded : Bool
  /-- `am start` -/
  launched : Bool
  /-- `Capture::new`, on the Wayland path -/
  captured : Except String Unit
  /-- `Encoder::new` or `Encoder::new_cpu` -/
  encoder : Except String Unit
  audioAvailable : Bool
  /-- `pactl load-module` -/
  loadModule : Option Text
  /-- `AudioEncoder::new` -/
  audioEncoder : Bool
  /-- `stream_header`, `Sender::connect` and `ack_reader` -/
  header : Except String Unit
  connected : Bool
  ackReader : Except String Unit
  /-- how the pacing loop ends: told to stop, or failing -/
  loop : Except String Unit

/-- The sink and the encoder behind it; audio failing to start is never fatal. -/
def openAudio (config : Config) (answers : RunAnswers) : Option VirtualSink × List (Use Resource) :=
  if config.audioEnabled = false then (none, [])
  else if answers.audioAvailable = false then (none, [])
  else
    match VirtualSink.create answers.loadModule with
    | ⟨.error _, log⟩ => (none, log)
    | ⟨.ok sink, log⟩ => if answers.audioEncoder then (some sink, log) else (none, log ++ sink.drop)

def dropSink : Option VirtualSink → List (Use Resource)
  | none => []
  | some sink => sink.drop

/-- From the forward rule, whose port parses back, to the pacing loop. An early return drops the
sink; otherwise it is returned. -/
def setUp (config : Config) (answers : RunAnswers) (output : VirtualOutput) :
    Traced Resource String (Option VirtualSink) :=
  if answers.launched = false then ⟨.error "launching the display app", []⟩
  else
    match if output.isEvdi then .ok () else answers.captured with
    | .error e => ⟨.error e, []⟩
    | .ok () =>
      match answers.encoder with
      | .error e => ⟨.error e, []⟩
      | .ok () =>
        let (sink, log) := openAudio config answers
        match answers.header with
        | .error e => ⟨.error e, log ++ dropSink sink⟩
        | .ok () =>
          if answers.connected = false then
            ⟨.error "connecting to the app — is it in the foreground on the tablet?",
              log ++ dropSink sink⟩
          else
            match answers.ackReader with
            | .error e => ⟨.error e, log ++ dropSink sink⟩
            | .ok () => ⟨.ok sink, log⟩

/-- What `run` does while it has an output: install the rule, set up and stream. The rule goes at
the end, or at the early return. -/
def withOutput (serial : String) (config : Config) (answers : RunAnswers) (output : VirtualOutput) :
    Traced Resource String (Option VirtualSink) :=
  match Forward.new serial answers.forwarded with
  | ⟨.error e, log⟩ => ⟨.error e, log⟩
  | ⟨.ok forward, log⟩ =>
    let ⟨outcome, log'⟩ := setUp config answers output
    ⟨outcome, log ++ log' ++ forward.drop⟩

/-- What the end of `run` drops last, if it is reached. -/
def dropHeld : Except String (Option VirtualSink) → List (Use Resource)
  | .error _ => []
  | .ok sink => dropSink sink

/-- Stream until told to stop. The output goes after the rule, and at the end of the function the
sink goes last. -/
def run (serial : String) (config : Config) (answers : RunAnswers) : Traced Resource String Unit :=
  match answers.packages with
  | .error e => ⟨.error e, []⟩
  | .ok packages =>
    if Text.contains APP_PACKAGE packages = false then
      ⟨.error "app not installed on the tablet.", []⟩
    else
      match config.resolution, answers.display with
      | none, .error e => ⟨.error e, []⟩
      | _, _ =>
        match VirtualOutput.create config.outputName answers.output with
        | ⟨.error e, log⟩ => ⟨.error e, log⟩
        | ⟨.ok output, log⟩ =>
          let ⟨outcome, log'⟩ := withOutput serial config answers output
          ⟨outcome.bind fun _ => answers.loop, log ++ (log' ++ output.drop ++ dropHeld outcome)⟩

/-! ## What a session leaves behind -/

/-- `pactl load-module` succeeds without printing a module id. -/
def RunAnswers.BlankModule (config : Config) (answers : RunAnswers) : Prop :=
  config.audioEnabled = true ∧ answers.audioAvailable = true ∧
    ∃ stdout, answers.loadModule = some stdout ∧ Text.trim stdout = []

def RunAnswers.Prepared (config : Config) (answers : RunAnswers) : Prop :=
  (∃ packages, answers.packages = .ok packages ∧ Text.contains APP_PACKAGE packages = true) ∧
    (config.resolution ≠ none ∨ ∃ panel, answers.display = .ok panel)

def RunAnswers.Started (answers : RunAnswers) : Prop :=
  answers.launched = true ∧ (answers.output.compositor = .niri ∨ answers.captured = .ok ()) ∧
    answers.encoder = .ok ()

inductive AudioOpened (config : Config) (answers : RunAnswers) :
    Option VirtualSink × List (Use Resource) → Prop
  | silent (h : ¬ answers.BlankModule config) : AudioOpened config answers (none, [])
  | closed {m} (h : ¬ answers.BlankModule config) (hm : m ≠ []) :
    AudioOpened config answers (none, [.created (.sink m), .removed (.sink m)])
  | opened {m} (h : ¬ answers.BlankModule config) (hm : m ≠ []) :
    AudioOpened config answers (some ⟨m⟩, [.created (.sink m)])
  | stranded (h : answers.BlankModule config) :
    AudioOpened config answers (none, [.created (.sink [])])

theorem openAudio_spec (config : Config) (answers : RunAnswers) :
    AudioOpened config answers (openAudio config answers) := by
  unfold openAudio
  split
  · next hdisabled => exact .silent fun h => nomatch hdisabled.symm.trans h.1
  · next henabled =>
    split
    · next hno => exact .silent fun h => nomatch hno.symm.trans h.2.1
    · next havailable =>
      cases hload : answers.loadModule with
      | none =>
        refine .silent ?_
        rintro ⟨-, -, stdout, hstdout, -⟩
        rw [hload] at hstdout
        cases hstdout
      | some stdout =>
        simp only [VirtualSink.create]
        by_cases hblank : Text.trim stdout = []
        · rw [if_pos hblank, hblank]
          exact .stranded
            ⟨by simpa using henabled, by simpa using havailable, stdout, hload, hblank⟩
        · have hno : ¬ answers.BlankModule config := by
            rintro ⟨-, -, stdout', hstdout, htrim⟩
            cases hload.symm.trans hstdout
            exact hblank htrim
          rw [if_neg hblank]
          simp only
          split
          · exact .opened hno hblank
          · exact .closed hno hblank

def SinksOnly (log : List (Use Resource)) : Prop :=
  ∀ r, (∀ m, r ≠ .sink m) → Untouched r log

theorem AudioOpened.log {config : Config} {answers : RunAnswers}
    {out : Option VirtualSink × List (Use Resource)} (h : AudioOpened config answers out) :
    SinksOnly (out.2 ++ dropSink out.1) ∧
      (Settled (out.2 ++ dropSink out.1) ↔ ¬ answers.BlankModule config) := by
  cases h with
  | silent h => simp [SinksOnly, Untouched, dropSink, Settled, h]
  | closed h => simp +contextual [SinksOnly, Untouched, dropSink, Settled, h]
  | opened h => simp +contextual [SinksOnly, Untouched, dropSink, VirtualSink.drop, Settled, h]
  | stranded h => simp +contextual [SinksOnly, Untouched, dropSink, Settled, h]

/-- The set-up opens the audio just when it has started, and keeps or drops what that opened. -/
theorem setUp_log (config : Config) {answers : RunAnswers} {output : VirtualOutput}
    (hevdi : output.isEvdi = true ↔ answers.output.compositor = .niri) :
    ¬ answers.Started ∧ (setUp config answers output).log ++
        dropHeld (setUp config answers output).outcome = [] ∨
      answers.Started ∧ (setUp config answers output).log ++
          dropHeld (setUp config answers output).outcome =
        (openAudio config answers).2 ++ dropSink (openAudio config answers).1 := by
  unfold setUp
  split
  · next hlaunched => exact .inl ⟨fun h => (by cases hlaunched.symm.trans h.1), rfl⟩
  · next hlaunched =>
    split
    · next e hno =>
      refine .inl ⟨?_, rfl⟩
      intro h
      rcases h.2.1 with hniri | hcaptured
      · rw [if_pos (hevdi.2 hniri)] at hno
        cases hno
      · rw [hcaptured, ite_self] at hno
        cases hno
    · next hcaptured =>
      split
      · next e hencoder => exact .inl ⟨fun h => (by cases hencoder.symm.trans h.2.2), rfl⟩
      · next hencoder =>
        have hstarted : answers.Started := by
          refine ⟨by simpa using hlaunched, ?_, hencoder⟩
          rw [← hevdi]
          cases hsource : output.isEvdi with
          | true => exact .inl rfl
          | false => exact .inr (by simpa [hsource] using hcaptured)
        refine .inr ⟨hstarted, ?_⟩
        generalize openAudio config answers = out
        obtain ⟨sink, log⟩ := out
        simp only
        split
        · rw [dropHeld, List.append_nil]
        · split
          · rw [dropHeld, List.append_nil]
          · split
            · rw [dropHeld, List.append_nil]
            · rfl

/-- The set-up touches sinks only, and settles them unless one is stranded. -/
theorem setUp_spec (config : Config) {answers : RunAnswers} {output : VirtualOutput}
    (hevdi : output.isEvdi = true ↔ answers.output.compositor = .niri) :
    SinksOnly ((setUp config answers output).log ++
        dropHeld (setUp config answers output).outcome) ∧
      (Settled ((setUp config answers output).log ++
          dropHeld (setUp config answers output).outcome) ↔
        ¬ (answers.Started ∧ answers.BlankModule config)) := by
  rcases setUp_log config hevdi with ⟨hno, hlog⟩ | ⟨hstarted, hlog⟩
  · rw [hlog]
    exact ⟨fun _ _ => ⟨List.not_mem_nil, List.not_mem_nil⟩, iff_of_true trivial fun h => hno h.1⟩
  · rw [hlog, and_iff_right hstarted]
    exact (openAudio_spec config answers).log

def SparesOutputs (log : List (Use Resource)) : Prop :=
  ∀ r, (∃ name, r = .output name) ∨ r = .evdi → Untouched r log

theorem SinksOnly.sparesOutputs {log : List (Use Resource)} (h : SinksOnly log) :
    SparesOutputs log := by
  rintro r (⟨name, rfl⟩ | rfl)
  · exact h _ nofun
  · exact h _ nofun

theorem sparesOutputs_append {l₁ l₂ : List (Use Resource)} (h₁ : SparesOutputs l₁)
    (h₂ : SparesOutputs l₂) : SparesOutputs (l₁ ++ l₂) :=
  fun r hr => untouched_append.2 ⟨h₁ r hr, h₂ r hr⟩

theorem sparesOutputs_rule (serial rule : String) {log : List (Use Resource)}
    (h : ∀ u ∈ log, u = .created (.forward serial rule) ∨ u = .removed (.forward serial rule)) :
    SparesOutputs log := by
  rintro r (⟨name, rfl⟩ | rfl)
  · exact ⟨fun hmem => (h _ hmem).elim nofun nofun, fun hmem => (h _ hmem).elim nofun nofun⟩
  · exact ⟨fun hmem => (h _ hmem).elim nofun nofun, fun hmem => (h _ hmem).elim nofun nofun⟩

/-- The time with an output leaves it alone, and is settled unless a sink is stranded. -/
theorem withOutput_spec (serial : String) (config : Config) {answers : RunAnswers}
    {output : VirtualOutput} (hevdi : output.isEvdi = true ↔ answers.output.compositor = .niri) :
    SparesOutputs (withOutput serial config answers output).log ∧
      SparesOutputs (dropHeld (withOutput serial config answers output).outcome) ∧
      (Settled ((withOutput serial config answers output).log ++
          dropHeld (withOutput serial config answers output).outcome) ↔
        ¬ (answers.forwarded = true ∧ answers.Started ∧ answers.BlankModule config)) := by
  unfold withOutput Forward.new
  by_cases hforwarded : answers.forwarded = true
  · obtain ⟨hsinks, hsettled⟩ := setUp_spec config hevdi
    simp only [hforwarded, if_true, true_and]
    generalize setUp config answers output = out at hsinks hsettled ⊢
    obtain ⟨outcome, log⟩ := out
    simp only at hsinks hsettled ⊢
    have hlog : SinksOnly log := fun r hr => (untouched_append.1 (hsinks r hr)).1
    have hheld : SinksOnly (dropHeld outcome) := fun r hr => (untouched_append.1 (hsinks r hr)).2
    refine ⟨?_, hheld.sparesOutputs, ?_⟩
    · exact sparesOutputs_append (sparesOutputs_append
        (sparesOutputs_rule serial localRule (by simp)) hlog.sparesOutputs)
        (sparesOutputs_rule serial localRule (by simp [Forward.drop]))
    · rw [← hsettled, List.append_assoc]
      have hforward : ∀ m, Resource.forward serial localRule ≠ .sink m := fun m h => by cases h
      exact settled_owned (hlog _ hforward) (hheld _ hforward)
  · simp only [hforwarded, Bool.false_eq_true, if_false, false_and, not_false_iff, iff_true]
    exact ⟨sparesOutputs_rule serial localRule (by simp),
      fun _ _ => ⟨List.not_mem_nil, List.not_mem_nil⟩, trivial⟩

theorem run_prepared {serial : String} {config : Config} {answers : RunAnswers}
    (h : answers.Prepared config) : (run serial config answers).log =
      match VirtualOutput.create config.outputName answers.output with
      | ⟨.error _, log⟩ => log
      | ⟨.ok output, log⟩ =>
        log ++ ((withOutput serial config answers output).log ++ output.drop ++
          dropHeld (withOutput serial config answers output).outcome) := by
  obtain ⟨⟨packages, hpackages, hcontains⟩, hresolution⟩ := h
  unfold run
  simp only [hpackages, hcontains, Bool.true_eq_false, if_false]
  split
  · next e hnone hdisplay =>
    obtain hsome | ⟨panel, hpanel⟩ := hresolution
    · exact absurd hnone hsome
    · cases hdisplay.symm.trans hpanel
  · cases VirtualOutput.create config.outputName answers.output with
    | mk outcome log => cases outcome <;> rfl

theorem run_unprepared {serial : String} {config : Config} {answers : RunAnswers}
    (h : ¬ answers.Prepared config) : (run serial config answers).log = [] := by
  unfold run
  split
  · rfl
  · next packages hpackages =>
    split
    · rfl
    · next hcontains =>
      split
      · rfl
      · next hresolution =>
        refine absurd ⟨⟨packages, hpackages, by simpa using hcontains⟩, ?_⟩ h
        cases hdisplay : answers.display with
        | ok panel => exact .inr ⟨panel, rfl⟩
        | error e => exact .inl fun hnone => hresolution e hnone hdisplay

/-- **A session leaves nothing behind**, and removes nothing twice, exactly when Hyprland does not
strand an output and `pactl` does not load a module without naming it. -/
theorem run_settled_iff (serial : String) (config : Config) (answers : RunAnswers) :
    Settled (run serial config answers).log ↔
      ¬ (answers.Prepared config ∧ answers.output.Strands config.outputName) ∧
        ¬ (answers.Prepared config ∧ answers.output.Yields config.outputName ∧
            answers.forwarded = true ∧ answers.Started ∧ answers.BlankModule config) := by
  by_cases hprepared : answers.Prepared config
  · rw [run_prepared hprepared]
    simp only [hprepared, true_and]
    have hspec := VirtualOutput.create_spec config.outputName answers.output
    generalize VirtualOutput.create config.outputName answers.output = out at hspec
    cases hspec with
    | @owned _ r hyields hfree hevdi hr hdrop =>
      obtain ⟨hinner, houter, hsettled⟩ := withOutput_spec serial config hevdi
      have hr' : (∃ name, r = .output name) ∨ r = .evdi := hr.imp (fun heq => ⟨_, heq⟩) id
      simp only [hdrop, hyields, hfree, true_and, not_false_iff, ← hsettled, List.append_assoc]
      exact settled_owned (hinner _ hr') (houter _ hr')
    | reused hyields hfree hevdi hdrop =>
      obtain ⟨hinner, houter, hsettled⟩ := withOutput_spec serial config hevdi
      simp only [hyields, hfree, true_and, not_false_iff, ← hsettled]
      rcases hdrop with hdrop | hdrop
      · simp only [hdrop, List.append_nil, List.nil_append]
      · simp only [hdrop, List.append_assoc, List.nil_append]
        exact settled_removed (hinner _ (.inl ⟨_, rfl⟩)).1
    | refused hyields hfree => simp [Settled, hyields, hfree]
    | undone hyields hfree => simp [Settled, hyields, hfree]
    | stranded hyields hstrands => simp [Settled, hstrands]
  · rw [run_unprepared hprepared]
    simp [hprepared, Settled]

def strandingAnswers : RunAnswers where
  packages := .ok "package:com.padplay.display".toList
  display := .error "querying device display size"
  output :=
    { compositor := .hyprland, labwcOutputExists := false, connect := .unavailable,
      discovered := none, positioned := false, monitors := some ["eDP-1"], created := true,
      keyword := none, eval := true, restored := true }
  forwarded := true
  launched := true
  captured := .ok ()
  encoder := .ok ()
  audioAvailable := true
  loadModule := some ['7']
  audioEncoder := true
  header := .ok ()
  connected := true
  ackReader := .ok ()
  loop := .ok ()

/-- `hyprctl keyword` fails behind `hyprctl output create`: the output stays. -/
theorem output_stranded :
    (run "serial" ⟨some (1920, 1200), "padplay", true⟩ strandingAnswers).log =
        [.created (.output "padplay")] ∧
      ¬ Settled (run "serial" ⟨some (1920, 1200), "padplay", true⟩ strandingAnswers).log := by
  decide +kernel

end PadPlay.Daemon
