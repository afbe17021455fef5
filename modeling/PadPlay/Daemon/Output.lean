import PadPlay.Lib.Ledger
import PadPlay.Lib.Text

/-!
# Virtual output creation, per compositor (`output`)

`VirtualOutput::create` runs a few external commands, each of which can fail, and returns a value
whose `Drop` removes the output. What each command answers is given; the log says which outputs,
forward rules and sinks the daemon creates and removes.
-/

namespace PadPlay.Daemon

open PadPlay.Lib

/-- What a session creates outside the daemon. -/
inductive Resource where
  /-- a headless output of Hyprland's -/
  | output (name : String)
  /-- a connected evdi device -/
  | evdi
  | forward (serial rule : String)
  /-- a null sink, by its PipeWire module -/
  | sink (moduleId : Text)
  deriving DecidableEq, Repr

inductive Compositor where
  | hyprland
  | sway
  | labwc
  | niri
  | unsupported
  deriving DecidableEq, Repr

/-- Fail unless this compositor can host a session. -/
def Compositor.ensureSupported : Compositor → Except String Unit
  | .hyprland => .ok ()
  | .sway => .error "Sway support is not implemented yet."
  | .labwc => .ok ()
  | .niri => .ok ()
  | .unsupported => .error "unsupported compositor"

inductive VirtualOutput where
  | managed (compositor : Compositor) (name : String)
  | evdi (name : String)
  deriving DecidableEq, Repr

def VirtualOutput.drop : VirtualOutput → List (Use Resource)
  | .evdi _ => [.removed .evdi]
  | .managed .hyprland name => [.removed (.output name)]
  | .managed .sway name => [.removed (.output name)]
  | .managed .labwc _ => []
  | .managed .niri _ => []
  | .managed .unsupported _ => []

/-- `evdi_mut().is_some()`: frames come from the output itself. -/
def VirtualOutput.isEvdi : VirtualOutput → Bool
  | .evdi _ => true
  | .managed _ _ => false

inductive EvdiConnect where
  /-- no device node, no runtime, or the node does not open -/
  | unavailable
  /-- the device is connected, but the compositor does not mode-set it in time -/
  | neverModeSet
  | modeSet
  deriving DecidableEq, Repr

/-- What the host answers while an output is created: the compositor that is running and the outcome
of each command, with what it prints where that is read. -/
structure OutputAnswers where
  compositor : Compositor
  /-- labwc: `wlr-randr` lists the output -/
  labwcOutputExists : Bool
  /-- niri: the evdi device, the connector that appears for it, and `wlr-randr --output` -/
  connect : EvdiConnect
  discovered : Option String
  positioned : Bool
  /-- Hyprland: `hyprctl monitors`, `output create`, `keyword`, `eval`, and the restoring `eval` -/
  monitors : Option (List String)
  created : Bool
  keyword : Option Text
  eval : Bool
  restored : Bool

/-- The reply of a Lua configuration parser, which refuses `keyword` with a zero exit status. -/
def refusesKeyword (reply : Text) : Bool := Text.contains "non-legacy parsers".toList reply

/-- `VirtualOutput::create`. A `?` behind the creation returns before there is a value to drop,
except for evdi, whose handle is dropped wherever the function returns. -/
def VirtualOutput.create (name : String) (answers : OutputAnswers) :
    Traced Resource String VirtualOutput :=
  match answers.compositor with
  | .labwc =>
    if answers.labwcOutputExists then ⟨.ok (.managed .labwc name), []⟩
    else ⟨.error "labwc output does not exist.", []⟩
  | .niri =>
    match answers.connect with
    | .unavailable => ⟨.error "creating evdi virtual output", []⟩
    | .neverModeSet => ⟨.error "creating evdi virtual output", [.created .evdi, .removed .evdi]⟩
    | .modeSet =>
      match answers.discovered with
      | none =>
        ⟨.error "finding the evdi output in wlr-randr's output list",
          [.created .evdi, .removed .evdi]⟩
      | some discovered =>
        if answers.positioned then ⟨.ok (.evdi discovered), [.created .evdi]⟩
        else ⟨.error "positioning evdi output via wlr-randr", [.created .evdi, .removed .evdi]⟩
  | .hyprland =>
    match answers.monitors with
    | none => ⟨.error "saving Hyprland monitor state", []⟩
    | some saved =>
      if name ∉ saved ∧ answers.created = false then ⟨.error "creating headless output", []⟩
      else
        let log := if name ∈ saved then [] else [.created (.output name)]
        match answers.keyword with
        | none => ⟨.error "configuring output", log⟩
        | some reply =>
          if refusesKeyword reply ∧ answers.eval = false then ⟨.error "configuring output", log⟩
          else if answers.restored then ⟨.ok (.managed .hyprland name), log⟩
          else ⟨.error "restoring Hyprland monitor state", log⟩
  | other =>
    match other.ensureSupported with
    | .error e => ⟨.error e, []⟩
    | .ok () => ⟨.ok (.managed other name), []⟩

/-! ## What a call creates, and what it leaves -/

/-- Hyprland applies the output's mode and the other monitors' state: `keyword` is accepted, or
refused and then `eval` accepted, and the restoring `eval` succeeds. -/
def OutputAnswers.Configured (answers : OutputAnswers) : Prop :=
  (∃ reply, answers.keyword = some reply ∧ (refusesKeyword reply = true → answers.eval = true)) ∧
    answers.restored = true

def OutputAnswers.Strands (name : String) (answers : OutputAnswers) : Prop :=
  answers.compositor = .hyprland ∧ (∃ saved, answers.monitors = some saved ∧ name ∉ saved) ∧
    answers.created = true ∧ ¬ answers.Configured

theorem OutputAnswers.not_strands (name : String) (answers : OutputAnswers)
    (h : answers.compositor ≠ .hyprland) : ¬ answers.Strands name := fun hstrands => h hstrands.1

def OutputAnswers.Yields (name : String) (answers : OutputAnswers) : Prop :=
  match answers.compositor with
  | .labwc => answers.labwcOutputExists = true
  | .niri =>
    answers.connect = .modeSet ∧ answers.discovered.isSome = true ∧ answers.positioned = true
  | .hyprland =>
    (∃ saved, answers.monitors = some saved ∧ (name ∈ saved ∨ answers.created = true)) ∧
      answers.Configured
  | .sway | .unsupported => False

inductive Created (name : String) (answers : OutputAnswers) :
    Traced Resource String VirtualOutput → Prop
  /-- an output of the session's own, which is removed when the value is dropped -/
  | owned {output r} (hyields : answers.Yields name) (hfree : ¬ answers.Strands name)
    (hevdi : output.isEvdi = true ↔ answers.compositor = .niri)
    (hr : r = .output name ∨ r = .evdi) (hdrop : output.drop = [.removed r]) :
    Created name answers ⟨.ok output, [.created r]⟩
  /-- an output that was there before -/
  | reused {output} (hyields : answers.Yields name) (hfree : ¬ answers.Strands name)
    (hevdi : output.isEvdi = true ↔ answers.compositor = .niri)
    (hdrop : output.drop = [] ∨ output.drop = [.removed (.output name)]) :
    Created name answers ⟨.ok output, []⟩
  | refused {e} (hyields : ¬ answers.Yields name) (hfree : ¬ answers.Strands name) :
    Created name answers ⟨.error e, []⟩
  | undone {e} (hyields : ¬ answers.Yields name) (hfree : ¬ answers.Strands name) :
    Created name answers ⟨.error e, [.created .evdi, .removed .evdi]⟩
  | stranded {e} (hyields : ¬ answers.Yields name) (hstrands : answers.Strands name) :
    Created name answers ⟨.error e, [.created (.output name)]⟩

theorem VirtualOutput.create_configure {name : String} {answers : OutputAnswers}
    {saved : List String} (hcompositor : answers.compositor = .hyprland)
    (hmonitors : answers.monitors = some saved) (hthere : name ∈ saved ∨ answers.created = true) :
    ∃ log, log = (if name ∈ saved then [] else [.created (.output name)]) ∧
      (answers.Configured ∧ create name answers = ⟨.ok (.managed .hyprland name), log⟩ ∨
        ¬ answers.Configured ∧ ∃ e, create name answers = ⟨.error e, log⟩) := by
  refine ⟨_, rfl, ?_⟩
  have hno : ¬ (name ∉ saved ∧ answers.created = false) := by
    rintro ⟨hname, hcreated⟩
    exact hthere.elim hname (by rw [hcreated]; nofun)
  unfold create OutputAnswers.Configured
  simp only [hcompositor, hmonitors, if_neg hno]
  cases answers.keyword with
  | none => exact .inr ⟨by simp, _, rfl⟩
  | some reply =>
    simp only [Option.some.injEq, exists_eq_left']
    split
    · next hrefused => exact .inr ⟨by simp [hrefused.1, hrefused.2], _, rfl⟩
    · next haccepted =>
      have heval : refusesKeyword reply = true → answers.eval = true := by
        simpa using haccepted
      split
      · next hrestored => exact .inl ⟨⟨heval, hrestored⟩, rfl⟩
      · next hrestored => exact .inr ⟨fun h => hrestored h.2, _, rfl⟩

theorem VirtualOutput.create_hyprland {name : String} {answers : OutputAnswers}
    (hcompositor : answers.compositor = .hyprland) :
    Created name answers (create name answers) := by
  cases hmonitors : answers.monitors with
  | none =>
    have hcreate : create name answers = ⟨.error "saving Hyprland monitor state", []⟩ := by
      simp only [create, hcompositor, hmonitors]
    rw [hcreate]
    refine .refused ?_ ?_
    · simp [OutputAnswers.Yields, hcompositor, hmonitors]
    · rintro ⟨-, ⟨saved, hsaved, -⟩, -⟩
      rw [hmonitors] at hsaved
      cases hsaved
  | some saved =>
    by_cases hthere : name ∈ saved ∨ answers.created = true
    · obtain ⟨log, rfl, ⟨hconfigured, hcreate⟩ | ⟨hno, e, hcreate⟩⟩ :=
        create_configure hcompositor hmonitors hthere
      · have hyields : answers.Yields name := by
          simp only [OutputAnswers.Yields, hcompositor]
          exact ⟨⟨saved, hmonitors, hthere⟩, hconfigured⟩
        have hfree : ¬ answers.Strands name := fun h => h.2.2.2 hconfigured
        rw [hcreate]
        split
        · exact .reused hyields hfree (by simp [isEvdi, hcompositor]) (.inr rfl)
        · exact .owned hyields hfree (by simp [isEvdi, hcompositor]) (.inl rfl) rfl
      · have hyields : ¬ answers.Yields name := by
          simp only [OutputAnswers.Yields, hcompositor]
          exact fun h => hno h.2
        rw [hcreate]
        split
        · next hname =>
          refine .refused hyields ?_
          rintro ⟨-, ⟨saved', hsaved, hnot⟩, -⟩
          cases hmonitors.symm.trans hsaved
          exact hnot hname
        · next hname =>
          exact .stranded hyields
            ⟨hcompositor, ⟨saved, hmonitors, hname⟩, hthere.resolve_left hname, hno⟩
    · rw [not_or, Bool.not_eq_true] at hthere
      have hcreate : create name answers = ⟨.error "creating headless output", []⟩ := by
        simp only [create, hcompositor, hmonitors, if_pos hthere]
      rw [hcreate]
      refine .refused ?_ ?_
      · simp only [OutputAnswers.Yields, hcompositor]
        rintro ⟨⟨saved', hsaved, hor⟩, -⟩
        cases hmonitors.symm.trans hsaved
        exact hor.elim hthere.1 (by rw [hthere.2]; nofun)
      · rintro ⟨-, -, hcreated, -⟩
        rw [hthere.2] at hcreated
        cases hcreated

/-- The evdi handle is dropped on every early return. -/
theorem VirtualOutput.create_niri {name : String} {answers : OutputAnswers}
    (hcompositor : answers.compositor = .niri) : Created name answers (create name answers) := by
  have hfree := answers.not_strands name (by rw [hcompositor]; nofun)
  simp only [create, hcompositor]
  cases hconnect : answers.connect with
  | unavailable => exact .refused (by simp [OutputAnswers.Yields, hcompositor, hconnect]) hfree
  | neverModeSet => exact .undone (by simp [OutputAnswers.Yields, hcompositor, hconnect]) hfree
  | modeSet =>
    cases hdiscovered : answers.discovered with
    | none => exact .undone (by simp [OutputAnswers.Yields, hcompositor, hdiscovered]) hfree
    | some discovered =>
      simp only
      split
      · next hpositioned =>
        refine .owned ?_ hfree (by simp [isEvdi, hcompositor]) (.inr rfl) rfl
        simp [OutputAnswers.Yields, hcompositor, hconnect, hdiscovered, hpositioned]
      · next hpositioned =>
        exact .undone (by simp [OutputAnswers.Yields, hcompositor, hpositioned]) hfree

/-- **`VirtualOutput::create`**, through every way it can end. -/
theorem VirtualOutput.create_spec (name : String) (answers : OutputAnswers) :
    Created name answers (create name answers) := by
  cases hcompositor : answers.compositor with
  | hyprland => exact create_hyprland hcompositor
  | niri => exact create_niri hcompositor
  | labwc =>
    have hfree := answers.not_strands name (by rw [hcompositor]; nofun)
    simp only [create, hcompositor]
    split
    · next hexists =>
      exact .reused (by simp [OutputAnswers.Yields, hcompositor, hexists]) hfree
        (by simp [isEvdi, hcompositor]) (.inl rfl)
    · next hexists => exact .refused (by simp [OutputAnswers.Yields, hcompositor, hexists]) hfree
  | sway =>
    have hfree := answers.not_strands name (by rw [hcompositor]; nofun)
    simp only [create, hcompositor, Compositor.ensureSupported]
    exact .refused (by simp [OutputAnswers.Yields, hcompositor]) hfree
  | unsupported =>
    have hfree := answers.not_strands name (by rw [hcompositor]; nofun)
    simp only [create, hcompositor, Compositor.ensureSupported]
    exact .refused (by simp [OutputAnswers.Yields, hcompositor]) hfree

end PadPlay.Daemon
