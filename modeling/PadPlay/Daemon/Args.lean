import PadPlay.Capture.Completes
import PadPlay.Daemon.Output
import PadPlay.Daemon.Pacing
import PadPlay.Transport.Resolution

/-!
# From the command line to the arithmetic of a session (`main::parse_args`, `session::run`)

`parse_args` takes every `u32` it can read for `--fps`, `--max-width` and the pair `--width` and
`--height` (`parseArgs_reaches`). `session::run` computes with them as they are: the size of the
stream, the timing of an evdi output and the duration of a frame. `runArithmetic_iff` says which
of them it completes for.
-/

namespace PadPlay.Daemon

open PadPlay.Lib PadPlay.Transport PadPlay.Capture

/-! ## The command line -/

structure SessionConfig where
  resolution : Option (UInt32 × UInt32)
  maxWidth : UInt32
  fps : UInt32
  bitrateKbps : UInt32
  positionX : Int32
  positionY : Int32
  outputName : String
  paintCursor : Bool
  stats : Bool
  audioEnabled : Bool
  deriving DecidableEq

def SessionConfig.default : SessionConfig where
  resolution := none
  maxWidth := 1920
  fps := 90
  bitrateKbps := 20000
  positionX := 0
  positionY := 1080
  outputName := "padplay"
  paintCursor := false
  stats := false
  audioEnabled := true

structure Args where
  config : SessionConfig
  once : Bool
  seconds : Option UInt64
  deriving DecidableEq

/-- What the loop of `parse_args` has read. -/
structure ArgsRead extends Args where
  width : Option UInt32
  height : Option UInt32

/-- `next_u32`: the argument behind the flag, if there is one and it parses. -/
def nextU32 (value : Option String) (fallback : UInt32) : UInt32 :=
  ((value.bind fun v => Text.fromStrRadix 32 10 v.toList).map UInt32.ofNat).getD fallback

/-- `str::parse::<i32>`: an optional sign and at least one digit. -/
def parseI32 (t : Text) : Option Int32 :=
  match t with
  | ['-'] => none
  | '-' :: digits =>
    (Text.readDigits 32 10 0 digits).bind fun n =>
      if n ≤ 2 ^ 31 then some (Int32.ofInt (-n)) else none
  | _ => (Text.fromStrRadix 31 10 t).map Int32.ofNat

def nextI32 (value : Option String) (fallback : Int32) : Int32 :=
  (value.bind fun v => parseI32 v.toList).getD fallback

/-- One argument: it stands for itself, takes the next one, or ends the process. -/
inductive Arm where
  | alone (read : ArgsRead)
  | takes (read : Option String → ArgsRead)
  | exit

def ArgsRead.arm (read : ArgsRead) (arg : String) : Arm :=
  let config := read.config
  match arg with
  | "--width" => .takes fun value => { read with width := some (nextU32 value 1920) }
  | "--height" => .takes fun value => { read with height := some (nextU32 value 1200) }
  | "--max-width" =>
    .takes fun value => { read with config := { config with maxWidth := nextU32 value 1920 } }
  | "--native" => .alone { read with config := { config with maxWidth := 0xFFFFFFFF } }
  | "--fps" => .takes fun value => { read with config := { config with fps := nextU32 value 60 } }
  | "--bitrate" =>
    .takes fun value => { read with config := { config with bitrateKbps := nextU32 value 20000 } }
  | "--position" =>
    .takes fun value =>
      { read with config := { config with positionX := nextI32 value config.positionX } }
  | "--position-y" =>
    .takes fun value =>
      { read with config := { config with positionY := nextI32 value config.positionY } }
  | "--scale" => .takes fun _ => read -- a floating-point number, which only a command shows
  | "--output-name" =>
    .takes fun value =>
      { read with config := { config with outputName := value.getD config.outputName } }
  | "--show-cursor" => .alone { read with config := { config with paintCursor := true } }
  | "--no-audio" => .alone { read with config := { config with audioEnabled := false } }
  | "--once" => .alone { read with once := true }
  | "--stats" => .alone { read with config := { config with stats := true } }
  | "--seconds" =>
    .takes fun value =>
      { read with
        seconds := (value.bind fun v => Text.fromStrRadix 64 10 v.toList).map UInt64.ofNat
        once := true
        config := { config with stats := true } }
  | "--help" | "-h" => .exit
  | _ => .alone read

/-- The loop over the arguments behind the program's name. -/
def readArgs (read : ArgsRead) : List String → Option ArgsRead
  | [] => some read
  | [arg] =>
    match read.arm arg with
    | .alone read => some read
    | .takes next => some (next none)
    | .exit => none
  | arg :: value :: rest =>
    match read.arm arg with
    | .alone read => readArgs read (value :: rest)
    | .takes next => readArgs (next (some value)) rest
    | .exit => none

/-- Only an explicit pair pins the resolution; one alone still auto-detects. -/
def parseArgs (argv : List String) : Option Args :=
  (readArgs ⟨⟨.default, false, none⟩, none, none⟩ argv).map fun read =>
    let resolution :=
      match read.width, read.height with
      | some w, some h => some (w, h)
      | _, _ => none
    { read.toArgs with config := { read.config with resolution } }

/-! ### What it can read -/

theorem nextU32_repr (n fallback : UInt32) : nextU32 (some n.toNat.repr) fallback = n := by
  have hread : Text.fromStrRadix 32 10 (Nat.toDigits 10 n.toNat) = some n.toNat :=
    Text.fromStrRadix_toDigits (by decide) (by decide) n.toNat_lt
  simp only [nextU32, Option.bind_some, Nat.toList_repr, hread, Option.map_some, Option.getD_some,
    UInt32.ofNat_toNat]

/-- The arguments for a frame rate, a greatest width and perhaps a resolution. -/
def argsFor (fps maxWidth : UInt32) (resolution : Option (UInt32 × UInt32)) : List String :=
  ["--fps", fps.toNat.repr, "--max-width", maxWidth.toNat.repr] ++
    match resolution with
    | none => []
    | some (w, h) => ["--width", w.toNat.repr, "--height", h.toNat.repr]

/-- **Every number** that fits can be asked for. -/
theorem parseArgs_reaches (fps maxWidth : UInt32) (resolution : Option (UInt32 × UInt32)) :
    parseArgs (argsFor fps maxWidth resolution) =
      some ⟨{ SessionConfig.default with fps, maxWidth, resolution }, false, none⟩ := by
  cases resolution with
  | none =>
    simp only [argsFor, List.append_nil, parseArgs, readArgs, ArgsRead.arm, nextU32_repr,
      Option.map_some]
  | some size =>
    obtain ⟨w, h⟩ := size
    simp only [argsFor, List.cons_append, List.nil_append, parseArgs, readArgs, ArgsRead.arm,
      nextU32_repr, Option.map_some]

/-! ## The arithmetic -/

/-- The integer arithmetic of `run`, in the order in which it is done: the size, the timing and the
EDID of an evdi output, and `frame_duration_ns`, which it returns. -/
def runArithmetic (compositor : Compositor) (config : SessionConfig) (panel : Panel) :
    Option Nat := do
  let (width, height) ←
    match config.resolution with
    | some (w, h) => some (w.toNat, h.toNat)
    | none => streamResolutionChecked panel config.maxWidth
  if compositor = .niri then
    let _edid ← Edid.buildEdid width height config.fps.toNat
  Pacing.frameDurationNs config.fps.toNat

/-- The size of the stream: the pair that was given, or else the panel's scaled to the width. -/
def SessionConfig.size (config : SessionConfig) (panel : Panel) : Nat × Nat :=
  match config.resolution with
  | some (w, h) => (w.toNat, h.toNat)
  | none =>
    let width := max (min panel.width.toNat config.maxWidth.toNat) 2
    let height := max (width * panel.height.toNat / panel.width.toNat) 2
    (width - width % 2, height - height % 2)

/-- The frame rate is not zero, and on niri the mode of that size and rate has a timing. -/
structure Computes (compositor : Compositor) (config : SessionConfig) (panel : Panel) : Prop where
  fps : config.fps ≠ 0
  timing : compositor = .niri →
    Edid.Timeable (config.size panel).1 (config.size panel).2 config.fps.toNat

section
variable (compositor : Compositor) (config : SessionConfig) (panel : Panel)

theorem runArithmetic_eq :
    runArithmetic compositor config panel =
      if compositor = .niri then
        (Edid.buildEdid (config.size panel).1 (config.size panel).2 config.fps.toNat).bind fun _ =>
          Pacing.frameDurationNs config.fps.toNat
      else Pacing.frameDurationNs config.fps.toNat := by
  unfold runArithmetic SessionConfig.size
  cases config.resolution with
  | none =>
    simp only [streamResolutionChecked_some]
    rfl
  | some size => rfl

theorem frameDurationNs_isSome (fps : UInt32) :
    (Pacing.frameDurationNs fps.toNat).isSome = true ↔ fps ≠ 0 := by
  have hzero : fps = 0 ↔ fps.toNat = 0 := by
    rw [← UInt32.toNat_inj]
    rfl
  rw [Pacing.frameDurationNs, Checked.div, Ne, hzero]
  split <;> next h => simp [h]

theorem runArithmetic_isSome :
    (runArithmetic compositor config panel).isSome = true ↔ Computes compositor config panel := by
  rw [runArithmetic_eq]
  split
  · next hniri =>
    have hedid := @Edid.buildEdid_isSome (config.size panel).1 (config.size panel).2
      config.fps.toNat
    have hfps := frameDurationNs_isSome config.fps
    constructor
    · intro h
      obtain ⟨duration, hduration⟩ := Option.isSome_iff_exists.1 h
      obtain ⟨edid, hsome, hduration⟩ := Option.bind_eq_some_iff.1 hduration
      refine ⟨hfps.1 (by rw [hduration]; rfl), ?_⟩
      intro _
      exact hedid.1 (by rw [hsome]; rfl)
    · intro h
      obtain ⟨edid, hsome⟩ := Option.isSome_iff_exists.1 (hedid.2 (h.timing hniri))
      rw [hsome, Option.bind_some]
      exact hfps.2 h.fps
  · next hniri =>
    rw [frameDurationNs_isSome]
    exact ⟨fun hfps => ⟨hfps, fun h => absurd h hniri⟩, Computes.fps⟩

end

/-- **No operation faults** for what the command line asks for, exactly when the frame rate is not
zero and, on niri, the mode has a timing. -/
theorem runArithmetic_iff (argv : List String) (compositor : Compositor) (panel : Panel) :
    (∀ args ∈ parseArgs argv, (runArithmetic compositor args.config panel).isSome = true) ↔
      ∀ args ∈ parseArgs argv, Computes compositor args.config panel := by
  simp only [runArithmetic_isSome]

/-- `--fps 0`: the duration of a frame is a division by zero, on every path. -/
theorem runArithmetic_fps_zero :
    ∃ args ∈ parseArgs ["--fps", "0"],
      runArithmetic .hyprland args.config ⟨2880, 1800, by decide, by decide⟩ = none :=
  ⟨⟨{ SessionConfig.default with fps := 0 }, false, none⟩, by decide +kernel, by decide +kernel⟩

end PadPlay.Daemon
