import PadPlay.Daemon.Monitors
import PadPlay.Daemon.Output
import PadPlay.Lib.Fallible

/-!
# Hyprland's layout (`output::hyprland_monitor_state`, `VirtualOutput::create`)

Adding an output moves the other monitors, so `create` lists them first, adds and configures its
output, and puts the others back. The list is read from JSON; one monitor that cannot be read stops
the call before anything has changed, and a call that returns has put back every monitor that was
listed (`layout_restored`).
-/

namespace PadPlay.Daemon.Hyprland

open PadPlay.Lib

/-! ## The listing -/

/-- What is used of `serde_json`. -/
structure Json (V : Type) where
  fromStr : Text → Except String V
  asArray : V → Option (List V)
  get : V → String → Option V
  asStr : V → Option Text
  asI64 : V → Option Int64
  asU64 : V → Option UInt64
  asF64 : V → Option F64

/-- `i32::try_from`. -/
def toI32 (n : Int64) : Option Int32 :=
  if -2 ^ 31 ≤ n.toInt ∧ n.toInt < 2 ^ 31 then some (Int32.ofInt n.toInt) else none

/-- `u32::try_from`. -/
def toU32 (n : UInt64) : Option UInt32 :=
  if n.toNat < 2 ^ 32 then some (UInt32.ofNat n.toNat) else none

def context {α : Type} (message : String) : Option α → Except String α
  | none => .error message
  | some a => .ok a

variable {V : Type} (json : Json V)

def Json.read {α : Type} (monitor : V) (key : String) (as : V → Option α) : Option α :=
  (json.get monitor key).bind as

/-- The body of the loop in `hyprland_monitor_state`. -/
def monitorState (monitor : V) : Except String MonitorState := do
  let name ← context "Hyprland monitor has no name" (json.read monitor "name" json.asStr)
  let x ← context "Hyprland monitor has no x position" (json.read monitor "x" json.asI64)
  let y ← context "Hyprland monitor has no y position" (json.read monitor "y" json.asI64)
  let width ← context "Hyprland monitor has no width" (json.read monitor "width" json.asU64)
  let height ← context "Hyprland monitor has no height" (json.read monitor "height" json.asU64)
  let refreshRate ←
    context "Hyprland monitor has no refresh rate" (json.read monitor "refreshRate" json.asF64)
  let scale ← context "Hyprland monitor has no scale" (json.read monitor "scale" json.asF64)
  let transform ←
    context "Hyprland monitor has no transform" (json.read monitor "transform" json.asI64)
  let x ← context "Hyprland monitor x position is out of range" (toI32 x)
  let y ← context "Hyprland monitor y position is out of range" (toI32 y)
  let width ← context "Hyprland monitor width is out of range" (toU32 width)
  let height ← context "Hyprland monitor height is out of range" (toU32 height)
  let transform ← context "Hyprland monitor transform is out of range" (toI32 transform)
  return { name, x, y, width, height, refreshRate, scale, transform }

/-- `hyprland_monitor_state`, for what `hyprctl monitors -j` answers. -/
def hyprlandMonitorState (answer : Except String Text) : Except String (List MonitorState) :=
  match answer with
  | .error _ => .error "reading Hyprland monitor state"
  | .ok text =>
    match json.fromStr text with
    | .error _ => .error "parsing Hyprland monitor JSON"
    | .ok monitors =>
      match json.asArray monitors with
      | none => .error "Hyprland monitor JSON is not an array"
      | some monitors => monitors.mapM (monitorState json)

/-! ## `VirtualOutput::create` on Hyprland -/

/-- The mode and the position that are asked for. -/
structure Placement where
  width : UInt32
  height : UInt32
  refresh : UInt32
  x : Int32
  y : Int32
  deriving DecidableEq

/-- `{width}x{height}@{refresh}`. -/
def Placement.modeText (p : Placement) : Text :=
  Nat.toDigits 10 p.width.toNat ++ 'x' :: (Nat.toDigits 10 p.height.toNat ++
    '@' :: Nat.toDigits 10 p.refresh.toNat)

/-- `{x}x{y}`. -/
def Placement.positionText (p : Placement) : Text :=
  printInt p.x.toInt ++ 'x' :: printInt p.y.toInt

def spec (name : Text) (p : Placement) : Text :=
  name ++ ',' :: (p.modeText ++ ',' :: (p.positionText ++ ",1".toList))

/-- The same rule for `eval`; `\x7b` and `\x7d` are the braces of the table. -/
def configureScript (name : Text) (p : Placement) : Text :=
  "hl.monitor(\x7b output = ".toList ++ luaString name ++ ", mode = \"".toList ++ p.modeText ++
    "\", position = \"".toList ++ p.positionText ++ "\", scale = 1 \x7d)".toList

/-- A command line: `hyprctl` and its arguments. -/
abbrev Command := List Text

def listMonitors : Command := ["monitors".toList, "-j".toList]
def createOutput (name : Text) : Command :=
  ["output".toList, "create".toList, "headless".toList, name]
def keywordMonitor (spec : Text) : Command := ["keyword".toList, "monitor".toList, spec]
def evalScript (script : Text) : Command := ["eval".toList, script]

section
variable (run : List Command → Except String Text) (name : Text) (p : Placement)

/-- The commands up to the creation, `keyword` and the first `eval`. -/
def creating (saved : List MonitorState) : List Command :=
  if saved.any (·.name = name) then [listMonitors] else [listMonitors, createOutput name]

def placing (saved : List MonitorState) : List Command :=
  creating name saved ++ [keywordMonitor (spec name p)]

def evaluating (saved : List MonitorState) (reply : Text) : List Command :=
  placing name p saved ++
    if refusesKeyword reply then [evalScript (configureScript name p)] else []

/-- The Hyprland arm of `VirtualOutput::create`, and the commands it runs. What `run` returns for a
command may depend on all the commands before it. -/
def create : Except String VirtualOutput × List Command :=
  match hyprlandMonitorState json (run [listMonitors]) with
  | .error _ => (.error "saving Hyprland monitor state", [listMonitors])
  | .ok saved =>
    let log := creating name saved
    match if saved.any (·.name = name) then .ok [] else run log with
    | .error _ => (.error "creating headless output", log)
    | .ok _ =>
      let log := placing name p saved
      match run log with
      | .error _ => (.error ("configuring output as " ++ String.ofList (spec name p)), log)
      | .ok reply =>
        let log := evaluating name p saved reply
        match if refusesKeyword reply then run log else .ok [] with
        | .error _ =>
          (.error ("configuring output as " ++ String.ofList (configureScript name p)), log)
        | .ok _ =>
          let log := log ++ [evalScript (restoreScript saved name)]
          match restored (run log) with
          | .error e => (.error e, log)
          | .ok () => (.ok (.managed .hyprland (String.ofList name)), log)

end

/-! ## Reading the listing -/

section
variable {json}

theorem context_eq_ok {α : Type} {message : String} {o : Option α} {a : α} :
    context message o = .ok a ↔ o = some a := by
  cases o with
  | none => simp [context]
  | some b => simp [context]

theorem toI32_eq_some {n : Int64} {k : Int32} : toI32 n = some k ↔ n.toInt = k.toInt := by
  unfold toI32
  split
  · next h =>
    rw [Option.some.injEq, ← Int32.toInt_inj, Int32.toInt_ofInt_of_le h.1 h.2]
  · next h =>
    have hlow := k.le_toInt
    have hhigh := k.toInt_lt
    simp only [reduceCtorEq, false_iff]
    omega

theorem toU32_eq_some {n : UInt64} {k : UInt32} : toU32 n = some k ↔ n.toNat = k.toNat := by
  unfold toU32
  split
  · next h =>
    rw [Option.some.injEq, ← UInt32.toNat_inj, UInt32.toNat_ofNat_of_lt' h]
  · next h =>
    have hhigh := k.toNat_lt
    simp only [reduceCtorEq, false_iff]
    omega

/-- The monitor is listed with this state. -/
structure Listed (json : Json V) (monitor : V) (state : MonitorState) : Prop where
  name : json.read monitor "name" json.asStr = some state.name
  x : ∃ n, json.read monitor "x" json.asI64 = some n ∧ n.toInt = state.x.toInt
  y : ∃ n, json.read monitor "y" json.asI64 = some n ∧ n.toInt = state.y.toInt
  width : ∃ n, json.read monitor "width" json.asU64 = some n ∧ n.toNat = state.width.toNat
  height : ∃ n, json.read monitor "height" json.asU64 = some n ∧ n.toNat = state.height.toNat
  refreshRate : json.read monitor "refreshRate" json.asF64 = some state.refreshRate
  scale : json.read monitor "scale" json.asF64 = some state.scale
  transform : ∃ n, json.read monitor "transform" json.asI64 = some n ∧
    n.toInt = state.transform.toInt

theorem monitorState_eq_ok {monitor : V} {state : MonitorState} :
    monitorState json monitor = .ok state ↔ Listed json monitor state := by
  simp only [monitorState, Fallible.bind_eq_ok, context_eq_ok, toI32_eq_some, toU32_eq_some]
  constructor
  · rintro ⟨name, hname, x, hx, y, hy, width, hwidth, height, hheight, rate, hrate, scale, hscale,
      transform, htransform, x', hx', y', hy', width', hwidth', height', hheight', transform',
      htransform', h⟩
    cases h
    exact ⟨hname, ⟨x, hx, hx'⟩, ⟨y, hy, hy'⟩, ⟨width, hwidth, hwidth'⟩,
      ⟨height, hheight, hheight'⟩, hrate, hscale, ⟨transform, htransform, htransform'⟩⟩
  · rintro ⟨hname, ⟨x, hx, hx'⟩, ⟨y, hy, hy'⟩, ⟨width, hwidth, hwidth'⟩,
      ⟨height, hheight, hheight'⟩, hrate, hscale, ⟨transform, htransform, htransform'⟩⟩
    exact ⟨_, hname, x, hx, y, hy, width, hwidth, height, hheight, _, hrate, _, hscale, transform,
      htransform, _, hx', _, hy', _, hwidth', _, hheight', _, htransform', rfl⟩

/-- What `monitorState` checks, in its order, and what it says if the check fails. -/
def checks (json : Json V) (monitor : V) : List (String × Bool) :=
  [("Hyprland monitor has no name", (json.read monitor "name" json.asStr).isSome),
    ("Hyprland monitor has no x position", (json.read monitor "x" json.asI64).isSome),
    ("Hyprland monitor has no y position", (json.read monitor "y" json.asI64).isSome),
    ("Hyprland monitor has no width", (json.read monitor "width" json.asU64).isSome),
    ("Hyprland monitor has no height", (json.read monitor "height" json.asU64).isSome),
    ("Hyprland monitor has no refresh rate", (json.read monitor "refreshRate" json.asF64).isSome),
    ("Hyprland monitor has no scale", (json.read monitor "scale" json.asF64).isSome),
    ("Hyprland monitor has no transform", (json.read monitor "transform" json.asI64).isSome),
    ("Hyprland monitor x position is out of range",
      ((json.read monitor "x" json.asI64).bind toI32).isSome),
    ("Hyprland monitor y position is out of range",
      ((json.read monitor "y" json.asI64).bind toI32).isSome),
    ("Hyprland monitor width is out of range",
      ((json.read monitor "width" json.asU64).bind toU32).isSome),
    ("Hyprland monitor height is out of range",
      ((json.read monitor "height" json.asU64).bind toU32).isSome),
    ("Hyprland monitor transform is out of range",
      ((json.read monitor "transform" json.asI64).bind toI32).isSome)]

theorem context_bind {α β : Type} {message : String} {o : Option α} {f : α → Except String β} :
    context message o >>= f = match o with
      | none => .error message
      | some a => f a := by
  cases o <;> rfl

/-- The error is that of the first check that fails. -/
theorem monitorState_eq_error {monitor : V} {e : String} :
    monitorState json monitor = .error e ↔
      (checks json monitor).find? (!·.2) = some (e, false) := by
  unfold monitorState checks
  simp only [context_bind]
  cases json.read monitor "name" json.asStr with
  | none => simp [List.find?]
  | some name =>
  cases json.read monitor "x" json.asI64 with
  | none => simp [List.find?]
  | some x =>
  cases json.read monitor "y" json.asI64 with
  | none => simp [List.find?]
  | some y =>
  cases json.read monitor "width" json.asU64 with
  | none => simp [List.find?]
  | some width =>
  cases json.read monitor "height" json.asU64 with
  | none => simp [List.find?]
  | some height =>
  cases json.read monitor "refreshRate" json.asF64 with
  | none => simp [List.find?]
  | some refreshRate =>
  cases json.read monitor "scale" json.asF64 with
  | none => simp [List.find?]
  | some scale =>
  cases json.read monitor "transform" json.asI64 with
  | none => simp [List.find?]
  | some transform =>
  simp only [Option.isSome_some, Option.bind_some, List.find?, Bool.not_true]
  cases toI32 x with
  | none => simp
  | some x =>
  cases toI32 y with
  | none => simp
  | some y =>
  cases toU32 width with
  | none => simp
  | some width =>
  cases toU32 height with
  | none => simp
  | some height =>
  cases toI32 transform with
  | none => simp
  | some transform => simp [pure, Except.pure]

/-- The monitors that the answer to `hyprctl monitors -j` lists. -/
def Json.Lists (json : Json V) (answer : Except String Text) (monitors : List V) : Prop :=
  ∃ text value, answer = .ok text ∧ json.fromStr text = .ok value ∧
    json.asArray value = some monitors

theorem hyprlandMonitorState_lists {answer : Except String Text} {monitors : List V}
    (h : json.Lists answer monitors) :
    hyprlandMonitorState json answer = monitors.mapM (monitorState json) := by
  obtain ⟨text, value, rfl, hvalue, hmonitors⟩ := h
  simp only [hyprlandMonitorState, hvalue, hmonitors]

/-- The answer lists no monitors, and what is said about it. -/
def Json.Refused (json : Json V) (answer : Except String Text) (e : String) : Prop :=
  (∃ e', answer = .error e') ∧ e = "reading Hyprland monitor state" ∨
  (∃ text e', answer = .ok text ∧ json.fromStr text = .error e') ∧
    e = "parsing Hyprland monitor JSON" ∨
  (∃ text value, answer = .ok text ∧ json.fromStr text = .ok value ∧
    json.asArray value = none) ∧ e = "Hyprland monitor JSON is not an array"

theorem lists_or_refused (json : Json V) (answer : Except String Text) :
    (∃ monitors, json.Lists answer monitors ∧ ∀ e, ¬ json.Refused answer e) ∨
      (∀ monitors, ¬ json.Lists answer monitors) ∧
        ∃ e, hyprlandMonitorState json answer = .error e ∧
          ∀ e', json.Refused answer e' ↔ e' = e := by
  unfold Json.Lists Json.Refused hyprlandMonitorState
  cases answer with
  | error e => exact .inr (by simp)
  | ok text =>
    cases hvalue : json.fromStr text with
    | error e => exact .inr (by simp [hvalue])
    | ok value =>
      cases hmonitors : json.asArray value with
      | none => exact .inr (by simp [hvalue, hmonitors])
      | some monitors => exact .inl ⟨monitors, by simp [hvalue, hmonitors]⟩

/-- **The snapshot** is the state of every monitor that is listed, in order, or the first complaint
about the first of them that cannot be read. -/
theorem snapshot_read (json : Json V) (answer : Except String Text) :
    (∀ states, hyprlandMonitorState json answer = .ok states ↔
      ∃ monitors, json.Lists answer monitors ∧ List.Forall₂ (Listed json) monitors states) ∧
    ∀ e, hyprlandMonitorState json answer = .error e ↔ json.Refused answer e ∨
      ∃ before monitor after, json.Lists answer (before ++ monitor :: after) ∧
        (∀ m ∈ before, ∃ state, Listed json m state) ∧
        (checks json monitor).find? (!·.2) = some (e, false) := by
  rcases lists_or_refused json answer with ⟨monitors, hlists, hrefused⟩ | ⟨hno, e, he, hrefused⟩
  · have honly : ∀ monitors', json.Lists answer monitors' ↔ monitors = monitors' := by
      intro monitors'
      constructor
      · rintro ⟨text', value', htext', hvalue', hmonitors'⟩
        obtain ⟨text, value, htext, hvalue, hmonitors⟩ := hlists
        cases htext'.symm.trans htext
        cases hvalue'.symm.trans hvalue
        exact Option.some.inj (hmonitors.symm.trans hmonitors')
      · rintro rfl
        exact hlists
    rw [hyprlandMonitorState_lists hlists]
    simp only [Fallible.mapM_eq_ok, Fallible.mapM_eq_error, monitorState_eq_ok,
      monitorState_eq_error, honly, hrefused, false_or, exists_eq_left', implies_true, and_self]
  · rw [he]
    simp only [hrefused, hno, false_and, exists_false, or_false, reduceCtorEq, implies_true,
      true_and, Except.error.injEq]
    exact fun e' => eq_comm

end

/-! ## The scripts -/

/-- The call that configures the output. -/
def configureCall (name : Text) (p : Placement) : Lua.Call :=
  ⟨[Lua.bytes "hl", Lua.bytes "monitor"],
    [(Lua.bytes "output", .string (Text.utf8Bytes name)),
      (Lua.bytes "mode", .string (Text.utf8Bytes p.modeText)),
      (Lua.bytes "position", .string (Text.utf8Bytes p.positionText)),
      (Lua.bytes "scale", .numeral (Lua.bytes "1"))]⟩

theorem configureCall_wellFormed (name : Text) (p : Placement) :
    (configureCall name p).WellFormed := by
  refine ⟨List.cons_ne_nil _ _, List.cons_ne_nil _ _, ?_⟩
  simp only [configureCall, List.forall_mem_cons]
  exact ⟨trivial, trivial, trivial, trivial, fun _ h => absurd h List.not_mem_nil⟩

theorem plain_placement (p : Placement) : Plain p.modeText ∧ Plain p.positionText := by
  constructor
  · intro c hc
    rw [Placement.modeText, List.mem_append, List.mem_cons, List.mem_append, List.mem_cons] at hc
    obtain hc | rfl | hc | rfl | hc := hc
    · exact plain_of_isDigit (Text.isDigit_toDigits c hc)
    · decide
    · exact plain_of_isDigit (Text.isDigit_toDigits c hc)
    · decide
    · exact plain_of_isDigit (Text.isDigit_toDigits c hc)
  · intro c hc
    obtain hc | hc := List.mem_append.1 hc
    · exact plain_printInt _ c hc
    · obtain rfl | hc := List.mem_cons.1 hc
      · decide
      · exact plain_printInt _ c hc

theorem lexes_configureScript (name : Text) (p : Placement) :
    Lua.lexer.Runs .between (Text.utf8Bytes (configureScript name p)) .between
      (configureCall name p).tokens := by
  have houtput : Lua.lexer.Runs .between (Lua.bytes "hl.monitor(\x7b output = ") .between
      [.name (Lua.bytes "hl"), .symbol 0x2E, .name (Lua.bytes "monitor"), .symbol 0x28,
        .symbol 0x7B, .name (Lua.bytes "output"), .symbol 0x3D] := rfl
  have hmode : Lua.lexer.Runs .between (Lua.bytes ", mode = ") .between
      [.symbol 0x2C, .name (Lua.bytes "mode"), .symbol 0x3D] := rfl
  have hposition : Lua.lexer.Runs .between (Lua.bytes ", position = ") .between
      [.symbol 0x2C, .name (Lua.bytes "position"), .symbol 0x3D] := rfl
  have hscale : Lua.lexer.Runs .between (Lua.bytes ", scale = 1 \x7d)") .between
      [.symbol 0x2C, .name (Lua.bytes "scale"), .symbol 0x3D, .numeral (Lua.bytes "1"),
        .symbol 0x7D, .symbol 0x29] := rfl
  have hruns := Transducer.runs_append houtput <|
    Transducer.runs_append (lexes_luaString name) <|
    Transducer.runs_append hmode <|
    Transducer.runs_append (Lua.lexes_quoted_plain (plain_placement p).1) <|
    Transducer.runs_append hposition <|
    Transducer.runs_append (Lua.lexes_quoted_plain (plain_placement p).2) hscale
  have hmodeText : ", mode = \"".toList = ", mode = ".toList ++ ['"'] := by decide +kernel
  have hpositionText : "\", position = \"".toList = '"' :: (", position = ".toList ++ ['"']) := by
    decide +kernel
  have hscaleText : "\", scale = 1 \x7d)".toList = '"' :: ", scale = 1 \x7d)".toList := by
    decide +kernel
  convert hruns using 1
  · have hquote : String.utf8EncodeChar '"' = [0x22] := rfl
    unfold configureScript Lua.bytes
    simp only [hmodeText, hpositionText, hscaleText]
    simp only [Text.utf8Bytes_append, Text.utf8Bytes_cons, hquote, List.append_assoc,
      List.cons_append, List.nil_append]
  · simp [configureCall, Lua.Call.tokens, Lua.pathTokens, Lua.fieldTokens, Lua.Expr.tokens,
      List.intercalate]

theorem parse_configureScript (name : Text) (p : Placement) :
    Lua.parse (Text.utf8Bytes (configureScript name p)) = some [configureCall name p] := by
  have hparse := @Lua.parse_intercalate Unit (fun _ => Text.utf8Bytes (configureScript name p))
    (fun _ => configureCall name p) [()] (fun _ _ => lexes_configureScript name p)
    fun _ _ => configureCall_wellFormed name p
  simpa only [List.map_cons, List.map_nil, List.intercalate_singleton] using hparse

theorem parse_restoreScript (states : List MonitorState) (name : Text) :
    Lua.parse (Text.utf8Bytes (restoreScript states name)) =
      some ((states.filter (·.name ≠ name)).map restoredCall) := by
  have hseparator : Text.utf8Bytes "; ".toList = [0x3B, 0x20] := rfl
  rw [restoreScript_eq, Text.utf8Bytes_intercalate, List.map_map, hseparator]
  exact Lua.parse_intercalate (fun state _ => lexes_callText state) fun state _ =>
    restoredCall_wellFormed state

/-! ## What a call of `create` does -/

section
variable {json}

/-- The calls put back every monitor that is listed, but the one of the name. -/
def PutsBack (json : Json V) (monitors : List V) (name : Text) (calls : List Lua.Call) : Prop :=
  List.Forall₂ (fun monitor call => ∃ state, Listed json monitor state ∧ Restores state call)
    (monitors.filter (json.read · "name" json.asStr ≠ some name)) calls

theorem putsBack_restoreScript {monitors : List V} {states : List MonitorState}
    (h : List.Forall₂ (Listed json) monitors states) (name : Text) :
    PutsBack json monitors name ((states.filter (·.name ≠ name)).map restoredCall) := by
  have hfilter : List.Forall₂ (Listed json)
      (monitors.filter (json.read · "name" json.asStr ≠ some name))
      (states.filter (·.name ≠ name)) := by
    refine List.rel_filter (fun monitor state hlisted => ?_) h
    simp only [hlisted.name, ne_eq, Option.some.injEq]
  unfold PutsBack
  rw [List.forall₂_map_right_iff]
  exact hfilter.imp fun monitor state hlisted => ⟨state, hlisted, restoredCall_restores state⟩

theorem evalScript_notMem_placing {script name : Text} {p : Placement}
    {saved : List MonitorState} : evalScript script ∉ placing name p saved := by
  have hlist : evalScript script ≠ listMonitors := fun h =>
    absurd (List.cons.inj h).1 (by decide)
  have hcreate : evalScript script ≠ createOutput name := fun h =>
    absurd (List.cons.inj h).1 (by decide)
  have hkeyword : evalScript script ≠ keywordMonitor (spec name p) := fun h =>
    absurd (List.cons.inj h).1 (by decide)
  unfold placing creating
  split <;> simp [hlist, hcreate, hkeyword]

theorem mem_evaluating {script name : Text} {p : Placement} {saved : List MonitorState}
    {reply : Text} (h : evalScript script ∈ evaluating name p saved reply) :
    script = configureScript name p := by
  unfold evaluating at h
  rcases List.mem_append.1 h with h | h
  · exact absurd h evalScript_notMem_placing
  · split at h
    · rw [List.mem_singleton] at h
      simpa [evalScript] using h
    · cases h

/-- What `create` evaluates once the monitors are read. -/
theorem create_scripts {run : List Command → Except String Text} {saved : List MonitorState}
    (hread : hyprlandMonitorState json (run [listMonitors]) = .ok saved) (name : Text)
    (p : Placement) :
    (∀ script, evalScript script ∈ (create json run name p).2 →
      script = configureScript name p ∨ script = restoreScript saved name) ∧
    ∀ output, (create json run name p).1 = .ok output →
      (create json run name p).2.getLast? = some (evalScript (restoreScript saved name)) := by
  have hcreating : ∀ script, evalScript script ∉ creating name saved := fun script h =>
    evalScript_notMem_placing (p := p) (List.mem_append_left _ h)
  unfold create
  simp only [hread]
  split
  · exact ⟨fun script h => absurd h (hcreating script), fun _ h => by cases h⟩
  · split
    · exact ⟨fun script h => absurd h evalScript_notMem_placing, fun _ h => by cases h⟩
    · next reply _ =>
      split
      · exact ⟨fun script h => .inl (mem_evaluating h), fun _ h => by cases h⟩
      · have hscript : ∀ script, evalScript script ∈ evaluating name p saved reply ++
            [evalScript (restoreScript saved name)] →
            script = configureScript name p ∨ script = restoreScript saved name := by
          intro script h
          rcases List.mem_append.1 h with h | h
          · exact .inl (mem_evaluating h)
          · rw [List.mem_singleton] at h
            exact .inr (by simpa [evalScript] using h)
        split
        · exact ⟨hscript, fun _ h => by cases h⟩
        · exact ⟨hscript, fun _ _ => List.getLast?_concat⟩

/-- **Hyprland's layout** is taken down before anything is changed: the call stops with its listing
if one monitor cannot be read. Else every script it has evaluated is the one call that configures
its output or one call for each other monitor that was listed, with the monitor's name and values;
and it does not return before it has put these back. -/
theorem layout_restored (json : Json V) (run : List Command → Except String Text) (name : Text)
    (p : Placement) :
    (¬ (∃ monitors, json.Lists (run [listMonitors]) monitors ∧
        ∀ monitor ∈ monitors, ∃ state, Listed json monitor state) ∧
      create json run name p = (.error "saving Hyprland monitor state", [listMonitors])) ∨
    ∃ monitors, json.Lists (run [listMonitors]) monitors ∧
      (∀ monitor ∈ monitors, ∃ state, Listed json monitor state) ∧
      (∀ script, evalScript script ∈ (create json run name p).2 →
        ∃ calls, Lua.parse (Text.utf8Bytes script) = some calls ∧
          (calls = [configureCall name p] ∨ PutsBack json monitors name calls)) ∧
      ∀ output, (create json run name p).1 = .ok output →
        ∃ script calls, (create json run name p).2.getLast? = some (evalScript script) ∧
          Lua.parse (Text.utf8Bytes script) = some calls ∧
          PutsBack json monitors name calls := by
  cases hread : hyprlandMonitorState json (run [listMonitors]) with
  | error e =>
    refine .inl ⟨?_, by simp only [create, hread]⟩
    rintro ⟨monitors, hlists, hall⟩
    rw [hyprlandMonitorState_lists hlists] at hread
    obtain ⟨before, monitor, after, rfl, -, hmonitor⟩ := Fallible.mapM_eq_error.1 hread
    obtain ⟨state, hstate⟩ := hall monitor (by simp)
    rw [monitorState_eq_ok.2 hstate] at hmonitor
    cases hmonitor
  | ok saved =>
    obtain ⟨monitors, hlists, hsaved⟩ := ((snapshot_read json _).1 saved).1 hread
    obtain ⟨hscripts, hlast⟩ := create_scripts hread name p
    have hback := putsBack_restoreScript hsaved name
    refine .inr ⟨monitors, hlists, ?_, ?_, ?_⟩
    · intro monitor hmonitor
      rw [hyprlandMonitorState_lists hlists] at hread
      obtain ⟨state, hstate⟩ := Fallible.exists_of_mapM hread monitor hmonitor
      exact ⟨state, monitorState_eq_ok.1 hstate⟩
    · intro script hscript
      rcases hscripts script hscript with rfl | rfl
      · exact ⟨_, parse_configureScript name p, .inl rfl⟩
      · exact ⟨_, parse_restoreScript saved name, .inr hback⟩
    · intro output houtput
      exact ⟨_, _, hlast output houtput, parse_restoreScript saved name, hback⟩

/-! ## The answers of Output.lean -/

/-- What the commands of `create` come to, for the model that has their outcomes alone. -/
def answers (json : Json V) (run : List Command → Except String Text) (name : Text)
    (p : Placement) : OutputAnswers :=
  let listing := (hyprlandMonitorState json (run [listMonitors])).toOption
  let saved := listing.getD []
  let reply := (run (placing name p saved)).toOption
  let log := evaluating name p saved (reply.getD [])
  { compositor := .hyprland
    labwcOutputExists := false
    connect := .unavailable
    discovered := none
    positioned := false
    monitors := listing.map fun saved => saved.map (String.ofList ·.name)
    created := (run (creating name saved)).toOption.isSome
    keyword := reply
    eval := (run log).toOption.isSome
    restored := (run (log ++ [evalScript (restoreScript saved name)])).toOption.isSome }

theorem create_agrees (json : Json V) (run : List Command → Except String Text) (name : Text)
    (p : Placement) :
    (VirtualOutput.create (String.ofList name) (answers json run name p)).outcome.toOption =
      (create json run name p).1.toOption := by
  have hcompositor : (answers json run name p).compositor = .hyprland := rfl
  unfold create VirtualOutput.create
  cases hread : hyprlandMonitorState json (run [listMonitors]) with
  | error e =>
    have hmonitors : (answers json run name p).monitors = none := by simp [answers, hread]
    simp only [hcompositor, hmonitors]
  | ok saved =>
    have hmonitors : (answers json run name p).monitors =
        some (saved.map (String.ofList ·.name)) := by simp [answers, hread]
    have hcreated : (answers json run name p).created =
        (run (creating name saved)).toOption.isSome := by simp [answers, hread]
    have hkeyword : (answers json run name p).keyword = (run (placing name p saved)).toOption := by
      simp [answers, hread]
    have hlisted : String.ofList name ∈ saved.map (String.ofList ·.name) ↔
        saved.any (·.name = name) = true := by
      simp only [List.mem_map, String.ofList_inj, List.any_eq_true, decide_eq_true_eq]
    have hstops : (String.ofList name ∉ saved.map (String.ofList ·.name) ∧
        (run (creating name saved)).toOption.isSome = false) ↔
        (if saved.any (·.name = name) then .ok [] else
          run (creating name saved)).toOption.isSome = false := by
      rw [hlisted]
      split
      · next hany => simp [hany]
      · next hany => simp [hany]
    simp only [hcompositor, hmonitors, hcreated, hstops]
    cases if saved.any (·.name = name) then .ok [] else run (creating name saved) with
    | error e => simp
    | ok _ =>
      simp only [hkeyword, Fallible.toOption_ok, Option.isSome_some, reduceCtorEq, if_false]
      cases hreply : run (placing name p saved) with
      | error e => rfl
      | ok reply =>
        have heval : (answers json run name p).eval =
            (run (evaluating name p saved reply)).toOption.isSome := by
          simp [answers, hread, hreply]
        have hrestored : (answers json run name p).restored =
            (run (evaluating name p saved reply ++
              [evalScript (restoreScript saved name)])).toOption.isSome := by
          simp [answers, hread, hreply]
        simp only [Fallible.toOption_ok, heval, hrestored]
        cases refusesKeyword reply with
        | false =>
          cases run (evaluating name p saved reply ++
            [evalScript (restoreScript saved name)]) <;> simp [restored]
        | true =>
          cases run (evaluating name p saved reply) with
          | error e => simp
          | ok _ =>
            cases run (evaluating name p saved reply ++
              [evalScript (restoreScript saved name)]) <;> simp [restored]

end

end PadPlay.Daemon.Hyprland
