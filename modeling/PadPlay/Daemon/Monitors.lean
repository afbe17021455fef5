import Mathlib.Data.List.Forall2
import PadPlay.Lib.Float64
import PadPlay.Lib.Lua

/-!
# Hyprland's other monitors (`output::restore_hyprland_monitor_state`)

When an output is created, the daemon saves the state of the monitors that are there and restores it
by one script for `hyprctl eval`. Names may hold any characters.
`restoreHyprlandMonitorState_calls` reads the script back: it is one call per monitor, with the
monitor's name and values.
-/

namespace PadPlay.Daemon

open PadPlay.Lib

/-! ## The script -/

structure MonitorState where
  name : Text
  x : Int32
  y : Int32
  width : UInt32
  height : UInt32
  refreshRate : F64
  scale : F64
  transform : Int32
  deriving DecidableEq

def luaEscape : Char → Text
  | '\\' => ['\\', '\\']
  | '"' => ['\\', '"']
  | '\n' => ['\\', 'n']
  | '\r' => ['\\', 'r']
  | '\t' => ['\\', 't']
  | ch => [ch]

def luaString (value : Text) : Text := '"' :: (value.flatMap luaEscape ++ ['"'])

/-- `format!("{}", n)` of an integer. -/
def printInt (n : Int) : Text := Text.signed (n < 0) (Nat.toDigits 10 n.natAbs)

/-- The refresh rate with at most six decimals. -/
def refreshText (monitor : MonitorState) : Text :=
  Text.trimEndMatches '.' (Text.trimEndMatches '0' (monitor.refreshRate.fixed 6))

/-- The statement for one monitor; `\x7b` and `\x7d` are the braces of the table. -/
def restoreStatement (monitor : MonitorState) : Text :=
  "hl.monitor(\x7b output = ".toList ++ luaString monitor.name ++ ", mode = \"".toList ++
    Nat.toDigits 10 monitor.width.toNat ++ "x".toList ++
    Nat.toDigits 10 monitor.height.toNat ++ "@".toList ++ refreshText monitor ++
    "\", position = \"".toList ++ printInt monitor.x.toInt ++ "x".toList ++
    printInt monitor.y.toInt ++ "\", scale = ".toList ++ monitor.scale.display ++
    ", transform = ".toList ++ printInt monitor.transform.toInt ++ " \x7d); ".toList

def restoreScript (states : List MonitorState) (excludedOutput : Text) : Text :=
  let lua := states.flatMap fun monitor =>
    if monitor.name = excludedOutput then [] else restoreStatement monitor
  if "; ".toList.isSuffixOf lua then lua.take (lua.length - 2) else lua

/-- The end of `restore_hyprland_monitor_state`, for what `run` returned. -/
def restored : Except String Text → Except String Unit
  | .error _ => .error "restoring Hyprland monitor state"
  | .ok _ => .ok ()

def restoreHyprlandMonitorState (run : String → List Text → Except String Text)
    (states : List MonitorState) (excludedOutput : Text) : Except String Unit :=
  restored (run "hyprctl" ["eval".toList, restoreScript states excludedOutput])

/-! ## What a call restores -/

/-- `WIDTHxHEIGHT@RATE`, with a rate of at most six decimals. -/
def readMode (t : Text) : Option (Nat × Nat × F64.Fixed) :=
  (Text.splitOnce 'x' t).bind fun (width, t) =>
    (Text.splitOnce '@' t).bind fun (height, rate) =>
      (Text.readNat width).bind fun w => (Text.readNat height).bind fun h =>
        (F64.readFixed 6 rate).map fun r => (w, h, r)

def readInt : Text → Option Int
  | '-' :: t => (Text.readNat t).map fun n : Nat => -(n : Int)
  | t => (Text.readNat t).map fun n : Nat => (n : Int)

/-- `XxY`. -/
def readPosition (t : Text) : Option (Int × Int) :=
  (Text.splitOnce 'x' t).bind fun (x, y) =>
    (readInt x).bind fun x => (readInt y).map fun y => (x, y)

/-- `hl.monitor` with the monitor's name, and with a mode, a position, a scale and a transform that
are read as the values saved for it. -/
structure Restores (monitor : MonitorState) (call : Lua.Call) : Prop where
  path : call.path = [Lua.bytes "hl", Lua.bytes "monitor"]
  keys : call.fields.map Prod.fst =
    ["output", "mode", "position", "scale", "transform"].map Lua.bytes
  output : call.fields.lookup (Lua.bytes "output") = some (.string (Text.utf8Bytes monitor.name))
  mode : ∃ t, call.fields.lookup (Lua.bytes "mode") = some (.string (Text.utf8Bytes t)) ∧
    readMode t = some (monitor.width.toNat, monitor.height.toNat, monitor.refreshRate.toFixed 6)
  position : ∃ t, call.fields.lookup (Lua.bytes "position") = some (.string (Text.utf8Bytes t)) ∧
    readPosition t = some (monitor.x.toInt, monitor.y.toInt)
  scale : monitor.scale.isNan = false → monitor.scale.isInfinite = false →
    ∃ digits, call.fields.lookup (Lua.bytes "scale") =
        some (Lua.Expr.signed monitor.scale.negative (.numeral (Text.utf8Bytes digits))) ∧
      monitor.scale.ReadBy digits
  transform : ∃ e, call.fields.lookup (Lua.bytes "transform") = some e ∧
    e.integer = some monitor.transform.toInt

/-! ## The statements between semicolons -/

def modeText (monitor : MonitorState) : Text :=
  Nat.toDigits 10 monitor.width.toNat ++ 'x' ::
    (Nat.toDigits 10 monitor.height.toNat ++ '@' :: refreshText monitor)

def positionText (monitor : MonitorState) : Text :=
  printInt monitor.x.toInt ++ 'x' :: printInt monitor.y.toInt

/-- A statement without the separator. -/
def callText (monitor : MonitorState) : Text :=
  "hl.monitor(\x7b output = ".toList ++ (luaString monitor.name ++ (", mode = ".toList ++
    ('"' :: (modeText monitor ++ ['"']) ++ (", position = ".toList ++
    ('"' :: (positionText monitor ++ ['"']) ++ (", scale = ".toList ++ (monitor.scale.display ++
    (", transform = ".toList ++ (printInt monitor.transform.toInt ++ " \x7d)".toList)))))))))

theorem restoreStatement_eq (monitor : MonitorState) :
    restoreStatement monitor = callText monitor ++ "; ".toList := by
  have hmode : ", mode = \"".toList = ", mode = ".toList ++ ['"'] := by decide +kernel
  have hposition : "\", position = \"".toList = '"' :: (", position = ".toList ++ ['"']) := by
    decide +kernel
  have hscale : "\", scale = ".toList = '"' :: ", scale = ".toList := by decide +kernel
  have hx : "x".toList = ['x'] := by decide +kernel
  have hat : "@".toList = ['@'] := by decide +kernel
  have hend : " \x7d); ".toList = " \x7d)".toList ++ "; ".toList := by decide +kernel
  unfold restoreStatement callText modeText positionText
  simp only [hmode, hposition, hscale, hx, hat, hend]
  simp only [List.append_assoc, List.cons_append, List.nil_append]

theorem restoreScript_eq (states : List MonitorState) (excludedOutput : Text) :
    restoreScript states excludedOutput =
      "; ".toList.intercalate ((states.filter (·.name ≠ excludedOutput)).map callText) := by
  have hfilter : (states.flatMap fun monitor =>
      if monitor.name = excludedOutput then [] else restoreStatement monitor) =
      (states.filter (·.name ≠ excludedOutput)).flatMap fun monitor =>
        callText monitor ++ "; ".toList := by
    induction states with
    | nil => rfl
    | cons monitor states ih =>
      rw [List.flatMap_cons, ih]
      by_cases h : monitor.name = excludedOutput
      · simp [h]
      · simp [h, restoreStatement_eq]
  rw [restoreScript, hfilter]
  generalize states.filter (·.name ≠ excludedOutput) = monitors
  by_cases hne : monitors = []
  · subst hne
    rfl
  · have hsuffix : "; ".toList.isSuffixOf
        ("; ".toList.intercalate (monitors.map callText) ++ "; ".toList) = true :=
      List.isSuffixOf_iff_suffix.2 (List.suffix_append _ _)
    have hlength : "; ".toList.length = 2 := rfl
    simp only [Text.flatMap_terminated callText _ hne]
    rw [if_pos hsuffix, List.length_append, hlength, Nat.add_sub_cancel, List.take_left' rfl]

/-! ## The tokens of a statement -/

theorem lexes_luaEscape (name : Text) (read : List UInt8) :
    Lua.lexer.Runs (.string read) (Text.utf8Bytes (name.flatMap luaEscape))
      (.string ((Text.utf8Bytes name).reverse ++ read)) [] := by
  induction name generalizing read with
  | nil => exact Transducer.runs_nil _
  | cons c name ih =>
    have hone : Lua.lexer.Runs (.string read) (Text.utf8Bytes (luaEscape c))
        (.string ((Text.utf8Bytes [c]).reverse ++ read)) [] := by
      unfold luaEscape
      split
      · exact Lua.lexes_escape rfl read
      · exact Lua.lexes_escape rfl read
      · exact Lua.lexes_escape rfl read
      · exact Lua.lexes_escape rfl read
      · exact Lua.lexes_escape rfl read
      · next hslash hquote hfeed hreturn _ =>
        have hplain : c ∉ ['"', '\n', '\r', '\\'] := by
          simp only [List.mem_cons, List.not_mem_nil, or_false, not_or]
          exact ⟨hquote, hfeed, hreturn, hslash⟩
        refine Lua.lexes_plain ?_ read
        rw [Text.utf8Bytes_cons, Text.utf8Bytes_nil, List.append_nil]
        exact Lua.plain_utf8EncodeChar hplain
    have hall := Transducer.runs_append hone (ih ((Text.utf8Bytes [c]).reverse ++ read))
    have hvalue : Text.utf8Bytes (c :: name) = Text.utf8Bytes [c] ++ Text.utf8Bytes name :=
      Text.utf8Bytes_append [c] name
    rw [List.flatMap_cons, Text.utf8Bytes_append, hvalue, List.reverse_append, List.append_assoc]
    exact hall

/-- **The literal denotes the name**, whatever its characters are. -/
theorem lexes_luaString (name : Text) :
    Lua.lexer.Runs .between (Text.utf8Bytes (luaString name)) .between
      [.string (Text.utf8Bytes name)] := by
  have hquotes : Text.utf8Bytes (luaString name) =
      0x22 :: (Text.utf8Bytes (name.flatMap luaEscape) ++ [0x22]) := by
    rw [luaString, Text.utf8Bytes_cons, Text.utf8Bytes_append]
    rfl
  rw [hquotes]
  exact Lua.lexes_quoted (lexes_luaEscape name [])

example : luaString "a\"\\\n".toList = "\"a\\\"\\\\\\n\"".toList := by decide +kernel

def scaleValue (x : F64) : Lua.Expr :=
  if x.isNan then .name (Lua.bytes "NaN")
  else Lua.Expr.signed x.negative
    (if x.isInfinite then .name (Lua.bytes "inf") else .numeral (Text.utf8Bytes x.shortestDigits))

/-- The call that a statement is. -/
def restoredCall (monitor : MonitorState) : Lua.Call :=
  ⟨[Lua.bytes "hl", Lua.bytes "monitor"],
    [(Lua.bytes "output", .string (Text.utf8Bytes monitor.name)),
      (Lua.bytes "mode", .string (Text.utf8Bytes (modeText monitor))),
      (Lua.bytes "position", .string (Text.utf8Bytes (positionText monitor))),
      (Lua.bytes "scale", scaleValue monitor.scale),
      (Lua.bytes "transform", Lua.Expr.signed (monitor.transform.toInt < 0)
        (.numeral (Text.utf8Bytes (Nat.toDigits 10 monitor.transform.toInt.natAbs))))]⟩

theorem lexes_display (x : F64) :
    Lua.lexer.Runs .between (Text.utf8Bytes x.display ++ [0x2C]) .between
      ((scaleValue x).tokens ++ [.symbol 0x2C]) := by
  unfold F64.display scaleValue
  by_cases hnan : x.isNan = true
  · rw [if_pos hnan, if_pos hnan]
    rfl
  · rw [if_neg hnan, if_neg hnan]
    by_cases hinfinite : x.isInfinite = true
    · rw [if_pos hinfinite, if_pos hinfinite]
      cases x.negative with
      | true => rfl
      | false => rfl
    · rw [if_neg hinfinite, if_neg hinfinite]
      exact Lua.lexes_decimal x.shortestDigits_isDecimal rfl rfl x.negative

theorem lexes_printInt (n : Int) :
    Lua.lexer.Runs .between (Text.utf8Bytes (printInt n) ++ [0x20]) .between
      ((Lua.Expr.signed (n < 0) (.numeral (Text.utf8Bytes (Nat.toDigits 10 n.natAbs)))).tokens ++
        []) :=
  Lua.lexes_decimal (Text.isDecimal_toDigits n.natAbs) rfl rfl (n < 0)

/-- What is put between quotes without escapes. -/
def Plain (t : Text) : Prop := ∀ c ∈ t, c ∉ ['"', '\n', '\r', '\\']

theorem plain_of_isDigit {c : Char} (h : c.isDigit = true) : c ∉ ['"', '\n', '\r', '\\'] := by
  intro hmem
  simp only [List.mem_cons, List.not_mem_nil, or_false] at hmem
  obtain rfl | rfl | rfl | rfl := hmem <;> cases h

theorem plain_printInt (n : Int) : Plain (printInt n) := by
  intro c hc
  obtain rfl | hc := Text.mem_signed hc
  · decide
  · exact plain_of_isDigit (Text.isDigit_toDigits c hc)

theorem plain_positionText (monitor : MonitorState) : Plain (positionText monitor) := by
  intro c hc
  obtain hc | hc := List.mem_append.1 hc
  · exact plain_printInt _ c hc
  · obtain rfl | hc := List.mem_cons.1 hc
    · decide
    · exact plain_printInt _ c hc

theorem plain_modeText (monitor : MonitorState) : Plain (modeText monitor) := by
  intro c hc
  rw [modeText, List.mem_append, List.mem_cons, List.mem_append, List.mem_cons] at hc
  obtain hc | rfl | hc | rfl | hc := hc
  · exact plain_of_isDigit (Text.isDigit_toDigits c hc)
  · decide
  · exact plain_of_isDigit (Text.isDigit_toDigits c hc)
  · decide
  · obtain hc | hc := F64.mem_fixed (F64.mem_trimmed hc)
    · exact plain_of_isDigit hc
    · have hall : ∀ c ∈ ['-', '.', 'N', 'a', 'i', 'n', 'f'], c ∉ ['"', '\n', '\r', '\\'] :=
        Text.forall_mem_of_all (by decide)
      exact hall c hc

theorem lexes_callText (monitor : MonitorState) :
    Lua.lexer.Runs .between (Text.utf8Bytes (callText monitor)) .between
      (restoredCall monitor).tokens := by
  have houtput : Lua.lexer.Runs .between (Lua.bytes "hl.monitor(\x7b output = ") .between
      [.name (Lua.bytes "hl"), .symbol 0x2E, .name (Lua.bytes "monitor"), .symbol 0x28,
        .symbol 0x7B, .name (Lua.bytes "output"), .symbol 0x3D] := rfl
  have hmode : Lua.lexer.Runs .between (Lua.bytes ", mode = ") .between
      [.symbol 0x2C, .name (Lua.bytes "mode"), .symbol 0x3D] := rfl
  have hposition : Lua.lexer.Runs .between (Lua.bytes ", position = ") .between
      [.symbol 0x2C, .name (Lua.bytes "position"), .symbol 0x3D] := rfl
  have hscale : Lua.lexer.Runs .between (Lua.bytes ", scale = ") .between
      [.symbol 0x2C, .name (Lua.bytes "scale"), .symbol 0x3D] := rfl
  have htransform : Lua.lexer.Runs .between (Lua.bytes " transform = ") .between
      [.name (Lua.bytes "transform"), .symbol 0x3D] := rfl
  have hend : Lua.lexer.Runs .between (Lua.bytes "\x7d)") .between [.symbol 0x7D, .symbol 0x29] :=
    rfl
  have hruns := Transducer.runs_append houtput <|
    Transducer.runs_append (lexes_luaString monitor.name) <|
    Transducer.runs_append hmode <|
    Transducer.runs_append (Lua.lexes_quoted_plain (plain_modeText monitor)) <|
    Transducer.runs_append hposition <|
    Transducer.runs_append (Lua.lexes_quoted_plain (plain_positionText monitor)) <|
    Transducer.runs_append hscale <| Transducer.runs_append (lexes_display monitor.scale) <|
    Transducer.runs_append htransform <|
    Transducer.runs_append (lexes_printInt monitor.transform.toInt) hend
  have hcomma : ", transform = ".toList = ',' :: " transform = ".toList := by decide +kernel
  have hblank : " \x7d)".toList = ' ' :: "\x7d)".toList := by decide +kernel
  convert hruns using 1
  · -- the comma behind the scale and the blank behind the transform end these two
    have hquote : String.utf8EncodeChar '"' = [0x22] := rfl
    have hcomma' : String.utf8EncodeChar ',' = [0x2C] := rfl
    have hblank' : String.utf8EncodeChar ' ' = [0x20] := rfl
    unfold callText Lua.bytes
    simp only [hcomma, hblank]
    simp only [Text.utf8Bytes_append, Text.utf8Bytes_cons, hquote, hcomma', hblank',
      List.append_assoc, List.cons_append, List.nil_append]
  · simp [restoredCall, Lua.Call.tokens, Lua.pathTokens, Lua.fieldTokens, Lua.Expr.tokens,
      List.intercalate]

/-! ## What the statements restore -/

theorem readMode_modeText (monitor : MonitorState) :
    readMode (modeText monitor) =
      some (monitor.width.toNat, monitor.height.toNat, monitor.refreshRate.toFixed 6) := by
  have hx : 'x' ∉ Nat.toDigits 10 monitor.width.toNat :=
    Text.notMem_of_isDigit rfl Text.isDigit_toDigits
  have hat : '@' ∉ Nat.toDigits 10 monitor.height.toNat :=
    Text.notMem_of_isDigit rfl Text.isDigit_toDigits
  have hrate : F64.readFixed 6 (refreshText monitor) = some (monitor.refreshRate.toFixed 6) :=
    F64.readFixed_trimmed 6 monitor.refreshRate
  rw [readMode, modeText, Text.splitOnce_append hx]
  simp only [Option.bind_some, Text.splitOnce_append hat, Text.readNat_toDigits, hrate,
    Option.map_some]

theorem x_notMem_printInt (n : Int) : 'x' ∉ printInt n := by
  intro hmem
  obtain heq | hmem := Text.mem_signed hmem
  · exact absurd heq (by decide)
  · exact Text.notMem_of_isDigit rfl Text.isDigit_toDigits hmem

theorem readInt_printInt (n : Int) : readInt (printInt n) = some n := by
  by_cases hn : n < 0
  · have hprint : printInt n = '-' :: Nat.toDigits 10 n.natAbs := if_pos (decide_eq_true hn)
    rw [hprint, readInt, Text.readNat_toDigits, Option.map_some]
    exact congrArg some (by omega)
  · have hprint : printInt n = Nat.toDigits 10 n.natAbs :=
      if_neg (by rw [decide_eq_false hn]; exact Bool.false_ne_true)
    have hdash : '-' ∉ Nat.toDigits 10 n.natAbs := Text.notMem_of_isDigit rfl Text.isDigit_toDigits
    have hread := Text.readNat_toDigits n.natAbs
    rw [hprint]
    generalize Nat.toDigits 10 n.natAbs = digits at hdash hread
    unfold readInt
    split
    · exact absurd (List.mem_cons_self ..) hdash
    · rw [hread, Option.map_some]
      exact congrArg some (by omega)

theorem readPosition_positionText (monitor : MonitorState) :
    readPosition (positionText monitor) = some (monitor.x.toInt, monitor.y.toInt) := by
  rw [readPosition, positionText, Text.splitOnce_append (x_notMem_printInt _)]
  simp only [Option.bind_some, readInt_printInt, Option.map_some]

theorem restoredCall_wellFormed (monitor : MonitorState) : (restoredCall monitor).WellFormed := by
  have hsigned : ∀ negative word,
      (Lua.Expr.signed negative (.name word)).IsValue ∧
        (Lua.Expr.signed negative (.numeral word)).IsValue := by
    intro negative word
    cases negative with
    | true => exact ⟨trivial, trivial⟩
    | false => exact ⟨trivial, trivial⟩
  have hscale : (scaleValue monitor.scale).IsValue := by
    unfold scaleValue
    split_ifs
    · trivial
    · exact (hsigned _ _).1
    · exact (hsigned _ _).2
  refine ⟨List.cons_ne_nil _ _, List.cons_ne_nil _ _, ?_⟩
  simp only [restoredCall, List.forall_mem_cons]
  exact ⟨trivial, trivial, trivial, hscale, (hsigned _ _).2, fun _ h => absurd h List.not_mem_nil⟩

theorem restoredCall_restores (monitor : MonitorState) :
    Restores monitor (restoredCall monitor) where
  path := rfl
  keys := rfl
  output := rfl
  mode := ⟨modeText monitor, rfl, readMode_modeText monitor⟩
  position := ⟨positionText monitor, rfl, readPosition_positionText monitor⟩
  scale := by
    intro hnan hinfinite
    have hvalue : scaleValue monitor.scale = Lua.Expr.signed monitor.scale.negative
        (.numeral (Text.utf8Bytes monitor.scale.shortestDigits)) := by
      simp [scaleValue, hnan, hinfinite]
    exact ⟨_, congrArg some hvalue, monitor.scale.shortestDigits_readBy⟩
  transform := by
    refine ⟨_, rfl, ?_⟩
    rw [Lua.integer_signed Text.isDigit_toDigits, Nat.ofDigitChars_ten_toDigits]
    exact congrArg some (by simp only [decide_eq_true_eq]; omega)

/-- **The script** that is run is one call for each monitor but the excluded one, in their order. -/
theorem restoreHyprlandMonitorState_calls (states : List MonitorState) (excludedOutput : Text) :
    ∃ script calls,
      (∀ run, restoreHyprlandMonitorState run states excludedOutput =
        restored (run "hyprctl" ["eval".toList, script])) ∧
      Lua.parse (Text.utf8Bytes script) = some calls ∧
      List.Forall₂ Restores (states.filter (·.name ≠ excludedOutput)) calls := by
  refine ⟨restoreScript states excludedOutput,
    (states.filter (·.name ≠ excludedOutput)).map restoredCall, fun _ => rfl, ?_, ?_⟩
  · have hseparator : Text.utf8Bytes "; ".toList = [0x3B, 0x20] := rfl
    rw [restoreScript_eq, Text.utf8Bytes_intercalate, List.map_map, hseparator]
    exact Lua.parse_intercalate (fun monitor _ => lexes_callText monitor) fun monitor _ =>
      restoredCall_wellFormed monitor
  · rw [List.forall₂_map_right_iff]
    exact List.forall₂_same.2 fun monitor _ => restoredCall_restores monitor

end PadPlay.Daemon
