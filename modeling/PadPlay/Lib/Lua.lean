import PadPlay.Lib.Text
import PadPlay.Lib.Transducer

/-!
# Lua chunks of calls

The part of Lua that a configuration made of calls needs: names, decimal numerals, double-quoted
strings with their escapes, and calls `f.g({ key = value, .. })` between semicolons. The lexer reads
bytes, as Lua does. Whatever belongs to Lua but not to this part (comments, other operators and
statements, `\\u{..}` and the other kinds of strings) is refused. The rules say what the lexer makes
of names, numerals and strings of any length, and what the parser makes of the tokens of a call.
-/

namespace PadPlay.Lib.Lua

/-! ## Tokens -/

inductive Token where
  | name (word : List UInt8)
  | string (value : List UInt8)
  | numeral (digits : List UInt8)
  | symbol (b : UInt8)
  deriving DecidableEq, Repr

def isSpace (b : UInt8) : Bool := b = 0x20 || (0x09 ≤ b && b ≤ 0x0D)

def isDigit (b : UInt8) : Bool := 0x30 ≤ b && b ≤ 0x39

def isAlpha (b : UInt8) : Bool :=
  (0x41 ≤ b && b ≤ 0x5A) || (0x61 ≤ b && b ≤ 0x7A) || b = 0x5F

def isAlnum (b : UInt8) : Bool := isAlpha b || isDigit b

def hexDigit (b : UInt8) : Option UInt8 :=
  if isDigit b then some (b - 0x30)
  else if 0x61 ≤ b && b ≤ 0x66 then some (b - 0x57)
  else if 0x41 ≤ b && b ≤ 0x46 then some (b - 0x37)
  else none

def bytes (s : String) : List UInt8 := Text.utf8Bytes s.toList

def reserved : List (List UInt8) :=
  ["and", "break", "do", "else", "elseif", "end", "false", "for", "function", "goto", "if", "in",
    "local", "nil", "not", "or", "repeat", "return", "then", "true", "until", "while"].map bytes

/-- What the lexer has read of the token it is in, the last byte first. -/
inductive Mode where
  | between
  | name (read : List UInt8)
  | numeral (read : List UInt8)
  /-- a symbol that could be the start of a longer one -/
  | symbol (b : UInt8)
  | string (read : List UInt8)
  /-- behind a backslash -/
  | escape (read : List UInt8)
  /-- behind a backslash and one byte of a line break, which may have another -/
  | lineBreak (read : List UInt8) (b : UInt8)
  /-- behind `\z`, which skips white space -/
  | skip (read : List UInt8)
  /-- behind `\x` and at most one digit -/
  | hex (read : List UInt8) (high : Option UInt8)
  /-- in `\ddd`, with one to three digits -/
  | decimal (read : List UInt8) (value digits : Nat)
  deriving DecidableEq, Repr

/-- The first byte of a token, or white space. -/
def begin (b : UInt8) : Option (Mode × List Token) :=
  if isSpace b then some (.between, [])
  else if isAlpha b then some (.name [b], [])
  else if isDigit b then some (.numeral [b], [])
  else if b = 0x22 then some (.string [], [])
  else if b ∈ [0x2D, 0x2E, 0x3D] then some (.symbol b, [])              -- `-` `.` `=`
  else if b ∈ [0x28, 0x29, 0x7B, 0x7D, 0x2C, 0x3B] then some (.between, [.symbol b]) -- `(){},;`
  else none

/-- Digits, and perhaps a point and digits behind it. -/
def isNumeral (digits : List UInt8) : Bool :=
  let part := digits.dropWhile isDigit
  isDigit (digits.headD 0) && (part = [] || (part.head? = some 0x2E && part.tail.all isDigit))

def nameToken (read : List UInt8) : Option Token :=
  if read.reverse ∈ reserved then none else some (.name read.reverse)

def numeralToken (read : List UInt8) : Option Token :=
  if isNumeral read.reverse then some (.numeral read.reverse) else none

/-- A token ends because the next byte does not belong to it. -/
def flush (token : Option Token) (b : UInt8) : Option (Mode × List Token) :=
  token.bind fun token => (begin b).map fun next => (next.1, token :: next.2)

def escaped (b : UInt8) : Option UInt8 :=
  if b = 0x61 then some 0x07            -- `\a`
  else if b = 0x62 then some 0x08       -- `\b`
  else if b = 0x66 then some 0x0C       -- `\f`
  else if b = 0x6E then some 0x0A       -- `\n`
  else if b = 0x72 then some 0x0D       -- `\r`
  else if b = 0x74 then some 0x09       -- `\t`
  else if b = 0x76 then some 0x0B       -- `\v`
  else if b ∈ [0x5C, 0x22, 0x27] then some b
  else none

/-- A byte inside a double-quoted string. A line break that is not escaped ends it too early. -/
def inString (read : List UInt8) (b : UInt8) : Option (Mode × List Token) :=
  if b = 0x22 then some (.between, [.string read.reverse])
  else if b = 0x0A || b = 0x0D then none
  else if b = 0x5C then some (.escape read, [])
  else some (.string (b :: read), [])

def lexStep : Mode → UInt8 → Option (Mode × List Token)
  | .between, b => begin b
  | .name read, b => if isAlnum b then some (.name (b :: read), []) else flush (nameToken read) b
  | .numeral read, b =>
    if isAlnum b || b = 0x2E then some (.numeral (b :: read), []) else flush (numeralToken read) b
  | .symbol s, b =>
    if b = s || (s = 0x2E && isDigit b) then none else flush (some (.symbol s)) b
  | .string read, b => inString read b
  | .escape read, b =>
    match escaped b with
    | some e => some (.string (e :: read), [])
    | none =>
      if b = 0x0A || b = 0x0D then some (.lineBreak (0x0A :: read) b, [])
      else if b = 0x7A then some (.skip read, [])
      else if b = 0x78 then some (.hex read none, [])
      else if isDigit b then some (.decimal read (b - 0x30).toNat 1, [])
      else none
  | .lineBreak read first, b =>
    if (b = 0x0A || b = 0x0D) && b ≠ first then some (.string read, []) else inString read b
  | .skip read, b => if isSpace b then some (.skip read, []) else inString read b
  | .hex read none, b => (hexDigit b).map fun d => (.hex read (some d), [])
  | .hex read (some high), b => (hexDigit b).map fun d => (.string ((high * 16 + d) :: read), [])
  | .decimal read value digits, b =>
    if isDigit b && digits < 3 then
      some (.decimal read (value * 10 + (b - 0x30).toNat) (digits + 1), [])
    else if value < 256 then inString (UInt8.ofNat value :: read) b
    else none

def lexFinish : Mode → Option (List Token)
  | .between => some []
  | .name read => (nameToken read).map fun token => [token]
  | .numeral read => (numeralToken read).map fun token => [token]
  | .symbol s => some [.symbol s]
  | _ => none

def lexer : Transducer Mode UInt8 Token := ⟨.between, lexStep, lexFinish⟩

/-! ## Calls -/

inductive Expr where
  | string (value : List UInt8)
  | numeral (digits : List UInt8)
  | name (word : List UInt8)
  | minus (e : Expr)
  deriving DecidableEq, Repr

/-- A call of `path[0].path[1]…` with one table. -/
structure Call where
  path : List (List UInt8)
  fields : List (List UInt8 × Expr)
  deriving DecidableEq, Repr

/-- Where the parser is: in the function's name, in the table, and behind the call. -/
inductive Place where
  | statement
  | path (path : List (List UInt8))
  | dot (path : List (List UInt8))
  | opened (path : List (List UInt8))
  | field (call : Call)
  | key (call : Call) (key : List UInt8)
  | value (call : Call) (key : List UInt8) (minus : Bool)
  | valued (call : Call)
  | closed (call : Call)
  | behind
  deriving DecidableEq, Repr

def Call.set (call : Call) (key : List UInt8) (minus : Bool) (e : Expr) : Call :=
  { call with fields := call.fields ++ [(key, if minus then .minus e else e)] }

def parseStep : Place → Token → Option (Place × List Call)
  | .statement, .symbol 0x3B => some (.statement, [])                   -- `;`
  | .statement, .name word => some (.path [word], [])
  | .path path, .symbol 0x2E => some (.dot path, [])                    -- `.`
  | .path path, .symbol 0x28 => some (.opened path, [])                 -- `(`
  | .dot path, .name word => some (.path (path ++ [word]), [])
  | .opened path, .symbol 0x7B => some (.field ⟨path, []⟩, [])          -- `{`
  | .field call, .name word => some (.key call word, [])
  | .field call, .symbol 0x7D => some (.closed call, [])                -- `}`
  | .key call key, .symbol 0x3D => some (.value call key false, [])     -- `=`
  | .value call key false, .symbol 0x2D => some (.value call key true, []) -- `-`
  | .value call key false, .string value => some (.valued (call.set key false (.string value)), [])
  | .value call key minus, .numeral digits =>
    some (.valued (call.set key minus (.numeral digits)), [])
  | .value call key minus, .name word => some (.valued (call.set key minus (.name word)), [])
  | .valued call, .symbol 0x2C => some (.field call, [])                -- `,`
  | .valued call, .symbol 0x7D => some (.closed call, [])               -- `}`
  | .closed call, .symbol 0x29 => some (.behind, [call])                -- `)`
  | .behind, .symbol 0x3B => some (.statement, [])                      -- `;`
  | _, _ => none

def parseFinish : Place → Option (List Call)
  | .statement => some []
  | .behind => some []
  | _ => none

def parser : Transducer Place Token Call := ⟨.statement, parseStep, parseFinish⟩

/-- The calls of a chunk, in order. -/
def parse (chunk : List UInt8) : Option (List Call) := (lexer.output chunk).bind parser.output

/-! ## Words, numerals and strings -/

theorem isSpace_of_isAlnum {b : UInt8} (h : isAlnum b = true) : isSpace b = false := by
  simp [isAlnum, isAlpha, isDigit, isSpace, UInt8.le_iff_toNat_le, ← UInt8.toNat_inj] at h ⊢
  omega

theorem begin_digit {b : UInt8} (h : isDigit b = true) : begin b = some (.numeral [b], []) := by
  have halpha : isAlpha b = false := by
    simp [isDigit, isAlpha, UInt8.le_iff_toNat_le, ← UInt8.toNat_inj] at h ⊢
    omega
  rw [begin, isSpace_of_isAlnum (by rw [isAlnum, h, Bool.or_true]), halpha, h]
  rfl

theorem flush_some {token : Token} {b : UInt8} {mode : Mode} {out : List Token}
    (h : begin b = some (mode, out)) : flush (some token) b = some (mode, token :: out) := by
  rw [flush, Option.bind_some, h]
  rfl

/-- A numeral is collected byte by byte and ends at the first byte that does not belong to it. -/
theorem lexes_numeral {first next : UInt8} {rest : List UInt8} {mode : Mode} {out : List Token}
    (hfirst : isDigit first = true) (hrest : ∀ b ∈ rest, (isAlnum b || b = 0x2E) = true)
    (hnumeral : isNumeral (first :: rest) = true) (hend : (isAlnum next || next = 0x2E) = false)
    (hnext : begin next = some (mode, out)) :
    lexer.Runs .between (first :: rest ++ [next]) mode (.numeral (first :: rest) :: out) := by
  have hbegin : lexer.step .between first = some (.numeral [first], []) := begin_digit hfirst
  have hgoes : ∀ b ∈ rest, ∀ read, lexer.step (.numeral read) b = some (.numeral (b :: read), []) :=
    fun b hb _ => if_pos (hrest b hb)
  have hread := Transducer.runs_collect hgoes [first]
  have htoken : numeralToken (rest.reverse ++ [first]) = some (.numeral (first :: rest)) := by
    rw [← List.reverse_cons, numeralToken, List.reverse_reverse, if_pos hnumeral]
  have hstep : lexer.step (.numeral (rest.reverse ++ [first])) next =
      some (mode, .numeral (first :: rest) :: out) := by
    show lexStep (.numeral (rest.reverse ++ [first])) next = _
    rw [lexStep, hend, if_neg Bool.false_ne_true, htoken]
    exact flush_some hnext
  have hlast := Transducer.runs_cons hstep (Transducer.runs_nil mode)
  rw [List.append_nil] at hlast
  exact Transducer.runs_cons hbegin (Transducer.runs_append hread hlast)

/-- A dash in front of anything but another one. -/
theorem lexes_minus {first : UInt8} {rest : List UInt8} {mode : Mode} {out : List Token}
    (hfirst : first ≠ 0x2D) (h : lexer.Runs .between (first :: rest) mode out) :
    lexer.Runs .between (0x2D :: first :: rest) mode (.symbol 0x2D :: out) := by
  obtain ⟨t, written, more, hstep, hrest, rfl⟩ := Transducer.runs_uncons h
  have hdash : lexer.step (.symbol 0x2D) first = some (t, .symbol 0x2D :: written) := by
    have hcond : (first = 0x2D || ((0x2D : UInt8) = 0x2E && isDigit first)) = false := by
      simp [hfirst]
    show lexStep (.symbol 0x2D) first = _
    rw [lexStep, hcond, if_neg Bool.false_ne_true]
    exact flush_some hstep
  have hbegin : lexer.step .between 0x2D = some (.symbol 0x2D, []) := rfl
  exact Transducer.runs_cons hbegin (Transducer.runs_cons hdash hrest)

theorem lexes_plain {value : List UInt8} (h : ∀ b ∈ value, b ∉ [0x22, 0x0A, 0x0D, 0x5C])
    (read : List UInt8) : lexer.Runs (.string read) value (.string (value.reverse ++ read)) [] := by
  refine Transducer.runs_collect (m := lexer) (fun b hb read => ?_) read
  have hplain := h b hb
  simp only [List.mem_cons, List.not_mem_nil, or_false, not_or] at hplain
  show inString read b = _
  simp [inString, hplain]

theorem lexes_escape {e b : UInt8} (h : escaped e = some b) (read : List UInt8) :
    lexer.Runs (.string read) [0x5C, e] (.string (b :: read)) [] := by
  have hslash : lexer.step (.string read) 0x5C = some (.escape read, []) := rfl
  have hescape : lexer.step (.escape read) e = some (.string (b :: read), []) := by
    show lexStep (.escape read) e = _
    rw [lexStep, h]
  exact Transducer.runs_cons hslash (Transducer.runs_cons hescape (Transducer.runs_nil _))

/-- What is read between quotes is the value of the literal. -/
theorem lexes_quoted {content value : List UInt8}
    (h : lexer.Runs (.string []) content (.string (value.reverse ++ [])) []) :
    lexer.Runs .between (0x22 :: (content ++ [0x22])) .between [.string value] := by
  have hopen : lexer.step .between 0x22 = some (.string [], []) := rfl
  have hclose : lexer.Runs (.string (value.reverse ++ [])) [0x22] .between [.string value] := by
    have hstep : lexer.step (.string (value.reverse ++ [])) 0x22 =
        some (.between, [.string value]) := by
      rw [List.append_nil]
      exact congrArg (fun v => some (Mode.between, [Token.string v])) value.reverse_reverse
    exact Transducer.runs_cons hstep (Transducer.runs_nil _)
  exact Transducer.runs_cons hopen (Transducer.runs_append h hclose)

/-- A character that ends no string and starts no escape is no such byte either. -/
theorem plain_utf8EncodeChar {c : Char} (h : c ∉ ['"', '\n', '\r', '\\']) :
    ∀ b ∈ String.utf8EncodeChar c, b ∉ [0x22, 0x0A, 0x0D, 0x5C] := by
  intro b hb
  obtain ⟨hascii, heq⟩ | ⟨-, hall⟩ := Text.utf8EncodeChar_cases c
  · rw [heq, List.mem_singleton] at hb
    have hval : b.toNat = c.toNat := by
      rw [hb, UInt8.toNat_ofNat', Nat.mod_eq_of_lt (by omega)]
    intro hmem
    apply h
    simp only [List.mem_cons, List.not_mem_nil, or_false, ← UInt8.toNat_inj, hval] at hmem
    simp only [List.mem_cons, List.not_mem_nil, or_false, ← Char.toNat_inj]
    exact hmem
  · have hge := hall b hb
    intro hmem
    simp only [List.mem_cons, List.not_mem_nil, or_false] at hmem
    rcases hmem with rfl | rfl | rfl | rfl <;> exact absurd hge (by decide)

theorem lexes_quoted_plain {t : Text} (h : ∀ c ∈ t, c ∉ ['"', '\n', '\r', '\\']) :
    lexer.Runs .between (0x22 :: (Text.utf8Bytes t ++ [0x22])) .between
      [.string (Text.utf8Bytes t)] := by
  refine lexes_quoted (lexes_plain (fun b hb => ?_) [])
  obtain ⟨c, hc, hb⟩ := List.mem_flatMap.1 hb
  exact plain_utf8EncodeChar (h c hc) b hb

theorem isNumeral_point {first : UInt8} {rest part : List UInt8}
    (hwhole : ∀ b ∈ first :: rest, isDigit b = true) (hpart : ∀ b ∈ part, isDigit b = true) :
    isNumeral (first :: rest) = true ∧ isNumeral (first :: rest ++ 0x2E :: part) = true := by
  have hfirst := hwhole first (List.mem_cons_self ..)
  have hdrop : ∀ more, (first :: rest ++ more).dropWhile isDigit = more.dropWhile isDigit :=
    fun more => List.dropWhile_append_of_pos hwhole
  constructor
  · have hdrop := hdrop []
    rw [List.append_nil] at hdrop
    rw [isNumeral, hdrop, List.headD_cons, hfirst]
    rfl
  · have hall : part.all isDigit = true := List.all_eq_true.2 hpart
    have hdot : (0x2E :: part).dropWhile isDigit = 0x2E :: part := rfl
    rw [isNumeral, hdrop, hdot, List.cons_append, List.headD_cons, hfirst, List.head?_cons,
      List.tail_cons, hall]
    rfl

/-! ## The tokens of a call -/

def Expr.tokens : Expr → List Token
  | .string value => [.string value]
  | .numeral digits => [.numeral digits]
  | .name word => [.name word]
  | .minus e => .symbol 0x2D :: e.tokens

/-- What the parser takes for a value. -/
def Expr.IsValue : Expr → Prop
  | .minus (.numeral _) | .minus (.name _) => True
  | .minus _ => False
  | _ => True

def fieldTokens (field : List UInt8 × Expr) : List Token :=
  .name field.1 :: .symbol 0x3D :: field.2.tokens

def pathTokens : List (List UInt8) → List Token
  | [] => []
  | word :: more => .name word :: more.flatMap fun word => [.symbol 0x2E, .name word]

def Call.tokens (call : Call) : List Token :=
  pathTokens call.path ++ ([.symbol 0x28, .symbol 0x7B] ++
    ([Token.symbol 0x2C].intercalate (call.fields.map fieldTokens) ++
      [.symbol 0x7D, .symbol 0x29]))

theorem parses_field (call : Call) {field : List UInt8 × Expr} (h : field.2.IsValue) :
    parser.Runs (.field call) (fieldTokens field)
      (.valued { call with fields := call.fields ++ [field] }) [] := by
  obtain ⟨key, e⟩ := field
  cases e with
  | string value => rfl
  | numeral digits => rfl
  | name word => rfl
  | minus e =>
    cases e with
    | numeral digits => rfl
    | name word => rfl
    | string value => exact h.elim
    | minus e => exact h.elim

theorem parses_fields (call : Call) {fields : List (List UInt8 × Expr)} (hne : fields ≠ [])
    (h : ∀ field ∈ fields, field.2.IsValue) :
    parser.Runs (.field call) ([Token.symbol 0x2C].intercalate (fields.map fieldTokens))
      (.valued { call with fields := call.fields ++ fields }) [] := by
  induction fields generalizing call with
  | nil => exact absurd rfl hne
  | cons field fields ih =>
    have hfield := parses_field call (h field (List.mem_cons_self ..))
    cases fields with
    | nil => simpa [List.intercalate] using hfield
    | cons next fields =>
      have hrest := ih { call with fields := call.fields ++ [field] } (List.cons_ne_nil _ _)
        fun f hf => h f (List.mem_cons_of_mem _ hf)
      have hcomma : parser.Runs (.valued { call with fields := call.fields ++ [field] })
          [.symbol 0x2C] (.field { call with fields := call.fields ++ [field] }) [] := rfl
      have hall := Transducer.runs_append hfield (Transducer.runs_append hcomma hrest)
      simpa [List.intercalate] using hall

theorem parses_path (path more : List (List UInt8)) :
    parser.Runs (.path path) (more.flatMap fun word => [.symbol 0x2E, .name word])
      (.path (path ++ more)) [] := by
  induction more generalizing path with
  | nil =>
    rw [List.append_nil]
    rfl
  | cons word more ih =>
    have hword : parser.Runs (.path path) [.symbol 0x2E, .name word] (.path (path ++ [word])) [] :=
      rfl
    have hmore := ih (path ++ [word])
    rw [List.append_assoc] at hmore
    exact Transducer.runs_append hword hmore

/-- A call that can be written: it has a name and fields, whose values are simple. -/
structure Call.WellFormed (call : Call) : Prop where
  path : call.path ≠ []
  fields : call.fields ≠ []
  values : ∀ field ∈ call.fields, field.2.IsValue

theorem parses_call {call : Call} (h : call.WellFormed) :
    parser.Runs .statement call.tokens .behind [call] := by
  obtain ⟨path, fields⟩ := call
  obtain ⟨word, more, rfl⟩ := List.exists_cons_of_ne_nil h.path
  have hname : parser.step .statement (.name word) = some (.path [word], []) := rfl
  have hopened : parser.Runs (.path (word :: more)) [.symbol 0x28, .symbol 0x7B]
      (.field ⟨word :: more, []⟩) [] := rfl
  have hclosed : parser.Runs (.valued ⟨word :: more, fields⟩) [.symbol 0x7D, .symbol 0x29] .behind
      [⟨word :: more, fields⟩] := rfl
  have hfields := parses_fields ⟨word :: more, []⟩ h.fields h.values
  exact Transducer.runs_append (Transducer.runs_cons hname (parses_path [word] more))
    (Transducer.runs_append hopened (Transducer.runs_append hfields hclosed))

theorem intercalate_singletons {α : Type} (l : List α) :
    ([] : List α).intercalate (l.map fun a => [a]) = l := by
  induction l with
  | nil => rfl
  | cons a l ih =>
    cases l with
    | nil => rfl
    | cons b l => exact congrArg (a :: ·) ih

/-- **Calls between semicolons** are parsed as they are. -/
theorem parses_calls {calls : List Call} (h : ∀ call ∈ calls, call.WellFormed) :
    parser.output ([Token.symbol 0x3B].intercalate (calls.map Call.tokens)) = some calls := by
  cases hcalls : calls with
  | nil => rfl
  | cons call rest =>
    have hsemicolon : parser.Runs .behind [.symbol 0x3B] .statement [] := rfl
    have hruns : parser.Runs .statement _ .behind
        (([] : List Call).intercalate ((call :: rest).map fun call => [call])) :=
      Transducer.runs_intercalate hsemicolon (List.cons_ne_nil call rest) fun c hc =>
        parses_call (h c (hcalls ▸ hc))
    have hfinish : parser.finish .behind = some [] := rfl
    rw [intercalate_singletons] at hruns
    rw [hruns.output hfinish, List.append_nil]

/-- **A chunk** whose pieces are lexed as the tokens of calls, with `; ` between them. -/
theorem parse_intercalate {α : Type} {text : α → List UInt8} {call : α → Call} {l : List α}
    (hlex : ∀ a ∈ l, lexer.Runs .between (text a) .between (call a).tokens)
    (hcall : ∀ a ∈ l, (call a).WellFormed) :
    parse ([0x3B, 0x20].intercalate (l.map text)) = some (l.map call) := by
  have hcalls : ∀ c ∈ l.map call, c.WellFormed := List.forall_mem_map.2 hcall
  have hparse := parses_calls hcalls
  rw [List.map_map] at hparse
  cases hl : l with
  | nil => rfl
  | cons a rest =>
    have hsemicolon : lexer.Runs .between [0x3B, 0x20] .between [.symbol 0x3B] := rfl
    have hruns := Transducer.runs_intercalate hsemicolon (hl ▸ List.cons_ne_nil a rest) hlex
    have hfinish : lexer.finish .between = some [] := rfl
    rw [parse, ← hl, hruns.output hfinish, List.append_nil]
    exact hparse

/-! ## Decimal numbers -/

/-- The number that an integer numeral stands for. -/
def natural (digits : List UInt8) : Nat := digits.foldl (fun n b => 10 * n + (b.toNat - 0x30)) 0

def Expr.integer : Expr → Option Int
  | .numeral digits => if digits.all isDigit then some (natural digits : Int) else none
  | .minus (.numeral digits) => if digits.all isDigit then some (-(natural digits : Int)) else none
  | _ => none

def Expr.signed (negative : Bool) (e : Expr) : Expr := if negative then .minus e else e

theorem toNat_of_isDigit {c : Char} (h : c.isDigit = true) :
    String.utf8EncodeChar c = [UInt8.ofNat c.toNat] ∧ (UInt8.ofNat c.toNat).toNat = c.toNat ∧
      isDigit (UInt8.ofNat c.toNat) = true := by
  have hrange : 0x30 ≤ c.toNat ∧ c.toNat ≤ 0x39 := by
    simpa [Char.isDigit, UInt32.le_iff_toNat_le] using h
  have hval : (UInt8.ofNat c.toNat).toNat = c.toNat := by
    rw [UInt8.toNat_ofNat', Nat.mod_eq_of_lt (by omega)]
  refine ⟨?_, hval, ?_⟩
  · obtain ⟨-, heq⟩ | ⟨hge, -⟩ := Text.utf8EncodeChar_cases c
    · exact heq
    · omega
  · simp [isDigit, UInt8.le_iff_toNat_le, hval, hrange]

theorem utf8Bytes_digits {t : Text} (h : ∀ c ∈ t, c.isDigit = true) :
    Text.utf8Bytes t = t.map fun c => UInt8.ofNat c.toNat := by
  rw [Text.utf8Bytes, List.map_eq_flatMap]
  exact List.flatMap_congr fun c hc => (toNat_of_isDigit (h c hc)).1

theorem isDigit_utf8Bytes {t : Text} (h : ∀ c ∈ t, c.isDigit = true) :
    ∀ b ∈ Text.utf8Bytes t, isDigit b = true := by
  rw [utf8Bytes_digits h]
  exact List.forall_mem_map.2 fun c hc => (toNat_of_isDigit (h c hc)).2.2

theorem natural_utf8Bytes {t : Text} (h : ∀ c ∈ t, c.isDigit = true) :
    natural (Text.utf8Bytes t) = Nat.ofDigitChars 10 t 0 := by
  rw [utf8Bytes_digits h, natural, List.foldl_map, Nat.ofDigitChars_eq_foldl]
  refine List.foldl_ext _ _ 0 fun n c hc => ?_
  rw [(toNat_of_isDigit (h c hc)).2.1]
  rfl

theorem integer_signed {negative : Bool} {t : Text} (h : ∀ c ∈ t, c.isDigit = true) :
    (Expr.signed negative (.numeral (Text.utf8Bytes t))).integer =
      some (if negative then -(Nat.ofDigitChars 10 t 0 : Int) else Nat.ofDigitChars 10 t 0) := by
  have hall : (Text.utf8Bytes t).all isDigit = true := List.all_eq_true.2 (isDigit_utf8Bytes h)
  cases negative with
  | true => exact (if_pos hall).trans (by rw [natural_utf8Bytes h]; rfl)
  | false => exact (if_pos hall).trans (by rw [natural_utf8Bytes h]; rfl)

theorem numeral_utf8Bytes {t : Text} (ht : Text.IsDecimal t) :
    ∃ first rest, Text.utf8Bytes t = first :: rest ∧ isDigit first = true ∧
      (∀ b ∈ rest, (isAlnum b || b = 0x2E) = true) ∧ isNumeral (first :: rest) = true := by
  obtain ⟨whole, part, hne, hwhole, hpart, ht⟩ := ht
  have hwhole := isDigit_utf8Bytes hwhole
  have hpart := isDigit_utf8Bytes hpart
  have hdot : Text.utf8Bytes (whole ++ '.' :: part) =
      Text.utf8Bytes whole ++ 0x2E :: Text.utf8Bytes part := Text.utf8Bytes_append ..
  obtain ⟨first, rest, hbytes⟩ : ∃ first rest, Text.utf8Bytes whole = first :: rest := by
    obtain ⟨c, cs, rfl⟩ := List.exists_cons_of_ne_nil hne
    exact List.exists_cons_of_ne_nil (by simp [Text.utf8Bytes_cons, String.utf8EncodeChar_ne_nil])
  rw [hbytes] at hwhole hdot
  have hgoes : ∀ b, isDigit b = true → (isAlnum b || b = 0x2E) = true := fun b hb => by
    rw [isAlnum, hb, Bool.or_true, Bool.true_or]
  have hfirst := hwhole first (List.mem_cons_self ..)
  have hrest : ∀ b ∈ rest, (isAlnum b || b = 0x2E) = true := fun b hb =>
    hgoes b (hwhole b (List.mem_cons_of_mem _ hb))
  obtain ⟨hinteger, hpoint⟩ := isNumeral_point hwhole hpart
  obtain rfl | rfl := ht
  · exact ⟨first, rest, hbytes, hfirst, hrest, hinteger⟩
  · refine ⟨first, rest ++ 0x2E :: Text.utf8Bytes part, hdot, hfirst, ?_, hpoint⟩
    intro b hb
    obtain hb | hb := List.mem_append.1 hb
    · exact hrest b hb
    · obtain rfl | hb := List.mem_cons.1 hb
      · rfl
      · exact hgoes b (hpart b hb)

/-- A decimal text in front of a byte that does not go on with it is one numeral. -/
theorem lexes_decimal {t : Text} {next : UInt8} {mode : Mode} {out : List Token}
    (ht : Text.IsDecimal t) (hend : (isAlnum next || next = 0x2E) = false)
    (hnext : begin next = some (mode, out)) (negative : Bool) :
    lexer.Runs .between (Text.utf8Bytes (Text.signed negative t) ++ [next]) mode
      ((Expr.signed negative (.numeral (Text.utf8Bytes t))).tokens ++ out) := by
  have hdash : Text.utf8Bytes ('-' :: t) = 0x2D :: Text.utf8Bytes t := rfl
  obtain ⟨first, rest, hbytes, hfirst, hrest, hnumeral⟩ := numeral_utf8Bytes ht
  have hlex := lexes_numeral hfirst hrest hnumeral hend hnext
  cases negative with
  | false =>
    rw [← hbytes] at hlex
    exact hlex
  | true =>
    have hne : first ≠ 0x2D := by
      rintro rfl
      cases hfirst
    have hsigned : Text.utf8Bytes (Text.signed true t) = 0x2D :: first :: rest :=
      hdash.trans (congrArg _ hbytes)
    rw [hsigned, hbytes]
    exact lexes_minus hne hlex

end PadPlay.Lib.Lua
