import PadPlay.Lib.BigEndian
import PadPlay.Lib.FirstSeen
import PadPlay.Lib.Text

/-!
# DRM formats of the encoder (`encoder`)

The modifiers the encoder chain accepts for a format, read off the `drm-format` values `vapostproc`
advertises, and the `drm-format` the encoder's own source caps carry.
-/

namespace PadPlay.Encoder

open PadPlay.Lib

/-- A `drm-format` value in a caps structure: a string, a list of values, or something else. -/
inductive DrmValue where
  | text (t : Text)
  | list (items : List DrmValue)
  | other

/-- `code.to_le_bytes()`. -/
def leBytes (code : UInt32) : List UInt8 := (toBE 4 code.toNat).reverse

def fourccName (code : UInt32) : Text := Text.fromUtf8Lossy (leBytes code)

/-- `modifier.strip_prefix("0x")` read as hexadecimal, or else all of it read as decimal. -/
def parseModifier (modifier : Text) : Option UInt64 :=
  (((Text.stripPrefix ['0', 'x'] modifier).bind (Text.fromStrRadix 64 16)).or
    (Text.fromStrRadix 64 10 modifier)).map UInt64.ofNat

def parseDrmFormat (text wanted : Text) : Option UInt64 :=
  let text := Text.trim text
  -- a bare fourcc with no modifier means linear
  let (fourcc, modifier) := (Text.splitOnce ':' text).getD (text, ['0'])
  if Text.trim fourcc ≠ wanted then none else parseModifier (Text.trim modifier)

mutual

def collectModifiers : DrmValue → Text → List UInt64 → List UInt64
  | .text text, wanted, out =>
    match parseDrmFormat text wanted with
    | some modifier => if modifier ∈ out then out else out ++ [modifier]
    | none => out
  | .list items, wanted, out => collectItems items wanted out
  | .other, _, out => out

def collectItems : List DrmValue → Text → List UInt64 → List UInt64
  | [], _, out => out
  | item :: items, wanted, out => collectItems items wanted (collectModifiers item wanted out)

end

/-- DRM format modifiers the encoder chain can import for `fourcc`, from the `drm-format` values in
the sink templates of `vapostproc`, if there is one. LINEAR is appended as a universal fallback. -/
def supportedModifiers (values : List DrmValue) (fourcc : UInt32) : List UInt64 :=
  let modifiers := values.foldl (fun out value => collectModifiers value (fourccName fourcc) out) []
  if 0 ∈ modifiers then modifiers else modifiers ++ [0]

structure EncoderConfig where
  width : UInt32
  height : UInt32
  framerate : UInt32
  /-- DRM fourcc of the incoming frames -/
  fourcc : UInt32
  /-- DRM format modifier of the incoming frames -/
  modifier : UInt64
  deriving DecidableEq, Repr

/-- The `drm-format` of the source caps in `Encoder::new`, `format!("{}:0x{:016x}", …)`. -/
def drmFormat (config : EncoderConfig) : Text :=
  fourccName config.fourcc ++ [':', '0', 'x'] ++ Text.lowerHex 16 config.modifier.toNat

/-! ## What the values advertise -/

mutual

def DrmValue.texts : DrmValue → List Text
  | .text t => [t]
  | .list items => textsOf items
  | .other => []

def textsOf : List DrmValue → List Text
  | [] => []
  | item :: items => item.texts ++ textsOf items

end

/-- Some string in the values names the format and the modifier. -/
def Advertised (values : List DrmValue) (fourcc : UInt32) (modifier : UInt64) : Prop :=
  ∃ t ∈ textsOf values, parseDrmFormat t (fourccName fourcc) = some modifier

instance (values : List DrmValue) (fourcc : UInt32) (modifier : UInt64) :
    Decidable (Advertised values fourcc modifier) := inferInstanceAs (Decidable (∃ t ∈ _, _ = _))

/-- The modifiers that strings name for the format, in order. -/
def modifiersOf (wanted : Text) (texts : List Text) : List UInt64 :=
  texts.filterMap fun t => parseDrmFormat t wanted

mutual

/-- A value adds the modifiers of its strings. -/
theorem collectModifiers_eq (wanted : Text) : ∀ (value : DrmValue) (out : List UInt64),
    collectModifiers value wanted out = (modifiersOf wanted value.texts).foldl pushNew out
  | .text t, out => by
    rw [collectModifiers, DrmValue.texts, modifiersOf, List.filterMap_cons, List.filterMap_nil]
    cases parseDrmFormat t wanted with
    | none => rfl
    | some modifier => rfl
  | .list items, out => by
    rw [collectModifiers, DrmValue.texts]
    exact collectItems_eq wanted items out
  | .other, _ => rfl

theorem collectItems_eq (wanted : Text) : ∀ (items : List DrmValue) (out : List UInt64),
    collectItems items wanted out = (modifiersOf wanted (textsOf items)).foldl pushNew out
  | [], _ => rfl
  | item :: items, out => by
    rw [collectItems, collectItems_eq wanted items, collectModifiers_eq wanted item, textsOf,
      modifiersOf, modifiersOf, modifiersOf, List.filterMap_append, List.foldl_append]

end

theorem collectItems_eq_foldl (wanted : Text) (values : List DrmValue) (out : List UInt64) :
    collectItems values wanted out =
      values.foldl (fun out value => collectModifiers value wanted out) out := by
  induction values generalizing out with
  | nil => rfl
  | cons value values ih => rw [collectItems, ih, List.foldl_cons]

/-- All that is named for the format, in the order in which it is first seen, and then LINEAR. -/
theorem supportedModifiers_eq (values : List DrmValue) (fourcc : UInt32) :
    supportedModifiers values fourcc =
      (modifiersOf (fourccName fourcc) (textsOf values) ++ [0]).foldl pushNew [] := by
  rw [List.foldl_append, ← collectItems_eq, collectItems_eq_foldl]
  rfl

/-- **The supported modifiers** are those advertised for the format, and LINEAR. -/
theorem mem_supportedModifiers {values : List DrmValue} {fourcc : UInt32} {m : UInt64} :
    m ∈ supportedModifiers values fourcc ↔ Advertised values fourcc m ∨ m = 0 := by
  rw [supportedModifiers_eq, (FirstSeen.foldl _).mem, List.mem_append, List.mem_singleton,
    modifiersOf, List.mem_filterMap]
  rfl

theorem supportedModifiers_ne_nil (values : List DrmValue) (fourcc : UInt32) :
    supportedModifiers values fourcc ≠ [] :=
  List.ne_nil_of_mem (mem_supportedModifiers.2 (.inr rfl))

end PadPlay.Encoder
