import PadPlay.Capture.Session
import PadPlay.Encoder.DrmFormat

/-!
# The preference order of modifiers (`encoder`)

`Entry` says which modifier a `drm-format` string names for a format, with white space allowed
around both parts, and `parseDrmFormat_iff` that the parser reads just that. The modifiers the
encoder chain accepts are then those of the entries, in the order in which they are first seen, with
LINEAR behind them if no entry names it. The `drm-format` of the encoder's own source caps is one
such entry.
-/

namespace PadPlay.Encoder

open PadPlay.Lib PadPlay.Lib.Text

/-! ## Modifiers -/

/-- A modifier as it is written, in hexadecimal behind `0x` or in decimal. -/
def IsModifier (w : Text) (n : UInt64) : Prop :=
  (∃ hex, w = '0' :: 'x' :: hex ∧ IsNumber 16 hex n.toNat) ∨ IsNumber 10 w n.toNat

theorem IsModifier.isWord {w : Text} {n : UInt64} (h : IsModifier w n) : IsWord w := by
  rcases h with ⟨hex, rfl, hhex⟩ | h
  · have hword := (hhex.isWord (by decide)).word
    exact ⟨List.cons_ne_nil _ _, List.forall_mem_cons.2 ⟨rfl, List.forall_mem_cons.2 ⟨rfl, hword⟩⟩⟩
  · exact h.isWord (by decide)

theorem map_fromStrRadix_iff {radix : Nat} {t : Text} {n : UInt64} (hpos : 0 < radix)
    (hradix : radix ≤ 36) :
    (fromStrRadix 64 radix t).map UInt64.ofNat = some n ↔ IsNumber radix t n.toNat := by
  rw [Option.map_eq_some_iff]
  constructor
  · rintro ⟨k, hk, rfl⟩
    obtain ⟨hnumber, hlt⟩ := (fromStrRadix_iff hpos hradix).1 hk
    rw [UInt64.toNat_ofNat_of_lt' hlt]
    exact hnumber
  · intro h
    exact ⟨n.toNat, (fromStrRadix_iff hpos hradix).2 ⟨h, n.toNat_lt⟩, UInt64.ofNat_toNat⟩

/-- What begins with `0x` is no decimal number. -/
theorem not_isNumber_hex (hex : Text) (n : Nat) : ¬IsNumber 10 ('0' :: 'x' :: hex) n := by
  rintro ⟨word, digits, rfl | hplus, -, hdigits, -⟩
  · cases hdigits with
    | cons _ hdigits =>
      cases hdigits with
      | cons hx _ => cases hx
  · cases hplus

theorem parseModifier_iff {w : Text} {n : UInt64} : parseModifier w = some n ↔ IsModifier w n := by
  rw [parseModifier, IsModifier]
  cases hstrip : stripPrefix ['0', 'x'] w with
  | none =>
    rw [Option.bind_none, Option.none_or, map_fromStrRadix_iff (by decide) (by decide),
      or_iff_right]
    rintro ⟨hex, rfl, -⟩
    cases hstrip.symm.trans (stripPrefix_iff.2 rfl)
  | some hex =>
    have hw : w = '0' :: 'x' :: hex := stripPrefix_iff.1 hstrip
    subst hw
    have hdecimal : fromStrRadix 64 10 ('0' :: 'x' :: hex) = none := by
      refine Option.eq_none_iff_forall_ne_some.2 fun k hk => ?_
      exact not_isNumber_hex hex k ((fromStrRadix_iff (by decide) (by decide)).1 hk).1
    rw [Option.bind_some, hdecimal, Option.or_none, map_fromStrRadix_iff (by decide) (by decide),
      or_iff_left (not_isNumber_hex hex _)]
    constructor
    · exact fun h => ⟨hex, rfl, h⟩
    · rintro ⟨hex', heq, h⟩
      cases heq
      exact h

/-! ## Entries -/

/-- The modifier that a string names for a format: the one behind the colon, or LINEAR where the
format stands alone. -/
inductive Entry (wanted : Text) : Text → UInt64 → Prop
  | linear {t} (ht : Padded wanted t) : Entry wanted t 0
  | tiled {fourcc modifier w n} (hfourcc : Padded wanted fourcc) (hmodifier : Padded w modifier)
      (hw : IsModifier w n) : Entry wanted (fourcc ++ ':' :: modifier) n

theorem parseDrmFormat_tiled {t fourcc modifier : Text}
    (hsplit : splitOnce ':' (trim t) = some (fourcc, modifier)) (wanted : Text) (n : UInt64) :
    parseDrmFormat t wanted = some n ↔
      trim fourcc = wanted ∧ IsModifier (trim modifier) n := by
  simp only [parseDrmFormat, hsplit, Option.getD_some, ite_not, Option.ite_none_right_eq_some,
    parseModifier_iff]

theorem parseDrmFormat_linear {t : Text} (hsplit : splitOnce ':' (trim t) = none) (wanted : Text)
    (n : UInt64) : parseDrmFormat t wanted = some n ↔ trim (trim t) = wanted ∧ n = 0 := by
  have hzero : parseModifier (trim ['0']) = some 0 := rfl
  simp only [parseDrmFormat, hsplit, Option.getD_none, ite_not, Option.ite_none_right_eq_some,
    hzero, Option.some.injEq]
  rw [eq_comm (a := n)]

theorem Entry.of_parse {wanted t : Text} {n : UInt64} (h : parseDrmFormat t wanted = some n) :
    Entry wanted t n := by
  obtain ⟨before, after, hbefore, hafter, ht⟩ := padded_trim t
  cases hsplit : splitOnce ':' (trim t) with
  | none =>
    obtain ⟨hwanted, rfl⟩ := (parseDrmFormat_linear hsplit wanted n).1 h
    refine .linear ?_
    rw [ht, ← hwanted]
    exact (padded_trim (trim t)).append hbefore hafter
  | some parts =>
    obtain ⟨fourcc, modifier⟩ := parts
    obtain ⟨hwanted, hmodifier⟩ := (parseDrmFormat_tiled hsplit wanted n).1 h
    have hfront : Padded wanted (before ++ (fourcc ++ [])) := by
      rw [← hwanted]
      exact (padded_trim fourcc).append hbefore (List.forall_mem_nil _)
    have hback : Padded (trim modifier) ([] ++ (modifier ++ after)) :=
      (padded_trim modifier).append (List.forall_mem_nil _) hafter
    -- what is trimmed off the string goes to its two parts
    have hparts : t = (before ++ (fourcc ++ [])) ++ ':' :: ([] ++ (modifier ++ after)) := by
      rw [ht, eq_append_of_splitOnce hsplit]
      simp only [List.append_nil, List.nil_append, List.append_assoc, List.cons_append]
    rw [hparts]
    exact .tiled hfront hback hmodifier

section
variable {wanted : Text} (hwanted : IsWord wanted) (hcolon : ':' ∉ wanted)
include hwanted hcolon

theorem Entry.parse {t : Text} {n : UInt64} (h : Entry wanted t n) :
    parseDrmFormat t wanted = some n := by
  cases h with
  | linear ht =>
    have htrim := trim_padded hwanted ht
    refine (parseDrmFormat_linear ?_ wanted 0).2 ⟨?_, rfl⟩
    · rw [htrim]
      exact splitOnce_eq_none hcolon
    · rw [htrim]
      exact trim_padded hwanted (Padded.refl wanted)
  | @tiled fourcc modifier w n hfourcc hmodifier hw =>
    obtain ⟨before, between, hbefore, hbetween, rfl⟩ := hfourcc
    obtain ⟨between', after, hbetween', hafter, rfl⟩ := hmodifier
    have hblank : ':' ∉ between := fun hmem => absurd (hbetween _ hmem) (by decide)
    have htrim : trim ((before ++ (wanted ++ between)) ++ ':' :: (between' ++ (w ++ after))) =
        (wanted ++ between) ++ ':' :: (between' ++ w) := by
      have hwords := trim_words hwanted hw.isWord (between ++ ':' :: between') hbefore hafter
      simpa only [List.append_assoc, List.cons_append] using hwords
    have hsplit := splitOnce_append (List.not_mem_append hcolon hblank) (between' ++ w)
    have hname : Padded wanted (wanted ++ between) :=
      ⟨[], between, List.forall_mem_nil _, hbetween, rfl⟩
    have hvalue : Padded w (between' ++ w) :=
      ⟨between', [], hbetween', List.forall_mem_nil _, by rw [List.append_nil]⟩
    rw [← htrim] at hsplit
    refine (parseDrmFormat_tiled hsplit wanted n).2 ⟨trim_padded hwanted hname, ?_⟩
    rw [trim_padded hw.isWord hvalue]
    exact hw

/-- **The parser** reads the entries of the format and nothing else. -/
theorem parseDrmFormat_iff (t : Text) (n : UInt64) :
    parseDrmFormat t wanted = some n ↔ Entry wanted t n :=
  ⟨Entry.of_parse, Entry.parse hwanted hcolon⟩

theorem firstSeen_collectModifiers (values : List DrmValue) :
    ∃ seen, Selects (Entry wanted) (textsOf values) seen ∧
      FirstSeen seen (values.foldl (fun out value => collectModifiers value wanted out) []) := by
  refine ⟨modifiersOf wanted (textsOf values),
    selects_filterMap (parseDrmFormat_iff hwanted hcolon) _, ?_⟩
  rw [← collectItems_eq_foldl, collectItems_eq]
  exact FirstSeen.foldl _

end

/-! ## The formats of the encoder -/

open PadPlay.CaptureSession (XR24 AR24)

/-- What the encoder writes into its caps names the format and the modifier. -/
theorem entry_drmFormat (config : EncoderConfig) :
    Entry (fourccName config.fourcc) (drmFormat config) config.modifier := by
  have hhex := isNumber_lowerHex 16 config.modifier.toNat
  have hentry := Entry.tiled (Padded.refl (fourccName config.fourcc)) (Padded.refl _)
    (.inl ⟨_, rfl, hhex⟩)
  rw [drmFormat, List.append_assoc]
  exact hentry

theorem fourccName_plain {fourcc : UInt32} (h : fourcc = XR24 ∨ fourcc = AR24) :
    IsWord (fourccName fourcc) ∧ ':' ∉ fourccName fourcc := by
  have hne : fourccName fourcc ≠ [] := by rcases h with rfl | rfl <;> decide +kernel
  have hall : ((fourccName fourcc).all fun c => decide (isWhitespace c = false ∧ c ≠ ':')) =
      true := by
    rcases h with rfl | rfl <;> decide +kernel
  have hplain := forall_mem_of_all hall
  exact ⟨⟨hne, fun c hc => (hplain c hc).1⟩, fun hmem => (hplain ':' hmem).2 rfl⟩

/-- **The encoder's preference order**: the modifiers of the format's entries, as they are first
seen, and LINEAR behind them if none of them is. The encoder's own entry is read back. -/
theorem supportedModifiers_firstSeen {fourcc : UInt32} (hfourcc : fourcc = XR24 ∨ fourcc = AR24)
    (values : List DrmValue) :
    (∃ seen collected, Selects (Entry (fourccName fourcc)) (textsOf values) seen ∧
      FirstSeen seen collected ∧
      values.foldl (fun out value => collectModifiers value (fourccName fourcc) out) [] =
        collected ∧
      supportedModifiers values fourcc =
        if 0 ∈ collected then collected else collected ++ [0]) ∧
    (supportedModifiers values fourcc).Nodup ∧
    ∀ config : EncoderConfig,
      parseDrmFormat (drmFormat { config with fourcc }) (fourccName fourcc) =
        some config.modifier := by
  obtain ⟨hword, hcolon⟩ := fourccName_plain hfourcc
  obtain ⟨seen, hseen, hfirst⟩ := firstSeen_collectModifiers hword hcolon values
  refine ⟨⟨seen, _, hseen, hfirst, rfl, rfl⟩, ?_, fun config => ?_⟩
  · rw [supportedModifiers_eq]
    exact (FirstSeen.foldl _).nodup
  · exact (entry_drmFormat { config with fourcc }).parse hword hcolon

/-- Of what is advertised in nested lists, the tiling that comes first is preferred to LINEAR. -/
theorem supportedModifiers_firstSeen_nested :
    let values : List DrmValue := [
      .list [.text "XR24:0x9".toList, .list [.text " XR24 ".toList, .text "AR24:0x1".toList],
        .other, .text "XR24 : 9".toList],
      .text "XR24:0x".toList, .text "XR24:12".toList]
    let config : EncoderConfig := ⟨1920, 1080, 60, XR24, 0xAB⟩
    (supportedModifiers values XR24 = [9, 0, 12] ∧ (supportedModifiers values XR24).Nodup) ∧
      drmFormat config = "XR24:0x00000000000000ab".toList ∧
      parseDrmFormat (drmFormat config) (fourccName XR24) = some 0xAB := by
  intro values config
  have hspec := supportedModifiers_firstSeen (.inl rfl : XR24 = XR24 ∨ XR24 = AR24) values
  exact ⟨⟨by decide +kernel, hspec.2.1⟩, by decide +kernel, hspec.2.2 config⟩

end PadPlay.Encoder
