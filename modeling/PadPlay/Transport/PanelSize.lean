import PadPlay.Lib.Text
import PadPlay.Transport.Adb

/-!
# Reading the panel size (`transport::adb::display_size`)

`wm size` prints the size of the panel and, on a line of its own, a size that overrides it.
`displaySizeOf_iff` says which outputs are read as which panel: the first line of either kind
decides, wherever it stands; an override that is not a size is passed over as if it were not there.
-/

namespace PadPlay.Transport

open PadPlay.Lib

/-- `str::parse::<u32>`. -/
def parseU32 (t : Text) : Option UInt32 := (Text.fromStrRadix 32 10 t).map UInt32.ofNat

/-- `WIDTHxHEIGHT`, with white space where there may be some. -/
def parseSpec (spec : Text) : Option (UInt32 × UInt32) :=
  (Text.splitOnce 'x' (Text.trim spec)).bind fun (w, h) =>
    (parseU32 (Text.trim w)).bind fun w => (parseU32 (Text.trim h)).map fun h => (w, h)

/-- The closure `parse`. -/
def parseSize (start out : Text) : Option (UInt32 × UInt32) :=
  ((Text.lines out).find? fun line => start.isPrefixOf (Text.trim line)).bind fun line =>
    (line.splitOn ':')[1]?.bind parseSpec

/-- `display_size`, for what `adb shell` returns. -/
def displaySizeOf (answer : Except String Text) : Except String Panel :=
  match answer with
  | .error _ => .error "querying device display size"
  | .ok out =>
    match parseSize "Override size".toList out <|> parseSize "Physical size".toList out with
    | none => .error "could not parse `wm size` output"
    | some (w, h) =>
      match displaySize (some (w, h)) none with
      | none => .error ("device reported a zero display dimension: " ++ toString w ++ "x" ++
          toString h)
      | some panel => .ok panel

/-! ## Lines that hold a size -/

/-- Two decimal numbers with an `x` between them, and white space around either. -/
def IsSize (t : Text) (w h : UInt32) : Prop :=
  ∃ a b u v, t = a ++ 'x' :: b ∧ Text.Padded u a ∧ Text.Padded v b ∧
    Text.IsNumber 10 u w.toNat ∧ Text.IsNumber 10 v h.toNat

/-- A size between the first colon and the next one or the end of the line. -/
def IsSizeLine (line : Text) (w h : UInt32) : Prop :=
  ∃ label spec rest, line = label ++ ':' :: (spec ++ rest) ∧ ':' ∉ label ∧
    (rest = [] ∨ ∃ t, rest = ':' :: t) ∧ IsSize spec w h

theorem parseU32_iff {t : Text} {n : UInt32} :
    parseU32 t = some n ↔ Text.IsNumber 10 t n.toNat := by
  unfold parseU32
  rw [Option.map_eq_some_iff]
  constructor
  · rintro ⟨m, hm, rfl⟩
    obtain ⟨hnumber, hlt⟩ := (Text.fromStrRadix_iff (by decide) (by decide)).1 hm
    rwa [UInt32.toNat_ofNat_of_lt' hlt]
  · intro h
    exact ⟨n.toNat, (Text.fromStrRadix_iff (by decide) (by decide)).2 ⟨h, n.toNat_lt⟩,
      UInt32.ofNat_toNat⟩

theorem notMem_of_isNumber {t : Text} {n : Nat} (h : Text.IsNumber 10 t n) {c : Char}
    (hc : Text.toDigit 10 c = none) (hplus : c ≠ '+') : c ∉ t := by
  obtain ⟨word, digits, ht, -, hdigits, -⟩ := h
  have hword : c ∉ word := by
    clear ht
    induction hdigits with
    | nil => exact List.not_mem_nil
    | @cons d _ _ _ hd _ ih =>
      rw [List.mem_cons, not_or]
      refine ⟨?_, ih⟩
      rintro rfl
      cases hc.symm.trans hd
  rcases ht with rfl | rfl
  · exact hword
  · rw [List.mem_cons, not_or]
    exact ⟨hplus, hword⟩

theorem notMem_of_padded {u t : Text} (h : Text.Padded u t) {c : Char}
    (hc : Text.isWhitespace c = false) (hu : c ∉ u) : c ∉ t := by
  obtain ⟨before, after, hbefore, hafter, rfl⟩ := h
  simp only [List.mem_append, not_or]
  refine ⟨fun hmem => ?_, hu, fun hmem => ?_⟩
  · rw [hbefore c hmem] at hc
    cases hc
  · rw [hafter c hmem] at hc
    cases hc

theorem parseSpec_iff {spec : Text} {w h : UInt32} :
    parseSpec spec = some (w, h) ↔ IsSize spec w h := by
  unfold parseSpec
  constructor
  · intro hread
    obtain ⟨⟨a, b⟩, hsplit, hread⟩ := Option.bind_eq_some_iff.1 hread
    obtain ⟨w', hw, hread⟩ := Option.bind_eq_some_iff.1 hread
    obtain ⟨h', hh, heq⟩ := Option.map_eq_some_iff.1 hread
    cases heq
    obtain ⟨before, after, hbefore, hafter, hspec⟩ := Text.padded_trim spec
    rw [Text.eq_append_of_splitOnce hsplit] at hspec
    refine ⟨before ++ a, b ++ after, Text.trim a, Text.trim b, by simpa using hspec, ?_, ?_,
      parseU32_iff.1 hw, parseU32_iff.1 hh⟩
    · simpa using (Text.padded_trim a).append hbefore (List.forall_mem_nil _)
    · simpa using (Text.padded_trim b).append (List.forall_mem_nil _) hafter
  · rintro ⟨a, b, u, v, rfl, hu, hv, hw, hh⟩
    have huword := hw.isWord (by decide)
    have hvword := hh.isWord (by decide)
    have hx : 'x' ∉ u := notMem_of_isNumber hw (by decide) (by decide)
    obtain ⟨p, q, hp, hq, rfl⟩ := hu
    obtain ⟨p', q', hp', hq', rfl⟩ := hv
    have htrim : Text.trim (p ++ (u ++ q) ++ 'x' :: (p' ++ (v ++ q'))) =
        (u ++ q) ++ 'x' :: (p' ++ v) := by
      have hwords := Text.trim_words huword hvword (q ++ 'x' :: p') hp hq'
      simpa using hwords
    have hbefore : 'x' ∉ u ++ q := by
      rw [List.mem_append, not_or]
      exact ⟨hx, fun hmem => by cases hq _ hmem⟩
    have hleft : Text.trim (u ++ q) = u :=
      Text.trim_padded huword ⟨[], q, List.forall_mem_nil _, hq, rfl⟩
    have hright : Text.trim (p' ++ v) = v :=
      Text.trim_padded hvword ⟨p', [], hp', List.forall_mem_nil _, by simp⟩
    rw [htrim, Text.splitOnce_append hbefore]
    simp only [Option.bind_some, hleft, hright, parseU32_iff.2 hw, parseU32_iff.2 hh,
      Option.map_some]

theorem parseLine_iff {line : Text} {w h : UInt32} :
    (line.splitOn ':')[1]?.bind parseSpec = some (w, h) ↔ IsSizeLine line w h := by
  rw [Option.bind_eq_some_iff]
  constructor
  · rintro ⟨spec, hfield, hspec⟩
    obtain ⟨label, rest, hline, hlabel, -, hrest⟩ := Text.second_field.1 hfield
    exact ⟨label, spec, rest, hline, hlabel, hrest, parseSpec_iff.1 hspec⟩
  · rintro ⟨label, spec, rest, hline, hlabel, hrest, hsize⟩
    have hcolon : ':' ∉ spec := by
      obtain ⟨a, b, u, v, rfl, hu, hv, hw, hh⟩ := hsize
      have ha := notMem_of_padded hu rfl (notMem_of_isNumber hw (c := ':') rfl (by decide))
      have hb := notMem_of_padded hv rfl (notMem_of_isNumber hh (c := ':') rfl (by decide))
      simp [ha, hb]
    exact ⟨spec, Text.second_field.2 ⟨label, rest, hline, hlabel, hcolon, hrest⟩,
      parseSpec_iff.2 hsize⟩

/-- What `wm size` prints behind a label. -/
theorem isSizeLine_printed {label : Text} (hlabel : ':' ∉ label) (w h : UInt32) :
    IsSizeLine (label ++ ':' :: (' ' :: (Nat.toDigits 10 w.toNat ++
      'x' :: Nat.toDigits 10 h.toNat))) w h := by
  have hnumber : ∀ n : UInt32, Text.IsNumber 10 (Nat.toDigits 10 n.toNat) n.toNat := fun n =>
    ((Text.fromStrRadix_iff (by decide) (by decide)).1
      (Text.fromStrRadix_toDigits (by decide) (by decide) n.toNat_lt)).1
  have hblank : ∀ c ∈ [' '], Text.isWhitespace c = true := Text.forall_mem_of_all (by decide)
  refine ⟨label, _, [], by simp, hlabel, .inl rfl, ' ' :: Nat.toDigits 10 w.toNat,
    Nat.toDigits 10 h.toNat, _, _, rfl, ?_, Text.Padded.refl _, hnumber w, hnumber h⟩
  exact ⟨[' '], [], hblank, List.forall_mem_nil _, by simp⟩

/-! ## Outputs that are read -/

/-- The first line that begins with a word holds a size. -/
def Says (start out : Text) (w h : UInt32) : Prop :=
  ∃ before line after, Text.lines out = before ++ line :: after ∧
    start.isPrefixOf (Text.trim line) = true ∧
    (∀ l ∈ before, start.isPrefixOf (Text.trim l) = false) ∧ IsSizeLine line w h

theorem parseSize_iff {start out : Text} {w h : UInt32} :
    parseSize start out = some (w, h) ↔ Says start out w h := by
  unfold parseSize Says
  rw [Option.bind_eq_some_iff]
  simp only [parseLine_iff, List.find?_eq_some_iff_append]
  constructor
  · rintro ⟨line, ⟨hline, before, after, hlines, hbefore⟩, hsize⟩
    exact ⟨before, line, after, hlines, hline, fun l hl => by simpa using hbefore l hl, hsize⟩
  · rintro ⟨before, line, after, hlines, hline, hbefore, hsize⟩
    exact ⟨line, ⟨hline, before, after, hlines, fun l hl => by simp [hbefore l hl]⟩, hsize⟩

theorem parseSize_none {start out : Text} :
    parseSize start out = none ↔ ¬ ∃ w h, Says start out w h := by
  simp only [← parseSize_iff]
  cases parseSize start out with
  | none => simp
  | some size => simp [Prod.ext_iff]

/-- The two lengths are the sides of the panel, which is in landscape. -/
def Sides (panel : Panel) (w h : UInt32) : Prop :=
  panel.width = w ∧ panel.height = h ∨ panel.width = h ∧ panel.height = w

theorem displaySize_iff {w h : UInt32} {panel : Panel} :
    displaySize (some (w, h)) none = some panel ↔ w ≠ 0 ∧ h ≠ 0 ∧ Sides panel w h := by
  obtain ⟨width, height, hlandscape, hnonzero⟩ := panel
  simp only [displaySize, Option.orElse_eq_orElse, Option.orElse_some, Sides]
  split
  · next hzero =>
    constructor
    · intro h
      cases h
    · rintro ⟨hw, hh, -⟩
      exact absurd hzero (not_or.2 ⟨hw, hh⟩)
  · next hzero =>
    rw [not_or] at hzero
    split
    · next hle =>
      constructor
      · intro h
        cases h
        exact ⟨hzero.1, hzero.2, .inl ⟨rfl, rfl⟩⟩
      · rintro ⟨-, -, ⟨rfl, rfl⟩ | ⟨rfl, rfl⟩⟩
        · rfl
        · cases UInt32.le_antisymm hle hlandscape
          rfl
    · next hle =>
      constructor
      · intro h
        cases h
        exact ⟨hzero.1, hzero.2, .inr ⟨rfl, rfl⟩⟩
      · rintro ⟨-, -, ⟨rfl, rfl⟩ | ⟨rfl, rfl⟩⟩
        · exact absurd hlandscape hle
        · rfl

/-- **The panel** that is read of an output: the size that the override line holds, or else the
physical one, turned to landscape. -/
theorem displaySizeOf_iff (answer : Except String Text) (panel : Panel) :
    displaySizeOf answer = .ok panel ↔ ∃ out w h, answer = .ok out ∧
      (Says "Override size".toList out w h ∨
        (¬ ∃ w h, Says "Override size".toList out w h) ∧ Says "Physical size".toList out w h) ∧
      w ≠ 0 ∧ h ≠ 0 ∧ Sides panel w h := by
  cases answer with
  | error e => simp [displaySizeOf]
  | ok out =>
    have hsize : ∀ w h, (parseSize "Override size".toList out <|>
        parseSize "Physical size".toList out) = some (w, h) ↔
        Says "Override size".toList out w h ∨
        (¬ ∃ w h, Says "Override size".toList out w h) ∧ Says "Physical size".toList out w h := by
      intro w h
      rw [← parseSize_none, ← parseSize_iff, ← parseSize_iff]
      cases parseSize "Override size".toList out with
      | none => simp
      | some size => simp
    have hread : displaySizeOf (.ok out) = .ok panel ↔ ∃ w h,
        (parseSize "Override size".toList out <|>
          parseSize "Physical size".toList out) = some (w, h) ∧
        displaySize (some (w, h)) none = some panel := by
      simp only [displaySizeOf]
      generalize (parseSize "Override size".toList out <|>
        parseSize "Physical size".toList out) = parsed
      cases parsed with
      | none => simp
      | some size =>
        obtain ⟨w, h⟩ := size
        cases hpanel : displaySize (some (w, h)) none with
        | none => simp [hpanel]
        | some panel' => simp [hpanel]
    rw [hread]
    constructor
    · rintro ⟨w, h, hparse, hpanel⟩
      exact ⟨out, w, h, rfl, (hsize w h).1 hparse, displaySize_iff.1 hpanel⟩
    · rintro ⟨out', w, h, heq, hsays, hpanel⟩
      cases heq
      exact ⟨w, h, (hsize w h).2 hsays, displaySize_iff.2 hpanel⟩

end PadPlay.Transport
