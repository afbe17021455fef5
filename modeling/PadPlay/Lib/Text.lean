import Mathlib.Algebra.Group.Nat.Defs
import Mathlib.Data.List.DropRight
import Mathlib.Data.Nat.Digits.Defs

/-!
# Text

Strings as lists of characters, with the string functions of a Unicode-aware standard library:
trimming and splitting at white space, lines, splitting at a separator, numbers in a radix, and the
lossy decoding of UTF-8. The rules say what each does to text that was put together from parts:
white space around words is trimmed off (`trim_words`), lines that were joined are split again
(`lines_joined`), words around one blank are found (`splitWhitespace_pair`), numbers are read by
their digits (`fromStrRadix_iff`) and read back when they were printed (`fromStrRadix_toDigits`),
and UTF-8 that was encoded is decoded (`fromUtf8Lossy_utf8Bytes`).
-/

namespace PadPlay.Lib

abbrev Text := List Char

namespace Text

/-- What holds of the characters of a text one by one. -/
theorem forall_mem_of_all {p : Char → Prop} [DecidablePred p] {t : Text}
    (h : (t.all fun c => decide (p c)) = true) : ∀ c ∈ t, p c := fun c hc =>
  of_decide_eq_true (List.all_eq_true.1 h c hc)

def isWhitespace (c : Char) : Bool :=
  let n := c.toNat
  (0x09 ≤ n && n ≤ 0x0D) || n == 0x20 || n == 0x85 || n == 0xA0 || n == 0x1680 ||
    (0x2000 ≤ n && n ≤ 0x200A) || n == 0x2028 || n == 0x2029 || n == 0x202F || n == 0x205F ||
    n == 0x3000

def trim (t : Text) : Text :=
  (((t.dropWhile isWhitespace).reverse).dropWhile isWhitespace).reverse

def splitWhitespace (t : Text) : List Text := (t.splitOnP isWhitespace).filter (· ≠ [])

def splitOnce (separator : Char) : Text → Option (Text × Text)
  | [] => none
  | c :: t =>
    if c = separator then some ([], t)
    else (splitOnce separator t).map fun (before, after) => (c :: before, after)

def stripPrefix (start t : Text) : Option Text :=
  if start.isPrefixOf t then some (t.drop start.length) else none

def contains (needle t : Text) : Bool := t.tails.any needle.isPrefixOf

def trimEndMatches (c : Char) (t : Text) : Text := t.rdropWhile (· = c)

theorem splitOnce_append {separator : Char} {before : Text} (h : separator ∉ before)
    (after : Text) : splitOnce separator (before ++ separator :: after) = some (before, after) := by
  induction before with
  | nil => rw [List.nil_append, splitOnce, if_pos rfl]
  | cons c before ih =>
    rw [List.mem_cons, not_or] at h
    rw [List.cons_append, splitOnce, if_neg (Ne.symm h.1), ih h.2]
    rfl

/-- The second piece of a split, up to the next separator or the end. -/
theorem second_field {separator : Char} {t field : Text} :
    (t.splitOn separator)[1]? = some field ↔
      ∃ before rest, t = before ++ separator :: (field ++ rest) ∧ separator ∉ before ∧
        separator ∉ field ∧ (rest = [] ∨ ∃ after, rest = separator :: after) := by
  have hsecond : ∀ before tail, separator ∉ before →
      ((before ++ separator :: tail).splitOn separator)[1]? = (tail.splitOn separator).head? := by
    intro before tail hbefore
    rw [List.splitOn_append_cons_self, List.splitOn_eq_singleton hbefore, List.singleton_append,
      List.getElem?_cons_succ, List.head?_eq_getElem?]
  constructor
  · intro h
    by_cases hmem : separator ∈ t
    · obtain ⟨before, tail, rfl, hbefore⟩ := List.eq_append_cons_of_mem hmem
      rw [hsecond before tail hbefore] at h
      by_cases hmore : separator ∈ tail
      · obtain ⟨middle, after, rfl, hmiddle⟩ := List.eq_append_cons_of_mem hmore
        rw [List.splitOn_append_cons_self, List.splitOn_eq_singleton hmiddle] at h
        cases h
        exact ⟨before, separator :: after, rfl, hbefore, hmiddle, .inr ⟨after, rfl⟩⟩
      · rw [List.splitOn_eq_singleton hmore] at h
        cases h
        exact ⟨before, [], by rw [List.append_nil], hbefore, hmore, .inl rfl⟩
    · rw [List.splitOn_eq_singleton hmem] at h
      cases h
  · rintro ⟨before, rest, rfl, hbefore, hfield, hrest⟩
    rw [hsecond before _ hbefore]
    rcases hrest with rfl | ⟨after, rfl⟩
    · rw [List.append_nil, List.splitOn_eq_singleton hfield]
      rfl
    · rw [List.splitOn_append_cons_self, List.splitOn_eq_singleton hfield]
      rfl

theorem splitOnce_eq_none {separator : Char} {t : Text} (h : separator ∉ t) :
    splitOnce separator t = none := by
  induction t with
  | nil => rfl
  | cons c t ih =>
    rw [List.mem_cons, not_or] at h
    rw [splitOnce, if_neg (Ne.symm h.1), ih h.2]
    rfl

theorem eq_append_of_splitOnce {separator : Char} {t before after : Text}
    (h : splitOnce separator t = some (before, after)) : t = before ++ separator :: after := by
  induction t generalizing before with
  | nil => cases h
  | cons c t ih =>
    rw [splitOnce] at h
    split at h
    · next hc =>
      cases h
      rw [hc, List.nil_append]
    · obtain ⟨⟨rest, after'⟩, hrest, heq⟩ := Option.map_eq_some_iff.1 h
      cases heq
      rw [ih hrest, List.cons_append]

theorem stripPrefix_iff {start t rest : Text} :
    stripPrefix start t = some rest ↔ t = start ++ rest := by
  simp only [stripPrefix, List.isPrefixOf_iff_prefix, Option.ite_none_right_eq_some,
    Option.some.injEq]
  constructor
  · rintro ⟨⟨rest', rfl⟩, hdrop⟩
    rw [List.drop_left] at hdrop
    rw [hdrop]
  · rintro rfl
    exact ⟨List.prefix_append .., List.drop_left⟩

/-- What is trimmed ends at a character that is not. -/
theorem trimEndMatches_append {c stop : Char} (h : stop ≠ c) (before after : Text) :
    trimEndMatches c (before ++ stop :: after) = before ++ stop :: trimEndMatches c after := by
  induction after using List.reverseRecOn with
  | nil =>
    rw [trimEndMatches, List.rdropWhile_concat_neg _ _ _ (by simpa using h)]
    rfl
  | append_singleton after last ih =>
    rw [trimEndMatches, trimEndMatches, ← List.cons_append, ← List.append_assoc]
    by_cases hlast : last = c
    · rw [List.rdropWhile_concat_pos _ _ _ (by simpa using hlast),
        List.rdropWhile_concat_pos _ _ _ (by simpa using hlast)]
      exact ih
    · rw [List.rdropWhile_concat_neg _ _ _ (by simpa using hlast),
        List.rdropWhile_concat_neg _ _ _ (by simpa using hlast), ← List.cons_append,
        ← List.append_assoc]

theorem trimEndMatches_concat {c last : Char} (h : last ≠ c) (t : Text) :
    trimEndMatches c (t ++ [last]) = t ++ [last] := by
  rw [trimEndMatches_append h]
  rfl

/-- Only copies of the character are trimmed. -/
theorem exists_trimEndMatches (c : Char) (t : Text) :
    ∃ n, t = trimEndMatches c t ++ List.replicate n c := by
  induction t using List.reverseRecOn with
  | nil => exact ⟨0, rfl⟩
  | append_singleton t last ih =>
    by_cases hlast : last = c
    · subst hlast
      obtain ⟨n, hn⟩ := ih
      have htrim : trimEndMatches last (t ++ [last]) = trimEndMatches last t :=
        List.rdropWhile_concat_pos _ _ _ (by simp)
      refine ⟨n + 1, ?_⟩
      rw [htrim, List.replicate_succ', ← List.append_assoc, ← hn]
    · exact ⟨0, by rw [trimEndMatches_concat hlast]; simp⟩

/-- Pieces that all end with the separator. -/
theorem flatMap_terminated {α : Type} (piece : α → Text) (separator : Text) {l : List α}
    (hne : l ≠ []) : l.flatMap (fun a => piece a ++ separator) =
      separator.intercalate (l.map piece) ++ separator := by
  induction l with
  | nil => exact absurd rfl hne
  | cons a l ih =>
    cases l with
    | nil => simp
    | cons b l =>
      rw [List.flatMap_cons, ih (List.cons_ne_nil b l)]
      simp only [List.map_cons, List.intercalate_cons_cons, List.append_assoc]

/-! ## White space -/

/-- White space before and behind it, or none. -/
def Padded (u t : Text) : Prop :=
  ∃ before after, (∀ c ∈ before, isWhitespace c = true) ∧ (∀ c ∈ after, isWhitespace c = true) ∧
    t = before ++ (u ++ after)

/-- A text with no white space in it. -/
structure IsWord (u : Text) : Prop where
  ne : u ≠ []
  word : ∀ c ∈ u, isWhitespace c = false

theorem Padded.refl (u : Text) : Padded u u :=
  ⟨[], [], List.forall_mem_nil _, List.forall_mem_nil _, (List.append_nil u).symm⟩

theorem padded_trim (t : Text) : Padded (trim t) t := by
  have hback : trim t ++ (t.dropWhile isWhitespace).rtakeWhile isWhitespace =
      t.dropWhile isWhitespace := List.rdropWhile_append_rtakeWhile ..
  refine ⟨t.takeWhile isWhitespace, (t.dropWhile isWhitespace).rtakeWhile isWhitespace,
    fun c hc => List.mem_takeWhile_imp hc, fun c hc => List.mem_rtakeWhile_imp hc, ?_⟩
  rw [hback, List.takeWhile_append_dropWhile]

theorem Padded.append {u t : Text} (h : Padded u t) {before after : Text}
    (hbefore : ∀ c ∈ before, isWhitespace c = true) (hafter : ∀ c ∈ after, isWhitespace c = true) :
    Padded u (before ++ (t ++ after)) := by
  obtain ⟨before', after', hbefore', hafter', rfl⟩ := h
  refine ⟨before ++ before', after' ++ after, ?_, ?_, by simp only [List.append_assoc]⟩
  · exact List.forall_mem_append.2 ⟨hbefore, hbefore'⟩
  · exact List.forall_mem_append.2 ⟨hafter', hafter⟩

theorem IsWord.reverse {u : Text} (h : IsWord u) : IsWord u.reverse where
  ne := by simpa using h.ne
  word c hc := h.word c (List.mem_reverse.1 hc)

theorem IsWord.notMem {u : Text} (h : IsWord u) {c : Char} (hc : isWhitespace c = true) :
    c ∉ u := by
  intro hmem
  rw [h.word c hmem] at hc
  cases hc

theorem dropWhile_blank {u before : Text} (hu : IsWord u)
    (hbefore : ∀ c ∈ before, isWhitespace c = true) (rest : Text) :
    (before ++ (u ++ rest)).dropWhile isWhitespace = u ++ rest := by
  rw [List.dropWhile_append_of_pos hbefore]
  obtain ⟨c, u', rfl⟩ := List.exists_cons_of_ne_nil hu.ne
  refine List.dropWhile_cons_of_neg ?_
  rw [hu.word c (List.mem_cons_self ..)]
  exact Bool.false_ne_true

theorem rdropWhile_blank {u after : Text} (hu : IsWord u)
    (hafter : ∀ c ∈ after, isWhitespace c = true) (rest : Text) :
    (rest ++ (u ++ after)).rdropWhile isWhitespace = rest ++ u := by
  have hreversed : ∀ c ∈ after.reverse, isWhitespace c = true := fun c hc =>
    hafter c (List.mem_reverse.1 hc)
  rw [List.rdropWhile, List.reverse_append, List.reverse_append, List.append_assoc,
    dropWhile_blank hu.reverse hreversed, List.reverse_append, List.reverse_reverse,
    List.reverse_reverse]

/-- **White space around words** is trimmed off, whatever stands between the first and the last. -/
theorem trim_words {u v before after : Text} (hu : IsWord u) (hv : IsWord v) (between : Text)
    (hbefore : ∀ c ∈ before, isWhitespace c = true) (hafter : ∀ c ∈ after, isWhitespace c = true) :
    trim (before ++ (u ++ (between ++ (v ++ after)))) = u ++ (between ++ v) := by
  show ((before ++ _).dropWhile isWhitespace).rdropWhile isWhitespace = _
  rw [dropWhile_blank hu hbefore, ← List.append_assoc, ← List.append_assoc, List.append_assoc _ v,
    rdropWhile_blank hv hafter, List.append_assoc]

theorem trim_padded {u t : Text} (hu : IsWord u) (h : Padded u t) : trim t = u := by
  obtain ⟨before, after, hbefore, hafter, rfl⟩ := h
  show ((before ++ _).dropWhile isWhitespace).rdropWhile isWhitespace = _
  rw [dropWhile_blank hu hbefore]
  exact rdropWhile_blank hu hafter []

/-! ## Lines -/

/-- The pieces of a text, each up to and including its separator. -/
def splitInclusive (separator : Char) : Text → List Text
  | [] => []
  | c :: t =>
    if c = separator then [c] :: splitInclusive separator t
    else
      match splitInclusive separator t with
      | [] => [[c]]
      | piece :: pieces => (c :: piece) :: pieces

/-- A line without its ending, a line feed or a carriage return and a line feed. -/
def stripLineEnding (line : Text) : Text :=
  match line.reverse with
  | '\n' :: '\r' :: rest => rest.reverse
  | '\n' :: rest => rest.reverse
  | _ => line

def lines (t : Text) : List Text := (splitInclusive '\n' t).map stripLineEnding

theorem splitInclusive_append {separator : Char} {piece : Text} (h : separator ∉ piece) (t : Text) :
    splitInclusive separator (piece ++ separator :: t) =
      (piece ++ [separator]) :: splitInclusive separator t := by
  induction piece with
  | nil => simp [splitInclusive]
  | cons c piece ih =>
    rw [List.mem_cons, not_or] at h
    rw [List.cons_append, splitInclusive, if_neg (Ne.symm h.1), ih h.2]
    rfl

/-- A carriage return before the line feed is dropped with it. -/
theorem stripLineEnding_newline (line : Text) :
    stripLineEnding (line ++ ['\n']) = line ∨
      line = stripLineEnding (line ++ ['\n']) ++ ['\r'] := by
  rw [stripLineEnding, List.reverse_append]
  cases hrev : line.reverse with
  | nil => exact .inl (List.reverse_eq_nil_iff.1 hrev).symm
  | cons c rest =>
    have hline : line = rest.reverse ++ [c] := by
      rw [← List.reverse_cons, ← hrev, List.reverse_reverse]
    rw [List.reverse_singleton, List.singleton_append]
    split
    · next heq =>
      simp only [List.cons.injEq, true_and] at heq
      obtain ⟨rfl, rfl⟩ := heq
      exact .inr hline
    · next heq =>
      rw [← (List.cons.inj heq).2, List.reverse_cons]
      exact .inl hline.symm
    · next hno => exact absurd rfl (hno (c :: rest))

theorem stripLineEnding_append {line : Text} (h : '\r' ∉ line) :
    stripLineEnding (line ++ ['\n']) = line := by
  refine (stripLineEnding_newline line).resolve_right fun hline => h ?_
  rw [hline]
  exact List.mem_append_right _ (List.mem_singleton_self _)

/-- Lines that were joined, each without a carriage return at its end. -/
theorem lines_flatMap {ls : List Text} (hfeed : ∀ l ∈ ls, '\n' ∉ l) :
    lines (ls.flatMap fun l => l ++ ['\n']) = ls.map fun l => stripLineEnding (l ++ ['\n']) := by
  induction ls with
  | nil => rfl
  | cons l ls ih =>
    have hl := hfeed l (List.mem_cons_self ..)
    have ih := ih fun m hm => hfeed m (List.mem_cons_of_mem _ hm)
    rw [lines] at ih ⊢
    rw [List.flatMap_cons, List.append_assoc, List.singleton_append, splitInclusive_append hl,
      List.map_cons, ih, List.map_cons]

/-- **Lines that were joined** are found again, if none holds a line feed or a carriage return. -/
theorem lines_joined {ls : List Text} (hfeed : ∀ l ∈ ls, '\n' ∉ l)
    (hreturn : ∀ l ∈ ls, '\r' ∉ l) : lines (ls.flatMap fun l => l ++ ['\n']) = ls := by
  rw [lines_flatMap hfeed, List.map_congr_left fun l hl => stripLineEnding_append (hreturn l hl)]
  exact List.map_id' ls

/-! ## Words -/

/-- The first word of a line, if it has one. -/
def firstWord (line : Text) : Option Text := (splitWhitespace line).head?

theorem splitWhitespace_append (u v : Text) {blank : Char} (hblank : isWhitespace blank = true) :
    splitWhitespace (u ++ blank :: v) = splitWhitespace u ++ splitWhitespace v := by
  rw [splitWhitespace, List.splitOnP_append_cons u v hblank, List.filter_append]
  rfl

theorem splitWhitespace_word {u : Text} (hu : IsWord u) : splitWhitespace u = [u] := by
  rw [splitWhitespace, List.splitOnP_eq_singleton hu.word]
  simp [hu.ne]

/-- **Two words around a blank.** -/
theorem splitWhitespace_pair {u v : Text} {blank : Char} (hu : IsWord u) (hv : IsWord v)
    (hblank : isWhitespace blank = true) : splitWhitespace (u ++ blank :: v) = [u, v] := by
  rw [splitWhitespace_append u v hblank, splitWhitespace_word hu, splitWhitespace_word hv]
  rfl

/-- White space is no part of a word, so neither is a stripped carriage return. -/
theorem firstWord_stripLineEnding (line : Text) :
    firstWord (stripLineEnding (line ++ ['\n'])) = firstWord line := by
  obtain heq | heq := stripLineEnding_newline line
  · rw [heq]
  · have hblank : splitWhitespace (stripLineEnding (line ++ ['\n']) ++ ['\r']) =
        splitWhitespace (stripLineEnding (line ++ ['\n'])) := by
      rw [splitWhitespace_append _ [] (by decide)]
      exact List.append_nil _
    rw [firstWord, firstWord, ← hblank, ← heq]

theorem firstWord_append {u rest : Text} (hu : IsWord u)
    (hrest : ∀ c ∈ rest.head?, isWhitespace c = true) : firstWord (u ++ rest) = some u := by
  cases rest with
  | nil => rw [List.append_nil, firstWord, splitWhitespace_word hu]; rfl
  | cons blank rest =>
    rw [firstWord, splitWhitespace_append u rest (hrest blank rfl), splitWhitespace_word hu]
    rfl

theorem firstWord_ne_nil {line word : Text} (h : firstWord line = some word) : word ≠ [] := by
  have hmem := List.mem_of_head? h
  rw [splitWhitespace, List.mem_filter] at hmem
  exact of_decide_eq_true hmem.2

/-! ## Numbers -/

def toDigit (radix : Nat) (c : Char) : Option Nat :=
  let n := c.toNat
  let d :=
    if 0x30 ≤ n ∧ n ≤ 0x39 then n - 0x30
    else if 0x61 ≤ n ∧ n ≤ 0x7A then n - 0x61 + 10
    else if 0x41 ≤ n ∧ n ≤ 0x5A then n - 0x41 + 10
    else 36
  if d < radix then some d else none

/-- Digits, most significant first, onto the number read so far; `none` on another character and on
overflow. -/
def readDigits (bits radix : Nat) : Nat → Text → Option Nat
  | n, [] => some n
  | n, c :: t =>
    match toDigit radix c with
    | none => none
    | some d => if n * radix + d < 2 ^ bits then readDigits bits radix (n * radix + d) t else none

/-- `from_str_radix` of an unsigned type: an optional plus sign and at least one digit. -/
def fromStrRadix (bits radix : Nat) : Text → Option Nat
  | [] => none
  | ['+'] => none
  | '+' :: t => readDigits bits radix 0 t
  | t => readDigits bits radix 0 t

theorem readDigits_append {bits radix : Nat} (s t : Text) (n : Nat) :
    readDigits bits radix n (s ++ t) =
      (readDigits bits radix n s).bind fun m => readDigits bits radix m t := by
  induction s generalizing n with
  | nil => rfl
  | cons c s ih =>
    simp only [List.cons_append, readDigits]
    cases toDigit radix c with
    | none => rfl
    | some d =>
      simp only
      split
      · exact ih _
      · rfl

theorem toDigit_digitChar {radix d : Nat} (hradix : radix ≤ 16) (h : d < radix) :
    toDigit radix (Nat.digitChar d) = some d := by
  have hall : ∀ radix < 17, ∀ d < radix, toDigit radix (Nat.digitChar d) = some d := by
    decide +kernel
  exact hall radix (by omega) d h

/-- **Digits that were printed** are read back, if the number fits. -/
theorem readDigits_toDigits {bits radix n : Nat} (hone : 1 < radix) (hradix : radix ≤ 16)
    (h : n < 2 ^ bits) : readDigits bits radix 0 (Nat.toDigits radix n) = some n := by
  induction n using Nat.strongRecOn with
  | ind n ih =>
    rw [Nat.toDigits_eq_if hone]
    split
    · next hlt =>
      simp only [readDigits, toDigit_digitChar hradix hlt, Nat.zero_mul, Nat.zero_add, if_pos h]
    · next hge =>
      have hpos : 0 < radix := Nat.lt_of_succ_lt hone
      have hlt : n / radix < n := Nat.div_lt_self (by omega) hone
      have hsum : n / radix * radix + n % radix = n := by
        rw [Nat.mul_comm]
        exact Nat.div_add_mod n radix
      rw [readDigits_append, ih _ hlt (by omega), Option.bind_some]
      simp only [readDigits, toDigit_digitChar hradix (Nat.mod_lt n hpos), hsum, if_pos h]

theorem plus_notMem_toDigits {radix n : Nat} (hone : 1 < radix) (hradix : radix ≤ 16) :
    '+' ∉ Nat.toDigits radix n := by
  have hdigit : ∀ d < 16, '+' ≠ Nat.digitChar d := by decide
  induction n using Nat.strongRecOn with
  | ind n ih =>
    have hpos : 0 < radix := Nat.lt_of_succ_lt hone
    have hmod := Nat.mod_lt n hpos
    rw [Nat.toDigits_eq_if hone]
    split
    · next hlt => exact fun hmem => hdigit n (by omega) (List.mem_singleton.1 hmem)
    · next hge =>
      intro hmem
      rcases List.mem_append.1 hmem with hmem | hmem
      · exact ih _ (Nat.div_lt_self (by omega) hone) hmem
      · exact hdigit _ (by omega) (List.mem_singleton.1 hmem)

theorem fromStrRadix_toDigits {bits radix n : Nat} (hone : 1 < radix) (hradix : radix ≤ 16)
    (h : n < 2 ^ bits) : fromStrRadix bits radix (Nat.toDigits radix n) = some n := by
  have hplus := @plus_notMem_toDigits radix n hone hradix
  have hread := readDigits_toDigits hone hradix h
  have hne : Nat.toDigits radix n ≠ [] := Nat.toDigits_ne_nil
  generalize Nat.toDigits radix n = digits at hplus hread hne ⊢
  unfold fromStrRadix
  split
  · exact absurd rfl hne
  · exact absurd (List.mem_cons_self ..) hplus
  · exact absurd (List.mem_cons_self ..) hplus
  · exact hread

/-! ### What is read as a number -/

/-- The digits of a number, the most significant first. -/
def Digits (radix : Nat) : Text → List Nat → Prop :=
  List.Forall₂ fun c d => toDigit radix c = some d

/-- A number in a radix: digits, perhaps behind a plus sign. -/
def IsNumber (radix : Nat) (t : Text) (n : Nat) : Prop :=
  ∃ word digits, (t = word ∨ t = '+' :: word) ∧ word ≠ [] ∧ Digits radix word digits ∧
    n = Nat.ofDigits radix digits.reverse

theorem ofDigits_reverse_cons (radix d : Nat) (digits : List Nat) :
    Nat.ofDigits radix (d :: digits).reverse =
      d * radix ^ digits.length + Nat.ofDigits radix digits.reverse := by
  rw [List.reverse_cons, Nat.ofDigits_append, Nat.ofDigits_singleton, List.length_reverse,
    Nat.mul_comm d, Nat.add_comm]

/-- What the digits add to the number read so far. Where the whole fits, so does every part. -/
theorem readDigits_iff {bits radix acc n : Nat} {t : Text} (hradix : 0 < radix)
    (hacc : acc < 2 ^ bits) : readDigits bits radix acc t = some n ↔
      n < 2 ^ bits ∧ ∃ digits, Digits radix t digits ∧
        n = acc * radix ^ digits.length + Nat.ofDigits radix digits.reverse := by
  induction t generalizing acc with
  | nil =>
    rw [readDigits, Option.some.injEq]
    constructor
    · rintro rfl
      exact ⟨hacc, [], .nil, by simp⟩
    · rintro ⟨-, digits, hdigits, rfl⟩
      cases hdigits
      simp
  | cons c t ih =>
    have hshift (d : Nat) (digits : List Nat) : (acc * radix + d) * radix ^ digits.length +
        Nat.ofDigits radix digits.reverse =
          acc * radix ^ (d :: digits).length + Nat.ofDigits radix (d :: digits).reverse := by
      rw [ofDigits_reverse_cons, List.length_cons, Nat.pow_succ', Nat.add_mul, Nat.mul_assoc,
        Nat.add_assoc]
    rw [readDigits]
    constructor
    · intro h
      split at h
      · cases h
      · next d hc =>
        split at h
        · next hfits =>
          obtain ⟨hn, digits, hdigits, rfl⟩ := (ih hfits).1 h
          exact ⟨hn, d :: digits, .cons hc hdigits, hshift d digits⟩
        · cases h
    · rintro ⟨hn, digits, hdigits, hvalue⟩
      cases hdigits with
      | @cons _ d _ digits hc hdigits =>
        rw [← hshift] at hvalue
        have hpos : 0 < radix ^ digits.length := Nat.pow_pos hradix
        have hle := Nat.le_mul_of_pos_right (acc * radix + d) hpos
        have hfits : acc * radix + d < 2 ^ bits := by omega
        simp only [hc, if_pos hfits]
        exact (ih hfits).2 ⟨hn, digits, hdigits, hvalue⟩

/-- A digit is a digit or a letter. -/
theorem toDigit_range {radix d : Nat} {c : Char} (hradix : radix ≤ 36)
    (h : toDigit radix c = some d) :
    0x30 ≤ c.toNat ∧ c.toNat ≤ 0x39 ∨ 0x41 ≤ c.toNat ∧ c.toNat ≤ 0x5A ∨
      0x61 ≤ c.toNat ∧ c.toNat ≤ 0x7A := by
  simp only [toDigit, Option.ite_none_right_eq_some] at h
  have hlt := h.1
  split at hlt
  · omega
  · split at hlt
    · omega
    · split at hlt <;> omega

theorem fromStrRadix_iff {bits radix n : Nat} {t : Text} (hpos : 0 < radix) (hradix : radix ≤ 36) :
    fromStrRadix bits radix t = some n ↔ IsNumber radix t n ∧ n < 2 ^ bits := by
  have hread {word : Text} : readDigits bits radix 0 word = some n ↔ n < 2 ^ bits ∧
      ∃ digits, Digits radix word digits ∧ n = Nat.ofDigits radix digits.reverse := by
    simpa using readDigits_iff (t := word) hpos (Nat.two_pow_pos bits)
  have hplus : toDigit radix '+' = none := by
    cases hdigit : toDigit radix '+' with
    | none => rfl
    | some d => exact absurd (toDigit_range hradix hdigit) (by decide)
  constructor
  · intro h
    unfold fromStrRadix at h
    split at h
    · cases h
    · cases h
    · next word hne =>
      obtain ⟨hn, digits, hdigits, hvalue⟩ := hread.1 h
      exact ⟨⟨word, digits, .inr rfl, by simpa using hne, hdigits, hvalue⟩, hn⟩
    · next hne _ _ =>
      obtain ⟨hn, digits, hdigits, hvalue⟩ := hread.1 h
      exact ⟨⟨t, digits, .inl rfl, hne, hdigits, hvalue⟩, hn⟩
  · rintro ⟨⟨word, digits, ht, hne, hdigits, hvalue⟩, hn⟩
    have hword := hread.2 ⟨hn, digits, hdigits, hvalue⟩
    obtain ⟨c, rest, rfl⟩ := List.exists_cons_of_ne_nil hne
    obtain rfl | rfl := ht
    · have hc : c ≠ '+' := by
        rintro rfl
        cases hdigits with
        | cons hdigit _ => cases hplus.symm.trans hdigit
      unfold fromStrRadix
      split
      · next heq => cases heq
      · next heq => exact absurd (List.cons.inj heq).1 hc
      · next heq => exact absurd (List.cons.inj heq).1 hc
      · exact hword
    · exact hword

theorem IsNumber.isWord {radix n : Nat} {t : Text} (hradix : radix ≤ 36) (h : IsNumber radix t n) :
    IsWord t := by
  obtain ⟨word, digits, ht, hne, hdigits, -⟩ := h
  have hword : ∀ c ∈ word, isWhitespace c = false := by
    clear ht hne
    induction hdigits with
    | nil => exact fun _ hc => absurd hc List.not_mem_nil
    | @cons c d word digits hdigit _ ih =>
      refine List.forall_mem_cons.2 ⟨?_, ih⟩
      have hrange := toDigit_range hradix hdigit
      simp only [isWhitespace, Bool.or_eq_false_iff, Bool.and_eq_false_iff, decide_eq_false_iff_not,
        beq_eq_false_iff_ne]
      omega
  obtain rfl | rfl := ht
  · exact ⟨hne, hword⟩
  · exact ⟨List.cons_ne_nil _ _, List.forall_mem_cons.2 ⟨rfl, hword⟩⟩

/-- `format!("{:0width$x}", n)`. -/
def lowerHex (width n : Nat) : Text := (Nat.toDigits 16 n).leftpad width '0'

theorem readDigits_zeros {bits radix : Nat} (hradix : 0 < radix) (k : Nat) :
    readDigits bits radix 0 (List.replicate k '0') = some 0 := by
  induction k with
  | zero => rfl
  | succ k ih =>
    have hzero : toDigit radix '0' = some 0 := if_pos hradix
    rw [List.replicate_succ, readDigits, hzero]
    simp only [Nat.zero_mul, Nat.add_zero, if_pos (Nat.two_pow_pos bits)]
    exact ih

/-- **Hexadecimal digits with leading zeros** are read back. -/
theorem isNumber_lowerHex (width n : Nat) : IsNumber 16 (lowerHex width n) n := by
  have hread : readDigits (n + 1) 16 0 (lowerHex width n) = some n := by
    have hlt : n < 2 ^ (n + 1) := Nat.lt_trans n.lt_succ_self Nat.lt_two_pow_self
    rw [lowerHex, List.leftpad, readDigits_append, readDigits_zeros (by decide), Option.bind_some,
      readDigits_toDigits (by decide) (by decide) hlt]
  obtain ⟨-, digits, hdigits, hvalue⟩ :=
    (readDigits_iff (by decide) (Nat.two_pow_pos (n + 1))).1 hread
  refine ⟨_, digits, .inl rfl, ?_, hdigits, by simpa using hvalue⟩
  rw [lowerHex, List.leftpad, Ne, List.append_eq_nil_iff]
  exact fun h => Nat.toDigits_ne_nil h.2

/-! ### Decimal numbers -/

/-- A decimal number without a sign, of any size. -/
def readNat (t : Text) : Option Nat :=
  if t ≠ [] ∧ t.all Char.isDigit = true then some (Nat.ofDigitChars 10 t 0) else none

theorem isDigit_toDigits {n : Nat} : ∀ c ∈ Nat.toDigits 10 n, c.isDigit = true := fun _ hc =>
  Nat.isDigit_of_mem_toDigits (by decide) (by decide) hc

theorem readNat_toDigits (n : Nat) : readNat (Nat.toDigits 10 n) = some n := by
  have hall : (Nat.toDigits 10 n).all Char.isDigit = true := List.all_eq_true.2 isDigit_toDigits
  rw [readNat, if_pos ⟨Nat.toDigits_ne_nil, hall⟩, Nat.ofDigitChars_ten_toDigits]

def signed (negative : Bool) (t : Text) : Text := if negative then '-' :: t else t

theorem signed_append (negative : Bool) (s t : Text) :
    signed negative (s ++ t) = signed negative s ++ t := by
  cases negative <;> rfl

theorem mem_signed {negative : Bool} {c : Char} {t : Text} (h : c ∈ signed negative t) :
    c = '-' ∨ c ∈ t := by
  cases negative with
  | true => exact List.mem_cons.1 h
  | false => exact .inr h

theorem notMem_of_isDigit {c : Char} {t : Text} (hc : c.isDigit = false)
    (ht : ∀ c ∈ t, c.isDigit = true) : c ∉ t := fun hmem => by
  cases (ht c hmem).symm.trans hc

/-- Digits, and perhaps a point and digits behind it. -/
def IsDecimal (t : Text) : Prop :=
  ∃ whole part, whole ≠ [] ∧ (∀ c ∈ whole, c.isDigit = true) ∧ (∀ c ∈ part, c.isDigit = true) ∧
    (t = whole ∨ t = whole ++ '.' :: part)

theorem isDecimal_toDigits (n : Nat) : IsDecimal (Nat.toDigits 10 n) :=
  ⟨_, [], Nat.toDigits_ne_nil, isDigit_toDigits, fun _ hc => absurd hc List.not_mem_nil, .inl rfl⟩

/-- The last `k` decimal digits, with leading zeros. -/
def fixedDigits : Nat → Nat → Text
  | 0, _ => []
  | k + 1, n => fixedDigits k (n / 10) ++ [Nat.digitChar (n % 10)]

theorem length_fixedDigits (k n : Nat) : (fixedDigits k n).length = k := by
  induction k generalizing n with
  | zero => rfl
  | succ k ih => rw [fixedDigits, List.length_append, ih, List.length_singleton]

theorem isDigit_fixedDigits {k n : Nat} : ∀ c ∈ fixedDigits k n, c.isDigit = true := by
  have hdigit : ∀ d < 10, (Nat.digitChar d).isDigit = true := by decide
  induction k generalizing n with
  | zero => exact fun _ hc => absurd hc List.not_mem_nil
  | succ k ih =>
    intro c hc
    obtain hc | hc := List.mem_append.1 hc
    · exact ih c hc
    · rw [List.mem_singleton.1 hc]
      exact hdigit _ (Nat.mod_lt n (by decide))

theorem ofDigitChars_fixedDigits (k n : Nat) :
    Nat.ofDigitChars 10 (fixedDigits k n) 0 = n % 10 ^ k := by
  induction k generalizing n with
  | zero => rw [Nat.pow_zero, Nat.mod_one]; rfl
  | succ k ih =>
    rw [fixedDigits, Nat.ofDigitChars_append, ih,
      Nat.ofDigitChars_cons_digitChar_of_lt_ten (Nat.mod_lt n (by decide)), Nat.ofDigitChars_nil,
      Nat.pow_succ', Nat.mod_mul, Nat.add_comm]

/-! ## UTF-8 -/

def utf8Bytes (t : Text) : List UInt8 := t.flatMap String.utf8EncodeChar

theorem utf8Bytes_append (s t : Text) : utf8Bytes (s ++ t) = utf8Bytes s ++ utf8Bytes t :=
  List.flatMap_append

theorem utf8Bytes_cons (c : Char) (t : Text) :
    utf8Bytes (c :: t) = String.utf8EncodeChar c ++ utf8Bytes t := rfl

theorem utf8Bytes_intercalate (separator : Text) (pieces : List Text) :
    utf8Bytes (separator.intercalate pieces) =
      (utf8Bytes separator).intercalate (pieces.map utf8Bytes) := by
  induction pieces with
  | nil => rfl
  | cons piece pieces ih =>
    cases pieces with
    | nil => simp
    | cons next pieces =>
      rw [List.map_cons] at ih
      rw [List.intercalate_cons_cons, utf8Bytes_append, utf8Bytes_append, ih, List.map_cons,
        List.map_cons, List.intercalate_cons_cons]

/-- An ASCII character is one byte; the bytes of any other one are not ASCII. -/
theorem utf8EncodeChar_cases (c : Char) :
    c.toNat < 0x80 ∧ String.utf8EncodeChar c = [UInt8.ofNat c.toNat] ∨
      0x80 ≤ c.toNat ∧ ∀ b ∈ String.utf8EncodeChar c, 0x80 ≤ b.toNat := by
  have htoNat : c.val.toNat = c.toNat := rfl
  unfold String.utf8EncodeChar
  simp only [htoNat]
  split
  · exact .inl ⟨by omega, rfl⟩
  · refine .inr ⟨by omega, ?_⟩
    have hbyte : ∀ n, 0x80 ≤ n → n < 0x100 → 0x80 ≤ (UInt8.ofNat n).toNat := by
      intro n hn hlt
      rwa [UInt8.toNat_ofNat', Nat.mod_eq_of_lt hlt]
    split
    · simp only [List.forall_mem_cons, List.not_mem_nil, false_implies, implies_true, and_true]
      exact ⟨hbyte _ (by omega) (by omega), hbyte _ (by omega) (by omega)⟩
    · split
      · simp only [List.forall_mem_cons, List.not_mem_nil, false_implies, implies_true, and_true]
        exact ⟨hbyte _ (by omega) (by omega), hbyte _ (by omega) (by omega),
          hbyte _ (by omega) (by omega)⟩
      · simp only [List.forall_mem_cons, List.not_mem_nil, false_implies, implies_true, and_true]
        exact ⟨hbyte _ (by omega) (by omega), hbyte _ (by omega) (by omega),
          hbyte _ (by omega) (by omega), hbyte _ (by omega) (by omega)⟩

/-- What follows the first byte of a sequence: the bits of that byte, the range of the second byte,
and how many continuation bytes come behind it. -/
def sequenceShape (b : UInt8) : Option (Nat × UInt8 × UInt8 × Nat) :=
  let n := b.toNat
  if 0xC2 ≤ b ∧ b ≤ 0xDF then some (n - 0xC0, 0x80, 0xBF, 0)
  else if b = 0xE0 then some (n - 0xE0, 0xA0, 0xBF, 1)
  else if b = 0xED then some (n - 0xE0, 0x80, 0x9F, 1)
  else if 0xE1 ≤ b ∧ b ≤ 0xEF then some (n - 0xE0, 0x80, 0xBF, 1)
  else if b = 0xF0 then some (n - 0xF0, 0x90, 0xBF, 2)
  else if 0xF1 ≤ b ∧ b ≤ 0xF3 then some (n - 0xF0, 0x80, 0xBF, 2)
  else if b = 0xF4 then some (n - 0xF0, 0x80, 0x8F, 2)
  else none

/-- Continuation bytes onto the code point read so far, as long as they come, and what is left. -/
def continuation : Nat → Nat → List UInt8 → Option Nat × List UInt8
  | 0, code, bs => (some code, bs)
  | _ + 1, _, [] => (none, [])
  | k + 1, code, b :: bs =>
    if 0x80 ≤ b ∧ b ≤ 0xBF then continuation k (code * 64 + (b.toNat - 0x80)) bs
    else (none, b :: bs)

theorem continuation_length (k : Nat) :
    ∀ (code : Nat) (bs : List UInt8), (continuation k code bs).2.length ≤ bs.length := by
  induction k with
  | zero => exact fun _ _ => Nat.le_refl _
  | succ k ih =>
    intro code bs
    cases bs with
    | nil => exact Nat.le_refl _
    | cons b bs =>
      rw [continuation]
      split
      · exact Nat.le_succ_of_le (ih ..)
      · exact Nat.le_refl _

/-- Every maximal piece that is no character becomes one replacement character. -/
def decodeReplacing : List UInt8 → Text
  | [] => []
  | b :: bs =>
    if b < 0x80 then Char.ofNat b.toNat :: decodeReplacing bs
    else
      match sequenceShape b, bs with
      | none, bs => '\uFFFD' :: decodeReplacing bs
      | some _, [] => ['\uFFFD']
      | some (lead, lo, hi, more), c :: rest =>
        if lo ≤ c ∧ c ≤ hi then
          let tail := continuation more (lead * 64 + (c.toNat - 0x80)) rest
          (tail.1.map Char.ofNat).getD '\uFFFD' :: decodeReplacing tail.2
        else '\uFFFD' :: decodeReplacing (c :: rest)
termination_by bs => bs.length
decreasing_by
  · simp
  · simp
  · have := continuation_length more (lead * 64 + (c.toNat - 0x80)) rest
    simp only [List.length_cons]
    omega
  · simp

/-- `from_utf8`: the text, if the bytes are valid UTF-8. -/
def fromUtf8 (bs : List UInt8) : Option Text :=
  bs.toByteArray.utf8Decode?.map Array.toList

/-- `from_utf8_lossy`: valid UTF-8 as it is, anything else with replacement characters. -/
def fromUtf8Lossy (bs : List UInt8) : Text := (fromUtf8 bs).getD (decodeReplacing bs)

theorem fromUtf8_utf8Bytes (t : Text) : fromUtf8 (utf8Bytes t) = some t := by
  have hdecode : (utf8Bytes t).toByteArray.utf8Decode? = some t.toArray :=
    List.utf8Decode?_utf8Encode
  rw [fromUtf8, hdecode]
  rfl

theorem fromUtf8Lossy_utf8Bytes (t : Text) : fromUtf8Lossy (utf8Bytes t) = t := by
  rw [fromUtf8Lossy, fromUtf8_utf8Bytes]
  rfl

@[simp] theorem utf8Bytes_nil : utf8Bytes [] = [] := rfl

theorem utf8Bytes_cons_length (c : Char) (t : Text) :
    (utf8Bytes (c :: t)).length = c.utf8Size + (utf8Bytes t).length := by
  simp [utf8Bytes]

end Text

end PadPlay.Lib
