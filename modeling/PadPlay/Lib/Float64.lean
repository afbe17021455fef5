import PadPlay.Lib.Text

/-!
# Binary floating point in decimal

A binary64 number by its bits, and the two texts a standard library prints for it: one with a fixed
number of decimal places, rounded half to even (`fixed`), and the shortest one that is read back as
the same number, without an exponent (`display`). `readFixed` reads texts of the first kind;
zeros trimmed at the end, and then the point, do not change what it reads (`readFixed_trimmed`). The
text of the second kind is always read back (`shortestDigits_readBy`).
-/

namespace PadPlay.Lib

structure F64 where
  bits : UInt64
  deriving DecidableEq, Repr

namespace F64

/-! ## The number -/

def negative (x : F64) : Bool := 2 ^ 63 ≤ x.bits.toNat

def exponent (x : F64) : Nat := x.bits.toNat / 2 ^ 52 % 2 ^ 11

def fraction (x : F64) : Nat := x.bits.toNat % 2 ^ 52

def isNan (x : F64) : Bool := x.exponent = 2047 && x.fraction ≠ 0

def isInfinite (x : F64) : Bool := x.exponent = 2047 && x.fraction = 0

/-- The distance to the next number, in units of `2 ^ -1074`. -/
def ulp (x : F64) : Nat := 2 ^ (x.exponent - 1)

/-- The absolute value of a finite number, in units of `2 ^ -1074`. -/
def magnitude (x : F64) : Nat :=
  if x.exponent = 0 then x.fraction else (2 ^ 52 + x.fraction) * x.ulp

/-! ## Fixed places -/

def roundHalfEven (a b : Nat) : Nat :=
  if 2 * (a % b) < b then a / b
  else if b < 2 * (a % b) then a / b + 1
  else a / b + a / b % 2

/-- A number rounded to a fixed number of decimal places, as a multiple of the last place. -/
inductive Fixed where
  | nan
  | infinite (negative : Bool)
  | finite (negative : Bool) (multiple : Nat)
  deriving DecidableEq, Repr

def toFixed (places : Nat) (x : F64) : Fixed :=
  if x.isNan then .nan
  else if x.isInfinite then .infinite x.negative
  else .finite x.negative (roundHalfEven (x.magnitude * 10 ^ places) (2 ^ 1074))

/-- A multiple of a decimal place in digits. -/
def decimal (places n : Nat) : Text :=
  Nat.toDigits 10 (n / 10 ^ places) ++ '.' :: Text.fixedDigits places n

def Fixed.print (places : Nat) : Fixed → Text
  | .nan => ['N', 'a', 'N']
  | .infinite negative => Text.signed negative ['i', 'n', 'f']
  | .finite negative n => Text.signed negative (decimal places n)

/-- `format!("{:.places$}", x)`, for at least one place. -/
def fixed (places : Nat) (x : F64) : Text := (x.toFixed places).print places

/-! ## The shortest decimal -/

/-- Whether a number of units of `2 ^ -1076 * 10 ^ -324` is read as `x`: it is not beyond the middle
between `x` and either neighbour, and in the middle `x` is the even one. The neighbour below a power
of two is only half as far. -/
def readsBack (x : F64) (n : Nat) : Bool :=
  let below := if x.fraction = 0 ∧ 1 < x.exponent then x.ulp else 2 * x.ulp
  let low := (4 * x.magnitude - below) * 10 ^ 324
  let high := (4 * x.magnitude + 2 * x.ulp) * 10 ^ 324
  if x.fraction % 2 = 0 then low ≤ n && n ≤ high else low < n && n < high

/-- The multiple of `10 ^ (k - 324)` that is read as `x`, the nearest one if there are several. -/
def shortestAt (x : F64) (k : Nat) : Option Nat :=
  let units := 4 * x.magnitude * 10 ^ 324
  let step := 10 ^ k * 2 ^ 1076
  let n := units / step
  match x.readsBack (n * step), x.readsBack ((n + 1) * step) with
  | false, false => none
  | true, false => some n
  | false, true => some (n + 1)
  | true, true => some (if step ≤ 2 * (units % step) then n + 1 else n)

/-- The first of them, from a power of ten downwards. -/
def shortestFrom (x : F64) : Nat → Nat × Nat
  | 0 => ((x.shortestAt 0).getD 0, 0)
  | k + 1 =>
    match x.shortestAt (k + 1) with
    | some n => (n, k + 1)
    | none => shortestFrom x k

def shortestDigits (x : F64) : Text :=
  if x.magnitude = 0 then ['0']
  else
    let (n, k) := x.shortestFrom 632
    if 324 ≤ k then Nat.toDigits 10 n ++ List.replicate (k - 324) '0' else decimal (324 - k) n

/-- `format!("{}", x)`. -/
def display (x : F64) : Text :=
  if x.isNan then ['N', 'a', 'N']
  else Text.signed x.negative (if x.isInfinite then ['i', 'n', 'f'] else x.shortestDigits)

/-! ## Reading fixed places -/

/-- A decimal number without a sign as a multiple of the last place, with fewer places or none. -/
def readUnsigned (places : Nat) (t : Text) : Option Nat :=
  match Text.splitOnce '.' t with
  | none => (Text.readNat t).map fun whole => whole * 10 ^ places
  | some (whole, part) =>
    if part.length ≤ places then
      (Text.readNat whole).bind fun w =>
        (Text.readNat part).map fun p => w * 10 ^ places + p * 10 ^ (places - part.length)
    else none

def readSigned : Text → Bool × Text
  | '-' :: t => (true, t)
  | t => (false, t)

def readFixed (places : Nat) (t : Text) : Option Fixed :=
  if t = ['N', 'a', 'N'] then some .nan
  else
    let (negative, t) := readSigned t
    if t = ['i', 'n', 'f'] then some (.infinite negative)
    else (readUnsigned places t).map (.finite negative)

/-- Zeros at the end, and then the point. -/
def trimmed (t : Text) : Text := Text.trimEndMatches '.' (Text.trimEndMatches '0' t)

theorem readFixed_signed {places : Nat} {negative : Bool} {c : Char} {t : Text}
    (hc : c.isDigit = true) :
    readFixed places (Text.signed negative (c :: t)) =
      (readUnsigned places (c :: t)).map (.finite negative) := by
  have hdash : c ≠ '-' := by rintro rfl; cases hc
  have hnan : c ≠ 'N' := by rintro rfl; cases hc
  have hinf : c ≠ 'i' := by rintro rfl; cases hc
  have hread : readSigned (Text.signed negative (c :: t)) = (negative, c :: t) := by
    cases negative with
    | true => rfl
    | false =>
      rw [Text.signed, if_neg Bool.false_ne_true, readSigned]
      rintro t' heq
      exact hdash (List.cons.inj heq).1
  have hne : Text.signed negative (c :: t) ≠ ['N', 'a', 'N'] := by
    cases negative with
    | true => exact fun h => absurd (List.cons.inj h).1 (by decide)
    | false => exact fun h => hnan (List.cons.inj h).1
  rw [readFixed, if_neg hne, hread]
  exact if_neg fun h => hinf (List.cons.inj h).1

/-- The last place of a whole number is no point. -/
theorem trimEndMatches_digits {negative : Bool} {t : Text} (hne : t ≠ [])
    (h : ∀ c ∈ t, c.isDigit = true) :
    Text.trimEndMatches '.' (Text.signed negative t) = Text.signed negative t := by
  obtain ⟨front, last, rfl⟩ : ∃ front last, t = front ++ [last] :=
    ⟨_, _, (List.dropLast_append_getLast hne).symm⟩
  have hlast : last ≠ '.' := by
    rintro rfl
    exact Text.notMem_of_isDigit (c := '.') rfl h (by simp)
  cases negative with
  | true => exact Text.trimEndMatches_concat hlast ('-' :: front)
  | false => exact Text.trimEndMatches_concat hlast front

/-- What trimming leaves of a number: its whole part alone if the places are zero, and else the
places up to the last one that is not. -/
theorem trimmed_decimal (places n : Nat) (negative : Bool) :
    ∃ part zeros, Text.fixedDigits places n = part ++ List.replicate zeros '0' ∧
      trimmed (Text.signed negative (decimal places n)) =
        Text.signed negative (Nat.toDigits 10 (n / 10 ^ places) ++
          if part = [] then [] else '.' :: part) := by
  have hdigits : ∀ c ∈ Text.fixedDigits places n, c.isDigit = true := Text.isDigit_fixedDigits
  obtain ⟨zeros, hzeros⟩ := Text.exists_trimEndMatches '0' (Text.fixedDigits places n)
  have hstop : Text.trimEndMatches '0' (Text.signed negative (decimal places n)) =
      Text.signed negative (Nat.toDigits 10 (n / 10 ^ places)) ++
        '.' :: Text.trimEndMatches '0' (Text.fixedDigits places n) := by
    rw [decimal, Text.signed_append, Text.trimEndMatches_append (by decide)]
  refine ⟨_, zeros, hzeros, ?_⟩
  rw [trimmed, hstop, Text.signed_append]
  rw [hzeros] at hdigits
  generalize Text.trimEndMatches '0' (Text.fixedDigits places n) = part at hdigits
  obtain rfl | ⟨front, last, rfl⟩ := List.eq_nil_or_concat' part
  · have hdot := List.rdropWhile_concat_pos (fun c => c = '.')
      (Text.signed negative (Nat.toDigits 10 (n / 10 ^ places))) '.' (by decide)
    rw [if_pos rfl, List.append_nil]
    exact hdot.trans (trimEndMatches_digits Nat.toDigits_ne_nil Text.isDigit_toDigits)
  · have hlast : last ≠ '.' := by
      rintro rfl
      exact Text.notMem_of_isDigit (c := '.') rfl hdigits (by simp)
    rw [if_neg (by simp), ← List.cons_append, ← List.append_assoc]
    exact Text.trimEndMatches_concat hlast _

/-- **Trimming does not change what is read.** -/
theorem readFixed_trimmed (places : Nat) (x : F64) :
    readFixed places (trimmed (x.fixed places)) = some (x.toFixed places) := by
  rw [fixed]
  cases x.toFixed places with
  | nan => rfl
  | infinite negative => cases negative <;> rfl
  | finite negative n =>
    obtain ⟨part, zeros, hpart, htrimmed⟩ := trimmed_decimal places n negative
    have hlength := congrArg List.length hpart
    rw [Text.length_fixedDigits, List.length_append, List.length_replicate] at hlength
    have hvalue := congrArg (Nat.ofDigitChars 10 · 0) hpart
    simp only [Text.ofDigitChars_fixedDigits, Nat.ofDigitChars_append,
      Nat.ofDigitChars_replicate_zero] at hvalue
    have hdigits : ∀ c ∈ part, c.isDigit = true := fun c hc =>
      Text.isDigit_fixedDigits c (hpart ▸ List.mem_append_left _ hc)
    have hwhole : ∃ c rest, Nat.toDigits 10 (n / 10 ^ places) = c :: rest ∧ c.isDigit = true := by
      obtain ⟨c, rest, heq⟩ := List.exists_cons_of_ne_nil (Nat.toDigits_ne_nil (b := 10))
      exact ⟨c, rest, heq, Text.isDigit_toDigits c (heq ▸ List.mem_cons_self ..)⟩
    obtain ⟨c, rest, hwhole, hc⟩ := hwhole
    rw [Fixed.print, htrimmed, hwhole, List.cons_append, readFixed_signed hc, ← List.cons_append,
      ← hwhole, readUnsigned]
    have hread : n = n / 10 ^ places * 10 ^ places + 10 ^ zeros * Nat.ofDigitChars 10 part 0 := by
      rw [← hvalue]
      exact (Nat.div_add_mod' n _).symm
    have hdot : '.' ∉ Nat.toDigits 10 (n / 10 ^ places) :=
      Text.notMem_of_isDigit rfl Text.isDigit_toDigits
    split_ifs with hnil
    · -- the places are all zero
      subst hnil
      rw [List.append_nil, Text.splitOnce_eq_none hdot]
      simp only [Text.readNat_toDigits, Option.map_some]
      rw [Nat.ofDigitChars_nil, Nat.mul_zero, Nat.add_zero] at hread
      rw [← hread]
    · have hplaces : places - part.length = zeros := by omega
      have hpartread : Text.readNat part = some (Nat.ofDigitChars 10 part 0) :=
        if_pos ⟨hnil, List.all_eq_true.2 hdigits⟩
      rw [Text.splitOnce_append hdot]
      simp only [Text.readNat_toDigits, hpartread, Option.bind_some, Option.map_some]
      rw [if_pos (by omega), hplaces, Nat.mul_comm _ (10 ^ zeros), ← hread]
      rfl

example : trimmed ((F64.mk 0x404DFAE147AE147B).fixed 6) = "59.96".toList ∧
    (F64.mk 0x404DFAE147AE147B).display = "59.96".toList := by decide +kernel

/-! ## Reading the shortest decimal -/

/-- A decimal without a sign, of 324 places at most, that is read as the absolute value of `x`. -/
def ReadBy (x : F64) (t : Text) : Prop :=
  ∃ m, readUnsigned 324 t = some m ∧ x.readsBack (m * 2 ^ 1076) = true

theorem shortestAt_readsBack {x : F64} {k n : Nat} (h : x.shortestAt k = some n) :
    x.readsBack (n * (10 ^ k * 2 ^ 1076)) = true := by
  unfold shortestAt at h
  dsimp only at h
  split at h
  · cases h
  · next hthis _ => cases h; exact hthis
  · next hnext => cases h; exact hnext
  · next hthis hnext =>
    split at h
    · cases h; exact hnext
    · cases h; exact hthis

theorem ulp_pos (x : F64) : 0 < x.ulp := Nat.two_pow_pos _

/-- The neighbours of a number other than zero are not beyond zero. -/
theorem ulp_le_magnitude {x : F64} (h : x.magnitude ≠ 0) : x.ulp ≤ x.magnitude := by
  unfold magnitude at h ⊢
  split at h
  · next hexponent =>
    rw [if_pos hexponent]
    have hulp : x.ulp = 1 := by rw [ulp, hexponent]; rfl
    omega
  · next hexponent =>
    rw [if_neg hexponent]
    exact Nat.le_mul_of_pos_left _ (Nat.lt_of_lt_of_le (Nat.two_pow_pos 52) (Nat.le_add_right _ _))

/-- A number of units below `x` by less than the distance to its lower neighbour is read as `x`. -/
theorem readsBack_of_near {x : F64} {n : Nat} (h : x.magnitude ≠ 0)
    (hle : n ≤ 4 * x.magnitude * 10 ^ 324) (hlt : 4 * x.magnitude * 10 ^ 324 < n + 10 ^ 324) :
    x.readsBack n = true := by
  have hulp := ulp_le_magnitude h
  have hpos := x.ulp_pos
  unfold readsBack
  generalize hbelow : (if x.fraction = 0 ∧ 1 < x.exponent then x.ulp else 2 * x.ulp) = below
  have hrange : 1 ≤ below ∧ below ≤ 4 * x.magnitude := by
    split at hbelow <;> omega
  generalize 10 ^ 324 = fine at hle hlt
  have hlow : (4 * x.magnitude - below) * fine + below * fine = 4 * x.magnitude * fine := by
    rw [← Nat.add_mul, Nat.sub_add_cancel hrange.2]
  have hhigh : (4 * x.magnitude + 2 * x.ulp) * fine =
      4 * x.magnitude * fine + 2 * x.ulp * fine := Nat.add_mul ..
  have hstep : fine ≤ below * fine := Nat.le_mul_of_pos_left _ hrange.1
  have hroom : fine ≤ 2 * x.ulp * fine := Nat.le_mul_of_pos_left _ (by omega)
  split
  · rw [Bool.and_eq_true, decide_eq_true_eq, decide_eq_true_eq]
    omega
  · rw [Bool.and_eq_true, decide_eq_true_eq, decide_eq_true_eq]
    omega

/-- The last place of all is fine enough for every number. -/
theorem exists_shortestAt_zero {x : F64} (h : x.magnitude ≠ 0) : ∃ n, x.shortestAt 0 = some n := by
  have hfine : 2 ^ 1076 < 10 ^ 324 := by decide +kernel
  have hpos : 0 < 2 ^ 1076 := by decide +kernel
  have hthis : x.readsBack (4 * x.magnitude * 10 ^ 324 / (10 ^ 0 * 2 ^ 1076) *
      (10 ^ 0 * 2 ^ 1076)) = true := by
    rw [Nat.pow_zero, Nat.one_mul]
    generalize 2 ^ 1076 = step at hfine hpos
    apply readsBack_of_near h (Nat.div_mul_le_self ..)
    exact Nat.lt_of_lt_of_le (Nat.lt_div_mul_add hpos) (Nat.add_le_add_left (Nat.le_of_lt hfine) _)
  unfold shortestAt
  dsimp only
  rw [hthis]
  cases x.readsBack ((4 * x.magnitude * 10 ^ 324 / (10 ^ 0 * 2 ^ 1076) + 1) *
      (10 ^ 0 * 2 ^ 1076)) with
  | false => exact ⟨_, rfl⟩
  | true => exact ⟨_, rfl⟩

theorem shortestFrom_readsBack {x : F64} (h : x.magnitude ≠ 0) (k : Nat) :
    x.readsBack ((x.shortestFrom k).1 * (10 ^ (x.shortestFrom k).2 * 2 ^ 1076)) = true := by
  induction k with
  | zero =>
    obtain ⟨n, hn⟩ := exists_shortestAt_zero h
    have hread := shortestAt_readsBack hn
    rw [shortestFrom, hn]
    exact hread
  | succ k ih =>
    rw [shortestFrom]
    cases hk : x.shortestAt (k + 1) with
    | none => exact ih
    | some n => exact shortestAt_readsBack hk

theorem readUnsigned_digits (places n zeros : Nat) :
    readUnsigned places (Nat.toDigits 10 n ++ List.replicate zeros '0') =
      some (n * 10 ^ zeros * 10 ^ places) := by
  have hdigits : ∀ c ∈ Nat.toDigits 10 n ++ List.replicate zeros '0', c.isDigit = true := by
    intro c hc
    obtain hc | hc := List.mem_append.1 hc
    · exact Text.isDigit_toDigits c hc
    · rw [List.eq_of_mem_replicate hc]
      rfl
  have hread : Text.readNat (Nat.toDigits 10 n ++ List.replicate zeros '0') =
      some (n * 10 ^ zeros) := by
    rw [Text.readNat, if_pos ⟨by simp [Nat.toDigits_ne_nil], List.all_eq_true.2 hdigits⟩,
      Nat.ofDigitChars_append, Nat.ofDigitChars_replicate_zero, Nat.ofDigitChars_ten_toDigits,
      Nat.mul_comm]
  rw [readUnsigned, Text.splitOnce_eq_none (Text.notMem_of_isDigit rfl hdigits), hread]
  rfl

theorem readUnsigned_decimal {places more n : Nat} (hplaces : places ≠ 0) :
    readUnsigned (places + more) (decimal places n) = some (n * 10 ^ more) := by
  have hdot : '.' ∉ Nat.toDigits 10 (n / 10 ^ places) :=
    Text.notMem_of_isDigit rfl Text.isDigit_toDigits
  have hne : Text.fixedDigits places n ≠ [] := by
    intro hnil
    rw [← List.length_eq_zero_iff, Text.length_fixedDigits] at hnil
    exact hplaces hnil
  have hpart : Text.readNat (Text.fixedDigits places n) = some (n % 10 ^ places) := by
    rw [Text.readNat, if_pos ⟨hne, List.all_eq_true.2 Text.isDigit_fixedDigits⟩,
      Text.ofDigitChars_fixedDigits]
  rw [readUnsigned, decimal, Text.splitOnce_append hdot]
  simp only [Text.length_fixedDigits, Text.readNat_toDigits, hpart, Option.bind_some,
    Option.map_some]
  rw [if_pos (Nat.le_add_right ..), Nat.add_sub_cancel_left, Nat.pow_add, ← Nat.mul_assoc,
    ← Nat.add_mul, Nat.div_add_mod']

/-- **The shortest decimal is read back.** -/
theorem shortestDigits_readBy (x : F64) : x.ReadBy x.shortestDigits := by
  unfold shortestDigits
  split
  · next hzero =>
    have hread := readUnsigned_digits 324 0 0
    rw [Nat.zero_mul, Nat.zero_mul] at hread
    refine ⟨0, hread, ?_⟩
    have heven : x.fraction % 2 = 0 := by
      unfold magnitude at hzero
      split at hzero
      · rw [hzero]
      · rcases Nat.mul_eq_zero.1 hzero with hsum | hulp
        · omega
        · exact absurd hulp (Nat.ne_of_gt x.ulp_pos)
    unfold readsBack
    rw [Nat.zero_mul, hzero, if_pos heven, Nat.mul_zero, Nat.zero_sub, Nat.zero_mul,
      Bool.and_eq_true, decide_eq_true_eq, decide_eq_true_eq]
    exact ⟨Nat.le_refl _, Nat.zero_le _⟩
  · next hne =>
    have hback := shortestFrom_readsBack hne 632
    generalize x.shortestFrom 632 = found at hback
    obtain ⟨n, k⟩ := found
    dsimp only at hback ⊢
    rw [← Nat.mul_assoc] at hback
    split
    · next hlarge =>
      refine ⟨_, readUnsigned_digits 324 n (k - 324), ?_⟩
      rw [Nat.mul_assoc n, ← Nat.pow_add, Nat.sub_add_cancel hlarge]
      exact hback
    · next hsmall =>
      have hread := @readUnsigned_decimal (324 - k) k n (by omega)
      rw [Nat.sub_add_cancel (by omega)] at hread
      exact ⟨_, hread, hback⟩

/-! ## The characters of both texts -/

theorem decimal_isDecimal (places n : Nat) : Text.IsDecimal (decimal places n) :=
  ⟨_, _, Nat.toDigits_ne_nil, Text.isDigit_toDigits, Text.isDigit_fixedDigits, .inr rfl⟩

theorem shortestDigits_isDecimal (x : F64) : Text.IsDecimal x.shortestDigits := by
  unfold shortestDigits
  split
  · exact Text.isDecimal_toDigits 0
  · simp only
    split
    · refine ⟨_, [], by simp, ?_, fun _ hc => absurd hc List.not_mem_nil, .inl rfl⟩
      intro c hc
      obtain hc | hc := List.mem_append.1 hc
      · exact Text.isDigit_toDigits c hc
      · rw [List.eq_of_mem_replicate hc]
        rfl
    · exact decimal_isDecimal ..

theorem mem_trimmed {c : Char} {t : Text} (h : c ∈ trimmed t) : c ∈ t :=
  (List.rdropWhile_prefix _ _).subset ((List.rdropWhile_prefix _ _).subset h)

theorem mem_fixed {places : Nat} {x : F64} {c : Char} (h : c ∈ x.fixed places) :
    c.isDigit = true ∨ c ∈ ['-', '.', 'N', 'a', 'i', 'n', 'f'] := by
  rw [fixed] at h
  cases hfixed : x.toFixed places with
  | nan =>
    rw [hfixed, Fixed.print] at h
    exact .inr (by revert h; simp; tauto)
  | infinite negative =>
    rw [hfixed, Fixed.print] at h
    obtain rfl | h := Text.mem_signed h
    · exact .inr (by decide)
    · exact .inr (by revert h; simp; tauto)
  | finite negative n =>
    rw [hfixed, Fixed.print] at h
    obtain rfl | h := Text.mem_signed h
    · exact .inr (by decide)
    · rw [decimal, List.mem_append, List.mem_cons] at h
      obtain h | rfl | h := h
      · exact .inl (Text.isDigit_toDigits c h)
      · exact .inr (by decide)
      · exact .inl (Text.isDigit_fixedDigits c h)

end F64

end PadPlay.Lib
