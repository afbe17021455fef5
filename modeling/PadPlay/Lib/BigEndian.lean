import Mathlib.Algebra.Group.Nat.Defs
import Mathlib.Data.List.Basic

/-!
# Big-endian byte strings

Numbers as byte strings, most significant byte first, at any width. `toBE n v` keeps the `n` low
bytes of `v`, so an encode followed by a decode is reduction modulo `256 ^ n` (`ofBE_toBE`), and is
the identity on what fits (`ofBE_toBE_of_lt`); a decode followed by an encode is the identity
(`toBE_ofBE`). `beAt` is the number in a slice of a longer string.
-/

namespace PadPlay.Lib

/-- The `n` low bytes of `v`, most significant first. -/
def toBE : Nat → Nat → List UInt8
  | 0, _ => []
  | n + 1, v => UInt8.ofNat (v / 256 ^ n) :: toBE n v

/-- The number a byte string denotes, most significant byte first. -/
def ofBE (bs : List UInt8) : Nat :=
  bs.foldl (fun acc b => acc * 256 + b.toNat) 0

@[simp] theorem toBE_length (n v : Nat) : (toBE n v).length = n := by
  induction n with
  | zero => rfl
  | succ n ih => simp [toBE, ih]

@[simp] theorem ofBE_nil : ofBE [] = 0 := rfl

private theorem foldl_acc (bs : List UInt8) :
    ∀ acc, bs.foldl (fun acc b => acc * 256 + b.toNat) acc = acc * 256 ^ bs.length + ofBE bs := by
  unfold ofBE
  induction bs with
  | nil => intro acc; simp
  | cons b bs ih =>
    intro acc
    simp only [List.foldl_cons, List.length_cons]
    rw [ih (acc * 256 + b.toNat), ih (0 * 256 + b.toNat), Nat.pow_succ']
    simp only [Nat.add_mul, Nat.zero_mul, Nat.zero_add, Nat.mul_assoc, Nat.add_assoc]

theorem ofBE_cons (b : UInt8) (bs : List UInt8) :
    ofBE (b :: bs) = b.toNat * 256 ^ bs.length + ofBE bs := by
  have h := foldl_acc bs (0 * 256 + b.toNat)
  simpa [ofBE] using h

/-- **Encoding then decoding** keeps the low bytes. -/
theorem ofBE_toBE (n v : Nat) : ofBE (toBE n v) = v % 256 ^ n := by
  induction n with
  | zero => simp [toBE, Nat.mod_one]
  | succ n ih =>
    have hbyte : (UInt8.ofNat (v / 256 ^ n)).toNat = v / 256 ^ n % 256 := by simp
    rw [toBE, ofBE_cons, toBE_length, ih, hbyte, Nat.pow_succ, Nat.mod_mul, Nat.add_comm,
      Nat.mul_comm]

theorem ofBE_toBE_of_lt {n v : Nat} (h : v < 256 ^ n) : ofBE (toBE n v) = v := by
  rw [ofBE_toBE, Nat.mod_eq_of_lt h]

theorem ofBE_lt (bs : List UInt8) : ofBE bs < 256 ^ bs.length := by
  induction bs with
  | nil => simp
  | cons b bs ih =>
    have hb : b.toNat + 1 ≤ 256 := b.toNat_lt
    have hmul := Nat.mul_le_mul_right (256 ^ bs.length) hb
    rw [Nat.add_mul, Nat.one_mul] at hmul
    rw [ofBE_cons, List.length_cons, Nat.pow_succ']
    omega

private theorem toBE_add_mul (n k r : Nat) : toBE n (k * 256 ^ n + r) = toBE n r := by
  induction n generalizing k with
  | zero => rfl
  | succ n ih =>
    have hpos : 0 < 256 ^ n := Nat.pow_pos (by decide)
    have hsplit : k * 256 ^ (n + 1) + r = r + 256 ^ n * (k * 256) := by
      rw [Nat.pow_succ, Nat.mul_comm (256 ^ n) 256, ← Nat.mul_assoc, Nat.mul_comm, Nat.add_comm]
    have hbyte : UInt8.ofNat (r / 256 ^ n + k * 256) = UInt8.ofNat (r / 256 ^ n) := by
      apply UInt8.toNat_inj.1
      simp
    rw [toBE, toBE, hsplit, Nat.add_mul_div_left _ _ hpos, hbyte, Nat.add_comm r, Nat.mul_comm, ih]

/-- **Decoding then encoding** is the identity. -/
theorem toBE_ofBE (bs : List UInt8) : toBE bs.length (ofBE bs) = bs := by
  induction bs with
  | nil => rfl
  | cons b bs ih =>
    have hdiv : (b.toNat * 256 ^ bs.length + ofBE bs) / 256 ^ bs.length = b.toNat := by
      rw [Nat.mul_comm, Nat.mul_add_div (Nat.pow_pos (by decide)), Nat.div_eq_of_lt (ofBE_lt bs),
        Nat.add_zero]
    rw [List.length_cons, toBE, ofBE_cons, toBE_add_mul, ih, hdiv, UInt8.ofNat_toNat]

/-! ## Numbers inside a byte string -/

/-- The number in the `n` bytes from offset `off` on. -/
def beAt (bs : List UInt8) (off n : Nat) : Nat := ofBE ((bs.drop off).take n)

theorem beAt_lt (bs : List UInt8) (off n : Nat) : beAt bs off n < 256 ^ n := by
  have hlen : ((bs.drop off).take n).length ≤ n := List.length_take_le ..
  exact Nat.lt_of_lt_of_le (ofBE_lt _) (Nat.pow_le_pow_right (by decide) hlen)

theorem toBE_beAt {bs : List UInt8} {off n : Nat} (h : off + n ≤ bs.length) :
    toBE n (beAt bs off n) = (bs.drop off).take n := by
  have hlen : ((bs.drop off).take n).length = n := by
    rw [List.length_take, List.length_drop]
    omega
  have henc := toBE_ofBE ((bs.drop off).take n)
  rwa [hlen] at henc

theorem beAt_one (bs : List UInt8) (off : Nat) : beAt bs off 1 = (bs.getD off 0).toNat := by
  have hhead : (bs.drop off).head? = bs[off]? := by rw [List.head?_drop]
  rw [beAt, List.getD_eq_getElem?_getD, ← hhead]
  cases bs.drop off with
  | nil => rfl
  | cons b rest => simp [ofBE]

/-! ## Little-endian byte strings -/

def toLE (n v : Nat) : List UInt8 := (toBE n v).reverse

def ofLE (bs : List UInt8) : Nat := ofBE bs.reverse

/-- The little-endian number in the `n` bytes from offset `off` on. -/
def leAt (bs : List UInt8) (off n : Nat) : Nat := ofLE ((bs.drop off).take n)

@[simp] theorem toLE_length (n v : Nat) : (toLE n v).length = n := by
  rw [toLE, List.length_reverse, toBE_length]

theorem ofLE_toLE_of_lt {n v : Nat} (h : v < 256 ^ n) : ofLE (toLE n v) = v := by
  rw [ofLE, toLE, List.reverse_reverse, ofBE_toBE_of_lt h]

end PadPlay.Lib
