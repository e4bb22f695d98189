/-!
# Little-endian numbers

Natural numbers as bytes, the lowest first.

`bytes width n` keeps the lowest `width` bytes and loses the rest; `value` reads any number of
bytes.  A number below the capacity of `width` bytes and its `width` bytes determine each other
(`value_bytes`, `bytes_value`), which is all that the round trip of a number on the wire needs, for
every width.
-/
namespace MarketRelay.LittleEndian

/-- The lowest `width` bytes of `n`, the lowest first. -/
def bytes : (width : Nat) → (n : Nat) → List UInt8
  | 0, _ => []
  | width + 1, n => UInt8.ofNat n :: bytes width (n / 256)

def value : List UInt8 → Nat
  | [] => 0
  | b :: rest => b.toNat + 256 * value rest

/-- How many numbers `width` bytes tell apart. -/
def capacity : (width : Nat) → Nat
  | 0 => 1
  | width + 1 => 256 * capacity width

@[simp] theorem length_bytes (width n : Nat) : (bytes width n).length = width := by
  induction width generalizing n with
  | zero => rfl
  | succ width ih => simp [bytes, ih]

theorem value_lt (bs : List UInt8) : value bs < capacity bs.length := by
  induction bs with
  | nil => simp [value, capacity]
  | cons b rest ih =>
    have := b.toNat_lt
    simp only [value, List.length_cons, capacity]
    omega

theorem value_bytes {width n : Nat} (h : n < capacity width) : value (bytes width n) = n := by
  induction width generalizing n with
  | zero =>
    have : n = 0 := by simp only [capacity] at h; omega
    simp [bytes, value, this]
  | succ width ih =>
    have hlt : n / 256 < capacity width := by
      simp only [capacity] at h; omega
    simp only [bytes, value, ih hlt, UInt8.toNat_ofNat']
    omega

theorem bytes_value (bs : List UInt8) : bytes bs.length (value bs) = bs := by
  induction bs with
  | nil => rfl
  | cons b rest ih =>
    have hb := b.toNat_lt
    have hdiv : (b.toNat + 256 * value rest) / 256 = value rest := by omega
    have hmod : UInt8.ofNat (b.toNat + 256 * value rest) = b := by
      apply UInt8.toNat_inj.mp
      simp only [UInt8.toNat_ofNat']
      omega
    simp [bytes, value, hdiv, hmod, ih]

end MarketRelay.LittleEndian
