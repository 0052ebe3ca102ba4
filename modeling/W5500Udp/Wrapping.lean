import Mathlib.Data.Nat.Defs
import Mathlib.Order.Basic
import Mathlib.Tactic.Common

/-! # Sixteen-bit pointer arithmetic

The driver keeps every buffer offset in a `u16` and moves it with `wrapping_add`, which is
`UInt16` addition. The helpers here are the few `core` conversions `udp.rs` calls, and the
facts that carry a `u16` goal to `Nat`, where `omega` closes it. -/
namespace W5500Udp

/-- `u16::checked_sub`. -/
def checkedSub (a b : UInt16) : Option UInt16 := if b ≤ a then some (a - b) else none

/-- `u16::try_from(usize)`, with an unbounded length. -/
def u16TryFrom (n : Nat) : Option UInt16 := if n < 65536 then some (UInt16.ofNat n) else none

def u16Max : UInt16 := 65535

theorem u16_le_iff (a b : UInt16) : a ≤ b ↔ a.toNat ≤ b.toNat := Iff.rfl

theorem u16_lt_iff (a b : UInt16) : a < b ↔ a.toNat < b.toNat := Iff.rfl

theorem u16_eq_iff (a b : UInt16) : a = b ↔ a.toNat = b.toNat :=
  ⟨congrArg _, UInt16.toNat.inj⟩

theorem u16_toNat_lt (a : UInt16) : a.toNat < 65536 := a.toNat_lt_size

@[simp] theorem u16_toNat_add (a b : UInt16) : (a + b).toNat = (a.toNat + b.toNat) % 65536 := by
  show (a.toBitVec + b.toBitVec).toNat = _
  simp [BitVec.toNat_add]; rfl

@[simp] theorem u16_toNat_sub (a b : UInt16) :
    (a - b).toNat = (65536 - b.toNat + a.toNat) % 65536 := by
  show (a.toBitVec - b.toBitVec).toNat = _
  simp [BitVec.toNat_sub]; rfl

@[simp] theorem u16_toNat_mul (a b : UInt16) : (a * b).toNat = a.toNat * b.toNat % 65536 := by
  show (a.toBitVec * b.toBitVec).toNat = _
  simp [BitVec.toNat_mul]; rfl

@[simp] theorem u16_toNat_div (a b : UInt16) : (a / b).toNat = a.toNat / b.toNat :=
  UInt16.toNat_div a b

@[simp] theorem u16_toNat_toUInt8 (a : UInt16) : a.toUInt8.toNat = a.toNat % 256 := rfl

theorem u8_eq_iff (a b : UInt8) : a = b ↔ a.toNat = b.toNat :=
  ⟨congrArg _, UInt8.toNat.inj⟩

theorem u8_toNat_lt (a : UInt8) : a.toNat < 256 := a.toNat_lt_size

@[simp] theorem u16_toNat_ofNat (n : Nat) : (UInt16.ofNat n).toNat = n % 65536 := rfl

@[simp] theorem u16_toNat_min (a b : UInt16) : (min a b).toNat = min a.toNat b.toNat := by
  show (if a ≤ b then a else b).toNat = _
  split <;> simp only [u16_le_iff] at * <;> omega

theorem u16_min_comm (a b : UInt16) : min a b = min b a := by
  rw [u16_eq_iff, u16_toNat_min, u16_toNat_min, Nat.min_comm]

theorem u16_min_eq_left {a b : UInt16} (h : a ≤ b) : min a b = a := if_pos h

theorem u16_min_eq_right {a b : UInt16} (h : b < a) : min a b = b :=
  if_neg fun h' => absurd (Nat.lt_of_lt_of_le h h') (Nat.lt_irrefl _)

@[simp] theorem u8_toNat_toUInt16 (a : UInt8) : a.toUInt16.toNat = a.toNat := rfl

@[simp] theorem u16_toNat_one : (1 : UInt16).toNat = 1 := rfl

@[simp] theorem u16_toNat_eight : (8 : UInt16).toNat = 8 := rfl

theorem checkedSub_eq_some {a b r : UInt16} :
    checkedSub a b = some r ↔ b ≤ a ∧ r = a - b := by
  unfold checkedSub; split <;> simp_all [eq_comm]

theorem checkedSub_eq_none {a b : UInt16} : checkedSub a b = none ↔ a < b := by
  unfold checkedSub; split <;> simp_all

theorem checkedSub_isNone (a b : UInt16) : (checkedSub a b).isNone = decide (a < b) := by
  unfold checkedSub
  split <;> rename_i h <;> simp only [u16_le_iff] at h <;> simp [u16_lt_iff] <;> omega

@[simp] theorem u16TryFrom_getD_toNat (n : Nat) :
    ((u16TryFrom n).getD u16Max).toNat = min n 65535 := by
  unfold u16TryFrom; split <;> simp [u16Max] <;> omega

theorem u16TryFrom_eq_some {n : Nat} {l : UInt16} :
    u16TryFrom n = some l ↔ n < 65536 ∧ l.toNat = n := by
  unfold u16TryFrom
  split
  · simp only [Option.some.injEq, u16_eq_iff, u16_toNat_ofNat]; omega
  · simp_all

theorem u16_add_sub_cancel_left (a b : UInt16) : a + b - a = b := by
  have := u16_toNat_lt a; have := u16_toNat_lt b
  rw [u16_eq_iff]; simp only [u16_toNat_sub, u16_toNat_add]; omega

@[simp] theorem u16_sub_self_toNat (a : UInt16) : (a - a).toNat = 0 := by
  have := u16_toNat_lt a; simp only [u16_toNat_sub]; omega

theorem u16_sub_add_ofNat (p : UInt16) {i : Nat} (h : i < 65536) :
    (p + UInt16.ofNat i - p).toNat = i := by
  simp only [u16_toNat_sub, u16_toNat_add, u16_toNat_ofNat]
  have := u16_toNat_lt p
  omega

theorem u16_add_ofNat_eq (head ptr : UInt16) (i : Nat) :
    ptr + UInt16.ofNat i = head + UInt16.ofNat ((ptr - head).toNat + i) := by
  have := u16_toNat_lt head; have := u16_toNat_lt ptr
  rw [u16_eq_iff]
  simp only [u16_toNat_sub, u16_toNat_add, u16_toNat_ofNat]
  omega

theorem u16_add_ofNat_sub (head ptr : UInt16) {i : Nat} (hi : i < 65536) :
    (head + UInt16.ofNat i - ptr).toNat = (65536 - (ptr - head).toNat + i) % 65536 := by
  have := u16_toNat_lt head; have := u16_toNat_lt ptr
  simp only [u16_toNat_sub, u16_toNat_add, u16_toNat_ofNat, Nat.mod_eq_of_lt hi]
  omega

theorem u16_add_ofNat_zero (a : UInt16) : a + UInt16.ofNat 0 = a := by
  have := u16_toNat_lt a
  rw [u16_eq_iff, u16_toNat_add, u16_toNat_ofNat]
  omega

@[simp] theorem u16_add_zero (a : UInt16) : a + 0 = a := u16_add_ofNat_zero a

theorem u16_add_ofNat_add (w : UInt16) (a b : Nat) :
    w + UInt16.ofNat a + UInt16.ofNat b = w + UInt16.ofNat (a + b) := by
  simp only [u16_eq_iff, u16_toNat_add, u16_toNat_ofNat, Nat.mod_add_mod, Nat.add_mod_mod]
  omega

theorem u16_sub_add_congr (w : UInt16) {a b a' b' : Nat} (h : a + b' = a' + b) :
    w - UInt16.ofNat a + UInt16.ofNat b = w - UInt16.ofNat a' + UInt16.ofNat b' := by
  have := u16_toNat_lt w
  simp only [u16_eq_iff, u16_toNat_add, u16_toNat_sub, u16_toNat_ofNat, Nat.mod_add_mod,
    Nat.add_mod_mod]
  omega

theorem u16_add_sub_add (w : UInt16) (l p i : Nat) :
    w + UInt16.ofNat l - UInt16.ofNat (p + l) + UInt16.ofNat i =
      w - UInt16.ofNat p + UInt16.ofNat i := by
  have := u16_toNat_lt w
  simp only [u16_eq_iff, u16_toNat_add, u16_toNat_sub, u16_toNat_ofNat, Nat.mod_add_mod,
    Nat.add_mod_mod]
  omega

theorem u16_sub_add_eq_add (w : UInt16) {p i : Nat} (h : p ≤ i) :
    w - UInt16.ofNat p + UInt16.ofNat i = w + UInt16.ofNat (i - p) := by
  have := u16_toNat_lt w
  simp only [u16_eq_iff, u16_toNat_add, u16_toNat_sub, u16_toNat_ofNat, Nat.mod_add_mod,
    Nat.add_mod_mod]
  omega

theorem u16_sub_add_sub (w : UInt16) {p i : Nat} (hp : p ≤ 65536) (hi : i < p) :
    (w - UInt16.ofNat p + UInt16.ofNat i - w).toNat = 65536 - p + i := by
  have := u16_toNat_lt w
  simp only [u16_toNat_add, u16_toNat_sub, u16_toNat_ofNat, Nat.mod_add_mod, Nat.add_mod_mod]
  omega

end W5500Udp
