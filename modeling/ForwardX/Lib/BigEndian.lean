/-
Big-endian byte strings of a fixed width.
-/
import Mathlib.Data.List.Induction
import Mathlib.Tactic.NormNum
import Mathlib.Tactic.Ring

namespace ForwardX.BigEndian

/-! ## Writing and reading -/

/-- The low `8 * w` bits of `n`, most significant byte first. -/
def beBytes : ℕ → ℕ → List UInt8
  | 0, _ => []
  | w + 1, n => beBytes w (n / 256) ++ [UInt8.ofNat n]

/-- A byte string read as a base-256 numeral, most significant byte first. -/
def beNat (bs : List UInt8) : ℕ := bs.foldl (fun acc b => acc * 256 + b.toNat) 0

@[simp] theorem beBytes_length (w n : ℕ) : (beBytes w n).length = w := by
  induction w generalizing n with
  | zero => rfl
  | succ w ih => simp only [beBytes, List.length_append, ih, List.length_singleton]

@[simp] theorem beNat_nil : beNat [] = 0 := rfl

theorem beNat_append_singleton (bs : List UInt8) (b : UInt8) :
    beNat (bs ++ [b]) = beNat bs * 256 + b.toNat := by
  simp only [beNat, List.foldl_append, List.foldl_cons, List.foldl_nil]

/-! ## The round trips -/

theorem beNat_beBytes (w n : ℕ) : beNat (beBytes w n) = n % 256 ^ w := by
  induction w generalizing n with
  | zero => simp only [beBytes, beNat_nil, pow_zero, Nat.mod_one]
  | succ w ih =>
    have hlow : (UInt8.ofNat n).toNat = n % 256 := UInt8.toNat_ofNat'
    rw [beBytes, beNat_append_singleton, ih, hlow, pow_succ,
      Nat.mul_comm (256 ^ w) 256, Nat.mod_mul]
    ring

theorem beNat_beBytes_of_lt {w n : ℕ} (h : n < 256 ^ w) : beNat (beBytes w n) = n := by
  rw [beNat_beBytes, Nat.mod_eq_of_lt h]

theorem beNat_lt (bs : List UInt8) : beNat bs < 256 ^ bs.length := by
  induction bs using List.reverseRecOn with
  | nil => exact Nat.one_pos
  | append_singleton bs b ih =>
    rw [beNat_append_singleton, List.length_append, List.length_singleton, pow_succ]
    have hb := b.toNat_lt
    omega

theorem beBytes_beNat (bs : List UInt8) : beBytes bs.length (beNat bs) = bs := by
  induction bs using List.reverseRecOn with
  | nil => rfl
  | append_singleton bs b ih =>
    have hb : b.toNat < 256 := b.toNat_lt
    rw [List.length_append, List.length_singleton, beBytes, beNat_append_singleton,
      show (beNat bs * 256 + b.toNat) / 256 = beNat bs by omega, ih]
    congr 2
    rw [← UInt8.toNat_inj, UInt8.toNat_ofNat']
    omega

theorem beNat_beBytes_uint64 (c : UInt64) : beNat (beBytes 8 c.toNat) = c.toNat :=
  beNat_beBytes_of_lt (lt_of_lt_of_eq c.toNat_lt (by norm_num))

theorem beBytes_uint64_inj {c c' : UInt64} : beBytes 8 c.toNat = beBytes 8 c'.toNat ↔ c = c' := by
  constructor
  · intro h
    apply UInt64.toNat_inj.mp
    rw [← beNat_beBytes_uint64 c, h, beNat_beBytes_uint64 c']
  · rintro rfl; rfl

end ForwardX.BigEndian
