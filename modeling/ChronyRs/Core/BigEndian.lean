import Mathlib.Data.Nat.Bitwise
import ChronyRs.Core.Rust

/-!
# Big-endian numbers of any width

* `fromBe_toBe`, `toBe_fromBe`: the bytes of a number and the number of the bytes, both ways.
* `fromBe_inj`: bytes of one length are the same when they are the same number.
-/
namespace ChronyRs

/-- The `k` low bytes of a number, the highest first. -/
def toBe : Nat → Nat → Bytes
  | 0, _ => []
  | k + 1, x => UInt8.ofNat (x / 256 ^ k) :: toBe k x

@[simp] theorem toBe_length (k x : Nat) : (toBe k x).length = k := by
  induction k with
  | zero => rfl
  | succ k ih => rw [toBe, List.length_cons, ih]

theorem fromBe_foldl (bs : Bytes) (acc : Nat) :
    bs.foldl (fun acc b => acc * 2 ^ 8 + b.toNat) acc = acc * 256 ^ bs.length + fromBe bs := by
  unfold fromBe
  induction bs generalizing acc with
  | nil => simp
  | cons b bs ih =>
    rw [List.foldl_cons, List.foldl_cons, ih, ih (0 * 2 ^ 8 + b.toNat), List.length_cons, pow_succ]
    ring

@[simp] theorem fromBe_nil : fromBe [] = 0 := rfl

theorem fromBe_cons (b : UInt8) (bs : Bytes) :
    fromBe (b :: bs) = b.toNat * 256 ^ bs.length + fromBe bs := by
  have h := fromBe_foldl bs (0 * 2 ^ 8 + b.toNat)
  simpa [fromBe] using h

theorem fromBe_append (a b : Bytes) : fromBe (a ++ b) = fromBe a * 256 ^ b.length + fromBe b := by
  conv_lhs => unfold fromBe
  rw [List.foldl_append, fromBe_foldl]
  rfl

theorem fromBe_lt (bs : Bytes) : fromBe bs < 256 ^ bs.length := by
  induction bs with
  | nil => simp
  | cons b bs ih =>
    have hb : b.toNat + 1 ≤ 256 := b.toNat_lt
    calc fromBe (b :: bs) = b.toNat * 256 ^ bs.length + fromBe bs := fromBe_cons b bs
      _ < b.toNat * 256 ^ bs.length + 256 ^ bs.length := by omega
      _ = (b.toNat + 1) * 256 ^ bs.length := by ring
      _ ≤ 256 * 256 ^ bs.length := Nat.mul_le_mul_right _ hb
      _ = 256 ^ (b :: bs).length := by rw [List.length_cons, pow_succ]; ring

@[simp] theorem fromBe_toBe (k x : Nat) : fromBe (toBe k x) = x % 256 ^ k := by
  induction k with
  | zero => simp [toBe, Nat.mod_one]
  | succ k ih =>
    have hsplit : x % 256 ^ (k + 1) = x % 256 ^ k + 256 ^ k * (x / 256 ^ k % 256) := by
      rw [Nat.pow_succ, Nat.mod_mul]
    rw [toBe, fromBe_cons, ih, toBe_length, UInt8.toNat_ofNat', hsplit, Nat.add_comm, Nat.mul_comm]

/-- Bytes of one length are the same when they are the same number. -/
theorem fromBe_inj {a b : Bytes} (hl : a.length = b.length) (h : fromBe a = fromBe b) : a = b := by
  induction a generalizing b with
  | nil => exact (List.length_eq_zero_iff.1 hl.symm).symm
  | cons x xs ih =>
    cases b with
    | nil => cases hl
    | cons y ys =>
      have hlen : xs.length = ys.length := Nat.succ.inj hl
      rw [fromBe_cons, fromBe_cons, ← hlen] at h
      have hx := fromBe_lt xs
      have hy := fromBe_lt ys
      rw [← hlen] at hy
      have hpos : 0 < 256 ^ xs.length := Nat.pow_pos (by decide)
      have hhigh : x.toNat = y.toNat := by
        have h1 := congrArg (· / 256 ^ xs.length) h
        simpa [Nat.mul_comm _ (256 ^ xs.length), Nat.mul_add_div hpos, Nat.div_eq_of_lt hx,
          Nat.div_eq_of_lt hy] using h1
      rw [hhigh] at h
      rw [UInt8.toNat_inj.1 hhigh, ih hlen (by omega)]

theorem toBe_fromBe {bs : Bytes} {k : Nat} (h : bs.length = k) : toBe k (fromBe bs) = bs := by
  refine fromBe_inj ((toBe_length _ _).trans h.symm) ?_
  rw [fromBe_toBe, ← h, Nat.mod_eq_of_lt (fromBe_lt bs)]

end ChronyRs
