import ChronyRs.Core.Rust

/-!
# Records with fields at fixed offsets

A `Codec` turns values into a fixed number of bytes and back, and carries the proof that
reading inverts writing. A record is a list of fields, each a value at an offset, written one
after the other into a zeroed array (`write`); `readAt` reads a value at an offset of a slice
and panics beyond its end.

* `readAt_returns_iff`: a read returns iff the slice is long enough.
* `write_reads`: if the fields are in order and fit, the record is written and every field
  reads back.
-/
namespace ChronyRs

/-- Values of a fixed number of bytes. -/
class Codec (α : Type) where
  size : Nat
  enc : α → Bytes
  dec : Bytes → α
  length_enc : ∀ a, (enc a).length = size
  dec_enc : ∀ a, dec (enc a) = a

namespace Layout

section
variable (α : Type) [Codec α]

/-- The value at an offset: `from_be_bytes(b[off..off + size].try_into().unwrap())`. -/
def readAt (b : Bytes) (off : Nat) : Rust α := do
  let s ← slice b off (off + Codec.size α)
  pure (Codec.dec s)

theorem readAt_returns_iff (b : Bytes) (off : Nat) :
    (readAt α b off).Returns ↔ off + Codec.size α ≤ b.length := by
  refine (returns_bind_iff fun s => ⟨_, rfl⟩).trans ?_
  constructor
  · rintro ⟨s, hs⟩
    exact (slice_eq_ok.1 hs).2.1
  · intro h
    exact ⟨_, slice_of_le (Nat.le_add_right _ _) h⟩

variable {α}

theorem readAt_of_slice {b : Bytes} {off : Nat} {a : α}
    (h : slice b off (off + Codec.size α) = .ok (Codec.enc a)) : readAt α b off = .ok a := by
  rw [readAt, h, ok_bind, Codec.dec_enc]
  rfl

theorem readAt_eq_ok {b : Bytes} {off : Nat} {a : α} : readAt α b off = .ok a ↔
    off + Codec.size α ≤ b.length ∧ Codec.dec ((b.take (off + Codec.size α)).drop off) = a := by
  constructor
  · intro h
    obtain ⟨s, hs, h⟩ := bind_eq_ok.1 h
    obtain ⟨-, hle, rfl⟩ := slice_eq_ok.1 hs
    exact ⟨hle, Except.ok.inj h⟩
  · rintro ⟨hle, rfl⟩
    rw [readAt, slice_of_le (Nat.le_add_right _ _) hle]
    rfl

end

/-! ## Records -/

structure Field where
  {α : Type}
  [codec : Codec α]
  off : Nat
  val : α

namespace Field

def size (f : Field) : Nat := f.codec.size

def bytes (f : Field) : Bytes := f.codec.enc f.val

@[simp] theorem length_bytes (f : Field) : f.bytes.length = f.size := f.codec.length_enc f.val

/-- The field reads back from a slice. -/
def Reads (b : Bytes) (f : Field) : Prop := @readAt f.α f.codec b f.off = .ok f.val

theorem reads_mk {α : Type} [Codec α] (b : Bytes) (off : Nat) (v : α) :
    Reads b ⟨off, v⟩ ↔ readAt α b off = .ok v := Iff.rfl

end Field

/-- `b[off..off + size].copy_from_slice(..)` for each field, on an array of zeros. -/
def write (n : Nat) (fs : List Field) : Rust (Buf n) :=
  fs.foldlM (fun b f => b.copyAt f.off f.bytes) (Buf.zero n)

/-- From position `pos` on the fields follow one another and end before `n`. -/
def inOrder (n : Nat) : Nat → List Field → Bool
  | pos, [] => pos ≤ n
  | pos, f :: fs => pos ≤ f.off && inOrder n (f.off + f.size) fs

variable {n : Nat} {fs : List Field}

theorem le_of_inOrder {pos : Nat} (h : inOrder n pos fs = true) : pos ≤ n := by
  induction fs generalizing pos with
  | nil => exact of_decide_eq_true h
  | cons f fs ih =>
    rw [inOrder, Bool.and_eq_true, decide_eq_true_eq] at h
    have := ih h.2
    omega

/-- The writes behind a position leave what is in front of it. -/
theorem foldlM_reads {pos : Nat} (h : inOrder n pos fs = true) (b : Buf n) :
    ∃ b', fs.foldlM (fun b f => b.copyAt f.off f.bytes) b = .ok b' ∧
      b'.bytes.take pos = b.bytes.take pos ∧ ∀ f ∈ fs, f.Reads b'.bytes := by
  induction fs generalizing pos b with
  | nil => exact ⟨b, rfl, rfl, nofun⟩
  | cons f fs ih =>
    rw [inOrder, Bool.and_eq_true, decide_eq_true_eq] at h
    have hend := le_of_inOrder h.2
    obtain ⟨b1, hb1, -⟩ := b.copyAt_of_le f.off f.bytes (by rw [f.length_bytes]; exact hend)
    obtain ⟨b2, hb2, htake, hreads⟩ := ih h.2 b1
    have hfield : slice b2.bytes f.off (f.off + f.size) = .ok f.bytes := by
      have hend1 := Buf.copyAt_take_end hb1
      rw [f.length_bytes] at hend1
      rw [slice_of_le (Nat.le_add_right _ _) (by simpa using hend), htake, hend1,
        List.drop_left' (by simp; omega)]
    refine ⟨b2, ?_, ?_, ?_⟩
    · rw [List.foldlM_cons, hb1]
      exact hb2
    · have := congrArg (List.take pos) htake
      rw [List.take_take, List.take_take, Nat.min_eq_left (by omega)] at this
      rw [this, Buf.copyAt_take hb1 h.1]
    · intro g hg
      rcases List.mem_cons.1 hg with rfl | hg
      · exact @readAt_of_slice _ g.codec _ _ _ hfield
      · exact hreads g hg

/-- **Every field reads back.** -/
theorem write_reads (h : inOrder n 0 fs = true) :
    ∃ b, write n fs = .ok b ∧ ∀ f ∈ fs, f.Reads b.bytes := by
  obtain ⟨b, hb, -, hreads⟩ := foldlM_reads h (Buf.zero n)
  exact ⟨b, hb, hreads⟩

theorem write_returns (h : inOrder n 0 fs = true) : (write n fs).Returns := by
  obtain ⟨b, hb, -⟩ := write_reads h
  exact ⟨b, hb⟩

end Layout

/-! ## Machine words -/

/-- `u16::to_be_bytes`. -/
def beU16 (x : UInt16) : Bytes := [UInt8.ofNat (x.toNat / 2 ^ 8), UInt8.ofNat x.toNat]

instance : Codec UInt8 where
  size := 1
  enc x := [x]
  dec bs := UInt8.ofNat (fromBe bs)
  length_enc _ := rfl
  dec_enc x := by simp [fromBe]

instance : Codec UInt16 where
  size := 2
  enc := beU16
  dec bs := UInt16.ofNat (fromBe bs)
  length_enc _ := rfl
  dec_enc x := by
    have := x.toNat_lt
    apply UInt16.toNat_inj.1
    simp only [fromBe, beU16, List.foldl_cons, List.foldl_nil, UInt8.toNat_ofNat',
      UInt16.toNat_ofNat']
    omega

instance : Codec UInt32 where
  size := 4
  enc := be32
  dec bs := UInt32.ofNat (fromBe bs)
  length_enc _ := rfl
  dec_enc x := by rw [fromBe_be32, UInt32.ofNat_toNat]

instance : Codec Int8 where
  size := 1
  enc x := Codec.enc x.toUInt8
  dec bs := (Codec.dec bs : UInt8).toInt8
  length_enc _ := rfl
  dec_enc x := by rw [Codec.dec_enc]; rfl

instance : Codec Int16 where
  size := 2
  enc x := Codec.enc x.toUInt16
  dec bs := (Codec.dec bs : UInt16).toInt16
  length_enc _ := rfl
  dec_enc x := by rw [Codec.dec_enc]; rfl

instance : Codec Int32 where
  size := 4
  enc x := Codec.enc x.toUInt32
  dec bs := (Codec.dec bs : UInt32).toInt32
  length_enc _ := rfl
  dec_enc x := by rw [Codec.dec_enc]; rfl

theorem size_uint32 : Codec.size UInt32 = 4 := rfl

theorem size_int32 : Codec.size Int32 = 4 := rfl

/-- `copy_from_slice` of an array. -/
instance (n : Nat) : Codec (Buf n) where
  size := n
  enc b := b.bytes
  dec bs := .ofBytes n bs
  length_enc b := b.length_bytes
  dec_enc b := by
    apply Buf.ext
    exact List.take_left' b.length_bytes

variable {b : Bytes} {off : Nat}

theorem index_of_readAt {v : UInt8} (h : Layout.readAt UInt8 b off = .ok v) :
    index b off = .ok v := by
  obtain ⟨hle, rfl⟩ := Layout.readAt_eq_ok.1 h
  have hlt : off < b.length := hle
  have hslice : (b.take (off + 1)).drop off = [b[off]] := by
    rw [List.drop_take, Nat.add_sub_cancel_left, List.drop_eq_getElem_cons hlt]
    rfl
  rw [index_of_lt hlt]
  show Except.ok b[off] = .ok (Codec.dec ((b.take (off + 1)).drop off))
  rw [hslice]
  exact congrArg Except.ok (Codec.dec_enc b[off]).symm

theorem index_of_readAt_int8 {v : Int8} (h : Layout.readAt Int8 b off = .ok v) :
    index b off = .ok v.toUInt8 := by
  obtain ⟨hle, rfl⟩ := Layout.readAt_eq_ok.1 h
  exact index_of_readAt (Layout.readAt_eq_ok.2 ⟨hle, rfl⟩)

theorem take_drop_of_readAt {n : Nat} {v : Buf n} (h : Layout.readAt (Buf n) b off = .ok v) :
    (b.take (off + n)).drop off = v.bytes := by
  obtain ⟨hle, rfl⟩ := Layout.readAt_eq_ok.1 h
  have hlen : ((b.take (off + n)).drop off).length = n := by
    have : off + n ≤ b.length := hle
    simp only [List.length_drop, List.length_take]
    omega
  exact (List.take_left' hlen).symm

end ChronyRs
