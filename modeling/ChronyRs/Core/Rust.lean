import Mathlib.Data.List.Basic
import Mathlib.Tactic.Ring

/-!
# Outcomes of Rust code: values, panics, slices, machine integers

A function that can panic returns `Rust α`: `.ok a` when it returns `a`, or
the panic that stopped it. Indexing (`index`), slicing (`slice`) and
`copy_from_slice` (`Buf.copyAt`) panic out of range exactly as in Rust, and
`i32` is the overflow check of `overflow-checks = true`. A loop that is
modelled with fuel panics with `Panic.fuel` when the fuel runs out, so "never
panics" also says that it terminates.

* `Bytes` is an immutable byte slice; `Buf n` is a `&mut [u8]` of `n` bytes,
  which no write can lengthen or shorten.
* `i32` values are `Int`, `usize` values are `Nat`; `asI32` / `asUsize` are the
  wrapping `as` casts between them.
* `be16` / `fromBe16` and friends are the big-endian codecs.

`mirrors f.rs:a-b` cites lines of `crates/chrony-rs-core/src/f.rs`; a file of another crate is cited
with the name of the crate.
-/
namespace ChronyRs

abbrev Bytes := List UInt8

inductive Panic where
  | index | slice | overflow | divisionByZero | unwrap | assertion | fuel
  deriving DecidableEq, Repr

abbrev Rust (α : Type) := Except Panic α

namespace Rust

variable {α β : Type}

@[simp] theorem pure_eq (a : α) : (pure a : Rust α) = .ok a := rfl

@[simp] theorem throw_eq (e : Panic) : (throw e : Rust α) = .error e := rfl

@[simp] theorem ok_bind (a : α) (f : α → Rust β) : ((.ok a : Rust α) >>= f) = f a := rfl

@[simp] theorem error_bind (e : Panic) (f : α → Rust β) :
    ((.error e : Rust α) >>= f) = .error e := rfl

variable {x : Rust α} {f : α → Rust β} {l : List α}

theorem bind_eq_ok {b : β} :
    (x >>= f) = .ok b ↔ ∃ a, x = .ok a ∧ f a = .ok b := by
  cases x with
  | ok a => simp
  | error e => simp

/-- The code returns: it neither panics nor loops for ever. -/
def Returns (x : Rust α) : Prop := ∃ a, x = .ok a

theorem returns_ok (a : α) : Returns (.ok a : Rust α) := ⟨a, rfl⟩

theorem not_returns_error (e : Panic) : ¬ Returns (.error e : Rust α) := by
  rintro ⟨a, h⟩; cases h

theorem not_returns_iff : ¬ Returns x ↔ ∃ e, x = .error e := by
  cases x with
  | ok a => simp [returns_ok]
  | error e => simp [not_returns_error]

theorem returns_bind (hx : Returns x) (hf : ∀ a, x = .ok a → Returns (f a)) :
    Returns (x >>= f) := by
  obtain ⟨a, rfl⟩ := hx
  exact hf a rfl

theorem returns_bind_iff (hf : ∀ a, Returns (f a)) :
    Returns (x >>= f) ↔ Returns x := by
  constructor
  · rintro ⟨b, hb⟩
    obtain ⟨a, ha, -⟩ := bind_eq_ok.1 hb
    exact ⟨a, ha⟩
  · exact fun hx => returns_bind hx fun a _ => hf a

theorem returns_pure (a : α) : Returns (pure a : Rust α) ↔ True := iff_true_intro ⟨a, rfl⟩

theorem exists_ok : (∃ a, x = .ok a) ↔ Returns x := Iff.rfl

theorem returns_bind_exists :
    Returns (x >>= f) ↔ ∃ a, x = .ok a ∧ Returns (f a) := by
  cases x with
  | ok a => simp
  | error e => simp [not_returns_error]

/-- `assert!`. -/
def assert (p : Prop) [Decidable p] : Rust Unit := if p then .ok () else .error .assertion

theorem assert_of {p : Prop} [Decidable p] (h : p) : Rust.assert p = .ok () := if_pos h

/-- A call whose result is known by evaluation returns some state with that result. -/
theorem exists_of_result {x : Rust (α × β)} {b : β} (h : x.toOption.map Prod.snd = some b) :
    ∃ a, x = .ok (a, b) := by
  cases x with
  | error e => cases h
  | ok p => exact ⟨p.1, by rw [← Option.some.inj h]⟩

/-- A call that returns, with what is known of its result by evaluation. -/
theorem exists_of_check {p : α → Bool} (h : x.toOption.any p = true) :
    ∃ a, x = .ok a ∧ p a = true := by
  cases x with
  | error e => cases h
  | ok a => exact ⟨a, rfl, h⟩

theorem mapM_eq_ok {g : α → β} (h : ∀ a ∈ l, f a = .ok (g a)) :
    l.mapM f = .ok (l.map g) := by
  induction l with
  | nil => rfl
  | cons a l ih =>
    rw [List.forall_mem_cons] at h
    rw [List.mapM_cons, h.1, ok_bind, ih h.2]
    rfl

theorem returns_mapM (h : ∀ a ∈ l, Returns (f a)) : Returns (l.mapM f) := by
  induction l with
  | nil => exact ⟨[], rfl⟩
  | cons a l ih =>
    rw [List.forall_mem_cons] at h
    rw [List.mapM_cons]
    exact returns_bind h.1 fun _ _ => returns_bind (ih h.2) fun _ _ => returns_ok _

theorem eq_map_of_mapM {g : α → β} (hg : ∀ a b, f a = .ok b → b = g a) {bs : List β}
    (h : l.mapM f = .ok bs) : bs = l.map g := by
  induction l generalizing bs with
  | nil => cases h; rfl
  | cons a l ih =>
    rw [List.mapM_cons] at h
    obtain ⟨b, hb, h⟩ := bind_eq_ok.1 h
    obtain ⟨bs, hbs, h⟩ := bind_eq_ok.1 h
    cases h
    rw [List.map_cons, hg a b hb, ih hbs]

theorem length_of_mapM {bs : List β} (h : l.mapM f = .ok bs) :
    bs.length = l.length := by
  induction l generalizing bs with
  | nil => cases h; rfl
  | cons a l ih =>
    rw [List.mapM_cons] at h
    obtain ⟨b, -, h⟩ := bind_eq_ok.1 h
    obtain ⟨bs', hbs, h⟩ := bind_eq_ok.1 h
    cases h
    rw [List.length_cons, List.length_cons, ih hbs]

end Rust

export Rust
  (bind_eq_ok ok_bind pure_eq returns_ok returns_bind returns_bind_iff not_returns_error
  not_returns_iff assert_of exists_of_check exists_of_result returns_mapM mapM_eq_ok)

/-! ## Slices -/

section
variable {α : Type}

/-- `b[i]`. -/
def index (b : List α) (i : Nat) : Rust α :=
  match b[i]? with
  | some v => .ok v
  | none => .error .index

/-- `b[i] = v`. -/
def store (b : List α) (i : Nat) (v : α) : Rust (List α) :=
  if i < b.length then .ok (b.set i v) else .error .index

variable {b : List α} {i lo hi : Nat}

theorem store_of_lt (h : i < b.length) (v : α) : store b i v = .ok (b.set i v) := if_pos h

/-- `b[lo..hi]`. -/
def slice (b : List α) (lo hi : Nat) : Rust (List α) :=
  if lo ≤ hi ∧ hi ≤ b.length then .ok ((b.take hi).drop lo) else .error .slice

theorem index_eq_ok {v : α} : index b i = .ok v ↔ b[i]? = some v := by
  unfold index
  cases b[i]? <;> simp

theorem index_of_lt (h : i < b.length) : index b i = .ok b[i] := by
  rw [index_eq_ok]; exact List.getElem?_eq_getElem h

theorem index_returns (h : i < b.length) : Rust.Returns (index b i) :=
  ⟨_, index_of_lt h⟩

theorem index_take {n : Nat} (h : i < n) : index (b.take n) i = index b i := by
  unfold index; rw [List.getElem?_take_of_lt h]

theorem index_append_right {a : List α} :
    index (a ++ b) (a.length + i) = index b i := by
  unfold index
  rw [List.getElem?_append_right (by omega)]
  congr 2
  omega

theorem slice_of_le (h1 : lo ≤ hi) (h2 : hi ≤ b.length) :
    slice b lo hi = .ok ((b.take hi).drop lo) := if_pos ⟨h1, h2⟩

theorem slice_eq_ok {s : List α} :
    slice b lo hi = .ok s ↔ lo ≤ hi ∧ hi ≤ b.length ∧ s = (b.take hi).drop lo := by
  unfold slice
  split
  · rename_i h; simp [h.1, h.2, eq_comm]
  · rename_i h
    simp only [reduceCtorEq, false_iff, not_and]
    intro h1 h2; exact absurd ⟨h1, h2⟩ h

theorem take_drop_take {n : Nat} (h : hi ≤ n) :
    ((b.take n).take hi).drop lo = (b.take hi).drop lo := by
  rw [List.take_take, Nat.min_eq_left h]

theorem take_eq_of_used {pre : List α} {k : Nat} (h : pre <+: b) (hk : k ≤ pre.length) :
    b.take k = pre.take k := by
  obtain ⟨t, rfl⟩ := h
  exact List.take_append_of_le_length hk

theorem take_drop_append (a m c : List α) :
    ((a ++ m ++ c).take (a.length + m.length)).drop a.length = m := by
  rw [← List.length_append, List.take_left, List.drop_left]

end

/-! ## Mutable slices -/

/-- A `&mut [u8]` of `n` bytes. -/
structure Buf (n : Nat) where
  bytes : Bytes
  length_eq : bytes.length = n
  deriving DecidableEq

namespace Buf

variable {n : Nat}

@[ext] theorem ext {a b : Buf n} (h : a.bytes = b.bytes) : a = b := by
  cases a; cases b; congr

@[simp] theorem length_bytes (b : Buf n) : b.bytes.length = n := b.length_eq

/-- `vec![0u8; n]`. -/
def zero (n : Nat) : Buf n := ⟨List.replicate n 0, List.length_replicate⟩

/-- `bs`, cut off or padded with zeros to `n` bytes. -/
def ofBytes (n : Nat) (bs : Bytes) : Buf n := ⟨(bs ++ List.replicate n 0).take n, by simp⟩

/-- `b[off..off + src.len()].copy_from_slice(src)`. -/
def copyAt (b : Buf n) (off : Nat) (src : Bytes) : Rust (Buf n) :=
  if h : off + src.length ≤ n then
    .ok ⟨b.bytes.take off ++ src ++ b.bytes.drop (off + src.length), by simp; omega⟩
  else .error .slice

/-- `for x in &mut b[lo..hi] { *x = 0 }`. -/
def zeroRange (b : Buf n) (lo hi : Nat) : Rust (Buf n) :=
  if lo ≤ hi then b.copyAt lo (List.replicate (hi - lo) 0) else .error .slice

/-- `&mut b[lo..lo + len]`, handed to a callee. -/
def sub (b : Buf n) (lo len : Nat) : Rust (Buf len) :=
  if h : lo + len ≤ n then .ok ⟨(b.bytes.drop lo).take len, by simp; omega⟩ else .error .slice

/-- A callee that got the whole slice left `bs` in it (`bs` of another length
cannot happen to a slice and is ignored). -/
def overwrite (b : Buf n) (bs : Bytes) : Buf n := if h : bs.length = n then ⟨bs, h⟩ else b

theorem overwrite_bytes (b : Buf n) {bs : Bytes} (h : bs.length = n) :
    (b.overwrite bs).bytes = bs := by
  unfold overwrite; rw [dif_pos h]

theorem sub_of_le (b : Buf n) {lo len : Nat} (h : lo + len ≤ n) : ∃ s, b.sub lo len = .ok s :=
  ⟨_, dif_pos h⟩

theorem copyAt_of_le (b : Buf n) (off : Nat) (src : Bytes) (h : off + src.length ≤ n) :
    ∃ b', b.copyAt off src = .ok b' ∧
      b'.bytes = b.bytes.take off ++ src ++ b.bytes.drop (off + src.length) := by
  refine ⟨_, dif_pos h, rfl⟩

variable {b' : Buf n} {off k : Nat} {src : Bytes}

theorem copyAt_eq_ok {b : Buf n} (h : b.copyAt off src = .ok b') :
    off + src.length ≤ n ∧
      b'.bytes = b.bytes.take off ++ src ++ b.bytes.drop (off + src.length) := by
  unfold copyAt at h
  split at h
  · rename_i hle; cases h; exact ⟨hle, rfl⟩
  · cases h

theorem copyAt_take {b : Buf n} (h : b.copyAt off src = .ok b') (hk : k ≤ off) :
    b'.bytes.take k = b.bytes.take k := by
  obtain ⟨hle, e⟩ := copyAt_eq_ok h
  rw [e, List.append_assoc, List.take_append_of_le_length (by simp; omega), List.take_take,
    Nat.min_eq_left hk]

theorem copyAt_take_end {b : Buf n} (h : b.copyAt off src = .ok b') :
    b'.bytes.take (off + src.length) = b.bytes.take off ++ src := by
  obtain ⟨hle, e⟩ := copyAt_eq_ok h
  have hl : (b.bytes.take off ++ src).length = off + src.length := by simp; omega
  rw [e, ← hl, List.take_left]

/-- Two adjacent pieces, the second one written first. -/
theorem copyAt_adjacent {b b1 b2 : Buf n} {fst snd : Bytes}
    (h1 : b.copyAt (off + fst.length) snd = .ok b1) (h2 : b1.copyAt off fst = .ok b2) :
    b2.bytes.take (off + fst.length + snd.length) = b.bytes.take off ++ fst ++ snd := by
  obtain ⟨hle, e1⟩ := copyAt_eq_ok h1
  obtain ⟨-, e2⟩ := copyAt_eq_ok h2
  have hdrop : b1.bytes.drop (off + fst.length) = snd ++ b.bytes.drop
      (off + fst.length + snd.length) := by
    rw [e1, List.append_assoc, List.drop_left' (by simp; omega)]
  rw [e2, hdrop, copyAt_take h1 (Nat.le_add_right _ _), ← List.append_assoc]
  exact List.take_left' (by simp; omega)

/-- A write right behind a known prefix extends it. -/
theorem copyAt_extends (b : Buf n) {pre : Bytes} (hp : pre <+: b.bytes)
    (hfit : pre.length + src.length ≤ n) :
    ∃ b', b.copyAt pre.length src = .ok b' ∧ pre ++ src <+: b'.bytes := by
  obtain ⟨b', hb, e⟩ := b.copyAt_of_le pre.length src hfit
  refine ⟨b', hb, ?_⟩
  obtain ⟨rest, hr⟩ := hp
  rw [e, ← hr, List.take_left]
  exact List.prefix_append _ _

theorem zeroRange_extends (b : Buf n) {pre : Bytes} (hp : pre <+: b.bytes)
    (hfit : pre.length + k ≤ n) : ∃ b', b.zeroRange pre.length (pre.length + k) = .ok b' ∧
      pre ++ List.replicate k 0 <+: b'.bytes := by
  obtain ⟨b', hb, h⟩ := b.copyAt_extends hp
    (show pre.length + (List.replicate k (0 : UInt8)).length ≤ n by simpa using hfit)
  refine ⟨b', ?_, h⟩
  unfold zeroRange
  rw [if_pos (by omega), show pre.length + k - pre.length = k by omega]
  exact hb

theorem zeroRange_take {b : Buf n} {lo hi : Nat} (h : b.zeroRange lo hi = .ok b') (hk : k ≤ lo) :
    b'.bytes.take k = b.bytes.take k := by
  unfold zeroRange at h
  split at h
  · exact copyAt_take h hk
  · cases h

end Buf

/-! ## Machine integers -/

/-- The range of an `i32`. -/
abbrev InI32 (x : Int) : Prop := -2 ^ 31 ≤ x ∧ x < 2 ^ 31

/-- The range of an `i64`. -/
abbrev InI64 (x : Int) : Prop := -2 ^ 63 ≤ x ∧ x < 2 ^ 63

/-- The result of an `i32` operation, or the overflow panic. -/
def i32 (x : Int) : Rust Int := if InI32 x then .ok x else .error .overflow

variable {x : Int}

theorem i32_of_range (h1 : -2 ^ 31 ≤ x) (h2 : x < 2 ^ 31) : i32 x = .ok x :=
  if_pos ⟨h1, h2⟩

theorem i32_eq_ok {y : Int} (h : i32 x = .ok y) : y = x ∧ -2 ^ 31 ≤ x ∧ x < 2 ^ 31 := by
  unfold i32 at h
  split at h
  · rename_i hr; cases h; exact ⟨rfl, hr⟩
  · cases h

/-- The result of an `i64` operation, or the overflow panic. -/
def i64 (x : Int) : Rust Int := if InI64 x then .ok x else .error .overflow

theorem i64_of_range (h1 : -2 ^ 63 ≤ x) (h2 : x < 2 ^ 63) : i64 x = .ok x := if_pos ⟨h1, h2⟩

theorem i64_eq_ok {y : Int} (h : i64 x = .ok y) : y = x := by
  unfold i64 at h
  split at h
  · cases h
    rfl
  · cases h

/-- The result of an unsigned subtraction, or the overflow panic. -/
def usub (a b : Nat) : Rust Nat := if b ≤ a then .ok (a - b) else .error .overflow

theorem usub_of_le {a b : Nat} (h : b ≤ a) : usub a b = .ok (a - b) := if_pos h

/-- The result of a `u32` addition or multiplication, or the overflow panic. -/
def u32 (n : Nat) : Rust Nat := if n < 2 ^ 32 then .ok n else .error .overflow

theorem u32_of_lt {n : Nat} (h : n < 2 ^ 32) : u32 n = .ok n := if_pos h

/-- `n as i32` for `n : usize`. -/
def asI32 (n : Nat) : Int := Int.bmod n (2 ^ 32)

theorem asI32_of_lt {n : Nat} (h : n < 2 ^ 31) : asI32 n = n := by
  unfold asI32
  rw [Int.bmod_eq_of_le] <;> omega

theorem asI32_range (n : Nat) : -2 ^ 31 ≤ asI32 n ∧ asI32 n < 2 ^ 31 := by
  unfold asI32
  have h1 := Int.le_bmod (x := (n : Int)) (m := 2 ^ 32) (by decide)
  have h2 := Int.bmod_lt (x := (n : Int)) (m := 2 ^ 32) (by decide)
  constructor <;> omega

theorem asI32_le (n : Nat) : asI32 n ≤ n := by
  unfold asI32
  rw [Int.bmod_def]
  split <;> omega

/-- `x as usize` for `x : i32`. -/
def asUsize (x : Int) : Nat := (x % 2 ^ 64).toNat

theorem asUsize_of_nonneg (h0 : 0 ≤ x) (h1 : x < 2 ^ 31) : asUsize x = x.toNat := by
  unfold asUsize
  rw [Int.emod_eq_of_lt h0 (by omega)]

/-! ## Big-endian words -/

/-- `(x as u16).to_be_bytes()`. -/
def be16 (x : Int) : Bytes :=
  [UInt8.ofNat ((x % 2 ^ 16).toNat / 2 ^ 8), UInt8.ofNat (x % 2 ^ 16).toNat]

/-- `u16::from_be_bytes([a, b]) as i32`. -/
def fromBe16 (a b : UInt8) : Int := a.toNat * 2 ^ 8 + b.toNat

@[simp] theorem be16_length (x : Int) : (be16 x).length = 2 := rfl

theorem fromBe16_range (a b : UInt8) : 0 ≤ fromBe16 a b ∧ fromBe16 a b < 2 ^ 16 := by
  have := a.toNat_lt; have := b.toNat_lt
  unfold fromBe16; constructor <;> omega

theorem fromBe16_be16 (h0 : 0 ≤ x) (h1 : x < 2 ^ 16) :
    fromBe16 (UInt8.ofNat ((x % 2 ^ 16).toNat / 2 ^ 8)) (UInt8.ofNat (x % 2 ^ 16).toNat) = x := by
  unfold fromBe16
  rw [UInt8.toNat_ofNat', UInt8.toNat_ofNat', Int.emod_eq_of_lt h0 h1]
  omega

/-- `u32::to_be_bytes`. -/
def be32 (x : UInt32) : Bytes :=
  [UInt8.ofNat (x.toNat / 2 ^ 24), UInt8.ofNat (x.toNat / 2 ^ 16), UInt8.ofNat (x.toNat / 2 ^ 8),
    UInt8.ofNat x.toNat]

@[simp] theorem be32_length (x : UInt32) : (be32 x).length = 4 := rfl

/-- `from_be_bytes` of any width, on the bytes of the word. -/
def fromBe (bs : Bytes) : Nat := bs.foldl (fun acc b => acc * 2 ^ 8 + b.toNat) 0

theorem fromBe_be32 (x : UInt32) : fromBe (be32 x) = x.toNat := by
  have := x.toNat_lt
  simp only [fromBe, be32, List.foldl_cons, List.foldl_nil, UInt8.toNat_ofNat']
  omega

theorem be32_inj {x y : UInt32} : be32 x = be32 y ↔ x = y :=
  ⟨fun h => UInt32.toNat_inj.1 (by rw [← fromBe_be32, h, fromBe_be32]), congrArg be32⟩

end ChronyRs
