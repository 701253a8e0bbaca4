import ChronyRs.L4Cmd.Wire

/-!
# Control messages of a socket (`socket.rs`)

`add_control_message` writes a header and makes room for the data, rounded up to a multiple of 8;
`parse_control_data` walks over the messages it has received and takes over those it knows.

* `walk_eq`: one round of the walk, for any use of the messages.
* `visited_appendAll`: messages that were added are visited in order.
-/
namespace ChronyRs.L5.Socket

open L4.Cmd

/-! ## Little-endian words -/

/-- `to_le_bytes` of any width. -/
def toLe : Nat → Nat → Bytes
  | 0, _ => []
  | k + 1, n => UInt8.ofNat n :: toLe k (n / 256)

/-- `from_le_bytes` of any width. -/
def fromLe : Bytes → Nat
  | [] => 0
  | b :: bs => b.toNat + 256 * fromLe bs

@[simp] theorem length_toLe (k n : Nat) : (toLe k n).length = k := by
  induction k generalizing n with
  | zero => rfl
  | succ k ih => rw [toLe, List.length_cons, ih]

theorem fromLe_toLe (k n : Nat) (h : n < 256 ^ k) : fromLe (toLe k n) = n := by
  induction k generalizing n with
  | zero =>
    rw [pow_zero] at h
    exact (Nat.lt_one_iff.1 h).symm
  | succ k ih =>
    rw [toLe, fromLe, ih _ (by rw [pow_succ] at h; omega), UInt8.toNat_ofNat']
    omega

/-! ## The parser -/

/-- The result of a `usize` operation, or the overflow panic. -/
def usize (n : Nat) : Rust Nat := if n < 2 ^ 64 then .ok n else .error .overflow

/-- mirrors socket.rs:182-184 -/
def cmsgAlign (x : Nat) : Rust Nat := do return (← usize (x + 7)) / 8 * 8

/-- `off + cmsg_align(len)` -/
def reach (off len : Nat) : Rust Nat := do usize (off + (← cmsgAlign len))

section
variable (control : Bytes)

def le (o width : Nat) : Rust Nat := do return fromLe (← slice control o (o + width))

def le64 (o : Nat) : Rust Int := do return Int.bmod (← le control o 8) (2 ^ 64)

def le32 (o : Nat) : Rust Int32 := do return (UInt32.ofNat (← le control o 4)).toInt32

def be32At (o : Nat) : Rust UInt32 := do return UInt32.ofNat (fromBe (← slice control o (o + 4)))

/-- mirrors socket.rs:189-200 -/
structure ControlData where
  localAddr : IPAddr
  ifIndex : Int32
  l2Length : Int32
  kernelTs : Int × Int
  hwTs : Int × Int

/-- mirrors socket.rs:203-211 -/
def ControlData.default : ControlData := ⟨.unspec, 0, 0, (0, 0), (0, 0)⟩

structure Cmsg where
  off : Nat
  len : Nat
  level : Int32
  ctype : Int32
  deriving DecidableEq

/-- mirrors socket.rs:240-242, for a data length that is not 0 -/
def Cmsg.Matches (m : Cmsg) (wl wt : Int32) (wdl : Nat) : Prop :=
  m.ctype = wt ∧ m.level = wl ∧ m.len = 16 + wdl

instance decidableMatches (m : Cmsg) (wl wt : Int32) (wdl : Nat) :
    Decidable (m.Matches wl wt wdl) :=
  inferInstanceAs (Decidable (_ ∧ _))

/-- mirrors socket.rs:244-258 -/
def extract (cd : ControlData) (m : Cmsg) : Rust ControlData := do
  let d := m.off + 16
  if m.Matches 0 8 12 then
    return { cd with ifIndex := ← le32 control d, localAddr := .inet4 (← be32At control (d + 8)) }
  else if m.Matches 41 50 20 then
    return { cd with
      localAddr := .inet6 (.ofBytes 16 (← slice control d (d + 16)))
      ifIndex := ← le32 control (d + 16) }
  else if m.Matches 1 29 16 then
    return { cd with kernelTs := (← le64 control d, ← i64 ((← le64 control (d + 8)) * 1000)) }
  else if m.Matches 1 58 16 then
    return { cd with ifIndex := ← le32 control d, l2Length := ← le32 control (d + 4) }
  else if m.Matches 1 37 48 then
    return { cd with
      kernelTs := (← le64 control d, ← le64 control (d + 8)),
      hwTs := (← le64 control (d + 32), ← le64 control (d + 40)) }
  else return cd

variable {σ : Type} (handle : σ → Cmsg → Rust σ)

/-- The walk, for any use of the messages. A slice is shorter than 2^63 bytes, so that only a sum
with a length that was read can overflow.
mirrors socket.rs:231-270 -/
def walk : Nat → σ → Nat → Rust σ
  | 0, _, _ => .error .fuel
  | fuel + 1, s, off => do
    let len ← le control off 8
    let level ← le32 control (off + 8)
    let ctype ← le32 control (off + 12)
    if len < 16 then return s
    else if control.length < (← reach off len) then return s
    else
      let s ← handle s ⟨off, len, level, ctype⟩
      let next ← reach off len
      if control.length < next + 16 then return s
      else if control.length < (← reach next (← le control next 8)) then return s
      else walk fuel s next

/-- mirrors socket.rs:219-272 -/
def walkControl (s : σ) : Rust σ :=
  if control.length < 16 then return s else walk control handle control.length s 0

def parseControlData : Rust ControlData := walkControl control (extract control) .default

def visited : Rust (List Cmsg) := walkControl control (fun seen m => .ok (seen ++ [m])) []

end

/-! ## The buffer of a message that is sent -/

/-- mirrors socket.rs:404-407 -/
structure ControlBuffer (cap : Nat) where
  buf : Buf cap
  controllen : Nat

/-- mirrors socket.rs:411-413 -/
def ControlBuffer.new (cap : Nat) : ControlBuffer cap := ⟨Buf.zero cap, 0⟩

/-- mirrors socket.rs:416-418 -/
def ControlBuffer.bytes {cap : Nat} (c : ControlBuffer cap) : Bytes := c.buf.bytes.take c.controllen

/-- mirrors socket.rs:430-445 -/
def ControlBuffer.addControlMessage {cap : Nat} (c : ControlBuffer cap) (level ctype : Int32)
    (length : Nat) : Rust (Option (Nat × ControlBuffer cap)) := do
  let space ← cmsgAlign (← usize (16 + length))
  if cap < length then return none
  else if cap < (← usize (c.controllen + space)) then return none
  else
    let base := c.controllen
    let buf ← c.buf.zeroRange base (base + space)
    let buf ← buf.copyAt base (toLe 8 (16 + length))
    let buf ← buf.copyAt (base + 8) (toLe 4 level.toUInt32.toNat)
    let buf ← buf.copyAt (base + 12) (toLe 4 ctype.toUInt32.toNat)
    return some (base + 16, ⟨buf, base + space⟩)

structure Message where
  level : Int32
  ctype : Int32
  data : Bytes

/-- A message is added and its data is written.
mirrors socket.rs:447-449 -/
def ControlBuffer.append {cap : Nat} (c : ControlBuffer cap) (m : Message) :
    Rust (Option (ControlBuffer cap)) := do
  match ← c.addControlMessage m.level m.ctype m.data.length with
  | none => return none
  | some (off, c) => return some { c with buf := ← c.buf.copyAt off m.data }

/-- Messages are added one after the other, as long as they fit. -/
def ControlBuffer.appendAll {cap : Nat} : ControlBuffer cap → List Message →
    Rust (Option (ControlBuffer cap))
  | c, [] => return some c
  | c, m :: ms => do
    match ← c.append m with
    | none => return none
    | some c => c.appendAll ms

/-! ## One round of the walk -/

def align (x : Nat) : Nat := (x + 7) / 8 * 8

theorem reach_eq (off len : Nat) :
    reach off len =
      if off + align len < 2 ^ 64 then .ok (off + align len) else .error .overflow := by
  rw [reach, cmsgAlign, usize]
  by_cases hlen : len + 7 < 2 ^ 64
  · rw [if_pos hlen]
    rfl
  · rw [if_neg hlen, if_neg (by rw [align]; omega)]
    rfl

section
variable (control : Bytes)

def lenAt (o : Nat) : Nat := fromLe ((control.take (o + 8)).drop o)

def wordAt (o : Nat) : Int32 := (UInt32.ofNat (fromLe ((control.take (o + 4)).drop o))).toInt32

def cmsgAt (o : Nat) : Cmsg := ⟨o, lenAt control o, wordAt control (o + 8), wordAt control (o + 12)⟩

end

section
variable {control : Bytes} {o off : Nat}

theorem le_eq {width : Nat} (h : o + width ≤ control.length) :
    le control o width = .ok (fromLe ((control.take (o + width)).drop o)) := by
  rw [le, slice_of_le (Nat.le_add_right o width) h]
  rfl

theorem lenAt_eq (h : o + 8 ≤ control.length) : le control o 8 = .ok (lenAt control o) := le_eq h

theorem le32_eq (h : o + 4 ≤ control.length) : le32 control o = .ok (wordAt control o) := by
  rw [le32, le_eq h]
  rfl

theorem le64_eq (h : o + 8 ≤ control.length) :
    le64 control o = .ok (Int.bmod (lenAt control o) (2 ^ 64)) := by
  rw [le64, le_eq h]
  rfl

theorem be32At_eq (h : o + 4 ≤ control.length) :
    be32At control o = .ok (UInt32.ofNat (fromBe ((control.take (o + 4)).drop o))) := by
  rw [be32At, slice_of_le (Nat.le_add_right o 4) h]
  rfl

variable {σ : Type} {handle : σ → Cmsg → Rust σ}

theorem walk_head {fuel : Nat} {s : σ} (hoff : off + 16 ≤ control.length) :
    walk control handle (fuel + 1) s off =
      if lenAt control off < 16 then .ok s
      else reach off (lenAt control off) >>= fun stop => if control.length < stop then .ok s
      else handle s (cmsgAt control off) >>= fun s => reach off (lenAt control off) >>= fun next =>
        if control.length < next + 16 then .ok s
        else le control next 8 >>= fun len => reach next len >>= fun stop =>
          if control.length < stop then .ok s else walk control handle fuel s next := by
  rw [walk, lenAt_eq (by omega), ok_bind, le32_eq (by omega), ok_bind, le32_eq (by omega), ok_bind]
  rfl

/-- The walk looks at the length of the next header twice, before it goes on to it and there. -/
theorem walk_eq {fuel : Nat} {s : σ} (hsize : control.length < 2 ^ 63)
    (hoff : off + 16 ≤ control.length) (hfuel : control.length ≤ off + (fuel + 1)) :
    walk control handle (fuel + 1) s off = reach off (lenAt control off) >>= fun next =>
      if lenAt control off < 16 ∨ control.length < next then .ok s
      else handle s (cmsgAt control off) >>= fun s =>
        if control.length < next + 16 then .ok s else walk control handle fuel s next := by
  rw [walk_head hoff, reach_eq]
  by_cases hshort : lenAt control off < 16
  · rw [if_pos hshort, if_pos (by rw [align]; omega), ok_bind, if_pos (.inl hshort)]
  rw [if_neg hshort]
  by_cases hover : off + align (lenAt control off) < 2 ^ 64
  swap
  · rw [if_neg hover]
    rfl
  rw [if_pos hover, ok_bind, ok_bind]
  by_cases hend : control.length < off + align (lenAt control off)
  · rw [if_pos hend, if_pos (.inr hend)]
  rw [if_neg hend, if_neg (not_or.2 ⟨hshort, hend⟩)]
  refine bind_congr fun s' => ?_
  have hprogress : off + 16 ≤ off + align (lenAt control off) := by
    rw [align]
    omega
  generalize off + align (lenAt control off) = next at *
  rw [ok_bind]
  by_cases hlast : control.length < next + 16
  · rw [if_pos hlast, if_pos hlast]
  obtain ⟨fuel, rfl⟩ := Nat.exists_eq_add_one.2 (show 0 < fuel by omega)
  rw [if_neg hlast, if_neg hlast, lenAt_eq (by omega), ok_bind, walk_head (by omega), reach_eq]
  by_cases hover' : next + align (lenAt control next) < 2 ^ 64
  · rw [if_pos hover', ok_bind, ok_bind]
    by_cases hend' : control.length < next + align (lenAt control next)
    · rw [if_pos hend', if_pos hend', ite_self]
    · rw [if_neg hend']
  · rw [if_neg hover', if_neg (by rw [align] at hover'; omega)]
    rfl

end

/-! ## Messages that were added -/

def encode (m : Message) : Bytes :=
  toLe 8 (16 + m.data.length) ++ (toLe 4 m.level.toUInt32.toNat ++ (toLe 4 m.ctype.toUInt32.toNat ++
    (m.data ++ List.replicate (align (16 + m.data.length) - (16 + m.data.length)) 0)))

@[simp] theorem length_encode (m : Message) : (encode m).length = align (16 + m.data.length) := by
  simp only [encode, List.length_append, length_toLe, List.length_replicate, align]
  omega

def headers : Nat → List Message → List Cmsg
  | _, [] => []
  | off, m :: ms =>
    ⟨off, 16 + m.data.length, m.level, m.ctype⟩ :: headers (off + align (16 + m.data.length)) ms

variable {n cap : Nat} {pre : Bytes}

/-- A write over bytes behind a known prefix. -/
theorem copyAt_over {off : Nat} {b b' : Buf n} {old src rest : Bytes}
    (h : b.copyAt off src = .ok b') (hp : pre ++ (old ++ rest) <+: b.bytes)
    (hoff : off = pre.length) (hlen : src.length = old.length) :
    pre ++ (src ++ rest) <+: b'.bytes := by
  obtain ⟨-, e⟩ := Buf.copyAt_eq_ok h
  obtain ⟨t, ht⟩ := hp
  subst hoff
  have hb : b.bytes = pre ++ (old ++ (rest ++
      t)) := by rw [← ht, List.append_assoc, List.append_assoc]
  have hdrop : (pre ++ (old ++ (rest ++ t))).drop (pre.length + old.length) = rest ++ t := by
    rw [← List.append_assoc, ← List.length_append, List.drop_left]
  refine ⟨t, ?_⟩
  rw [e, hb, List.take_left, hlen, hdrop]
  simp only [List.append_assoc]

theorem usize_eq_ok {m : Nat} (h : usize n = .ok m) : m = n := by
  rw [usize] at h
  split at h
  · cases h
    rfl
  · cases h

theorem cmsgAlign_eq_ok {x y : Nat} (h : cmsgAlign x = .ok y) : y = align x := by
  obtain ⟨a, ha, h⟩ := bind_eq_ok.1 h
  cases h
  rw [usize_eq_ok ha, align]

/-- A message that fits is put behind the others. -/
theorem append_spec {c c' : ControlBuffer cap} {m : Message} (h : c.append m = .ok (some c'))
    (hpre : pre <+: c.buf.bytes) (hlen : c.controllen = pre.length) :
    pre ++ encode m <+: c'.buf.bytes ∧ c'.controllen = (pre ++ encode m).length := by
  obtain ⟨r, hadd, h⟩ := bind_eq_ok.1 h
  cases r with
  | none => cases h
  | some r =>
    obtain ⟨off, c1⟩ := r
    obtain ⟨b, hdata, h⟩ := bind_eq_ok.1 h
    cases h
    obtain ⟨len, hl, hadd⟩ := bind_eq_ok.1 hadd
    obtain ⟨space, hspace, hadd⟩ := bind_eq_ok.1 hadd
    obtain rfl := usize_eq_ok hl
    obtain rfl := cmsgAlign_eq_ok hspace
    split at hadd
    · cases hadd
    obtain ⟨stop, hstop, hadd⟩ := bind_eq_ok.1 hadd
    obtain rfl := usize_eq_ok hstop
    split at hadd
    · cases hadd
    case isFalse hfit =>
      obtain ⟨b1, h1, hadd⟩ := bind_eq_ok.1 hadd
      obtain ⟨b2, h2, hadd⟩ := bind_eq_ok.1 hadd
      obtain ⟨b3, h3, hadd⟩ := bind_eq_ok.1 hadd
      obtain ⟨b4, h4, hadd⟩ := bind_eq_ok.1 hadd
      cases hadd
      obtain ⟨b0, h0, hzero⟩ :=
        c.buf.zeroRange_extends hpre (show pre.length + align (16 + m.data.length) ≤ cap by omega)
      rw [← hlen, h1] at h0
      cases h0
      -- the zeros, taken apart into the fields that are written over them
      have hsplit : List.replicate (align (16 + m.data.length)) (0 : UInt8) = List.replicate 8 0 ++
          (List.replicate 4 0 ++ (List.replicate 4 0 ++ (List.replicate m.data.length 0 ++
            List.replicate (align (16 + m.data.length) - (16 + m.data.length)) 0))) := by
        simp only [List.replicate_append_replicate]
        congr 1
        rw [align]
        omega
      rw [hsplit] at hzero
      have hlength := copyAt_over h2 hzero hlen (by simp)
      rw [← List.append_assoc] at hlength
      have hlevel := copyAt_over h3 hlength (by simp [hlen]) (by simp)
      rw [← List.append_assoc] at hlevel
      have hctype := copyAt_over h4 hlevel (by simp [hlen]) (by simp)
      rw [← List.append_assoc] at hctype
      have hall := copyAt_over hdata hctype (by simp [hlen]) (by simp)
      simp only [List.append_assoc] at hall
      exact ⟨hall, by simp [hlen]⟩

theorem appendAll_spec {c' : ControlBuffer cap} : ∀ {ms : List Message} {c : ControlBuffer cap}
    {pre : Bytes}, c.appendAll ms = .ok (some c') → pre <+: c.buf.bytes →
      c.controllen = pre.length →
    c'.bytes = pre ++ ms.flatMap encode := by
  intro ms
  induction ms with
  | nil =>
    intro c pre h hpre hlen
    cases h
    rw [ControlBuffer.bytes, hlen, List.flatMap_nil, List.append_nil]
    exact (List.prefix_iff_eq_take.1 hpre).symm
  | cons m ms ih =>
    intro c pre h hpre hlen
    obtain ⟨r, hr, h⟩ := bind_eq_ok.1 h
    cases r with
    | none => cases h
    | some c1 =>
      obtain ⟨hpre1, hlen1⟩ := append_spec hr hpre hlen
      rw [ih h hpre1 hlen1, List.flatMap_cons, List.append_assoc]

theorem fromLe_at (a c : Bytes) {k : Nat} (h : n < 256 ^ k) :
    fromLe (((a ++ (toLe k n ++ c)).take (a.length + k)).drop a.length) = n := by
  have hat := take_drop_append a (toLe k n) c
  rw [length_toLe, List.append_assoc] at hat
  rw [hat, fromLe_toLe k n h]

theorem wordAt_eq (a c : Bytes) (x : Int32) :
    wordAt (a ++ (toLe 4 x.toUInt32.toNat ++ c)) a.length = x := by
  rw [wordAt, fromLe_at a c x.toUInt32.toNat_lt, UInt32.ofNat_toNat]
  rfl

theorem cmsgAt_encode (pre rest : Bytes) (m : Message) (h : 16 + m.data.length < 2 ^ 64) :
    cmsgAt (pre ++ (encode m ++ rest)) pre.length =
      ⟨pre.length, 16 + m.data.length, m.level, m.ctype⟩ := by
  have hlen : lenAt (pre ++ (encode m ++ rest)) pre.length = 16 + m.data.length := by
    rw [encode, List.append_assoc]
    exact fromLe_at pre _ h
  have hlevel : wordAt (pre ++ (encode m ++ rest)) (pre.length + 8) = m.level := by
    have hat := wordAt_eq (pre ++ toLe 8 (16 + m.data.length)) (toLe 4 m.ctype.toUInt32.toNat ++
      (m.data ++ List.replicate (align (16 + m.data.length) - (16 + m.data.length)) 0) ++
        rest) m.level
    rw [List.length_append, length_toLe] at hat
    simpa only [encode, List.append_assoc] using hat
  have hctype : wordAt (pre ++ (encode m ++ rest)) (pre.length + 12) = m.ctype := by
    have hat := wordAt_eq (pre ++ toLe 8 (16 + m.data.length) ++ toLe 4 m.level.toUInt32.toNat)
      (m.data ++ List.replicate (align (16 + m.data.length) - (16 + m.data.length)) 0 ++
        rest) m.ctype
    rw [List.length_append, List.length_append, length_toLe, length_toLe] at hat
    simpa only [encode, List.append_assoc] using hat
  rw [cmsgAt, hlen, hlevel, hctype]

theorem le_align (x : Nat) : x ≤ align x := by
  rw [align]
  omega

theorem walk_encode {rest : Bytes} {m : Message} {fuel : Nat} {seen : List Cmsg}
    (hsize : (pre ++ (encode m ++ rest)).length < 2 ^ 63)
    (hfuel : (pre ++ (encode m ++ rest)).length ≤ pre.length + (fuel + 1)) :
    walk (pre ++ (encode m ++ rest)) (fun seen m => .ok (seen ++ [m])) (fuel + 1) seen pre.length =
      let seen := seen ++ [⟨pre.length, 16 + m.data.length, m.level, m.ctype⟩]
      if rest.length < 16 then .ok seen
      else walk (pre ++ (encode m ++ rest)) (fun seen m => .ok (seen ++ [m])) fuel seen
        (pre ++ encode m).length := by
  have hlength : (pre ++ (encode m ++ rest)).length =
      pre.length + (align (16 + m.data.length) + rest.length) := by
    simp only [List.length_append, length_encode]
  have halign := le_align (16 + m.data.length)
  have hcmsg := cmsgAt_encode pre rest m (by omega)
  have hlen : lenAt (pre ++ (encode m ++ rest)) pre.length = 16 + m.data.length :=
    congrArg Cmsg.len hcmsg
  have hnext : (pre ++ encode m).length = pre.length + align (16 + m.data.length) := by simp
  rw [walk_eq hsize (by omega) hfuel, hcmsg, hlen, reach_eq, if_pos (by omega), ok_bind,
    if_neg (by omega), ok_bind, hnext]
  by_cases hrest : rest.length < 16
  · rw [if_pos (by omega), if_pos hrest]
  · rw [if_neg (by omega), if_neg hrest]

/-- **The messages are visited in order.** -/
theorem walk_headers (fuel : Nat) : ∀ (ms : List Message) (m : Message) (pre : Bytes)
    (seen : List Cmsg), (pre ++ (encode m ++ ms.flatMap encode)).length < 2 ^ 63 →
    (pre ++ (encode m ++ ms.flatMap encode)).length ≤ pre.length + fuel →
    walk (pre ++ (encode m ++ ms.flatMap encode)) (fun seen m => .ok (seen ++ [m])) fuel
      seen pre.length = .ok (seen ++ headers pre.length (m :: ms)) := by
  induction fuel with
  | zero =>
    intro ms m pre seen hsize hfuel
    have halign := le_align (16 + m.data.length)
    simp only [List.length_append, length_encode] at hfuel
    omega
  | succ fuel ih =>
    intro ms m pre seen hsize hfuel
    rw [walk_encode hsize hfuel]
    cases ms with
    | nil => rfl
    | cons m' ms =>
      have halign := le_align (16 + m.data.length)
      have halign' := le_align (16 + m'.data.length)
      have hassoc : pre ++ (encode m ++ (m' :: ms).flatMap encode) =
          (pre ++ encode m) ++ (encode m' ++ ms.flatMap encode) := by
        rw [List.flatMap_cons, List.append_assoc]
      have hnext : (pre ++ encode m).length = pre.length + align (16 + m.data.length) := by simp
      dsimp only
      rw [if_neg (by rw [List.flatMap_cons, List.length_append, length_encode]; omega)]
      rw [hassoc] at hsize hfuel ⊢
      rw [ih ms m' (pre ++ encode m) _ hsize (by omega), List.append_assoc, hnext]
      rfl

theorem visited_appendAll (hcap : cap < 2 ^ 63) {ms : List Message} {c : ControlBuffer cap}
    (h : (ControlBuffer.new cap).appendAll ms = .ok (some c)) :
      visited c.bytes = .ok (headers 0 ms) := by
  have hbytes : c.bytes = ms.flatMap encode := appendAll_spec h (List.nil_prefix) rfl
  have hsize : c.bytes.length < 2 ^ 63 := by
    rw [ControlBuffer.bytes, List.length_take, c.buf.length_bytes]
    omega
  rw [hbytes] at hsize ⊢
  cases ms with
  | nil => rfl
  | cons m ms =>
    have hfirst := le_align (16 + m.data.length)
    rw [visited, walkControl,
      if_neg (by rw [List.flatMap_cons, List.length_append, length_encode]; omega)]
    exact walk_headers _ ms m [] [] hsize (Nat.le_add_left _ _)

end ChronyRs.L5.Socket
