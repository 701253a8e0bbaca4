import ChronyRs.Core.Cmac

/-!
# CMAC-128 (`siv_nettle_int.rs`)

`Cmac128` is the streaming context: the two subkeys, the chain `x`, and a block of which the first
`index` bytes wait. A full block waits too, until more bytes come, since it may be the last one.
The block cipher is a parameter, an arbitrary function on blocks.

* `cmac128BlockMulx_eq`: the shift of two words is the doubling of the RFC.
* `update_holds`, `digest_holds`: a context that holds a message takes any further piece, and its
  digest is the CMAC of the message; the context then holds the empty message.
* `macAll_eq`: any messages, each in any pieces, one after the other through one context.
-/
namespace ChronyRs.L2

/-- mirrors siv_nettle_int.rs:203-215 -/
def cmac128BlockMulx (src : Buf 16) : Buf 16 :=
  let b1 := UInt64.ofNat (fromBe (src.bytes.take 8))
  let b2 := UInt64.ofNat (fromBe (src.bytes.drop 8))
  let n1 := (b1 <<< 1) ||| (b2 >>> 63)
  let n2 := b2 <<< 1
  let out := toBe 8 n1.toNat ++ toBe 8 n2.toNat
  ⟨if src.bytes.headD 0 &&& 0x80 ≠ 0 then out.modify 15 (· ^^^ 0x87) else out, by
    split <;> simp [out]⟩

/-- Both slices are whole blocks at every call.
mirrors siv_nettle_int.rs:217-221 -/
def memxor {n : Nat} (dst src : Buf n) : Buf n := dst.xor src

/-- Every byte of the destination is written, from the bytes at the same index.
mirrors siv_nettle_int.rs:222-226 -/
def memxor3 (n : Nat) (a b : Bytes) : Rust (Buf n) :=
  if n ≤ a.length ∧ n ≤ b.length then .ok ((Buf.ofBytes n a).xor (Buf.ofBytes n b))
  else .error .index

/-- mirrors siv_nettle_int.rs:230-236 -/
structure Cmac128 where
  k1 : Buf 16
  k2 : Buf 16
  x : Buf 16
  block : Buf 16
  index : Nat
  deriving DecidableEq

namespace Cmac128

variable (cipher : Buf 16 → Buf 16)

/-- mirrors siv_nettle_int.rs:240-245 -/
def setKey : Cmac128 :=
  let l := cipher (.zero 16)
  let k1 := cmac128BlockMulx l
  let k2 := cmac128BlockMulx k1
  { k1, k2, x := .zero 16, block := .zero 16, index := 0 }

/-- The waiting block is filled up first.
mirrors siv_nettle_int.rs:250-255 -/
def topUp (s : Cmac128) (msg : Bytes) : Rust (Cmac128 × Bytes) :=
  if s.index < 16 then do
    let len := min (16 - s.index) msg.length
    let head ← slice msg 0 len
    let block ← s.block.copyAt s.index head
    let rest ← slice msg len msg.length
    .ok ({ s with block, index := s.index + len }, rest)
  else .ok (s, msg)

/-- The `while` loop; every turn takes sixteen bytes.
mirrors siv_nettle_int.rs:264-268 -/
def chainBlocks : Nat → Buf 16 → Bytes → Rust (Buf 16 × Bytes)
  | 0, _, _ => .error .fuel
  | fuel + 1, x, msg =>
    if 16 < msg.length then do
      let head ← slice msg 0 16
      let y ← memxor3 16 x.bytes head
      let rest ← slice msg 16 msg.length
      chainBlocks fuel (cipher y) rest
    else .ok (x, msg)

/-- What `update` does with the bytes behind a full block.
mirrors siv_nettle_int.rs:256-272 -/
def chainFrom (s : Cmac128) (msg : Bytes) : Rust Cmac128 :=
  if msg.isEmpty then .ok s
  else do
    let y ← memxor3 16 s.x.bytes s.block.bytes
    let c ← chainBlocks cipher msg.length (cipher y) msg
    let block ← s.block.copyAt 0 c.2
    .ok { s with x := c.1, block, index := c.2.length }

/-- mirrors siv_nettle_int.rs:248-272 -/
def update (s : Cmac128) (msg : Bytes) : Rust Cmac128 := do
  let t ← s.topUp msg
  chainFrom cipher t.1 t.2

/-- The block under the subkey for its length, after the bytes behind `index` are cleared.
mirrors siv_nettle_int.rs:277-286 -/
def masked (s : Cmac128) : Rust (Buf 16) := do
  let block ← s.block.zeroRange s.index 16
  if s.index < 16 then do
    let block ← block.copyAt s.index [0x80]
    .ok (memxor block s.k2)
  else .ok (memxor block s.k1)

/-- mirrors siv_nettle_int.rs:276-302 -/
def digest (s : Cmac128) (length : Nat) {n : Nat} (dst : Buf n) : Rust (Cmac128 × Buf n) := do
  let block ← s.masked
  let y ← memxor3 16 block.bytes s.x.bytes
  Rust.assert (length ≤ 16)
  let out := cipher y
  let dst ← dst.copyAt 0 (out.bytes.take length)
  -- a full digest is not copied through the block
  .ok ({ s with block := if length = 16 then block else out, x := .zero 16, index := 0 }, dst)

/-! ## The arithmetic of the subkeys -/

/-- A word shifted up, with the bit that falls out of the word below it. -/
theorem shift_or (a b : UInt64) :
    ((a <<< 1) ||| (b >>> 63)).toNat = 2 * a.toNat % 2 ^ 64 + b.toNat / 2 ^ 63 := by
  have hb := b.toNat_lt
  have hlow : b.toNat / 2 ^ 63 < 2 ^ 1 := by omega
  have hsplit : 2 * a.toNat % 2 ^ 64 = 2 ^ 1 * (a.toNat % 2 ^ 63) := by omega
  rw [UInt64.toNat_or, UInt64.toNat_shiftLeft, UInt64.toNat_shiftRight]
  simp only [UInt64.reduceToNat, Nat.reduceMod, Nat.shiftRight_eq_div_pow, Nat.shiftLeft_eq]
  rw [show a.toNat * 2 ^ 1 % 2 ^ 64 = 2 ^ 1 * (a.toNat % 2 ^ 63) by omega, hsplit,
    ← Nat.two_pow_add_eq_or_of_lt hlow]

theorem shift_toNat (b : UInt64) : (b <<< 1).toNat = 2 * b.toNat % 2 ^ 64 := by
  rw [UInt64.toNat_shiftLeft]
  simp only [UInt64.reduceToNat, Nat.reduceMod, Nat.shiftLeft_eq]
  omega

/-- Adding a byte to the last byte is adding it to the number. -/
theorem fromBe_modify_last {bs : Bytes} {k : Nat} (h : bs.length = k + 1) (c : UInt8) :
    fromBe (bs.modify k (· ^^^ c)) = fromBe bs ^^^ c.toNat := by
  obtain ⟨init, l, rfl⟩ : ∃ init l, bs = init ++ [l] :=
    ⟨bs.dropLast, bs.getLast (List.ne_nil_of_length_eq_add_one h),
      (List.dropLast_concat_getLast _).symm⟩
  have hk : k = init.length := by simpa using h.symm
  have hl := l.toNat_lt
  have hc := c.toNat_lt
  have hmod : (init ++ [l]).modify k (· ^^^ c) = init ++ [l ^^^ c] := by
    subst hk
    simp [List.modify_eq_set_getElem?, List.set_append_right]
  have hxor : (fromBe init * 256 + l.toNat) ^^^ c.toNat =
      fromBe init * 256 + (l.toNat ^^^ c.toNat) := by
    have hlt : l.toNat ^^^ c.toNat < 2 ^ 8 := Nat.xor_lt_two_pow hl hc
    refine (Nat.div_add_mod' _ (2 ^ 8)).symm.trans ?_
    rw [Nat.xor_div_two_pow, Nat.xor_mod_two_pow, Nat.div_eq_of_lt hc, Nat.mod_eq_of_lt hc,
      Nat.xor_zero, show (fromBe init * 256 + l.toNat) / 2 ^ 8 = fromBe init by omega,
      show (fromBe init * 256 + l.toNat) % 2 ^ 8 = l.toNat by omega]
    rfl
  rw [hmod, fromBe_append, fromBe_append, fromBe_cons, fromBe_cons, UInt8.toNat_xor]
  simpa using hxor.symm

theorem and_128 (b : UInt8) : b &&& 0x80 ≠ 0 ↔ 128 ≤ b.toNat := by
  have h : ∀ n : Fin 256, UInt8.ofFin n &&& 0x80 ≠ 0 ↔ 128 ≤ n.val := by decide +kernel
  exact h b.toFin

theorem and_high_bit (src : Buf 16) : (src.bytes.headD 0 &&& 0x80 ≠ 0) ↔
    ¬ fromBe src.bytes < 2 ^ 127 := by
  obtain ⟨bs, hlen⟩ := src
  match bs, hlen with
  | b :: bs, hlen =>
    have hrest := fromBe_lt bs
    have h15 : bs.length = 15 := Nat.succ.inj hlen
    rw [h15] at hrest
    rw [fromBe_cons, h15, List.headD_cons, and_128]
    omega

/-- **The doubling.** Two words shifted by one bit are the doubling of RFC 4493. -/
theorem cmac128BlockMulx_eq (src : Buf 16) : cmac128BlockMulx src = Cmac.double src := by
  have hb1 : fromBe (src.bytes.take 8) < 256 ^ 8 := by
    have h := fromBe_lt (src.bytes.take 8)
    simpa using h
  have hb2 : fromBe (src.bytes.drop 8) < 256 ^ 8 := by
    have h := fromBe_lt (src.bytes.drop 8)
    simpa using h
  have hsrc : fromBe src.bytes = fromBe (src.bytes.take 8) * 256 ^ 8 + fromBe
      (src.bytes.drop 8) := by
    conv_lhs => rw [← List.take_append_drop 8 src.bytes]
    rw [fromBe_append]
    simp
  refine Buf.ext (fromBe_inj (by simp) ?_)
  simp only [cmac128BlockMulx, Cmac.double, and_high_bit]
  have hout : fromBe (toBe 8 ((UInt64.ofNat (fromBe (src.bytes.take 8)) <<< 1) |||
        (UInt64.ofNat (fromBe (src.bytes.drop 8)) >>> 63)).toNat ++
      toBe 8 (UInt64.ofNat (fromBe (src.bytes.drop 8)) <<< 1).toNat) =
        2 * fromBe src.bytes % 2 ^ 128 := by
    rw [fromBe_append, fromBe_toBe, fromBe_toBe, toBe_length, shift_or, shift_toNat,
      UInt64.toNat_ofNat', UInt64.toNat_ofNat', hsrc]
    omega
  by_cases hmsb : fromBe src.bytes < 2 ^ 127
  · rw [if_neg (not_not.2 hmsb), if_pos hmsb, hout, fromBe_toBe]
    rfl
  · have hlt : (2 * fromBe src.bytes) % 2 ^ 128 ^^^ 0x87 < 2 ^ 128 :=
      Nat.xor_lt_two_pow (Nat.mod_lt _ (by decide)) (by decide)
    rw [if_pos hmsb, if_neg hmsb, fromBe_modify_last (by simp), hout, fromBe_toBe]
    exact (Nat.mod_eq_of_lt hlt).symm

/-! ## What a context holds -/

/-- The bytes that wait for more. -/
def pending (s : Cmac128) : Bytes := s.block.bytes.take s.index

variable {s : Cmac128} {m : Bytes}

theorem pending_length (h : s.index ≤ 16) : s.pending.length = s.index := by
  simp [pending, h]

/-- The context was made for this cipher, and has taken `m` since it was made or last reset. -/
structure Holds (s : Cmac128) (m : Bytes) : Prop where
  k1_eq : s.k1 = Cmac.k1 cipher
  k2_eq : s.k2 = Cmac.k2 cipher
  index_le : s.index ≤ 16
  chained_eq : (s.x, s.pending) = Cmac.chainAll cipher (.zero 16) m

theorem chained_nil : Cmac.chainAll cipher (.zero 16) [] = (.zero 16, []) :=
  absorb_of_le _ _ (by decide) _

theorem setKey_holds : Holds cipher (setKey cipher) [] where
  k1_eq := cmac128BlockMulx_eq _
  k2_eq := (cmac128BlockMulx_eq _).trans (congrArg Cmac.double (cmac128BlockMulx_eq _))
  index_le := Nat.zero_le _
  chained_eq := (chained_nil cipher).symm

theorem memxor3_eq {a b : Bytes} (ha : a.length = 16) (hb : b.length = 16) :
    memxor3 16 a b = .ok ((Buf.ofBytes 16 a).xor (Buf.ofBytes 16 b)) :=
  if_pos ⟨ha.ge, hb.ge⟩

theorem chainBlocks_eq {fuel : Nat} {x : Buf 16} {msg : Bytes} (h0 : 0 < fuel)
    (h : msg.length ≤ 16 * fuel) :
    chainBlocks cipher fuel x msg = .ok (Cmac.chainAll cipher x msg) := by
  induction fuel generalizing x msg with
  | zero => cases h0
  | succ fuel ih =>
    rw [chainBlocks, Cmac.chainAll]
    by_cases hlong : 16 < msg.length
    · have hhead : (msg.take 16).length = 16 := by simp; omega
      rw [if_pos hlong, slice_of_le (Nat.zero_le _) hlong.le, ok_bind, List.drop_zero,
        memxor3_eq x.length_eq hhead, ok_bind, slice_of_le hlong.le le_rfl, ok_bind,
        List.take_length, ih (by omega) (by simp; omega), absorb_of_lt _ _ hlong, Buf.ofBytes_bytes]
      rfl
    · rw [if_neg hlong, absorb_of_le _ _ (by omega)]

/-- Topping up moves bytes of the piece behind those that wait; bytes are left over only behind a
full block. -/
theorem topUp_spec (hs : s.index ≤ 16) (msg : Bytes) : ∃ block index rest,
    s.topUp msg = .ok ({ s with block, index }, rest) ∧ index ≤ 16 ∧
      block.bytes.take index ++ rest = s.pending ++ msg ∧ (rest ≠ [] → index = 16) := by
  unfold topUp
  split
  · rename_i hlt
    dsimp only
    have hlen : min (16 - s.index) msg.length ≤ msg.length := Nat.min_le_right _ _
    have hhead : (msg.take (min (16 - s.index) msg.length)).length =
        min (16 - s.index) msg.length := by simp
    obtain ⟨block, hblock, -⟩ := s.block.copyAt_of_le s.index
      (msg.take (min (16 - s.index) msg.length)) (by rw [hhead]; omega)
    have hend := Buf.copyAt_take_end hblock
    rw [hhead] at hend
    refine ⟨block, s.index + min (16 - s.index) msg.length, msg.drop
      (min (16 - s.index) msg.length), ?_,
      by omega, ?_, fun hrest => ?_⟩
    · rw [slice_of_le (Nat.zero_le _) hlen, ok_bind, List.drop_zero, hblock, ok_bind,
        slice_of_le hlen le_rfl, ok_bind, List.take_length]
    · rw [hend, List.append_assoc, List.take_append_drop]
      rfl
    · have hpos := List.length_pos_iff.2 hrest
      rw [List.length_drop] at hpos
      omega
  · exact ⟨s.block, s.index, msg, rfl, hs, rfl, fun _ => by omega⟩

/-- Bytes behind a full block chain it, and all further blocks but the last. -/
theorem chainFrom_spec (hs : s.index ≤ 16) {rest : Bytes} (hrest : rest ≠ [] → s.index = 16) :
    ∃ x block index, chainFrom cipher s rest = .ok { s with x, block, index } ∧ index ≤ 16 ∧
      (x, block.bytes.take index) = Cmac.chainAll cipher s.x (s.pending ++ rest) := by
  unfold chainFrom Cmac.chainAll
  by_cases hnil : rest = []
  · subst hnil
    refine ⟨s.x, s.block, s.index, rfl, hs, ?_⟩
    rw [List.append_nil, absorb_of_le _ _ (by rwa [pending_length hs])]
    rfl
  · have hpos := List.length_pos_iff.2 hnil
    have hfull : s.pending =
        s.block.bytes := by rw [pending, hrest hnil, List.take_of_length_le (by simp)]
    have hlast : (Cmac.chainAll cipher (Cmac.chain cipher s.x s.block.bytes) rest).2.length ≤ 16 :=
      absorb_length_le _ _ _ _
    obtain ⟨block, hblock, -⟩ := s.block.copyAt_of_le 0 _ ((Nat.zero_add _).trans_le hlast)
    have hend := Buf.copyAt_take_end hblock
    rw [Nat.zero_add, List.take_zero, List.nil_append] at hend
    refine ⟨(Cmac.chainAll cipher (Cmac.chain cipher s.x s.block.bytes) rest).1, block, _,
      ?_, hlast, ?_⟩
    · rw [if_neg (by simpa using hnil), memxor3_eq s.x.length_eq s.block.length_eq, ok_bind,
        chainBlocks_eq cipher hpos (by omega), ok_bind]
      simp only [Buf.ofBytes_bytes]
      simp only [Cmac.chain, Buf.ofBytes_bytes] at hblock
      rw [hblock, ok_bind]
      simp only [Cmac.chain, Buf.ofBytes_bytes]
    · rw [hfull, absorb_block _ _ s.block.length_eq hnil, hend]
      rfl

/-- **A piece.** A context takes any piece of a message. -/
theorem update_holds (h : Holds cipher s m) (msg : Bytes) :
    ∃ s', s.update cipher msg = .ok s' ∧ Holds cipher s' (m ++ msg) := by
  obtain ⟨block, index, rest, htop, hindex, hbytes, hrest⟩ := topUp_spec h.index_le msg
  obtain ⟨x, block', index', hchain, hindex', hpend⟩ :=
    chainFrom_spec (s := { s with block, index }) cipher hindex hrest
  have happend : Cmac.chainAll cipher (.zero 16) (m ++ msg) =
      Cmac.chainAll cipher (Cmac.chainAll cipher (.zero 16) m).1
        ((Cmac.chainAll cipher (.zero 16) m).2 ++ msg) := absorb_append _ _ _ m msg
  rw [← h.chained_eq, ← hbytes] at happend
  exact ⟨{ s with x, block := block', index := index' }, by rw [update, htop, ok_bind, hchain],
    ⟨h.k1_eq, h.k2_eq, hindex', hpend.trans happend.symm⟩⟩

/-- The one bit behind bytes that are followed by zeros. -/
theorem copyAt_pad {b : Buf 16} {p : Bytes} (hb : b.bytes = p ++ List.replicate (16 - p.length) 0)
    (hp : p.length < 16) : b.copyAt p.length [0x80] = .ok (Cmac.pad p) := by
  obtain ⟨b', hb', e⟩ := b.copyAt_of_le p.length [0x80] (by simp; omega)
  rw [hb']
  refine congrArg _ (Buf.ext ?_)
  rw [e, hb, List.take_left, Cmac.pad, Buf.bytes_ofBytes_of_le (by simp; omega), List.drop_append,
    List.drop_eq_nil_of_le (by simp), List.nil_append, List.drop_replicate]
  congr 2
  simp only [List.length_append, List.length_singleton]
  omega

/-- The masked block is `M_last` of the RFC, whatever stood behind the bytes that wait. -/
theorem masked_eq (h : Holds cipher s m) :
    s.masked = .ok (Cmac.mLast cipher s.pending) := by
  have hle := h.index_le
  obtain ⟨b1, hb1, e1⟩ := s.block.copyAt_of_le s.index (List.replicate (16 - s.index) 0)
    (by simp; omega)
  have hzero : s.block.zeroRange s.index 16 = .ok b1 := (if_pos hle).trans hb1
  have hb1' : b1.bytes = s.pending ++ List.replicate (16 - s.index) 0 := by
    rw [e1, List.drop_eq_nil_of_le (by simp; omega), List.append_nil]
    rfl
  unfold masked Cmac.mLast
  rw [hzero, ok_bind, pending_length hle]
  by_cases hlt : s.index < 16
  · have hpad : b1.copyAt s.index [0x80] = .ok (Cmac.pad s.pending) := by
      rw [← pending_length hle] at hlt hb1' ⊢
      exact copyAt_pad hb1' hlt
    rw [if_pos hlt, hpad, ok_bind, if_neg (by omega), h.k2_eq]
    rfl
  · have hfull : s.index = 16 := by omega
    have hb : b1 = Buf.ofBytes 16 s.pending := by
      refine Buf.ext ?_
      rw [hb1', Buf.bytes_ofBytes_of_le (by rw [pending_length hle]; exact hle), pending_length hle]
    rw [if_neg hlt, if_pos hfull, hb, h.k1_eq]
    rfl

/-- **The digest.** It is the CMAC of what the context holds, cut to the length asked for, and the
context then holds nothing. -/
theorem digest_holds (h : Holds cipher s m) {length n : Nat} (hl : length ≤ 16) (hn : length ≤ n)
    (dst : Buf n) : ∃ s' dst', s.digest cipher length dst = .ok (s', dst') ∧
      dst'.bytes = (Cmac.cmac cipher m).bytes.take length ++ dst.bytes.drop length ∧
      Holds cipher s' [] := by
  have hmac : cipher ((Cmac.mLast cipher s.pending).xor s.x) = Cmac.cmac cipher m := by
    rw [Cmac.cmac_eq, ← h.chained_eq]
    rfl
  have htake : ((Cmac.cmac cipher m).bytes.take length).length = length := by simp [hl]
  obtain ⟨dst', hdst, e⟩ := dst.copyAt_of_le 0 ((Cmac.cmac cipher m).bytes.take length)
    (by rw [htake, Nat.zero_add]; exact hn)
  refine ⟨{ s with
      block := if length = 16 then Cmac.mLast cipher s.pending else Cmac.cmac cipher m
      x := .zero 16, index := 0 }, dst', ?_, ?_, ⟨h.k1_eq, h.k2_eq, Nat.zero_le _, ?_⟩⟩
  · simp only [digest, masked_eq cipher h, ok_bind, memxor3_eq (Buf.length_eq _) (Buf.length_eq _),
      assert_of hl, Buf.ofBytes_bytes, hmac, hdst]
  · rw [e, htake, List.take_zero, List.nil_append, Nat.zero_add]
  · exact (chained_nil cipher).symm

/-! ## Messages through one context -/

/-- The calls for one message: its pieces, and a digest. -/
def mac (s : Cmac128) (pieces : List Bytes) (length : Nat) {n : Nat} (dst : Buf n) :
    Rust (Cmac128 × Buf n) := do
  let s ← pieces.foldlM (update cipher) s
  s.digest cipher length dst

theorem pieces_holds (h : Holds cipher s m) (pieces : List Bytes) :
    ∃ s', pieces.foldlM (update cipher) s = .ok s' ∧ Holds cipher s' (m ++ pieces.flatten) := by
  induction pieces generalizing s m with
  | nil => exact ⟨s, rfl, by rwa [List.flatten_nil, List.append_nil]⟩
  | cons p pieces ih =>
    obtain ⟨s1, h1, hs1⟩ := update_holds cipher h p
    obtain ⟨s', h', hs'⟩ := ih hs1
    refine ⟨s', by rw [List.foldlM_cons, h1, ok_bind, h'], ?_⟩
    rwa [List.flatten_cons, ← List.append_assoc]

/-- A context that holds nothing computes the CMAC of the next message, in whatever pieces it
comes. -/
theorem mac_spec (h : Holds cipher s []) (pieces : List Bytes) {length n : Nat} (hl : length ≤ 16)
    (hn : length ≤ n) (dst : Buf n) :
    ∃ s' dst', mac cipher s pieces length dst = .ok (s', dst') ∧
      dst'.bytes = (Cmac.cmac cipher pieces.flatten).bytes.take length ++ dst.bytes.drop length ∧
      Holds cipher s' [] := by
  obtain ⟨s1, h1, hs1⟩ := pieces_holds cipher h pieces
  obtain ⟨s', dst', hd, hbytes, hs'⟩ := digest_holds cipher hs1 hl hn dst
  exact ⟨s', dst', by rw [mac, h1, ok_bind, hd], hbytes, hs'⟩

/-- A message in pieces, the length of the digest asked for, and the slice it is written to. -/
structure Job where
  pieces : List Bytes
  length : Nat
  room : Nat
  dst : Buf room

/-- Messages one after the other through one context; what stands in each slice afterwards. -/
def macAll : Cmac128 → List Job → Rust (List Bytes)
  | _, [] => .ok []
  | s, j :: js => do
    let r ← mac cipher s j.pieces j.length j.dst
    let outs ← macAll r.1 js
    .ok (r.2.bytes :: outs)

theorem macAll_of_holds (hs : Holds cipher s []) (jobs : List Job)
    (h : ∀ j ∈ jobs, j.length ≤ 16 ∧ j.length ≤ j.room) :
      macAll cipher s jobs = .ok (jobs.map fun j =>
      (Cmac.cmac cipher j.pieces.flatten).bytes.take j.length ++ j.dst.bytes.drop j.length) := by
  induction jobs generalizing s with
  | nil => rfl
  | cons j js ih =>
    obtain ⟨hj, hjs⟩ := List.forall_mem_cons.1 h
    obtain ⟨s', dst', hmac, hbytes, hs'⟩ := mac_spec cipher hs j.pieces hj.1 hj.2 j.dst
    rw [macAll, hmac, ok_bind, ih hs' hjs, ok_bind, List.map_cons, hbytes]

/-- **Streaming.** Through one context, every message comes out with the CMAC of RFC 4493, cut to
the length asked for, however each of them was split into pieces and whatever came before it. -/
theorem macAll_eq (jobs : List Job) (h : ∀ j ∈ jobs, j.length ≤ 16 ∧ j.length ≤ j.room) :
    macAll cipher (setKey cipher) jobs = .ok (jobs.map fun j =>
      (Cmac.cmac cipher j.pieces.flatten).bytes.take j.length ++ j.dst.bytes.drop j.length) :=
  macAll_of_holds cipher (setKey_holds cipher) jobs h

/-- Two messages, the first one in three pieces, one of them empty; a full and a short digest. -/
def twoMessages : List Job :=
  [⟨[[1, 2], [], List.replicate 30 3], 16, 16, .zero 16⟩, ⟨[[4]], 4, 8, .zero 8⟩]

def memxorKey : Buf 16 → Buf 16 := memxor (Buf.ofBytes 16 [1, 2, 3])

theorem macAll_eq_two : macAll memxorKey (setKey memxorKey) twoMessages =
    .ok (twoMessages.map fun j =>
      (Cmac.cmac memxorKey j.pieces.flatten).bytes.take j.length ++ j.dst.bytes.drop j.length) :=
  macAll_eq memxorKey twoMessages (by decide)

end Cmac128

end ChronyRs.L2
