import ChronyRs.L2Auth.Md5

/-!
# The symmetric key store (`keys.rs`)

Keys sorted by id, found by binary search behind a cache of one entry. The hash
functions are those of the `CryptoBackend`; the build has one, the internal MD5.

The cache is only ever filled by a lookup and dropped with the keys, so a valid entry
points at a key with the cached id. `KeyStore` carries this as a field: no lookup
result is out of range, and a MAC is always one of the key that was asked for.

* `getKeyById_some`: what a lookup finds.
* `generateKeyAuth_cases`: an unknown key writes nothing, a known one its MAC.
* `checkKeyAuth_cases`: every check returns, and accepts only the (truncated) MAC of
  the message.
-/
namespace ChronyRs.L2

/-- mirrors keys.rs:66-73 -/
inductive CmacAlgorithm where
  | invalid | aes128 | aes256
  deriving DecidableEq, Repr

/-- mirrors keys.rs:79-90 -/
inductive KeyMac where
  | ntpMac (value : Bytes) (hashId : Int)
  | cmac (algorithm : CmacAlgorithm) (key : Bytes)
  deriving DecidableEq, Repr

/-- Without the type and length, which only the reports read.
mirrors keys.rs:94-101 -/
structure Key where
  id : UInt32
  mac : KeyMac
  deriving DecidableEq, Repr

/-- The two hash functions, each as the bytes it writes to a slice of `n` bytes: the
returned length is their number, "truncated to `out.len()`".
mirrors keys.rs:105-127 -/
class CryptoBackend (B : Type) where
  hash : B → Int → (in1 in2 : Bytes) → (n : Nat) → Bytes
  cmacHash : B → CmacAlgorithm → (key data : Bytes) → (n : Nat) → Bytes
  hash_le : ∀ b id in1 in2 n, (hash b id in1 in2 n).length ≤ n
  cmacHash_le : ∀ b algorithm key data n, (cmacHash b algorithm key data n).length ≤ n

/-- mirrors keys.rs:133-149 -/
structure InternalMd5Backend where
  deriving DecidableEq, Repr

instance : CryptoBackend InternalMd5Backend where
  hash _ _ in1 in2 n := Md5.hash in1 in2 n
  cmacHash _ _ _ _ _ := []
  hash_le _ _ in1 in2 n := by rw [Md5.hash_length]; omega
  cmacHash_le := by simp

/-! ## Lookup -/

/-- The loop of `binary_search_by`: halve `size`, keep `base` at or before every match. -/
def searchFrom (keys : List Key) (id : UInt32) : Nat → Nat → Nat → Nat
  | 0, base, _ => base
  | n + 1, base, size =>
    if size ≤ 1 then base
    else
      let half := size / 2
      match keys[base + half]? with
      | some k => searchFrom keys id n (if id < k.id then base else base + half) (size - half)
      | none => base

/-- mirrors keys.rs:330-332 -/
def lookupKey (keys : List Key) (id : UInt32) : Option Nat :=
  if (keys[searchFrom keys id keys.length 0 keys.length]?).map Key.id = some id then
    some (searchFrom keys id keys.length 0 keys.length)
  else none

/-- Position `pos` holds a key with this id. -/
def HasKey (keys : List Key) (pos : Nat) (id : UInt32) : Prop :=
  ∃ k, keys[pos]? = some k ∧ k.id = id

variable {keys : List Key}

theorem lookupKey_some {id : UInt32} {pos : Nat} (h : lookupKey keys id = some pos) :
    HasKey keys pos id := by
  unfold lookupKey at h
  split at h
  · rename_i hid
    cases h
    exact Option.map_eq_some_iff.1 hid
  · cases h

/-- The search keeps a match in its range, if there is one: where the middle is not behind the id
and a match is in front of it, the middle matches too. -/
theorem searchFrom_finds {id : UInt32} (hsorted : keys.Pairwise fun a b => a.id ≤ b.id) :
    ∀ n base size, size ≤ n + 1 → base + size ≤ keys.length →
      (∃ m, base ≤ m ∧ m < base + size ∧ HasKey keys m id) →
        HasKey keys (searchFrom keys id n base size) id := by
  intro n
  induction n with
  | zero =>
    rintro base size hsize - ⟨m, hbase, hm, hkey⟩
    obtain rfl : m = base := by omega
    exact hkey
  | succ n ih =>
    rintro base size hsize hlen ⟨m, hbase, hm, k, hk, hid⟩
    unfold searchFrom
    split
    · obtain rfl : m = base := by omega
      exact ⟨k, hk, hid⟩
    have hmid : base + size / 2 < keys.length := by omega
    simp only [List.getElem?_eq_getElem hmid]
    by_cases hlt : id < keys[base + size / 2].id
    · rw [if_pos hlt]
      refine ih base (size - size / 2) (by omega) (by omega) ⟨m, hbase, ?_, k, hk, hid⟩
      -- a match behind the middle would not be sorted
      by_contra hbehind
      obtain ⟨hmlt, rfl⟩ := List.getElem?_eq_some_iff.1 hk
      rcases Nat.lt_or_ge (base + size / 2) m with h | h
      · have := List.pairwise_iff_getElem.1 hsorted _ m hmid hmlt h
        rw [hid] at this
        exact absurd hlt (UInt32.not_lt.2 this)
      · obtain rfl : m = base + size / 2 := by omega
        rw [hid] at hlt
        exact UInt32.lt_irrefl _ hlt
    · rw [if_neg hlt]
      refine ih (base + size / 2) (size - size / 2) (by omega) (by omega) ?_
      rcases Nat.lt_or_ge m (base + size / 2) with h | h
      · refine ⟨base + size / 2, by omega, by omega, _, List.getElem?_eq_getElem hmid, ?_⟩
        obtain ⟨hmlt, rfl⟩ := List.getElem?_eq_some_iff.1 hk
        have := List.pairwise_iff_getElem.1 hsorted m _ hmlt hmid h
        rw [hid] at this
        exact UInt32.le_antisymm (UInt32.not_lt.1 hlt) this
      · exact ⟨m, h, by omega, k, hk, hid⟩

/-- Among sorted keys a lookup succeeds if and only if there is a key with the id. -/
theorem lookupKey_isSome_iff (hsorted : keys.Pairwise fun a b => a.id ≤ b.id) (id : UInt32) :
    (lookupKey keys id).isSome = true ↔ ∃ k ∈ keys, k.id = id := by
  constructor
  · intro h
    obtain ⟨pos, hpos⟩ := Option.isSome_iff_exists.1 h
    obtain ⟨k, hk, hid⟩ := lookupKey_some hpos
    exact ⟨k, List.mem_of_getElem? hk, hid⟩
  · rintro ⟨k, hk, hid⟩
    obtain ⟨m, hm⟩ := List.mem_iff_getElem?.1 hk
    have hlt := (List.getElem?_eq_some_iff.1 hm).1
    have hfound : HasKey keys (searchFrom keys id keys.length 0 keys.length) id :=
      searchFrom_finds hsorted keys.length 0 keys.length (by omega) (by omega)
        ⟨m, by omega, by omega, k, hm, hid⟩
    obtain ⟨k', hk', hid'⟩ := hfound
    unfold lookupKey
    rw [if_pos (by rw [hk', Option.map_some, hid'])]
    rfl

/-- Without the warnings of the last reload.
mirrors keys.rs:196-206 -/
structure KeyStore (B : Type) where
  keys : List Key
  backend : B
  cacheValid : Bool
  cacheKeyId : UInt32
  cacheKeyPos : Nat
  cache_ok : cacheValid = true → HasKey keys cacheKeyPos cacheKeyId

namespace KeyStore

variable {B : Type}

def ofKeys (backend : B) (keys : List Key) : KeyStore B := ⟨keys, backend, false, 0, 0, by simp⟩

/-- mirrors keys.rs:335-344 -/
def getKeyById (s : KeyStore B) (keyId : UInt32) : KeyStore B × Option Nat :=
  if s.cacheValid ∧ keyId = s.cacheKeyId then (s, some s.cacheKeyPos)
  else
    match h : lookupKey s.keys keyId with
    | none => (s, none)
    | some pos =>
      ({ s with cacheValid := true, cacheKeyPos := pos, cacheKeyId := keyId,
                cache_ok := fun _ => lookupKey_some h }, some pos)

/-- mirrors keys.rs:347-349 -/
def keyKnown (s : KeyStore B) (keyId : UInt32) : Bool := (s.getKeyById keyId).2.isSome

variable {s s' : KeyStore B} {keyId : UInt32} {pos : Nat}

/-- A lookup changes only the cache, and finds a key with the id. -/
theorem getKeyById_some (h : s.getKeyById keyId = (s', some pos)) :
    s'.keys = s.keys ∧ s'.backend = s.backend ∧ HasKey s.keys pos keyId := by
  unfold getKeyById at h
  split at h
  · rename_i hc
    cases h
    exact ⟨rfl, rfl, hc.2 ▸ s.cache_ok hc.1⟩
  · split at h
    · cases h
    · rename_i p hl
      cases h
      exact ⟨rfl, rfl, lookupKey_some hl⟩

/-- The cache holds the place where a search would find the key. -/
def CacheOk (s : KeyStore B) : Prop :=
  s.cacheValid = true → lookupKey s.keys s.cacheKeyId = some s.cacheKeyPos

/-- A lookup answers what a search answers, and leaves the cache as it should be. -/
theorem getKeyById_search (h : s.CacheOk) (keyId : UInt32) :
    ∃ s', s.getKeyById keyId = (s', lookupKey s.keys keyId) ∧ s'.CacheOk ∧
      s'.backend = s.backend := by
  unfold getKeyById
  split
  · rename_i hc
    exact ⟨s, by rw [hc.2, h hc.1], h, rfl⟩
  · split
    · rename_i hnone
      exact ⟨s, by rw [hnone], h, rfl⟩
    · rename_i pos hsome
      exact ⟨_, Prod.ext rfl hsome.symm, fun _ => hsome, rfl⟩

theorem keys_getKeyById (s : KeyStore B) (keyId : UInt32) :
    (s.getKeyById keyId).1.keys = s.keys := by
  unfold getKeyById
  split
  · rfl
  · split <;> rfl

theorem getKeyById_again (h : s.getKeyById keyId = (s', some pos)) :
    s'.getKeyById keyId = (s', some pos) := by
  unfold getKeyById at h
  split at h
  · rename_i hc
    cases h
    unfold getKeyById
    rw [if_pos hc]
  · split at h
    · cases h
    · cases h
      unfold getKeyById
      rw [if_pos ⟨rfl, rfl⟩]

variable [CryptoBackend B]

/-- mirrors keys.rs:382-387 -/
def generateAuth (s : KeyStore B) (idx : Nat) (data : Bytes) (n : Nat) : Rust Bytes := do
  match (← index s.keys idx).mac with
  | .ntpMac value hashId => return CryptoBackend.hash s.backend hashId value data n
  | .cmac algorithm key => return CryptoBackend.cmacHash s.backend algorithm key data n

/-- The MAC bytes written to a slice of `n` bytes, none for an unknown key.
mirrors keys.rs:391-396 -/
def generateKeyAuth (s : KeyStore B) (keyId : UInt32) (data : Bytes) (n : Nat) :
    Rust (KeyStore B × Bytes) := do
  match s.getKeyById keyId with
  | (s, none) => return (s, [])
  | (s, some idx) => return (s, ← s.generateAuth idx data n)

/-- mirrors keys.rs:400-413 -/
def checkKeyAuth (s : KeyStore B) (keyId : UInt32) (data auth : Bytes) (truncLen : Nat) :
    Rust (KeyStore B × Bool) := do
  match s.getKeyById keyId with
  | (s, none) => return (s, false)
  | (s, some idx) =>
    let out ← s.generateAuth idx data 64
    if min out.length truncLen = auth.length then
      return (s, (← slice (Buf.ofBytes 64 out).bytes 0 auth.length) = auth)
    else return (s, false)

/-- The MAC of `data` under a key, cut off at `n` bytes. -/
def macOf (backend : B) (mac : KeyMac) (data : Bytes) (n : Nat) : Bytes :=
  match mac with
  | .ntpMac value hashId => CryptoBackend.hash backend hashId value data n
  | .cmac algorithm key => CryptoBackend.cmacHash backend algorithm key data n

theorem macOf_le (backend : B) (mac : KeyMac) (data : Bytes) (n : Nat) :
    (macOf backend mac data n).length ≤ n := by
  cases mac with
  | ntpMac value hashId => exact CryptoBackend.hash_le ..
  | cmac algorithm key => exact CryptoBackend.cmacHash_le ..

theorem generateAuth_eq {idx : Nat} {k : Key} (h : s.keys[idx]? = some k) (data : Bytes) (n : Nat) :
    s.generateAuth idx data n = .ok (macOf s.backend k.mac data n) := by
  unfold generateAuth macOf
  rw [index_eq_ok.2 h, ok_bind]
  cases k.mac <;> rfl

theorem generateKeyAuth_cases (s : KeyStore B) (keyId : UInt32) (data : Bytes) (n : Nat) :
    ((s.getKeyById keyId).2 = none ∧ ∃ s', s.generateKeyAuth keyId data n = .ok (s', [])) ∨
    (∃ s' pos k, (s.getKeyById keyId).2 = some pos ∧ s.keys[pos]? = some k ∧ k.id = keyId ∧
      s.generateKeyAuth keyId data n = .ok (s', macOf s.backend k.mac data n)) := by
  unfold generateKeyAuth
  rcases hg : s.getKeyById keyId with ⟨s', _ | pos⟩
  · exact .inl ⟨rfl, s', rfl⟩
  · obtain ⟨hk, hb, k, hpos, hid⟩ := getKeyById_some hg
    refine .inr ⟨s', pos, k, rfl, hpos, hid, ?_⟩
    dsimp only
    rw [generateAuth_eq (hk ▸ hpos), hb]
    rfl

/-- What is compared with a MAC is the digest, cut off. -/
theorem take_ofBytes {out : Bytes} (h : out.length ≤ 64) (n : Nat) :
    (Buf.ofBytes 64 out).bytes.take (min out.length n) = out.take n := by
  simp only [Buf.ofBytes]
  rw [List.take_take, List.take_append_of_le_length (by omega),
    show min (min out.length n) 64 = min n out.length by omega, ← List.take_take, List.take_length]

/-- Whatever is checked, the store answers, and answers yes only for the MAC of the
message under a key with this id. -/
theorem checkKeyAuth_cases (s : KeyStore B) (keyId : UInt32) (data auth : Bytes) (truncLen : Nat) :
    ∃ s' ok, s.checkKeyAuth keyId data auth truncLen = .ok (s', ok) ∧
      (ok = true → ∃ k ∈ s.keys, k.id = keyId ∧
        auth = (macOf s.backend k.mac data 64).take truncLen) := by
  unfold checkKeyAuth
  rcases hg : s.getKeyById keyId with ⟨s', _ | pos⟩
  · exact ⟨s', false, rfl, by simp⟩
  · obtain ⟨hk, hb, k, hpos, hid⟩ := getKeyById_some hg
    have hle := macOf_le s.backend k.mac data 64
    dsimp only
    rw [generateAuth_eq (hk ▸ hpos), hb, ok_bind]
    split
    · rename_i hlen
      rw [slice_of_le (Nat.zero_le _) (by rw [Buf.length_bytes]; omega)]
      refine ⟨s', _, rfl, fun hok => ⟨k, List.mem_of_getElem? hpos, hid, ?_⟩⟩
      rw [← of_decide_eq_true hok, List.drop_zero, ← hlen, take_ofBytes hle]
    · exact ⟨s', false, rfl, by simp⟩

/-- A MAC comes from a key of the store, which the next lookup of the id finds again. -/
theorem generateKeyAuth_key {data auth : Bytes} {n : Nat}
    (h : s.generateKeyAuth keyId data n = .ok (s', auth)) (hne : auth ≠ []) :
    ∃ pos k, s'.getKeyById keyId = (s', some pos) ∧ s'.keys[pos]? = some k ∧ k ∈ s.keys ∧
      s'.backend = s.backend ∧ auth = macOf s.backend k.mac data n := by
  unfold generateKeyAuth at h
  rcases hg : s.getKeyById keyId with ⟨s1, _ | pos⟩
  · rw [hg] at h
    cases h
    exact absurd rfl hne
  · obtain ⟨hk, hb, k, hpos, -⟩ := getKeyById_some hg
    rw [hg] at h
    dsimp only at h
    rw [generateAuth_eq (hk ▸ hpos), hb] at h
    cases h
    exact ⟨pos, k, getKeyById_again hg, hk ▸ hpos, List.mem_of_getElem? hpos, hb, rfl⟩

/-- The MAC of the message under the key that is found, cut off, is accepted. -/
theorem checkKeyAuth_accepts {k : Key} (hget : s.getKeyById keyId = (s', some pos))
    (hpos : s'.keys[pos]? = some k) (data : Bytes) (truncLen : Nat) :
    s.checkKeyAuth keyId data ((macOf s'.backend k.mac data 64).take truncLen) truncLen =
      .ok (s', true) := by
  have hle := macOf_le s'.backend k.mac data 64
  have hlen : ((macOf s'.backend k.mac data 64).take truncLen).length =
      min (macOf s'.backend k.mac data 64).length truncLen := by
    rw [List.length_take, Nat.min_comm]
  unfold checkKeyAuth
  rw [hget]
  dsimp only
  rw [generateAuth_eq hpos, ok_bind, if_pos hlen.symm,
    slice_of_le (Nat.zero_le _) (by rw [hlen, Buf.length_bytes]; omega), ok_bind, hlen]
  rw [List.drop_zero, take_ofBytes hle]
  simp

end KeyStore

end ChronyRs.L2
