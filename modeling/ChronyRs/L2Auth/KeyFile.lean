import ChronyRs.Core.Lts
import ChronyRs.L1Encoding.CmdParse
import ChronyRs.L1Encoding.Util
import ChronyRs.L2Auth.Keys

/-!
# The key file and the lookups (`keys.rs`)

`reload` reads the text of a key file line by line, collects the keys of the lines it accepts and
sorts them by id. Every other method looks a key up by its id, first in the cache of one entry, and
answers from the key it finds.

`KeyRing` is the whole store of the source: over the `KeyStore` that makes and checks MACs it has
what the reports read of the keys, and the warnings.

* `readLine_eq_key_iff`: which lines are accepted, and the key of such a line.
* `reload_spec`: the keys are those of the accepted lines, sorted.
* `withKey_eq`: an answer is given from a key with the id, whatever the cache holds.
* `lookups_exact`: the same over every run of reloads and lookups.
-/
namespace ChronyRs.L2

open ChronyRs.Text L1.Util L1.CmdParse

/-! ## Key lines -/

/-- mirrors hash_intmd5.rs:25-40 -/
inductive HshAlgorithm where
  | invalid | md5 | sha1 | sha256 | sha384 | sha512 | sha3x224 | sha3x256 | sha3x384 | sha3x512
  | tiger | whirlpool
  | md5NonCrypto
  deriving DecidableEq, Repr

/-- `algorithm as i32`. -/
def HshAlgorithm.number : HshAlgorithm → Int
  | .invalid => 0
  | .md5 => 1
  | .sha1 => 2
  | .sha256 => 3
  | .sha384 => 4
  | .sha512 => 5
  | .sha3x224 => 6
  | .sha3x256 => 7
  | .sha3x384 => 8
  | .sha3x512 => 9
  | .tiger => 10
  | .whirlpool => 11
  | .md5NonCrypto => 10000

/-- `algorithm as i32`. -/
def CmacAlgorithm.number : CmacAlgorithm → Int
  | .invalid => 0
  | .aes128 => 13
  | .aes256 => 14

/-- What a backend supports: a hash by an id that is not negative, a cipher by the length of its
keys.
mirrors keys.rs:105-127 -/
class KeyBackend (B : Type) extends CryptoBackend B where
  hashId : B → HshAlgorithm → Int
  cmacKeyLength : B → CmacAlgorithm → Nat

/-- mirrors keys.rs:136-149 -/
instance : KeyBackend InternalMd5Backend where
  hashId _ algorithm := if algorithm = .md5 ∨ algorithm = .md5NonCrypto then 0 else -1
  cmacKeyLength _ _ := 0

/-- mirrors keys.rs:153-168 -/
def hashNameToAlgorithm (name : Str) : HshAlgorithm :=
  (List.lookup name [("MD5".toList, .md5), ("SHA1".toList, .sha1), ("SHA256".toList, .sha256),
    ("SHA384".toList, .sha384), ("SHA512".toList, .sha512), ("SHA3-224".toList, .sha3x224),
    ("SHA3-256".toList, .sha3x256), ("SHA3-384".toList, .sha3x384), ("SHA3-512".toList, .sha3x512),
    ("TIGER".toList, .tiger), ("WHIRLPOOL".toList, .whirlpool)]).getD .invalid

/-- mirrors keys.rs:171-177 -/
def cmacNameToAlgorithm (name : Str) : CmacAlgorithm :=
  (List.lookup name [("AES128".toList, .aes128), ("AES256".toList, .aes256)]).getD .invalid

/-- `str::strip_prefix`. -/
def stripStart (start s : Str) : Option Str :=
  if s.take start.length = start then some (s.drop start.length) else none

/-- mirrors keys.rs:181-191 -/
def decodeKey (key : Str) : Option Bytes :=
  match stripStart "ASCII:".toList key with
  | some rest => some (utf8 rest)
  | none =>
    match stripStart "HEX:".toList key with
    | some rest => (hexToBytes rest).filter (· ≠ [])
    | none => some (utf8 key)

/-- A key with what the reports read of it.
mirrors keys.rs:94-101 -/
structure KeyEntry extends Key where
  type : Int
  length : Nat
  deriving DecidableEq, Repr

section
variable {B : Type} [KeyBackend B]

/-- The key of a line whose words are read, or the warning about it.
mirrors keys.rs:260-306 -/
def makeKey (backend : B) (id : UInt32) (keyType keyValue : Str) : Rust (Except Str KeyEntry) :=
  let idText := text 10 id.toNat
  match (decodeKey keyValue).filter (· ≠ []) with
  | none => return .error ("Could not decode key ".toList ++ idText)
  | some decoded =>
    let hashAlgorithm := hashNameToAlgorithm keyType
    let cmacAlgorithm := cmacNameToAlgorithm keyType
    if hashAlgorithm ≠ .invalid then
      let hashId := KeyBackend.hashId backend hashAlgorithm
      if hashId < 0 then return .error ("Unsupported hash function in key ".toList ++ idText)
      else return .ok ⟨⟨id, .ntpMac decoded hashId⟩, hashAlgorithm.number, decoded.length⟩
    else if cmacAlgorithm ≠ .invalid then
      let cmacKeyLength := KeyBackend.cmacKeyLength backend cmacAlgorithm
      if cmacKeyLength = 0 then return .error ("Unsupported cipher in key ".toList ++ idText)
      else if cmacKeyLength ≠ decoded.length then
        if 8 * cmacKeyLength < 2 ^ 64 then
          return .error ("Invalid length of ".toList ++ keyType ++ " key ".toList ++ idText ++
            " (expected ".toList ++ text 10 (8 * cmacKeyLength) ++ " bits)".toList)
        else throw .overflow
      else return .ok ⟨⟨id, .cmac cmacAlgorithm decoded⟩, cmacAlgorithm.number, decoded.length⟩
    else return .error ("Invalid type in key ".toList ++ idText)

/-- The body of the loop over the lines: a key, a warning, or nothing for an empty line.
mirrors keys.rs:247-309 -/
def readLine (backend : B) (raw : Str) : Rust (Except (Option Str) KeyEntry) := do
  let line := normalizeLine raw
  if line = [] then return .error none
  else match parseKey line with
    | none => return .error (some ("Could not parse key line: ".toList ++ raw))
    | some (id, keyType, keyValue) =>
      match ← makeKey backend id keyType keyValue with
      | .error warning => return .error (some warning)
      | .ok key => return .ok key

/-- The keys and the warnings so far, with one line more. -/
def loadLine (backend : B) (loaded : List KeyEntry × List Str) (raw : Str) :
    Rust (List KeyEntry × List Str) := do
  match ← readLine backend raw with
  | .ok key => return (loaded.1 ++ [key], loaded.2)
  | .error none => return loaded
  | .error (some warning) => return (loaded.1, loaded.2 ++ [warning])

/-- One warning for each two neighbours with one id.
mirrors keys.rs:320-326 -/
def duplicates : List KeyEntry → List Str
  | a :: b :: rest =>
    if a.id = b.id then ("Detected duplicate key ".toList ++ text 10 a.id.toNat) ::
      duplicates (b :: rest)
    else duplicates (b :: rest)
  | _ => []

/-! ## The store -/

/-- mirrors keys.rs:196-206 -/
structure KeyRing (B : Type) where
  entries : List KeyEntry
  store : KeyStore B
  warnings : List Str
  keys_eq : store.keys = entries.map KeyEntry.toKey

namespace KeyRing

omit [KeyBackend B] in
/-- `free_keys`, then the keys that were read. The cache keeps its place but is not valid. -/
def withEntries (s : KeyRing B) (entries : List KeyEntry) (warnings : List Str) : KeyRing B where
  entries := entries
  store := { s.store with
    keys := entries.map KeyEntry.toKey, cacheValid := false, cache_ok := by simp }
  warnings := warnings
  keys_eq := rfl

/-- mirrors keys.rs:238-327 -/
def reload (s : KeyRing B) (keyfile : Option Str) : Rust (KeyRing B) :=
  match keyfile with
  | none => return s.withEntries [] []
  | some contents => do
    let (keys, warnings) ← (lines contents).foldlM (loadLine s.store.backend) ([], [])
    let keys := keys.mergeSort fun a b => a.id ≤ b.id
    return s.withEntries keys (warnings ++ duplicates keys)

/-- The store that `initialise_with_backend` loads the key file into. -/
def empty (backend : B) : KeyRing B := ⟨[], .ofKeys backend [], [], rfl⟩

/-- mirrors keys.rs:335-344 -/
def getKeyById (s : KeyRing B) (keyId : UInt32) : KeyRing B × Option Nat :=
  ({ s with
      store := (s.store.getKeyById keyId).1
      keys_eq := (s.store.keys_getKeyById keyId).trans s.keys_eq }, (s.store.getKeyById keyId).2)

/-- The methods that look up a key: the answer for an unknown id, and for a known one from its
key. -/
def withKey {β : Type} (s : KeyRing B) (keyId : UInt32) (unknown : β)
    (known : B → KeyEntry → Rust β) : Rust (KeyRing B × β) := do
  match s.getKeyById keyId with
  | (s, none) => return (s, unknown)
  | (s, some idx) =>
    let key ← index s.entries idx
    return (s, ← known s.store.backend key)

omit [KeyBackend B] in
/-- mirrors keys.rs:347-349 -/
def keyKnown (s : KeyRing B) (keyId : UInt32) : KeyRing B × Bool :=
  let (s, o) := s.getKeyById keyId
  (s, o.isSome)

/-- mirrors keys.rs:352-365 -/
def getAuthLength (s : KeyRing B) (keyId : UInt32) : Rust (KeyRing B × Int) :=
  s.withKey keyId 0 fun backend key =>
    match key.mac with
    | .ntpMac _ hashId => return asI32 (CryptoBackend.hash backend hashId [] [] 64).length
    | .cmac algorithm k => return asI32 (CryptoBackend.cmacHash backend algorithm k [] 64).length

/-- mirrors keys.rs:368-373 -/
def checkKeyLength (s : KeyRing B) (keyId : UInt32) : Rust (KeyRing B × Bool) :=
  s.withKey keyId false fun _ key => return 10 ≤ key.length

/-- mirrors keys.rs:376-379 -/
def getKeyInfo (s : KeyRing B) (keyId : UInt32) : Rust (KeyRing B × Option (Int × Int)) :=
  s.withKey keyId none fun _ key => do return some (key.type, ← i32 (8 * asI32 key.length))

/-- mirrors keys.rs:391-396 -/
def generateKeyAuth (s : KeyRing B) (keyId : UInt32) (data : Bytes) (n : Nat) :
    Rust (KeyRing B × Bytes) :=
  s.withKey keyId [] fun backend key => return KeyStore.macOf backend key.mac data n

/-- mirrors keys.rs:400-413 -/
def checkKeyAuth (s : KeyRing B) (keyId : UInt32) (data auth : Bytes) (truncLen : Nat) :
    Rust (KeyRing B × Bool) :=
  s.withKey keyId false fun backend key => do
    let out := KeyStore.macOf backend key.mac data 64
    if min out.length truncLen = auth.length then
      return (← slice (Buf.ofBytes 64 out).bytes 0 auth.length) = auth
    else return false

/-! ## Lookups -/

def find (s : KeyRing B) (keyId : UInt32) : Option KeyEntry :=
  (lookupKey s.store.keys keyId).bind fun pos => s.entries[pos]?

variable {s : KeyRing B} {backend : B}

omit [KeyBackend B] in
/-- The place that a search finds is one of a key with the id. -/
theorem entry_of_lookup {keyId : UInt32} {pos : Nat} (h : lookupKey s.store.keys keyId = some pos) :
    ∃ key, s.entries[pos]? = some key ∧ key.id = keyId := by
  obtain ⟨k, hk, hid⟩ := lookupKey_some h
  rw [s.keys_eq, List.getElem?_map] at hk
  obtain ⟨key, hkey, rfl⟩ := Option.map_eq_some_iff.1 hk
  exact ⟨key, hkey, hid⟩

omit [KeyBackend B] in
theorem find_isSome (s : KeyRing B) (keyId : UInt32) :
    (s.find keyId).isSome = (lookupKey s.store.keys keyId).isSome := by
  unfold find
  cases hpos : lookupKey s.store.keys keyId with
  | none => rfl
  | some pos =>
    obtain ⟨key, hkey, -⟩ := entry_of_lookup hpos
    simp [hkey]

omit [KeyBackend B] in
/-- A lookup answers what a search answers and changes only the cache. -/
theorem getKeyById_search (h : s.store.CacheOk) (keyId : UInt32) :
    ∃ s', s.getKeyById keyId = (s', lookupKey s.store.keys keyId) ∧ s'.store.CacheOk ∧
      s'.entries = s.entries ∧ s'.store.backend = s.store.backend := by
  obtain ⟨store, hget, hcache, hbackend⟩ := KeyStore.getKeyById_search h keyId
  refine ⟨(s.getKeyById keyId).1, Prod.ext rfl ?_, ?_, rfl, ?_⟩
  · show (s.store.getKeyById keyId).2 = _
    rw [hget]
  · show (s.store.getKeyById keyId).1.CacheOk
    rw [hget]
    exact hcache
  · show (s.store.getKeyById keyId).1.backend = _
    rw [hget]
    exact hbackend

omit [KeyBackend B] in
/-- **An answer is given from the key that a search finds**, whatever the cache holds. -/
theorem withKey_eq {β : Type} (h : s.store.CacheOk) (keyId : UInt32) (unknown : β)
    (known : B → KeyEntry → Rust β) :
    s.withKey keyId unknown known = ((s.find keyId).elim (Except.ok unknown)
      (known s.store.backend)).map fun answer => ((s.getKeyById keyId).1, answer) := by
  obtain ⟨s', hget, -, hentries, hbackend⟩ := getKeyById_search h keyId
  unfold withKey find
  rw [hget]
  cases hpos : lookupKey s.store.keys keyId with
  | none => rfl
  | some idx =>
    obtain ⟨key, hkey, -⟩ := entry_of_lookup hpos
    dsimp only
    rw [hentries, index_eq_ok.2 hkey, ok_bind, hbackend, Option.bind_some, hkey, Option.elim_some]
    cases known s.store.backend key <;> rfl

/-! ## The file -/

/-- The lines that give a key: an id, a known type that the backend supports, and a secret that can
be decoded, of the length that a cipher asks for. -/
inductive KeyLine (backend : B) (raw : Str) : KeyEntry → Prop
  | hash {id : UInt32} {keyType keyValue : Str} {secret : Bytes}
      (words : parseKey (normalizeLine raw) = some (id, keyType, keyValue))
      (decoded : decodeKey keyValue = some secret) (nonempty : secret ≠ [])
      (known : hashNameToAlgorithm keyType ≠ .invalid)
      (supported : 0 ≤ KeyBackend.hashId backend (hashNameToAlgorithm keyType)) :
      KeyLine backend raw ⟨⟨id, .ntpMac secret
        (KeyBackend.hashId backend (hashNameToAlgorithm keyType))⟩,
        (hashNameToAlgorithm keyType).number, secret.length⟩
  | cmac {id : UInt32} {keyType keyValue : Str} {secret : Bytes}
      (words : parseKey (normalizeLine raw) = some (id, keyType, keyValue))
      (decoded : decodeKey keyValue = some secret) (nonempty : secret ≠ [])
      (noHash : hashNameToAlgorithm keyType = .invalid)
        (known : cmacNameToAlgorithm keyType ≠ .invalid)
      (length_eq : KeyBackend.cmacKeyLength backend (cmacNameToAlgorithm keyType) = secret.length) :
      KeyLine backend raw ⟨⟨id, .cmac (cmacNameToAlgorithm keyType) secret⟩,
        (cmacNameToAlgorithm keyType).number, secret.length⟩

theorem keyLine_of_readLine {raw : Str} {key : KeyEntry}
    (h : readLine backend raw = .ok (.ok key)) : KeyLine backend raw key := by
  unfold readLine at h
  dsimp only at h
  split at h
  · cases h
  split at h
  · cases h
  rename_i id keyType keyValue hwords
  obtain ⟨made, hmade, h⟩ := bind_eq_ok.1 h
  cases made with
  | error warning => cases h
  | ok made =>
    cases h
    unfold makeKey at hmade
    dsimp only at hmade
    split at hmade
    · cases hmade
    rename_i secret hsecret
    obtain ⟨hdecoded, hne⟩ := Option.filter_eq_some_iff.1 hsecret
    have hne : secret ≠ [] := by simpa using hne
    split at hmade
    · split at hmade
      · cases hmade
      · cases hmade
        exact .hash hwords hdecoded hne ‹_› (not_lt.1 ‹_›)
    · split at hmade
      · split at hmade
        · cases hmade
        · split at hmade
          · split at hmade <;> cases hmade
          · cases hmade
            exact .cmac hwords hdecoded hne (not_not.1 ‹_›) ‹_› (not_not.1 ‹_›)
      · cases hmade

theorem KeyLine.readLine {raw : Str} {key : KeyEntry} (h : KeyLine backend raw key) :
    readLine backend raw = .ok (.ok key) := by
  have hline : ∀ {w}, parseKey (normalizeLine raw) = some w → normalizeLine raw ≠ [] := by
    intro w hw hnil
    rw [hnil] at hw
    cases hw
  have hfilter : ∀ {value secret}, decodeKey value = some secret → secret ≠ [] →
      (decodeKey value).filter (· ≠ []) = some secret := by
    intro value secret hdecoded hne
    simp [hdecoded, hne]
  cases h with
  | hash hwords hdecoded hne hknown hsupported =>
    rw [L2.readLine, if_neg (hline hwords), hwords]
    dsimp only
    rw [makeKey, hfilter hdecoded hne]
    dsimp only
    rw [if_pos hknown, if_neg (not_lt.2 hsupported)]
    rfl
  | @cmac id keyType keyValue secret hwords hdecoded hne hno hknown hlength =>
    have hpos : secret.length ≠ 0 := fun h => hne (List.length_eq_zero_iff.1 h)
    rw [L2.readLine, if_neg (hline hwords), hwords]
    dsimp only
    rw [makeKey, hfilter hdecoded hne]
    dsimp only
    rw [if_neg (not_not.2 hno), if_pos hknown, hlength, if_neg hpos, if_neg (not_not.2 rfl)]
    rfl

/-- **The key of a line.** -/
theorem readLine_eq_key_iff {raw : Str} {key : KeyEntry} :
    readLine backend raw = .ok (.ok key) ↔ KeyLine backend raw key :=
  ⟨keyLine_of_readLine, KeyLine.readLine⟩

def acceptLine (backend : B) (raw : Str) : Option KeyEntry :=
  (readLine backend raw).toOption.bind Except.toOption

def accepted (backend : B) : Option Str → List KeyEntry
  | none => []
  | some contents => (lines contents).filterMap (acceptLine backend)

/-- The text has a line with the key. -/
def Has (backend : B) (keyfile : Option Str) (key : KeyEntry) : Prop :=
  ∃ contents ∈ keyfile, ∃ raw ∈ lines contents, KeyLine backend raw key

theorem mem_accepted_iff {keyfile : Option Str} {key : KeyEntry} :
    key ∈ accepted backend keyfile ↔ Has backend keyfile key := by
  have hline : ∀ raw, acceptLine backend raw = some key ↔ KeyLine backend raw key := by
    intro raw
    rw [← readLine_eq_key_iff, acceptLine]
    cases readLine backend raw with
    | error e => simp [Except.toOption]
    | ok read => cases read <;> simp [Except.toOption]
  cases keyfile with
  | none => simp [accepted, Has]
  | some contents => simp [accepted, Has, hline]

theorem loadLines_keys : ∀ {ls : List Str} {loaded loaded' : List KeyEntry × List Str},
    ls.foldlM (loadLine backend) loaded = .ok loaded' → loaded'.1 = loaded.1 ++
      ls.filterMap (acceptLine backend)
  | [], loaded, loaded', h => by
    cases h
    simp
  | raw :: ls, loaded, loaded', h => by
    rw [List.foldlM_cons] at h
    obtain ⟨loaded1, hline, h⟩ := bind_eq_ok.1 h
    rw [loadLines_keys h]
    unfold loadLine at hline
    obtain ⟨read, hread, hline⟩ := bind_eq_ok.1 hline
    have haccept : acceptLine backend raw = read.toOption := by
      rw [acceptLine, hread]
      rfl
    cases read with
    | ok key =>
      cases hline
      rw [List.filterMap_cons_some haccept]
      simp
    | error warning =>
      rw [List.filterMap_cons_none haccept]
      cases warning with
      | none =>
        cases hline
        rfl
      | some w =>
        cases hline
        rfl

/-- What a ring loaded from a key file is: the keys of the accepted lines, sorted, behind a cache
that agrees with them. -/
structure Loaded (backend : B) (s : KeyRing B) (keyfile : Option Str) : Prop where
  backend_eq : s.store.backend = backend
  perm : s.entries.Perm (accepted backend keyfile)
  sorted : s.entries.Pairwise fun a b => a.id ≤ b.id
  cache : s.store.CacheOk

/-- **Loading.** -/
theorem reload_spec {s' : KeyRing B} (hs : s.store.backend = backend) {keyfile : Option Str}
    (h : s.reload keyfile = .ok s') : Loaded backend s' keyfile := by
  unfold reload at h
  cases keyfile with
  | none =>
    cases h
    exact ⟨hs, List.Perm.refl _, List.Pairwise.nil, fun hc => absurd hc (by simp [withEntries])⟩
  | some contents =>
    obtain ⟨⟨keys, warnings⟩, hload, h⟩ := bind_eq_ok.1 h
    cases h
    have hkeys := loadLines_keys hload
    rw [hs, List.nil_append] at hkeys
    refine ⟨hs, ?_, ?_, fun hc => absurd hc (by simp [withEntries])⟩
    · show (keys.mergeSort fun a b => a.id ≤ b.id).Perm _
      rw [accepted, ← hkeys]
      exact List.mergeSort_perm _ _
    · show (keys.mergeSort fun a b => a.id ≤ b.id).Pairwise _
      refine (List.pairwise_mergeSort (fun a b c hab hbc => ?_) (fun a b => ?_) keys).imp fun hab =>
        of_decide_eq_true hab
      · exact decide_eq_true (UInt32.le_trans (of_decide_eq_true hab) (of_decide_eq_true hbc))
      · simpa using UInt32.le_total a.id b.id

/-- The key that a search finds is one of an accepted line with the id, and one is found if there is
one. -/
theorem Loaded.find {keyfile : Option Str} (h : Loaded backend s keyfile) (keyId : UInt32) :
    ((s.find keyId).isSome = true ↔ ∃ key, Has backend keyfile key ∧ key.id = keyId) ∧
      ∀ key, s.find keyId = some key → Has backend keyfile key ∧ key.id = keyId := by
  have hsorted : s.store.keys.Pairwise fun a b => a.id ≤ b.id := by
    rw [s.keys_eq, List.pairwise_map]
    exact h.sorted
  constructor
  · have hmem : (∃ k ∈ s.store.keys, k.id = keyId) ↔ ∃ key, Has backend keyfile key ∧
        key.id = keyId := by
      rw [s.keys_eq]
      simp only [List.mem_map, ← mem_accepted_iff, ← h.perm.mem_iff]
      exact ⟨fun ⟨_, ⟨key, hkey, rfl⟩, hid⟩ => ⟨key, hkey, hid⟩, fun ⟨key, hkey, hid⟩ =>
        ⟨_, ⟨key, hkey, rfl⟩, hid⟩⟩
    rw [find_isSome, lookupKey_isSome_iff hsorted keyId, hmem]
  · intro key hkey
    obtain ⟨pos, hpos, hkey⟩ := Option.bind_eq_some_iff.1 hkey
    obtain ⟨key', hkey', hid⟩ := entry_of_lookup hpos
    rw [hkey] at hkey'
    cases hkey'
    exact ⟨mem_accepted_iff.1 (h.perm.mem_iff.1 (List.mem_of_getElem? hkey)), hid⟩

end KeyRing

/-! ## Requests -/

/-- The methods that look up a key, with their arguments. -/
inductive KeyQuery where
  | keyKnown (keyId : UInt32)
  | getAuthLength (keyId : UInt32)
  | checkKeyLength (keyId : UInt32)
  | getKeyInfo (keyId : UInt32)
  | generateKeyAuth (keyId : UInt32) (data : Bytes) (n : Nat)
  | checkKeyAuth (keyId : UInt32) (data auth : Bytes) (truncLen : Nat)
  deriving DecidableEq, Repr

inductive Answer where
  | flag (b : Bool)
  | number (n : Int)
  | info (o : Option (Int × Int))
  | mac (auth : Bytes)
  deriving DecidableEq, Repr

namespace KeyQuery

def keyId : KeyQuery → UInt32
  | .keyKnown keyId | .getAuthLength keyId | .checkKeyLength keyId | .getKeyInfo keyId
  | .generateKeyAuth keyId _ _ | .checkKeyAuth keyId _ _ _ => keyId

def unknown : KeyQuery → Answer
  | .keyKnown _ | .checkKeyLength _ | .checkKeyAuth .. => .flag false
  | .getAuthLength _ => .number 0
  | .getKeyInfo _ => .info none
  | .generateKeyAuth .. => .mac []

/-- The answer from a key: a MAC is right if it is the digest, cut off. Only the count of the bits
of a key may overflow. -/
def known (backend : B) (key : KeyEntry) : KeyQuery → Rust Answer
  | .keyKnown _ => return .flag true
  | .getAuthLength _ =>
    match key.mac with
    | .ntpMac _ hashId => return .number (asI32 (CryptoBackend.hash backend hashId [] [] 64).length)
    | .cmac algorithm k =>
      return .number (asI32 (CryptoBackend.cmacHash backend algorithm k [] 64).length)
  | .checkKeyLength _ => return .flag (10 ≤ key.length)
  | .getKeyInfo _ => return .info (some (key.type, ← i32 (8 * asI32 key.length)))
  | .generateKeyAuth _ data n => return .mac (KeyStore.macOf backend key.mac data n)
  | .checkKeyAuth _ data auth truncLen =>
    return .flag ((KeyStore.macOf backend key.mac data 64).take truncLen = auth)

/-- The answer, if the search found `found`. -/
def answer (backend : B) (found : Option KeyEntry) (r : KeyQuery) : Rust Answer :=
  found.elim (return r.unknown) (r.known backend)

end KeyQuery

namespace KeyRing

def ask (s : KeyRing B) : KeyQuery → Rust (KeyRing B × Answer)
  | .keyKnown keyId => return Prod.map id .flag (s.keyKnown keyId)
  | .getAuthLength keyId => Prod.map id .number <$> s.getAuthLength keyId
  | .checkKeyLength keyId => Prod.map id .flag <$> s.checkKeyLength keyId
  | .getKeyInfo keyId => Prod.map id .info <$> s.getKeyInfo keyId
  | .generateKeyAuth keyId data n => Prod.map id .mac <$> s.generateKeyAuth keyId data n
  | .checkKeyAuth keyId data auth truncLen =>
    Prod.map id .flag <$> s.checkKeyAuth keyId data auth truncLen

omit [KeyBackend B] in
/-- A comparison with the buffer that the digest is written to is one with the digest, cut off. -/
theorem check_eq {out auth : Bytes} (hle : out.length ≤ 64) (truncLen : Nat) :
    (if min out.length truncLen = auth.length then
      (do return decide ((← slice (Buf.ofBytes 64 out).bytes 0 auth.length) = auth) : Rust Bool)
        else return false) =
      .ok (decide (out.take truncLen = auth)) := by
  split
  · rename_i hlen
    rw [slice_of_le (Nat.zero_le _) (by rw [Buf.length_bytes]; omega), ok_bind,
      List.drop_zero, ← hlen, KeyStore.take_ofBytes hle]
    rfl
  · rename_i hlen
    have hne : out.take truncLen ≠ auth := by
      rintro rfl
      exact hlen (by rw [List.length_take, Nat.min_comm])
    rw [decide_eq_false hne]
    rfl

variable {s : KeyRing B} {backend : B} {keyfile : Option Str}

/-- A method that looks up a key answers as `answer` says, if it does so with and without a key. -/
theorem withKey_answer {β : Type} (h : s.store.CacheOk) (f : β → Answer) {unknown : β}
    {known : B → KeyEntry → Rust β} {r : KeyQuery} (hunknown : f unknown = r.unknown)
    (hknown : ∀ key, f <$> known s.store.backend key = r.known s.store.backend key) :
    Prod.map id f <$> s.withKey r.keyId unknown known =
      (r.answer s.store.backend (s.find r.keyId)).map
      fun answer => ((s.getKeyById r.keyId).1, answer) := by
  rw [withKey_eq h, KeyQuery.answer]
  cases s.find r.keyId with
  | none =>
    rw [Option.elim_none, Option.elim_none, ← hunknown]
    rfl
  | some key =>
    rw [Option.elim_some, Option.elim_some, ← hknown key]
    cases known s.store.backend key <;> rfl

/-- **A request is answered from the key that a search finds.** -/
theorem ask_eq (h : s.store.CacheOk) (r : KeyQuery) :
    s.ask r = (r.answer s.store.backend (s.find r.keyId)).map fun answer =>
      ((s.getKeyById r.keyId).1, answer) := by
  cases r with
  | keyKnown keyId =>
    obtain ⟨s', hget, -⟩ := getKeyById_search h keyId
    have hfind := s.find_isSome keyId
    show Except.ok (Prod.map id Answer.flag (s.keyKnown keyId)) = _
    rw [keyKnown, KeyQuery.keyId, KeyQuery.answer, hget]
    dsimp only
    rw [← hfind]
    cases s.find keyId <;> rfl
  | getAuthLength keyId =>
    refine withKey_answer h Answer.number (r := .getAuthLength keyId) rfl fun key => ?_
    rw [KeyQuery.known]
    cases key.mac <;> rfl
  | checkKeyLength keyId =>
    exact withKey_answer h Answer.flag (r := .checkKeyLength keyId) rfl fun key => rfl
  | getKeyInfo keyId =>
    refine withKey_answer h Answer.info (r := .getKeyInfo keyId) rfl fun key => ?_
    rw [KeyQuery.known]
    cases i32 (8 * asI32 key.length) <;> rfl
  | generateKeyAuth keyId data n =>
    exact withKey_answer h Answer.mac (r := .generateKeyAuth keyId data n) rfl fun key => rfl
  | checkKeyAuth keyId data auth truncLen =>
    refine withKey_answer h Answer.flag (r := .checkKeyAuth keyId data auth truncLen) rfl
      fun key => ?_
    rw [KeyQuery.known, check_eq (KeyStore.macOf_le ..)]
    rfl

/-- A request leaves the keys as they are, behind a cache that agrees with them. -/
theorem ask_loaded {s' : KeyRing B} {r : KeyQuery} {answer : Answer} (hs : Loaded backend s keyfile)
    (h : s.ask r = .ok (s', answer)) : Loaded backend s' keyfile := by
  rw [ask_eq hs.cache] at h
  obtain ⟨ring, hget, hcache, hentries, hbackend⟩ := getKeyById_search hs.cache r.keyId
  rw [hget] at h
  cases hans : r.answer s.store.backend (s.find r.keyId) with
  | error e =>
    rw [hans] at h
    cases h
  | ok a =>
    rw [hans] at h
    cases h
    exact ⟨hbackend.trans hs.backend_eq, hentries ▸ hs.perm, hentries ▸ hs.sorted, hcache⟩

omit [KeyBackend B] in
def uncached (s : KeyRing B) : KeyRing B := s.withEntries s.entries s.warnings

theorem Loaded.uncached (h : Loaded backend s keyfile) :
    Loaded backend s.uncached keyfile :=
  ⟨h.backend_eq, h.perm, h.sorted, fun hc => absurd hc (by simp [KeyRing.uncached, withEntries])⟩

omit [KeyBackend B] in
theorem find_uncached (s : KeyRing B) (keyId : UInt32) : s.uncached.find keyId = s.find keyId := by
  show (lookupKey (s.entries.map KeyEntry.toKey) keyId).bind _ = _
  rw [← s.keys_eq]
  rfl

theorem Loaded.ask (h : Loaded backend s keyfile) (r : KeyQuery) :
    (s.ask r).map Prod.snd = r.answer backend (s.find r.keyId) := by
  rw [ask_eq h.cache, h.backend_eq]
  cases r.answer backend (s.find r.keyId) <;> rfl

/-! ## Runs -/

inductive Op where
  | reload (keyfile : Option Str)
  | ask (r : KeyQuery)

/-- The store and the text that was loaded last, after one more call. -/
def step (s : KeyRing B × Option Str) : Op → Rust (KeyRing B × Option Str)
  | .reload keyfile => return (← s.1.reload keyfile, keyfile)
  | .ask r => return ((← s.1.ask r).1, s.2)

theorem step_loaded {s s' : KeyRing B × Option Str} {op : Op} (hs : Loaded backend s.1 s.2)
    (h : step s op = .ok s') : Loaded backend s'.1 s'.2 := by
  cases op with
  | reload keyfile =>
    obtain ⟨ring, hring, h⟩ := bind_eq_ok.1 h
    cases h
    exact reload_spec hs.backend_eq hring
  | ask r =>
    obtain ⟨⟨ring, answer⟩, hask, h⟩ := bind_eq_ok.1 h
    cases h
    exact ask_loaded hs hask

/-- **Every lookup is exact.** After any reloads and lookups a request finds a key iff the text that
was loaded last has a key line with its id. It is answered from the key of such a line, and as it is
without the cache. -/
theorem lookups_exact (backend : B) {ops : List Op} {s : KeyRing B} {keyfile : Option Str}
    (h : Run (fun s op s' => step s op = .ok s') (empty backend, none) ops (s, keyfile))
    (r : KeyQuery) :
    ∃ found : Option KeyEntry,
      (found.isSome = true ↔ ∃ key, Has backend keyfile key ∧ key.id = r.keyId) ∧
      (∀ key, found = some key → Has backend keyfile key ∧ key.id = r.keyId) ∧
      (s.ask r).map Prod.snd = r.answer backend found ∧
      (s.uncached.ask r).map Prod.snd = r.answer backend found := by
  have hempty : Loaded backend (empty backend) none :=
    ⟨rfl, List.Perm.refl _, List.Pairwise.nil, fun hc => absurd hc
      (by simp [empty, KeyStore.ofKeys])⟩
  have hs : Loaded backend s keyfile :=
    h.invariant (I := fun s => Loaded backend s.1 s.2)
      (fun _ _ _ hs hstep => step_loaded hs hstep) hempty
  obtain ⟨hknown, hkey⟩ := hs.find r.keyId
  refine ⟨s.find r.keyId, hknown, hkey, hs.ask r, ?_⟩
  rw [← find_uncached]
  exact hs.uncached.ask r

end KeyRing

end

def keyText : Str := "7 first\n# no key\n9 SHA1 other\n7 MD5 HEX:0102\n".toList

theorem lookups_exact_duplicate :
    ∃ s : KeyRing InternalMd5Backend,
      Run (fun s op s' => KeyRing.step s op = .ok s') (KeyRing.empty ⟨⟩, none)
        [.reload (some keyText), .ask (.keyKnown 7)] (s, some keyText) ∧
      ∃ found : Option KeyEntry,
        (found.isSome = true ↔ ∃ key, KeyRing.Has InternalMd5Backend.mk (some keyText) key ∧
          key.id = 7) ∧
        (∀ key, found = some key → KeyRing.Has InternalMd5Backend.mk (some keyText) key ∧
          key.id = 7) ∧
        (s.ask (.getKeyInfo 7)).map Prod.snd = KeyQuery.answer InternalMd5Backend.mk found
          (.getKeyInfo 7) ∧
        (s.uncached.ask (.getKeyInfo 7)).map Prod.snd =
          KeyQuery.answer InternalMd5Backend.mk found (.getKeyInfo 7) := by
  obtain ⟨⟨keys, warnings⟩, hload, -⟩ := exists_of_check
    (show ((lines keyText).foldlM (loadLine InternalMd5Backend.mk) ([], [])).toOption.any
      (fun p => p.1.length = 2) = true
      by decide +kernel)
  obtain ⟨ring, hring⟩ : ∃ ring, (KeyRing.empty InternalMd5Backend.mk).reload
      (some keyText) = .ok ring :=
    ⟨_, bind_eq_ok.2 ⟨_, hload, rfl⟩⟩
  have hreload : KeyRing.step (KeyRing.empty InternalMd5Backend.mk, none) (.reload (some keyText)) =
      .ok (ring, some keyText) := by
    rw [KeyRing.step, hring]
    rfl
  have hrun : Run (fun s op s' => KeyRing.step s op = .ok s')
      (KeyRing.empty InternalMd5Backend.mk, none)
      [.reload (some keyText), .ask (.keyKnown 7)] ((ring.getKeyById 7).1, some keyText) :=
    .cons hreload (.cons rfl (.nil _))
  exact ⟨_, hrun, KeyRing.lookups_exact InternalMd5Backend.mk hrun (.getKeyInfo 7)⟩

end ChronyRs.L2
