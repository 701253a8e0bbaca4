import ChronyRs.Core.Net
import ChronyRs.Core.Rust
import ChronyRs.Core.Trie

/-!
# The address filter (`addrfilt.rs`)

`AuthTable` holds one trie for each family, with four bits of the address per level. A
subnet whose width is not a multiple of four is written into 2, 4 or 8 siblings. The model
has the panics of the source: an index beyond the words of the address, a shift by more
bits than there are, the assertion on the group of siblings.

`verdict` states what the table is for, on the list of operations: of the rules that cover
the address and were not pruned later, the one with the largest rounded width decides, and
of several the latest.

* `TableNode.stateAt_written`: what one operation does to the states along the path of any address.
* `AuthTable.run_verdict`: after any operations on a new table, every lookup returns the verdict.
-/
namespace ChronyRs.L2.Addrfilt

/-! ## The trie (`TableNode`) -/

/-- mirrors addrfilt.rs:48-53 -/
inductive State where
  | deny | allow | asParent
  deriving DecidableEq, Repr

instance : Inhabited State := ⟨.asParent⟩

/-- mirrors addrfilt.rs:58-61 -/
inductive AdfStatus where
  | success | badSubnet
  deriving DecidableEq, Repr

/-- mirrors addrfilt.rs:67-71 -/
inductive Subnet where
  | v4 (addr : UInt32)
  | v6 (addr : BitVec 128)
  | unspec
  deriving DecidableEq, Repr

/-- The octets of an address are those of the number, the most significant first.
mirrors addrfilt.rs:74-81 -/
def splitIp6 (ip : BitVec 128) : List UInt32 :=
  (List.range 4).map fun i => .ofBitVec (ip.extractLsb' (96 - 32 * i) 32)

@[simp] theorem length_splitIp6 (ip : BitVec 128) : (splitIp6 ip).length = 4 := by simp [splitIp6]

theorem and_fifteen_lt (w : UInt32) : (w &&& 15).toNat < 16 := by
  rw [UInt32.toNat_and]
  exact Nat.lt_of_le_of_lt Nat.and_le_right (by decide)

/-- mirrors addrfilt.rs:84-88 -/
def getSubnet (addr : List UInt32) (pos : Nat) : Rust (Fin 16) := do
  let off := pos / 32
  let pos := pos % 32
  let w ← index addr off
  if 28 < pos then throw .overflow
  pure ⟨(w >>> .ofNat (32 - 4 - pos) &&& 15).toNat, and_fifteen_lt _⟩

/-- A node is open if it has a vector of sixteen children. -/
abbrev TableNode := Trie (Fin 16) State

namespace TableNode

/-- Set the state of a node, after pruning what is below it on request. -/
def assign (newState : State) (deleteChildren : Bool) (node : TableNode) : TableNode :=
  (if deleteChildren then node.close else node).setState newState

/-- The two loops over the whole nibbles of a width: open the node and go to the child; then
go on with `last` at the node that is reached.
mirrors addrfilt.rs:135-141, 148-154 -/
def descend (ip : List UInt32) (last : Nat → TableNode → Rust TableNode) :
    (nibbles bitsConsumed : Nat) → TableNode → Rust TableNode
  | 0, bitsConsumed, node => last bitsConsumed node
  | n + 1, bitsConsumed, node => do
    let subnet ← getSubnet ip bitsConsumed
    let child ← descend ip last n (bitsConsumed + 4) (node.child subnet)
    pure (node.mapChildren fun i c => if i = subnet then child else c)

/-- `subnet & !(n - 1)` on `usize`. -/
def alignDown (subnet : Fin 16) (n : Nat) : Nat := (UInt64.ofNat subnet &&& ~~~(.ofNat n - 1)).toNat

/-- The siblings that a width with `bitsToGo` bits left over stands for: 1 bit gives 8
entries, 2 give 4, 3 give 2.
mirrors addrfilt.rs:156-166 -/
def setSiblings (ip : List UInt32) (bitsToGo : Nat) (newState : State) (deleteChildren : Bool)
    (bitsConsumed : Nat) (node : TableNode) : Rust TableNode := do
  let n := 1 <<< (4 - bitsToGo)
  let subnet ← getSubnet ip bitsConsumed
  let base := alignDown subnet n
  Rust.assert (base + n ≤ 16)
  pure (node.mapChildren fun i c =>
    if base ≤ i ∧ i < base + n then assign newState deleteChildren c else c)

/-- mirrors addrfilt.rs:117-169 -/
def setSubnet (node : TableNode) (ip : List UInt32) (ipLen subnetBits : Int) (newState : State)
    (deleteChildren : Bool) : Rust (TableNode × AdfStatus) :=
  if subnetBits < 0 ∨ 32 * ipLen < subnetBits then pure (node, .badSubnet)
  else do
    let bits := subnetBits.toNat
    let last := if bits % 4 = 0 then fun _ node => pure (assign newState deleteChildren node)
      else setSiblings ip (bits % 4) newState deleteChildren
    let node ← descend ip last (bits / 4) 0 node
    pure (node, .success)

/-- The loop of `check_ip`, up to a node that is not open. -/
def lookup (ip : List UInt32) : TableNode → Nat → State → Rust State
  | .leaf s, _, state => pure (Trie.inherit s state)
  | .node s children, bitsConsumed, state => do
    let subnet ← getSubnet ip bitsConsumed
    lookup ip (children subnet) (bitsConsumed + 4) (Trie.inherit s state)

/-- mirrors addrfilt.rs:173-191 -/
def checkIp (node : TableNode) (ip : List UInt32) : Rust Bool := do
  let state ← node.lookup ip 0 .deny
  pure (state = .allow)

end TableNode

/-! ## The table (`AuthTable`) -/

/-- mirrors addrfilt.rs:209-212 -/
structure AuthTable where
  base4 : TableNode
  base6 : TableNode

namespace AuthTable

/-- mirrors addrfilt.rs:222-227 -/
def new : AuthTable := ⟨.leaf .deny, .leaf .deny⟩

/-- mirrors addrfilt.rs:230-263 -/
def setSubnet_ (t : AuthTable) (subnet : Subnet) (subnetBits : Int) (newState : State)
    (deleteChildren : Bool) : Rust (AuthTable × AdfStatus) :=
  match subnet with
  | .v4 ip => do
    let (base4, r) ← t.base4.setSubnet [ip] 1 subnetBits newState deleteChildren
    pure (⟨base4, t.base6⟩, r)
  | .v6 ip => do
    let (base6, r) ← t.base6.setSubnet (splitIp6 ip) 4 subnetBits newState deleteChildren
    pure (⟨t.base4, base6⟩, r)
  | .unspec => do
    if subnetBits ≠ 0 then return (t, .badSubnet)
    let (base4, r) ← t.base4.setSubnet [0] 1 0 newState deleteChildren
    if r ≠ .success then return (⟨base4, t.base6⟩, .badSubnet)
    let (base6, r) ← t.base6.setSubnet [0, 0, 0, 0] 4 0 newState deleteChildren
    pure (⟨base4, base6⟩, if r = .success then .success else .badSubnet)

/-- mirrors addrfilt.rs:266-268 -/
def allow (t : AuthTable) (subnet : Subnet) (bits : Int) := t.setSubnet_ subnet bits .allow false

/-- mirrors addrfilt.rs:271-273 -/
def allowAll (t : AuthTable) (subnet : Subnet) (bits : Int) := t.setSubnet_ subnet bits .allow true

/-- mirrors addrfilt.rs:276-278 -/
def deny (t : AuthTable) (subnet : Subnet) (bits : Int) := t.setSubnet_ subnet bits .deny false

/-- mirrors addrfilt.rs:281-283 -/
def denyAll (t : AuthTable) (subnet : Subnet) (bits : Int) := t.setSubnet_ subnet bits .deny true

/-- mirrors addrfilt.rs:286-291 -/
def isAllowed (t : AuthTable) : IpAddr → Rust Bool
  | .v4 ip => t.base4.checkIp [ip]
  | .v6 ip => t.base6.checkIp (splitIp6 ip)

end AuthTable

/-! ## The rule list -/

inductive Verb where
  | allow | allowAll | deny | denyAll
  deriving DecidableEq, Repr

structure Op where
  verb : Verb
  subnet : Subnet
  bits : Int
  deriving DecidableEq, Repr

def AuthTable.apply (t : AuthTable) (op : Op) : Rust (AuthTable × AdfStatus) :=
  match op.verb with
  | .allow => t.allow op.subnet op.bits
  | .allowAll => t.allowAll op.subnet op.bits
  | .deny => t.deny op.subnet op.bits
  | .denyAll => t.denyAll op.subnet op.bits

/-- All operations in turn, with what each returned. -/
def AuthTable.run : AuthTable → List Op → Rust (AuthTable × List AdfStatus)
  | t, [] => pure (t, [])
  | t, op :: ops => do
    let (t, r) ← t.apply op
    let (t, rs) ← run t ops
    pure (t, r :: rs)

namespace Op

def isAllow (op : Op) : Bool := op.verb = .allow ∨ op.verb = .allowAll

def isAll (op : Op) : Bool := op.verb = .allowAll ∨ op.verb = .denyAll

/-- A width is in range for the family; without a family only zero is. -/
def status (op : Op) : AdfStatus :=
  match op.subnet with
  | .v4 _ => if 0 ≤ op.bits ∧ op.bits ≤ 32 then .success else .badSubnet
  | .v6 _ => if 0 ≤ op.bits ∧ op.bits ≤ 128 then .success else .badSubnet
  | .unspec => if op.bits = 0 then .success else .badSubnet

/-- The address agrees with the subnet in its first `bits` bits. -/
def covers (op : Op) : IpAddr → Bool
  | .v4 a =>
    match op.subnet with
    | .v4 ip => a.toNat / 2 ^ (32 - op.bits.toNat) = ip.toNat / 2 ^ (32 - op.bits.toNat)
    | .v6 _ => false
    | .unspec => true
  | .v6 a =>
    match op.subnet with
    | .v4 _ => false
    | .v6 ip => a.toNat / 2 ^ (128 - op.bits.toNat) = ip.toNat / 2 ^ (128 - op.bits.toNat)
    | .unspec => true

/-- `4 * ceil(bits / 4)`. -/
def rounded (op : Op) : Nat := 4 * ((op.bits.toNat + 3) / 4)

/-- The operation as a rule for an address, if it succeeds and covers it. -/
def rule (a : IpAddr) (op : Op) : Option (Overlay.Rule Bool) :=
  if op.status = .success ∧ op.covers a then some ⟨op.rounded, op.isAll, op.isAllow⟩ else none

end Op

/-- What a list of operations says about an address: of the rules for it that are not
followed by a pruning one of smaller rounded width, the one with the largest rounded width
decides, the latest of several; without any the address is denied. -/
def verdict (ops : List Op) (a : IpAddr) : Bool :=
  match Overlay.decisive (ops.filterMap (Op.rule a)) with
  | some r => r.value
  | none => false

/-! ## Bits and nibbles of an address -/

/-- Bit `i` of the words of an address, the most significant first. -/
def bitAt (addr : List UInt32) (i : Nat) : Bool :=
  (addr[i / 32]?.getD 0).toNat.testBit (31 - i % 32)

def nibbleAt (addr : List UInt32) (k : Nat) : Fin 16 :=
  ⟨(addr[k / 8]?.getD 0 >>> .ofNat (32 - 4 - 4 * (k % 8)) &&& 15).toNat, and_fifteen_lt _⟩

def nibbles (addr : List UInt32) : List (Fin 16) :=
  (List.range (8 * addr.length)).map (nibbleAt addr)

@[simp] theorem length_nibbles (addr : List UInt32) : (nibbles addr).length = 8 * addr.length := by
  simp [nibbles]

theorem getSubnet_eq {addr : List UInt32} {k : Nat} (h : k < 8 * addr.length) :
    getSubnet addr (4 * k) = .ok (nibbleAt addr k) := by
  have hoff : 4 * k / 32 = k / 8 := by omega
  have hpos : 4 * k % 32 = 4 * (k % 8) := by omega
  have hlt : k / 8 < addr.length := by omega
  unfold getSubnet
  simp only [hoff, hpos]
  rw [index_of_lt hlt, ok_bind, if_neg (by omega)]
  simp [nibbleAt, List.getElem?_eq_getElem hlt]

theorem nibbleAt_testBit (addr : List UInt32) (k : Nat) {j : Nat} (hj : j < 4) :
    (nibbleAt addr k).val.testBit j = bitAt addr (4 * k + 3 - j) := by
  have hword : (4 * k + 3 - j) / 32 = k / 8 := by omega
  have hbit : 31 - (4 * k + 3 - j) % 32 = 28 - 4 * (k % 8) + j := by omega
  have hshift : (28 - 4 * (k % 8)) % 2 ^ 32 % 32 = 28 - 4 * (k % 8) := by omega
  have hmask : ∀ j < 4, Nat.testBit 15 j = true := by decide
  unfold bitAt nibbleAt
  rw [hword, hbit]
  simp only [UInt32.toNat_and, UInt32.toNat_shiftRight, UInt32.toNat_ofNat', Nat.testBit_and,
    Nat.testBit_shiftRight, UInt32.reduceToNat, hmask j hj, Bool.and_true]
  rw [hshift]

/-- Numbers agree in their high bits iff the quotients are equal. -/
theorem div_two_pow_eq_iff {x y w s : Nat} (hx : x < 2 ^ w) (hy : y < 2 ^ w) :
    x / 2 ^ s = y / 2 ^ s ↔ ∀ j, s ≤ j → j < w → x.testBit j = y.testBit j := by
  constructor
  · intro h j hs _
    have := congrArg (Nat.testBit · (j - s)) h
    simpa only [Nat.testBit_div_two_pow, Nat.sub_add_cancel hs] using this
  · intro h
    apply Nat.eq_of_testBit_eq
    intro i
    rw [Nat.testBit_div_two_pow, Nat.testBit_div_two_pow]
    by_cases hi : i + s < w
    · exact h _ (by omega) hi
    · have hw : 2 ^ w ≤ 2 ^ (i + s) := Nat.pow_le_pow_right (by decide) (by omega)
      rw [Nat.testBit_lt_two_pow (by omega), Nat.testBit_lt_two_pow (by omega)]

/-- Agreement in the first `bits` bits. -/
def Agree (bits : Nat) (a b : List UInt32) : Prop := ∀ i < bits, bitAt a i = bitAt b i

instance (bits : Nat) (a b : List UInt32) : Decidable (Agree bits a b) :=
  inferInstanceAs (Decidable (∀ i < bits, bitAt a i = bitAt b i))

theorem nibbleAt_div_eq_iff (a b : List UInt32) (k s : Nat) :
    (nibbleAt a k).val / 2 ^ s = (nibbleAt b k).val / 2 ^ s ↔
      ∀ i, 4 * k ≤ i → i + s < 4 * k + 4 → bitAt a i = bitAt b i := by
  rw [div_two_pow_eq_iff (w := 4) (nibbleAt a k).isLt (nibbleAt b k).isLt]
  constructor
  · intro h i hi hs
    have := h (4 * k + 3 - i) (by omega) (by omega)
    rw [nibbleAt_testBit _ _ (by omega), nibbleAt_testBit _ _ (by omega)] at this
    rwa [show 4 * k + 3 - (4 * k + 3 - i) = i by omega] at this
  · intro h j hs hj
    rw [nibbleAt_testBit _ _ hj, nibbleAt_testBit _ _ hj]
    exact h _ (by omega) (by omega)

theorem nibbleAt_eq_iff (a b : List UInt32) (k : Nat) :
    nibbleAt a k = nibbleAt b k ↔ ∀ i, 4 * k ≤ i → i < 4 * k + 4 → bitAt a i = bitAt b i := by
  rw [Fin.ext_iff]
  simpa using nibbleAt_div_eq_iff a b k 0

/-- Whole nibbles, then the high bits of the one that is cut. -/
theorem agree_iff (bits : Nat) (a b : List UInt32) : Agree bits a b ↔
    (∀ k < bits / 4, nibbleAt a k = nibbleAt b k) ∧
      (bits % 4 ≠ 0 → (nibbleAt a (bits / 4)).val / 2 ^ (4 - bits % 4) =
        (nibbleAt b (bits / 4)).val / 2 ^ (4 - bits % 4)) := by
  simp only [nibbleAt_eq_iff, nibbleAt_div_eq_iff]
  constructor
  · intro h
    exact ⟨fun k hk i _ hi => h i (by omega), fun _ i _ hi => h i (by omega)⟩
  · intro ⟨hwhole, hcut⟩ i hi
    by_cases hk : i / 4 < bits / 4
    · exact hwhole (i / 4) hk i (by omega) (by omega)
    · exact hcut (by omega) i (by omega) (by omega)

theorem take_nibbles {addr : List UInt32} {d : Nat} (h : d ≤ 8 * addr.length) :
    (nibbles addr).take d = (List.range d).map (nibbleAt addr) := by
  rw [nibbles, ← List.map_take, List.take_range, Nat.min_eq_left h]

variable {a b : List UInt32} {t : AuthTable}

theorem take_nibbles_eq_iff (hl : a.length = b.length) {q : Nat} (hq : q ≤ 8 * a.length) :
    (nibbles a).take q = (nibbles b).take q ↔ ∀ k < q, nibbleAt a k = nibbleAt b k := by
  rw [take_nibbles hq, take_nibbles (hl ▸ hq), List.map_inj_left]
  simp

/-! ## One operation on a trie -/

namespace TableNode

theorem drop_nibbles (addr : List UInt32) (k : Nat) :
    (nibbles addr).drop k = (List.range' k (8 * addr.length - k)).map (nibbleAt addr) := by
  rw [nibbles, List.range_eq_range', ← List.map_drop, List.drop_range', Nat.zero_add, Nat.mul_one]

variable {ip a : List UInt32} {k r bits : Nat} {node : TableNode}

theorem descend_eq {last : Nat → TableNode → Rust TableNode} {g : TableNode → TableNode} {n : Nat}
    (h : k + n ≤ 8 * ip.length) (hlast : ∀ node, last (4 * (k + n)) node = .ok (g node))
    (node : TableNode) :
    descend ip last n (4 * k) node = .ok (Trie.modify g
      ((List.range' k n).map (nibbleAt ip)) node) := by
  induction n generalizing k node with
  | zero => exact hlast node
  | succ n ih =>
    have hrest := ih (k := k + 1) (by omega) fun node => by rw [← hlast, Nat.add_right_comm]; rfl
    rw [descend, getSubnet_eq (by omega), ok_bind]
    rw [show 4 * k + 4 = 4 * (k + 1) by omega, hrest]
    rw [ok_bind, List.range'_succ, List.map_cons, Trie.modify]
    simp only [pure_eq, Trie.mapChildren]
    congr 3
    funext i
    split
    · rename_i hi
      rw [hi]
    · rfl

theorem lookup_eq (node : TableNode) (hk : k ≤ 8 * ip.length) (h : node.Within (8 * ip.length - k))
    (state : State) :
    node.lookup ip (4 * k) state = .ok (node.resolve ((nibbles ip).drop k) state) := by
  induction node generalizing k state with
  | leaf s =>
    rw [lookup, drop_nibbles]
    cases 8 * ip.length - k with
    | zero => rfl
    | succ n =>
      rw [List.range'_succ, List.map_cons, Trie.resolve, Trie.child_leaf, Trie.resolve_leaf_default]
      rfl
  | node s children ih =>
    obtain ⟨n, hn⟩ : ∃ n, 8 * ip.length - k = n + 1 := by
      cases hn : 8 * ip.length - k with
      | zero => rw [hn] at h; exact h.elim
      | succ n => exact ⟨n, rfl⟩
    rw [hn] at h
    rw [lookup, getSubnet_eq (by omega), ok_bind, show 4 * k + 4 = 4 * (k + 1) by omega,
      ih _ (by omega) (by rw [show 8 * ip.length - (k + 1) = n by omega]; exact h _),
      drop_nibbles, drop_nibbles, hn, show 8 * ip.length - (k + 1) = n by omega, List.range'_succ]
    rfl

/-- What happens at the node that the whole nibbles of a width lead to. -/
def assignAt (ip : List UInt32) (bits : Nat) (newState : State) (deleteChildren : Bool) :
    TableNode → TableNode :=
  if bits % 4 = 0 then assign newState deleteChildren
  else Trie.mapChildren fun i c =>
    if i.val / 2 ^ (4 - bits % 4) = (nibbleAt ip (bits / 4)).val / 2 ^ (4 - bits % 4) then
      assign newState deleteChildren c
    else c

/-- The trie after a subnet of valid width was set. -/
def written (ip : List UInt32) (bits : Nat) (newState : State) (deleteChildren : Bool) :
    TableNode → TableNode :=
  Trie.modify (assignAt ip bits newState deleteChildren) ((nibbles ip).take (bits / 4))

theorem alignDown_eq : ∀ subnet : Fin 16, ∀ r < 4, r ≠ 0 →
    alignDown subnet (1 <<< (4 - r)) = subnet.val / 2 ^ (4 - r) * 2 ^ (4 - r) := by
  decide +kernel

/-- The siblings are those that agree in the high bits, and all exist. -/
theorem siblings_iff (subnet i : Fin 16) (h : r < 4) (h0 : r ≠ 0) :
    alignDown subnet (1 <<< (4 - r)) + 1 <<< (4 - r) ≤ 16 ∧
      ((alignDown subnet (1 <<< (4 - r)) ≤ i ∧ i < alignDown subnet
        (1 <<< (4 - r)) + 1 <<< (4 - r)) ↔ i.val / 2 ^ (4 - r) = subnet.val / 2 ^ (4 - r)) := by
  rw [alignDown_eq subnet r h h0, Nat.one_shiftLeft]
  obtain rfl | rfl | rfl : r = 1 ∨ r = 2 ∨ r = 3 := by omega
  all_goals
    simp only [Nat.reduceSub, Nat.reducePow]
    omega

theorem setSiblings_eq (hk : k < 8 * ip.length) (hr : r < 4) (h0 : r ≠ 0) (s : State) (del : Bool)
    (node : TableNode) : setSiblings ip r s del (4 * k) node =
      .ok (node.mapChildren fun i c =>
        if i.val / 2 ^ (4 - r) = (nibbleAt ip k).val / 2 ^ (4 - r) then assign s del c else c) := by
  unfold setSiblings
  rw [getSubnet_eq hk, ok_bind]
  dsimp only
  rw [assert_of (siblings_iff (nibbleAt ip k) 0 hr h0).1]
  simp only [ok_bind, pure_eq, (siblings_iff (nibbleAt ip k) _ hr h0).2]

theorem setSubnet_eq {len : Int} (hlen : ip.length = len) (bits : Int) (node : TableNode)
    (s : State) (del : Bool) : node.setSubnet ip len bits s del =
      .ok (if 0 ≤ bits ∧ bits ≤ 32 * len then (written ip bits.toNat s del node, .success)
        else (node, .badSubnet)) := by
  unfold setSubnet
  by_cases h : 0 ≤ bits ∧ bits ≤ 32 * len
  · have hlast : ∀ node, (if bits.toNat % 4 = 0 then fun _ node => pure (assign s del node)
        else setSiblings ip (bits.toNat % 4) s del) (4 * (0 + bits.toNat / 4)) node =
          (.ok (assignAt ip bits.toNat s del node) : Rust TableNode) := by
      intro node
      unfold assignAt
      split
      · rfl
      · rename_i hr
        rw [Nat.zero_add, setSiblings_eq (by omega) (Nat.mod_lt _ (by decide)) hr]
    rw [if_neg (by omega), if_pos h]
    dsimp only
    rw [show (0 : Nat) = 4 * 0 from rfl, descend_eq (by omega) hlast]
    rw [ok_bind, written, take_nibbles (by omega), List.range_eq_range']
    rfl
  · rw [if_pos (by omega), if_neg h]
    rfl

theorem stateAt_assign (s : State) (del : Bool) (node : TableNode) (p : List (Fin 16)) :
    (assign s del node).stateAt p = if p = [] then s else if del then .asParent
      else node.stateAt p := by
  unfold assign
  cases p with
  | nil => rw [Trie.stateAt_nil, Trie.state_setState, if_pos rfl]
  | cons i p =>
    rw [Trie.stateAt_cons, Trie.child_setState, if_neg (List.cons_ne_nil i p)]
    cases del with
    | false => rfl
    | true => exact Trie.stateAt_leaf_default p

/-- The same by levels, where the rest of the path is empty at level `r` and not above. -/
theorem stateAt_assign_level (s : State) (del : Bool) (node : TableNode) {p : List (Fin 16)}
    {d : Nat} (h : (p = [] ↔ d = r) ∧ r ≤ d) : (assign s del node).stateAt p =
      if d = r then s else if del ∧ r < d then .asParent else node.stateAt p := by
  rw [stateAt_assign]
  by_cases hd : d = r
  · rw [if_pos hd, if_pos (h.1.2 hd)]
  · have hlt : r < d := by omega
    rw [if_neg hd, if_neg (mt h.1.1 hd)]
    simp only [hlt, and_true]

/-- **One operation.** A subnet that covers the address sets the level of its rounded width
and, when it prunes, clears those below; any other leaves the path as it was. -/
theorem stateAt_written (hl : ip.length = a.length) (h : bits ≤ 32 * a.length) (s : State)
    (del : Bool) (node : TableNode) {d : Nat} (hd : d ≤ 8 * a.length) :
    (written ip bits s del node).stateAt ((nibbles a).take d) =
      if ¬ Agree bits ip a then node.stateAt ((nibbles a).take d)
      else if d = (bits + 3) / 4 then s
      else if del ∧ (bits + 3) / 4 < d then .asParent
      else node.stateAt ((nibbles a).take d) := by
  have hagree := agree_iff bits ip a
  rw [← take_nibbles_eq_iff hl (by omega)] at hagree
  unfold written
  by_cases hp : (nibbles ip).take (bits / 4) <+: (nibbles a).take d
  · obtain ⟨rest, hrest⟩ := hp
    have hq : bits / 4 ≤ d := by
      have := congrArg List.length hrest
      simp only [List.length_append, List.length_take, length_nibbles] at this
      omega
    -- the rest of the path, nibble by nibble
    have hpath : rest = (List.range' (bits / 4) (d - bits / 4)).map (nibbleAt a) := by
      have := congrArg (List.drop (bits / 4)) hrest
      rw [List.drop_left' (by simp; omega), take_nibbles hd, ← List.map_drop, List.range_eq_range',
        List.drop_range'] at this
      simpa using this
    have hwhole : (nibbles ip).take (bits / 4) = (nibbles a).take (bits / 4) := by
      have := congrArg (List.take (bits / 4)) hrest
      rwa [List.take_left' (by simp; omega), List.take_take, Nat.min_eq_left hq] at this
    rw [← hrest, Trie.stateAt_modify_append, ← Trie.stateAt_sub]
    generalize node.sub ((nibbles ip).take (bits / 4)) = below
    unfold assignAt
    by_cases hr : bits % 4 = 0
    · rw [if_pos hr, if_neg (not_not.2 (hagree.2 ⟨hwhole, fun h => absurd hr h⟩))]
      apply stateAt_assign_level
      rw [hpath, List.map_eq_nil_iff, List.range'_eq_nil_iff]
      omega
    · rw [if_neg hr]
      cases hn : d - bits / 4 with
      | zero =>
        -- the node above the siblings keeps its state
        have hne : d ≠ (bits + 3) / 4 := by omega
        have hle : ¬ (del = true ∧ (bits + 3) / 4 < d) := by omega
        rw [hpath, hn, if_neg hne, if_neg hle, ite_self]
        rfl
      | succ n =>
        rw [hpath, hn, List.range'_succ, List.map_cons, Trie.stateAt_cons, Trie.child_mapChildren,
          Trie.stateAt_cons]
        by_cases hcut : (nibbleAt a (bits / 4)).val / 2 ^ (4 - bits % 4) =
            (nibbleAt ip (bits / 4)).val / 2 ^ (4 - bits % 4)
        · rw [if_pos hcut, if_neg (not_not.2 (hagree.2 ⟨hwhole, fun _ => hcut.symm⟩))]
          apply stateAt_assign_level
          rw [List.map_eq_nil_iff, List.range'_eq_nil_iff]
          omega
        · rw [if_neg hcut, if_pos fun hag => hcut ((hagree.1 hag).2 hr).symm]
  · rw [Trie.stateAt_modify_of_not _ hp]
    split
    · rfl
    · rename_i hag
      have hlt : d < bits / 4 := by
        refine Nat.lt_of_not_le fun hle => hp ?_
        rw [(hagree.1 (not_not.1 hag)).1]
        exact List.take_prefix_take_left hle
      rw [if_neg (by omega), if_neg (by omega)]

theorem within_assign {n : Nat} (h : node.Within n) (s : State) (del : Bool) :
    (assign s del node).Within n := by
  apply Trie.Within.setState
  cases del with
  | false => exact h
  | true => trivial

theorem within_written (h : bits ≤ 32 * ip.length) (hw : node.Within (8 * ip.length)) (s : State)
    (del : Bool) : (written ip bits s del node).Within (8 * ip.length) := by
  have hlen : ((nibbles ip).take (bits / 4)).length = bits / 4 := by
    rw [List.length_take, length_nibbles]
    omega
  obtain ⟨n, hn⟩ : ∃ n, 8 * ip.length = ((nibbles ip).take (bits / 4)).length + n :=
    ⟨8 * ip.length - bits / 4, by omega⟩
  rw [hn] at hw ⊢
  refine Trie.Within.modify (fun below hb => ?_) _ hw
  unfold assignAt
  split
  · exact within_assign hb s del
  · obtain ⟨m, rfl⟩ : ∃ m, n = m + 1 := ⟨n - 1, by omega⟩
    apply hb.mapChildren
    intro i c hc
    split
    · exact within_assign hc s del
    · exact hc

/-! ## A trie and the rules for an address -/

/-- The explicit states along the path of an address are the levels of a list of rules. -/
structure Reads (node : TableNode) (a : List UInt32) (rs : List (Overlay.Rule Bool)) : Prop where
  within : node.Within (8 * a.length)
  level : ∀ d ≤ 8 * a.length, Trie.explicit (node.stateAt ((nibbles a).take d)) =
    (Overlay.levels rs d).map fun r => if r.value then .allow else .deny
  level_le : ∀ r ∈ rs, r.level ≤ 8 * a.length

theorem reads_new (a : List UInt32) : Reads (.leaf .deny) a [⟨0, false, false⟩] where
  within := trivial
  level := by
    intro d hd
    cases d with
    | zero => rfl
    | succ d =>
      rw [take_nibbles hd, List.range_succ_eq_map, List.map_cons, Trie.stateAt_cons,
        Trie.child_leaf, Trie.stateAt_leaf_default]
      rfl
  level_le := by simp

theorem Reads.checkIp {rs : List (Overlay.Rule Bool)} (h : Reads node a rs) :
    node.checkIp a = .ok ((Overlay.decisive rs).any (·.value)) := by
  have hlookup := lookup_eq node (Nat.zero_le (8 * a.length)) h.within .deny
  rw [List.drop_zero, Trie.resolve_eq_top, length_nibbles, Overlay.top_congr h.level,
    Overlay.top_map, Overlay.top_levels h.level_le, Nat.mul_zero] at hlookup
  rw [TableNode.checkIp, hlookup, ok_bind]
  cases Overlay.decisive rs with
  | none => rfl
  | some r => obtain ⟨_, _, value⟩ := r; cases value <;> rfl

/-- An operation on a trie adds its rule, if it covers the address. -/
theorem Reads.written {rs : List (Overlay.Rule Bool)} (h : Reads node a rs)
    (hl : ip.length = a.length) (hb : bits ≤ 32 * a.length) (allow del : Bool) :
    Reads (TableNode.written ip bits (if allow then .allow else .deny) del node) a
      (if Agree bits ip a then rs ++ [⟨(bits + 3) / 4, del, allow⟩] else rs) where
  within := by
    rw [← hl] at hb ⊢
    exact within_written hb (hl ▸ h.within) _ del
  level := by
    intro d hd
    rw [stateAt_written hl hb _ del node hd]
    by_cases hag : Agree bits ip a
    · rw [if_neg (not_not.2 hag), if_pos hag, Overlay.levels_snoc, Overlay.put]
      split
      · cases allow <;> rfl
      · split
        · rfl
        · exact h.level d hd
    · rw [if_pos hag, if_neg hag]
      exact h.level d hd
  level_le := by
    intro r hr
    split at hr
    · rcases List.mem_append.1 hr with hr | hr
      · exact h.level_le r hr
      · rw [List.mem_singleton.1 hr]
        dsimp only
        omega
    · exact h.level_le r hr

end TableNode

/-! ## The table and the rule list -/

def words : IpAddr → List UInt32
  | .v4 a => [a]
  | .v6 a => splitIp6 a

/-- The trie in which an address is looked up. -/
def AuthTable.base (t : AuthTable) : IpAddr → TableNode
  | .v4 _ => t.base4
  | .v6 _ => t.base6

theorem AuthTable.isAllowed_eq (t : AuthTable) (a : IpAddr) :
    t.isAllowed a = (t.base a).checkIp (words a) := by
  cases a <;> rfl

namespace Op

/-- The words that the operation writes into the trie of an address's family. -/
def words (op : Op) : IpAddr → Option (List UInt32)
  | .v4 _ => match op.subnet with | .v4 ip => some [ip] | .v6 _ => none | .unspec => some [0]
  | .v6 _ =>
    match op.subnet with
    | .v4 _ => none
    | .v6 ip => some (splitIp6 ip)
    | .unspec => some [0, 0, 0, 0]

def newState (op : Op) : State := if op.isAllow then .allow else .deny

/-- The trie of an address's family after the operation. -/
def written (op : Op) (a : IpAddr) (node : TableNode) : TableNode :=
  match op.words a with
  | some ip =>
    if op.status = .success then node.written ip op.bits.toNat op.newState op.isAll else node
  | none => node

theorem length_words {op : Op} {a : IpAddr} {ip : List UInt32} (h : op.words a = some ip) :
    ip.length = (Addrfilt.words a).length := by
  obtain ⟨verb, subnet, bits⟩ := op
  cases a <;> cases subnet <;> cases h <;> simp [Addrfilt.words]

theorem bits_le {op : Op} {a : IpAddr} {ip : List UInt32} (hw : op.words a = some ip)
    (hs : op.status = .success) : op.bits ≤ 32 * (Addrfilt.words a).length := by
  obtain ⟨verb, subnet, bits⟩ := op
  cases a <;> cases subnet <;> cases hw
  all_goals
    simp only [status, ite_eq_left_iff, reduceCtorEq, imp_false, not_not] at hs
    simp only [Addrfilt.words, length_splitIp6, List.length_singleton]
    omega

end Op

theorem bitAt_v4 (a : UInt32) {i : Nat} (h : i < 32) : bitAt [a] i = a.toNat.testBit (31 - i) := by
  unfold bitAt
  rw [Nat.div_eq_of_lt h, Nat.mod_eq_of_lt h]
  rfl

theorem bitAt_v6 (a : BitVec 128) {i : Nat} (h : i < 128) :
    bitAt (splitIp6 a) i = a.toNat.testBit (127 - i) := by
  have hi : i / 32 < 4 := by omega
  unfold bitAt splitIp6
  rw [List.getElem?_map, List.getElem?_range hi]
  simp only [Option.map_some, Option.getD_some, UInt32.toNat_ofBitVec, BitVec.extractLsb'_toNat,
    Nat.testBit_mod_two_pow, Nat.testBit_shiftRight]
  rw [decide_eq_true (by omega), Bool.true_and]
  congr 1
  omega

theorem Op.agree_of_unspec {verb : Verb} {bits : Int}
    (h : status ⟨verb, .unspec, bits⟩ = .success) : Agree bits.toNat a b := by
  have hb : bits = 0 := by
    by_contra hb
    exact absurd h (by simp [status, hb])
  subst hb
  exact fun i hi => absurd hi (Nat.not_lt_zero i)

/-- Agreement of the words is agreement of the numbers in their high bits. -/
theorem agree_iff_div {w bits x y : Nat} (hb : bits ≤ w) (hx : x < 2 ^ w) (hy : y < 2 ^ w)
    (ha : ∀ i < w, bitAt a i = x.testBit (w - 1 - i))
    (hb' : ∀ i < w, bitAt b i = y.testBit (w - 1 - i)) :
    Agree bits a b ↔ x / 2 ^ (w - bits) = y / 2 ^ (w - bits) := by
  rw [div_two_pow_eq_iff hx hy]
  constructor
  · intro h j hj hjw
    have := h (w - 1 - j) (by omega)
    rwa [ha _ (by omega), hb' _ (by omega), show w - 1 - (w - 1 - j) = j by omega] at this
  · intro h i hi
    rw [ha i (by omega), hb' i (by omega)]
    exact h _ (by omega) (by omega)

namespace Op

theorem covers_iff {op : Op} {a : IpAddr} {ip : List UInt32} (hw : op.words a = some ip)
    (hs : op.status = .success) : op.covers a = true ↔
      Agree op.bits.toNat ip (Addrfilt.words a) := by
  have hle := bits_le hw hs
  obtain ⟨verb, subnet, bits⟩ := op
  cases a with
  | v4 a =>
    cases subnet with
    | v4 s =>
      cases hw
      have hb : bits.toNat ≤
          32 := by simp only [Addrfilt.words, List.length_singleton] at hle; omega
      have := agree_iff_div hb s.toNat_lt a.toNat_lt (fun i => bitAt_v4 s) fun i => bitAt_v4 a
      exact decide_eq_true_iff.trans (eq_comm.trans this.symm)
    | v6 s => cases hw
    | unspec => exact iff_of_true rfl (agree_of_unspec hs)
  | v6 a =>
    cases subnet with
    | v4 s => cases hw
    | v6 s =>
      cases hw
      have hb : bits.toNat ≤ 128 := by simp only [Addrfilt.words, length_splitIp6] at hle; omega
      have := agree_iff_div hb s.isLt a.isLt (fun i => bitAt_v6 s) fun i => bitAt_v6 a
      exact decide_eq_true_iff.trans (eq_comm.trans this.symm)
    | unspec => exact iff_of_true rfl (agree_of_unspec hs)

theorem covers_of_none {op : Op} {a : IpAddr} (h : op.words a = none) : op.covers a = false := by
  obtain ⟨verb, subnet, bits⟩ := op
  cases a <;> cases subnet <;> first | rfl | cases h

end Op

theorem AuthTable.apply_eq (t : AuthTable) (op : Op) :
    ∃ t', t.apply op = .ok (t', op.status) ∧ ∀ a, t'.base a = op.written a (t.base a) := by
  have hset : t.apply op = t.setSubnet_ op.subnet op.bits op.newState op.isAll := by
    obtain ⟨verb, subnet, bits⟩ := op
    cases verb <;> rfl
  rw [hset]
  unfold setSubnet_ Op.written Op.words Op.status
  cases op.subnet with
  | v4 ip =>
    dsimp only
    rw [TableNode.setSubnet_eq (by rfl), ok_bind, show (32 : Int) * 1 = 32 from rfl]
    by_cases h : 0 ≤ op.bits ∧ op.bits ≤ 32
    · simp only [if_pos h]
      exact ⟨_, rfl, fun a => by cases a <;> rfl⟩
    · simp only [if_neg h]
      exact ⟨_, rfl, fun a => by cases a <;> rfl⟩
  | v6 ip =>
    dsimp only
    rw [TableNode.setSubnet_eq (by rw [length_splitIp6]; rfl), ok_bind, show (32 : Int) * 4 =
      128 from rfl]
    by_cases h : 0 ≤ op.bits ∧ op.bits ≤ 128
    · simp only [if_pos h]
      exact ⟨_, rfl, fun a => by cases a <;> rfl⟩
    · simp only [if_neg h]
      exact ⟨_, rfl, fun a => by cases a <;> rfl⟩
  | unspec =>
    dsimp only
    by_cases h0 : op.bits = 0
    · rw [h0, TableNode.setSubnet_eq (by rfl), TableNode.setSubnet_eq (by rfl)]
      exact ⟨_, rfl, fun a => by cases a <;> rfl⟩
    · rw [if_pos h0, if_neg h0]
      exact ⟨t, rfl, fun a => by cases a <;> rfl⟩

/-- The rule of an operation, with its level in the trie. -/
def Op.levelRule (a : IpAddr) (op : Op) : Option (Overlay.Rule Bool) :=
  if op.status = .success ∧ op.covers a then
    some ⟨(op.bits.toNat + 3) / 4, op.isAll, op.isAllow⟩
  else none

theorem Op.rule_eq_map (a : IpAddr) (op : Op) :
    op.rule a = (op.levelRule a).map fun r => { r with level := 4 * r.level } := by
  unfold rule levelRule
  split <;> rfl

/-- What the trie of an address holds after some operations; a new table denies. -/
def AuthTable.Holds (t : AuthTable) (ops : List Op) : Prop :=
  ∀ a, (t.base a).Reads (words a) (⟨0, false, false⟩ :: ops.filterMap (Op.levelRule a))

theorem AuthTable.Holds.isAllowed {ops : List Op} (h : t.Holds ops) (a : IpAddr) :
    t.isAllowed a = .ok (verdict ops a) := by
  rw [isAllowed_eq, (h a).checkIp, Overlay.decisive_cons_zero rfl, verdict,
    funext (Op.rule_eq_map a), ← List.map_filterMap, Overlay.decisive_map fun a b => by omega]
  cases Overlay.decisive (ops.filterMap (Op.levelRule a)) <;> rfl

/-- One operation adds its rule for every address that it covers. -/
theorem AuthTable.Holds.apply {t' : AuthTable} {ops : List Op} {op : Op} (h : t.Holds ops)
    (hbase : ∀ a, t'.base a = op.written a (t.base a)) : t'.Holds (ops ++ [op]) := by
  intro a
  have hread := h a
  rw [hbase, Op.written, List.filterMap_append]
  cases hw : op.words a with
  | none =>
    rw [List.filterMap_cons_none (by rw [Op.levelRule, Op.covers_of_none hw]; simp)]
    simpa only [List.filterMap_nil, List.append_nil] using hread
  | some ip =>
    dsimp only
    by_cases hs : op.status = .success
    · have hle := Op.bits_le hw hs
      have hnew := hread.written (Op.length_words hw) (Int.toNat_le.2 hle) op.isAllow op.isAll
      rw [if_pos hs]
      by_cases hc : op.covers a = true
      · rw [if_pos ((Op.covers_iff hw hs).1 hc)] at hnew
        rw [List.filterMap_cons_some (by rw [Op.levelRule, if_pos ⟨hs, hc⟩])]
        exact hnew
      · rw [if_neg fun hag => hc ((Op.covers_iff hw hs).2 hag)] at hnew
        rw [List.filterMap_cons_none (by rw [Op.levelRule, if_neg fun h => hc h.2])]
        rw [List.filterMap_nil, List.append_nil]
        exact hnew
    · rw [if_neg hs, List.filterMap_cons_none (by rw [Op.levelRule, if_neg fun h => hs h.1])]
      simpa only [List.filterMap_nil, List.append_nil] using hread

/-- Any further operations return and add their rules. -/
theorem AuthTable.Holds.run {done : List Op} (h : t.Holds done) (ops : List Op) :
    ∃ t', t.run ops = .ok (t', ops.map Op.status) ∧ t'.Holds (done ++ ops) := by
  induction ops generalizing t done with
  | nil => exact ⟨t, rfl, by rwa [List.append_nil]⟩
  | cons op ops ih =>
    obtain ⟨t1, happly, hbase⟩ := t.apply_eq op
    obtain ⟨t2, hrun, hholds⟩ := ih (h.apply hbase)
    refine ⟨t2, ?_, by rwa [List.append_cons]⟩
    rw [AuthTable.run, happly, ok_bind]
    dsimp only
    rw [hrun]
    rfl

theorem AuthTable.holds_new : AuthTable.new.Holds [] := fun a => by
  cases a <;> exact TableNode.reads_new _

/-- The subnet is of the other family than the address. -/
def Op.otherFamily (op : Op) (a : IpAddr) : Bool :=
  match op.subnet, a with
  | .v4 _, .v6 _ => true
  | .v6 _, .v4 _ => true
  | _, _ => false

/-- An operation that fails, or is on the other family, leaves the trie of an address. -/
theorem Op.written_of_no_effect {op : Op} {a : IpAddr}
    (h : op.status = .badSubnet ∨ op.otherFamily a = true) (node : TableNode) :
      op.written a node = node := by
  unfold written
  rcases h with h | h
  · split
    · rw [if_neg (by rw [h]; decide)]
    · rfl
  · have hw : op.words a = none := by
      obtain ⟨verb, subnet, bits⟩ := op
      cases a <;> cases subnet <;> first | rfl | cases h
    rw [hw]

/-- **The table means the rule list.** After any operations on a new table every lookup
returns the verdict; an operation that fails, or that is on the other family, changes no
verdict. -/
theorem AuthTable.run_verdict (ops : List Op) :
    ∃ t, AuthTable.new.run ops = .ok (t, ops.map Op.status) ∧
    (∀ a, t.isAllowed a = .ok (verdict ops a)) ∧
    ∀ op, ∃ t', t.apply op = .ok (t', op.status) ∧
      ∀ a, op.status = .badSubnet ∨ op.otherFamily a = true → t'.isAllowed a = t.isAllowed a := by
  obtain ⟨t, hrun, hholds⟩ := AuthTable.holds_new.run ops
  refine ⟨t, hrun, hholds.isAllowed, fun op => ?_⟩
  obtain ⟨t', happly, hbase⟩ := t.apply_eq op
  refine ⟨t', happly, fun a h => ?_⟩
  rw [isAllowed_eq, isAllowed_eq, hbase, Op.written_of_no_effect h]

/-- **Rules for different addresses commute.** Two successive operations can be swapped anywhere in
a configuration when no address is in both subnets: all lookups agree. -/
theorem AuthTable.disjoint_commute (before after : List Op) (op op' : Op)
    (hdisj : ∀ a, ¬ (op.covers a = true ∧ op'.covers a = true)) :
    ∃ t rs t' rs', new.run (before ++ op :: op' :: after) = .ok (t, rs) ∧
      new.run (before ++ op' :: op :: after) = .ok (t', rs') ∧
        ∀ a, t.isAllowed a = t'.isAllowed a := by
  obtain ⟨t, hrun, ht⟩ := AuthTable.holds_new.run (before ++ op :: op' :: after)
  obtain ⟨t', hrun', ht'⟩ := AuthTable.holds_new.run (before ++ op' :: op :: after)
  refine ⟨t, _, t', _, hrun, hrun', fun a => ?_⟩
  -- at most one of the two has a rule for the address
  have hswap : (before ++ op :: op' :: after).filterMap (Op.rule a) =
      (before ++ op' :: op :: after).filterMap (Op.rule a) := by
    rcases not_and_or.1 (hdisj a) with h | h
    · simp [List.filterMap_cons, show op.rule a = none from if_neg fun hc => h hc.2]
    · simp [List.filterMap_cons, show op'.rule a = none from if_neg fun hc => h hc.2]
  rw [ht.isAllowed, ht'.isAllowed, List.nil_append, List.nil_append, verdict, verdict, hswap]

def denyTen : Op := ⟨.deny, .v4 0x0a040000, 14⟩
def allowTen : Op := ⟨.allowAll, .v4 0x0a080000, 14⟩

theorem AuthTable.disjoint_commute_ten : ∃ t rs t' rs', new.run [denyTen, allowTen] = .ok (t, rs) ∧
    new.run [allowTen, denyTen] = .ok (t', rs') ∧ ∀ a, t.isAllowed a = t'.isAllowed a :=
  disjoint_commute [] [] denyTen allowTen fun a h => by
    cases a with
    | v4 a => exact absurd ((of_decide_eq_true h.1).symm.trans (of_decide_eq_true h.2)) (by decide)
    | v6 a => cases h.1

-- `deny 10.4.0.0/14` outlives the wider `allow 10.0.0.0/8`, but not `allow all 10.0.0.0/8`
example : verdict [⟨.deny, .v4 0x0a040000, 14⟩, ⟨.allow, .v4 0x0a000000, 8⟩]
    (.v4 0x0a070001) = false := by
  decide +kernel

example : verdict [⟨.deny, .v4 0x0a040000, 14⟩, ⟨.allowAll, .v4 0x0a000000, 8⟩]
    (.v4 0x0a070001) = true := by
  decide +kernel

end ChronyRs.L2.Addrfilt
