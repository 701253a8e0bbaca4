import Mathlib.Data.List.OfFn
import ChronyRs.L2Auth.Addrfilt

/-!
# The nodes of the address filter (`addrfilt.rs`)

The filter once more, with the nodes as the source has them: a node that is open owns a vector of
children, every step into it is an index into that vector, and nothing but the code says how long
the vector is or how deep it goes. A trie is such a node with all vectors of length sixteen
(`ofTrie`), and on these the operations are those of `Addrfilt`.

* `TableNode.setSubnet_ofTrie`, `TableNode.lookup_ofTrie`: the two levels agree.
* `TableNode.anyAllowed_iff`: a leaf is allowed iff the path of some word is.
* `AuthTable.shape_and_any`: what holds of the nodes after any mutations, and what `is_any_allowed`
  says.
-/
namespace ChronyRs.L2.Addrfilt.Vec

/-! ## The source -/

/-- mirrors addrfilt.rs:93-96 -/
structure TableNode where
  state : State
  extended : Option (List TableNode)

namespace TableNode

/-- mirrors addrfilt.rs:99-101 -/
def new (state : State) : TableNode := ⟨state, none⟩

/-- mirrors addrfilt.rs:104-108 -/
def «open» (node : TableNode) : TableNode :=
  match node.extended with
  | none => { node with extended := some (List.replicate 16 (new .asParent)) }
  | some _ => node

/-- mirrors addrfilt.rs:111-113 -/
def close (node : TableNode) : TableNode := { node with extended := none }

/-- `extended.as_mut().unwrap()`. -/
def children (node : TableNode) : Rust (List TableNode) :=
  match node.extended with
  | some ext => pure ext
  | none => throw .unwrap

def assign (newState : State) (deleteChildren : Bool) (node : TableNode) : TableNode :=
  { if deleteChildren then node.close else node with state := newState }

/-- mirrors addrfilt.rs:135-141, 148-154 -/
def descend (ip : List UInt32) (last : Nat → TableNode → Rust TableNode) :
    (nibbles bitsConsumed : Nat) → TableNode → Rust TableNode
  | 0, bitsConsumed, node => last bitsConsumed node
  | n + 1, bitsConsumed, node => do
    let subnet ← getSubnet ip bitsConsumed
    let ext ← node.open.children
    let child ← index ext subnet
    let child ← descend ip last n (bitsConsumed + 4) child
    pure { node with extended := some (ext.set subnet child) }

/-- mirrors addrfilt.rs:156-166 -/
def setSiblings (ip : List UInt32) (bitsToGo : Nat) (newState : State) (deleteChildren : Bool)
    (bitsConsumed : Nat) (node : TableNode) : Rust TableNode := do
  let n := 1 <<< (4 - bitsToGo)
  let subnet ← getSubnet ip bitsConsumed
  let base := Addrfilt.TableNode.alignDown subnet n
  Rust.assert (base + n ≤ 16)
  let ext ← node.open.children
  pure { node with
    extended := some (ext.mapIdx fun i c =>
      if base ≤ i ∧ i < base + n then assign newState deleteChildren c else c) }

/-- mirrors addrfilt.rs:117-169 -/
def setSubnet (node : TableNode) (ip : List UInt32) (ipLen subnetBits : Int) (newState : State)
    (deleteChildren : Bool) : Rust (TableNode × AdfStatus) :=
  if subnetBits < 0 ∨ 32 * ipLen < subnetBits then pure (node, .badSubnet)
  else do
    let bits := subnetBits.toNat
    let last := if bits % 4 = 0 then fun _ node => pure (assign newState deleteChildren node)
      else setSiblings ip (bits % 4) newState deleteChildren
    let node ← descend ip last (bits / 4) 0 node
    pure (node, .success)

theorem sizeOf_lt {node c : TableNode} {ext : List TableNode} (h : node.extended = some ext)
    (hc : c ∈ ext) : sizeOf c < sizeOf node := by
  obtain ⟨s, e⟩ := node
  cases h
  have := List.sizeOf_lt_of_mem hc
  simp only [mk.sizeOf_spec, Option.some.sizeOf_spec]
  omega

/-- The loop of `check_ip`. -/
def lookup (ip : List UInt32) (node : TableNode) (bitsConsumed : Nat) (state : State) :
    Rust State :=
  let state := if node.state ≠ .asParent then node.state else state
  match hopen : node.extended with
  | none => pure state
  | some ext => do
    let subnet ← getSubnet ip bitsConsumed
    if h : subnet.val < ext.length then
      lookup ip (ext.get ⟨subnet, h⟩) (bitsConsumed + 4) state
    else throw .index
termination_by sizeOf node
decreasing_by exact sizeOf_lt hopen (List.get_mem ext _)

/-- mirrors addrfilt.rs:173-191 -/
def checkIp (node : TableNode) (ip : List UInt32) : Rust Bool := do
  let state ← node.lookup ip 0 .deny
  pure (state = .allow)

/-- mirrors addrfilt.rs:194-204 -/
def anyAllowed (node : TableNode) (parent : State) : Bool :=
  let state := if node.state ≠ .asParent then node.state else parent
  match _hopen : node.extended with
  | some ext => ext.attach.any fun c => c.val.anyAllowed state
  | none => state = .allow
termination_by sizeOf node
decreasing_by exact sizeOf_lt _hopen c.property

end TableNode

/-- mirrors addrfilt.rs:209-212 -/
structure AuthTable where
  base4 : TableNode
  base6 : TableNode

namespace AuthTable

/-- mirrors addrfilt.rs:222-227 -/
def new : AuthTable := ⟨.new .deny, .new .deny⟩

/-- mirrors addrfilt.rs:230-263 -/
def setSubnet_ (t : AuthTable) (subnet : Subnet) (subnetBits : Int) (newState : State)
    (deleteChildren : Bool) : Rust (AuthTable × AdfStatus) :=
  match subnet with
  | .v4 ip => do
    let (base4, r) ← t.base4.setSubnet [ip] 1 subnetBits newState deleteChildren
    pure (⟨base4, t.base6⟩, r)
  | .v6 ip => do
    let (base6, r) ← t.base6.setSubnet (splitIp6 ip) 4 subnetBits newState deleteChildren
    pure (⟨t.base4, base6⟩, r)
  | .unspec => do
    if subnetBits ≠ 0 then return (t, .badSubnet)
    let (base4, r) ← t.base4.setSubnet [0] 1 0 newState deleteChildren
    if r ≠ .success then return (⟨base4, t.base6⟩, .badSubnet)
    let (base6, r) ← t.base6.setSubnet [0, 0, 0, 0] 4 0 newState deleteChildren
    pure (⟨base4, base6⟩, if r = .success then .success else .badSubnet)

/-- The four mutations.
mirrors addrfilt.rs:266-283 -/
def apply (t : AuthTable) (op : Op) : Rust (AuthTable × AdfStatus) :=
  match op.verb with
  | .allow => t.setSubnet_ op.subnet op.bits .allow false
  | .allowAll => t.setSubnet_ op.subnet op.bits .allow true
  | .deny => t.setSubnet_ op.subnet op.bits .deny false
  | .denyAll => t.setSubnet_ op.subnet op.bits .deny true

/-- All mutations in turn, with what each returned. -/
def run : AuthTable → List Op → Rust (AuthTable × List AdfStatus)
  | t, [] => pure (t, [])
  | t, op :: ops => do
    let (t, r) ← t.apply op
    let (t, rs) ← run t ops
    pure (t, r :: rs)

/-- mirrors addrfilt.rs:286-291 -/
def isAllowed (t : AuthTable) : IpAddr → Rust Bool
  | .v4 ip => t.base4.checkIp [ip]
  | .v6 ip => t.base6.checkIp (splitIp6 ip)

/-- mirrors addrfilt.rs:295-298 -/
def isAnyAllowed (t : AuthTable) (v6 : Bool) : Bool :=
  (if v6 then t.base6 else t.base4).anyAllowed .asParent

end AuthTable

/-! ## Tries as nodes -/

namespace TableNode

def ofTrie : Addrfilt.TableNode → TableNode
  | .leaf s => ⟨s, none⟩
  | .node s ch => ⟨s, some (List.ofFn fun i => ofTrie (ch i))⟩

@[simp] theorem state_ofTrie (t : Addrfilt.TableNode) :
    (ofTrie t).state = t.state := by cases t <;> rfl

theorem children_open_ofTrie (t : Addrfilt.TableNode) :
    (ofTrie t).open.children = .ok (List.ofFn fun i => ofTrie (t.child i)) := by
  cases t with
  | leaf s => exact congrArg Except.ok (List.ofFn_const 16 (new .asParent)).symm
  | node s ch => rfl

theorem assign_ofTrie (s : State) (del : Bool) (t : Addrfilt.TableNode) :
    assign s del (ofTrie t) = ofTrie (Addrfilt.TableNode.assign s del t) := by
  cases t <;> cases del <;> rfl

theorem ofTrie_mapChildren (f : Fin 16 → Addrfilt.TableNode → Addrfilt.TableNode)
    (t : Addrfilt.TableNode) :
    ofTrie (t.mapChildren f) = ⟨t.state, some (List.ofFn fun i => ofTrie (f i (t.child i)))⟩ := rfl

theorem descend_ofTrie {ip : List UInt32} {last : Nat → TableNode → Rust TableNode}
    {last' : Nat → Addrfilt.TableNode → Rust Addrfilt.TableNode}
    (hlast : ∀ bits t, last bits (ofTrie t) = (last' bits t).map ofTrie) (n bits : Nat)
    (t : Addrfilt.TableNode) :
    descend ip last n bits (ofTrie t) = (Addrfilt.TableNode.descend ip last' n bits
      t).map ofTrie := by
  induction n generalizing bits t with
  | zero => exact hlast bits t
  | succ n ih =>
    rw [descend, Addrfilt.TableNode.descend]
    cases getSubnet ip bits with
    | error e => rfl
    | ok subnet =>
      rw [ok_bind, ok_bind, children_open_ofTrie, ok_bind, index_of_lt (by simp), ok_bind,
        List.getElem_ofFn, ih]
      cases Addrfilt.TableNode.descend ip last' n (bits + 4) (t.child subnet) with
      | error e => rfl
      | ok child =>
        refine congrArg Except.ok ?_
        rw [ofTrie_mapChildren, state_ofTrie]
        congr 2
        apply List.ext_getElem (by simp)
        intro i h1 h2
        rw [List.getElem_set, List.getElem_ofFn, List.getElem_ofFn]
        by_cases hi : subnet.val = i
        · rw [if_pos hi, if_pos (Fin.ext hi.symm)]
        · rw [if_neg hi, if_neg fun h => hi (by rw [← h])]

theorem setSiblings_ofTrie (ip : List UInt32) (r : Nat) (s : State) (del : Bool) (bits : Nat)
    (t : Addrfilt.TableNode) : setSiblings ip r s del bits (ofTrie t) =
      (Addrfilt.TableNode.setSiblings ip r s del bits t).map ofTrie := by
  unfold setSiblings Addrfilt.TableNode.setSiblings
  cases getSubnet ip bits with
  | error e => rfl
  | ok subnet =>
    dsimp only [ok_bind]
    cases Rust.assert (Addrfilt.TableNode.alignDown subnet (1 <<< (4 - r)) + 1 <<<
      (4 - r) ≤ 16) with
    | error e => rfl
    | ok u =>
      rw [ok_bind, ok_bind, children_open_ofTrie, ok_bind]
      refine congrArg Except.ok ?_
      rw [ofTrie_mapChildren, state_ofTrie]
      congr 2
      apply List.ext_getElem (by simp)
      intro i h1 h2
      rw [List.getElem_mapIdx, List.getElem_ofFn, List.getElem_ofFn]
      dsimp only
      split
      · exact assign_ofTrie s del _
      · rfl

/-- **A mutation of a trie.** -/
theorem setSubnet_ofTrie (t : Addrfilt.TableNode) (ip : List UInt32) (len bits : Int) (s : State)
    (del : Bool) :
    (ofTrie t).setSubnet ip len bits s del = (t.setSubnet ip len bits s del).map
      (Prod.map ofTrie id) := by
  unfold setSubnet Addrfilt.TableNode.setSubnet
  split
  · rfl
  · dsimp only
    rw [descend_ofTrie]
    · cases Addrfilt.TableNode.descend ip _ (bits.toNat / 4) 0 t <;> rfl
    · intro b t
      split
      · exact congrArg Except.ok (assign_ofTrie s del t)
      · exact setSiblings_ofTrie ip _ s del b t

theorem inherit_eq (s parent : State) : (if s ≠ .asParent then s else parent) =
    Trie.inherit s parent := by
  cases s <;> rfl

/-- **A lookup in a trie.** -/
theorem lookup_ofTrie (ip : List UInt32) (t : Addrfilt.TableNode) (bits : Nat) (state : State) :
    (ofTrie t).lookup ip bits state = Addrfilt.TableNode.lookup ip t bits state := by
  induction t generalizing bits state with
  | leaf s =>
    rw [lookup]
    exact congrArg Except.ok (inherit_eq s state)
  | node s ch ih =>
    rw [lookup, Addrfilt.TableNode.lookup]
    simp only [inherit_eq, state_ofTrie]
    simp only [ofTrie]
    cases getSubnet ip bits with
    | error e => rfl
    | ok subnet =>
      rw [ok_bind, ok_bind, dif_pos (by simp), List.get_eq_getElem, List.getElem_ofFn]
      exact ih _ _ _

theorem checkIp_ofTrie (ip : List UInt32) (t : Addrfilt.TableNode) :
    (ofTrie t).checkIp ip = t.checkIp ip := by
  rw [checkIp, lookup_ofTrie]
  rfl

theorem anyAllowed_leaf (s parent : State) :
    (ofTrie (.leaf s)).anyAllowed parent = (Trie.inherit s parent = .allow : Bool) := by
  rw [anyAllowed]
  simp only [inherit_eq, state_ofTrie]
  rfl

theorem anyAllowed_node (s : State) (ch : Fin 16 → Addrfilt.TableNode) (parent : State) :
    (ofTrie (.node s ch)).anyAllowed parent = true ↔
      ∃ i, (ofTrie (ch i)).anyAllowed (Trie.inherit s parent) = true := by
  rw [anyAllowed]
  simp only [inherit_eq, state_ofTrie]
  simp only [ofTrie, List.any_eq_true, List.mem_attach, true_and, Subtype.exists,
    List.mem_ofFn, exists_prop, exists_exists_eq_and]
  rfl

/-- **Some leaf is allowed** iff some word leads to a state that is. -/
theorem anyAllowed_iff {t : Addrfilt.TableNode} {n : Nat} (h : t.Within n) (parent : State) :
    (ofTrie t).anyAllowed parent = true ↔
      ∃ p : List (Fin 16), p.length = n ∧ t.resolve p parent = .allow := by
  induction t generalizing n parent with
  | leaf s =>
    rw [anyAllowed_leaf, decide_eq_true_eq]
    constructor
    · exact fun hs => ⟨List.replicate n 0, List.length_replicate, by rwa [Trie.resolve_leaf]⟩
    · rintro ⟨p, -, hp⟩
      rwa [Trie.resolve_leaf] at hp
  | node s ch ih =>
    obtain ⟨m, rfl⟩ : ∃ m, n = m + 1 := by
      cases n with
      | zero => exact h.elim
      | succ m => exact ⟨m, rfl⟩
    rw [anyAllowed_node]
    simp only [fun i => ih i (h i)]
    constructor
    · rintro ⟨i, p, hlen, hp⟩
      exact ⟨i :: p, by rw [List.length_cons, hlen], hp⟩
    · rintro ⟨p, hlen, hp⟩
      cases p with
      | nil => cases hlen
      | cons i p => exact ⟨i, p, Nat.succ.inj hlen, hp⟩

end TableNode

/-! ## Every word is the path of an address -/

theorem nibbles_eq_of_bits {addr : List UInt32} {p : List (Fin 16)}
    (hlen : p.length = 8 * addr.length)
    (h : ∀ i < 4 * p.length, bitAt addr i = (p[i / 4]?.getD 0).val.testBit (3 - i % 4)) :
      nibbles addr = p := by
  apply List.ext_getElem (by rw [length_nibbles, hlen])
  intro k hk hk'
  simp only [nibbles, List.getElem_map, List.getElem_range]
  apply Fin.ext
  apply Nat.eq_of_testBit_eq
  intro j
  by_cases hj : j < 4
  · rw [nibbleAt_testBit _ _ hj, h _ (by omega), show (4 * k + 3 - j) / 4 = k by omega,
      show 3 - (4 * k + 3 - j) % 4 = j by omega, List.getElem?_eq_getElem hk']
    rfl
  · have h16 : 16 ≤ 2 ^ j := Nat.pow_le_pow_right (n := 2) (by decide) (show 4 ≤ j by omega)
    rw [Nat.testBit_lt_two_pow (by omega), Nat.testBit_lt_two_pow (by omega)]

/-- A number with any given bits, the most significant first. -/
theorem exists_bits (w : Nat) (f : Nat → Bool) :
    ∃ x < 2 ^ w, ∀ i < w, x.testBit (w - 1 - i) = f i := by
  refine ⟨Nat.ofBits fun i : Fin w => f (w - 1 - i), Nat.ofBits_lt_two_pow _, fun i hi => ?_⟩
  rw [Nat.testBit_ofBits_lt _ _ (by omega)]
  congr 1
  dsimp only
  omega

theorem exists_nibbles_v4 {p : List (Fin 16)} (h : p.length = 8) :
    ∃ a, nibbles (words (.v4 a)) = p := by
  obtain ⟨x, hx, hbits⟩ := exists_bits 32 fun i => (p[i / 4]?.getD 0).val.testBit (3 - i % 4)
  refine ⟨.ofNat x, nibbles_eq_of_bits h fun i hi => ?_⟩
  have ha := bitAt_v4 (.ofNat x) (show i < 32 by omega)
  rw [UInt32.toNat_ofNat_of_lt' hx] at ha
  exact ha.trans (hbits i (by omega))

theorem exists_nibbles_v6 {p : List (Fin 16)} (h : p.length = 32) :
    ∃ a, nibbles (words (.v6 a)) = p := by
  obtain ⟨x, hx, hbits⟩ := exists_bits 128 fun i => (p[i / 4]?.getD 0).val.testBit (3 - i % 4)
  refine ⟨.ofNat 128 x, nibbles_eq_of_bits (by simpa [words] using h) fun i hi => ?_⟩
  have ha := bitAt_v6 (.ofNat 128 x) (show i < 128 by omega)
  rw [BitVec.toNat_ofNat, Nat.mod_eq_of_lt hx] at ha
  exact ha.trans (hbits i (by omega))

/-! ## The shape of the nodes -/

/-- A node that is open has sixteen children, and none is open at depth `n`. -/
inductive TableNode.Shaped : TableNode → Nat → Prop
  | closed (state : State) (n : Nat) : Shaped ⟨state, none⟩ n
  | opened {state : State} {ext : List TableNode} {n : Nat} (length_eq : ext.length = 16)
      (below : ∀ c ∈ ext, Shaped c n) : Shaped ⟨state, some ext⟩ (n + 1)

theorem TableNode.shaped_ofTrie {t : Addrfilt.TableNode} {n : Nat} (h : t.Within n) :
    (ofTrie t).Shaped n := by
  induction t generalizing n with
  | leaf s => exact .closed s n
  | node s ch ih =>
    cases n with
    | zero => exact h.elim
    | succ n =>
      refine .opened List.length_ofFn fun c hc => ?_
      obtain ⟨i, rfl⟩ := List.mem_ofFn.1 hc
      exact ih i (h i)

namespace AuthTable

def ofTries (t : Addrfilt.AuthTable) : AuthTable := ⟨.ofTrie t.base4, .ofTrie t.base6⟩

theorem setSubnet_ofTries (t : Addrfilt.AuthTable) (subnet : Subnet) (bits : Int) (s : State)
    (del : Bool) :
    (ofTries t).setSubnet_ subnet bits s del = (t.setSubnet_ subnet bits s del).map
      (Prod.map ofTries id) := by
  unfold setSubnet_ Addrfilt.AuthTable.setSubnet_ ofTries
  cases subnet with
  | v4 ip =>
    dsimp only
    rw [TableNode.setSubnet_ofTrie]
    cases t.base4.setSubnet [ip] 1 bits s del <;> rfl
  | v6 ip =>
    dsimp only
    rw [TableNode.setSubnet_ofTrie]
    cases t.base6.setSubnet (splitIp6 ip) 4 bits s del <;> rfl
  | unspec =>
    dsimp only
    by_cases hb : bits ≠ 0
    · rw [if_pos hb, if_pos hb]
      rfl
    · rw [if_neg hb, if_neg hb, TableNode.setSubnet_ofTrie, TableNode.setSubnet_ofTrie]
      cases t.base4.setSubnet [0] 1 0 s del with
      | error e => rfl
      | ok p =>
        obtain ⟨base4, r⟩ := p
        cases r with
        | badSubnet => rfl
        | success => cases t.base6.setSubnet [0, 0, 0, 0] 4 0 s del <;> rfl

theorem apply_ofTries (t : Addrfilt.AuthTable) (op : Op) :
    (ofTries t).apply op = (t.apply op).map (Prod.map ofTries id) := by
  obtain ⟨verb, subnet, bits⟩ := op
  cases verb <;> exact setSubnet_ofTries t subnet bits _ _

/-- **Any mutations of tries.** -/
theorem run_ofTries (t : Addrfilt.AuthTable) (ops : List Op) :
    (ofTries t).run ops = (t.run ops).map (Prod.map ofTries id) := by
  induction ops generalizing t with
  | nil => rfl
  | cons op ops ih =>
    rw [run, Addrfilt.AuthTable.run, apply_ofTries]
    cases t.apply op with
    | error e => rfl
    | ok p =>
      obtain ⟨t1, r⟩ := p
      dsimp only [Except.map, Prod.map, id, ok_bind]
      rw [ih]
      cases t1.run ops <;> rfl

theorem isAllowed_ofTries (t : Addrfilt.AuthTable) (a : IpAddr) :
    (ofTries t).isAllowed a = t.isAllowed a := by
  cases a <;> exact TableNode.checkIp_ofTrie _ _

/-- A word leads to an allowed state from the root of a table iff a lookup along it succeeds. -/
theorem checkIp_eq_true {t : Addrfilt.TableNode} {ip : List UInt32} (h : t.Within (8 * ip.length)) :
    t.checkIp ip = .ok true ↔ t.resolve (nibbles ip) .asParent = .allow := by
  rw [Addrfilt.TableNode.checkIp, show (0 : Nat) = 4 * 0 from rfl,
    Addrfilt.TableNode.lookup_eq t (Nat.zero_le _) (by simpa using h), ok_bind, List.drop_zero,
    Trie.resolve_eq_iff_of_ne (show State.asParent ≠ .allow by decide)
      (show State.deny ≠ .allow by decide)]
  simp

/-- **The nodes of a table.** After any mutations of a new table all open nodes have sixteen
children and none is open below the last nibble of an address, so every lookup returns; and
`is_any_allowed` says whether there is an address of the family that is allowed. -/
theorem shape_and_any (ops : List Op) : ∃ t, new.run ops = .ok (t, ops.map Op.status) ∧
    t.base4.Shaped 8 ∧ t.base6.Shaped 32 ∧ (∀ a, ∃ allowed, t.isAllowed a = .ok allowed) ∧
    (t.isAnyAllowed false = true ↔ ∃ a, t.isAllowed (.v4 a) = .ok true) ∧
    (t.isAnyAllowed true = true ↔ ∃ a, t.isAllowed (.v6 a) = .ok true) := by
  obtain ⟨t, hrun, hholds⟩ := Addrfilt.AuthTable.holds_new.run ops
  have h4 : t.base4.Within 8 := (hholds (.v4 0)).within
  have h6 : t.base6.Within 32 := (hholds (.v6 0)).within
  refine ⟨ofTries t, ?_, TableNode.shaped_ofTrie h4, TableNode.shaped_ofTrie h6,
    fun a => ?_, ?_, ?_⟩
  · rw [show new = ofTries Addrfilt.AuthTable.new from rfl, run_ofTries, hrun]
    rfl
  · exact ⟨_, by rw [isAllowed_ofTries, hholds.isAllowed]⟩
  · refine (TableNode.anyAllowed_iff h4 _).trans ⟨?_, ?_⟩
    · rintro ⟨p, hlen, hp⟩
      obtain ⟨a, rfl⟩ := exists_nibbles_v4 hlen
      exact ⟨a, by rw [isAllowed_ofTries]; exact (checkIp_eq_true h4).2 hp⟩
    · rintro ⟨a, ha⟩
      rw [isAllowed_ofTries] at ha
      exact ⟨_, length_nibbles _, (checkIp_eq_true h4).1 ha⟩
  · refine (TableNode.anyAllowed_iff h6 _).trans ⟨?_, ?_⟩
    · rintro ⟨p, hlen, hp⟩
      obtain ⟨a, rfl⟩ := exists_nibbles_v6 hlen
      exact ⟨a, by rw [isAllowed_ofTries]; exact (checkIp_eq_true (by simpa using h6)).2 hp⟩
    · rintro ⟨a, ha⟩
      rw [isAllowed_ofTries] at ha
      exact ⟨_, by rw [length_nibbles, length_splitIp6], (checkIp_eq_true (by simpa using h6)).1 ha⟩

end AuthTable

end ChronyRs.L2.Addrfilt.Vec
