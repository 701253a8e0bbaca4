import ChronyRs.L2Auth.Addrfilt

/-!
# A wider rule overwrites a finer one (`addrfilt.rs`)

`allow` and `deny` are documented to leave finer rules intact. The trie has one level for every four
bits of an address, and a width that is not a multiple of four is written into siblings of the next
level. Two rules whose widths round up to the same multiple of four are therefore on the same level,
and the later one replaces the earlier one also where the earlier one is finer.

* `finer_intact_iff`: when exactly a later rule leaves the addresses of a finer one alone.
* `deny_lost`: `deny 10.0.0.0/18` is gone after `allow 10.0.0.0/17`.

Fix: keep the width of the rule with the state of a sibling, and write a sibling only if its width
is not larger than the new one.
-/
namespace ChronyRs.Bugs.SharedNibble

open L2.Addrfilt

/-- After the operations `ops` the operation `p` returns, and no address of the subnet of `q` is
decided differently. -/
def Intact (ops : List Op) (q p : Op) : Prop := ∃ t t',
  AuthTable.new.run ops = .ok (t, ops.map Op.status) ∧ t.apply p = .ok (t', p.status) ∧
    ∀ a, q.covers a = true → t'.isAllowed a = t.isAllowed a

def Applies (op : Op) (a : IpAddr) : Prop := op.status = .success ∧ op.covers a = true

/-- A rule on a deeper level than that of `p` decides the address and was not pruned since. -/
def Shielded (ops : List Op) (p : Op) (a : IpAddr) : Prop := ∃ pre r post,
  ops = pre ++ r :: post ∧ Applies r a ∧ p.rounded < r.rounded ∧
    ∀ op ∈ post, op.isAll = true → Applies op a → r.rounded ≤ op.rounded

/-- No later operation pruned a subnet around that of `q`, in whole or in part. -/
def Kept (q : Op) (post : List Op) : Prop :=
  ∀ op ∈ post, op.isAll = true → ∀ a, q.covers a = true → Applies op a → q.rounded ≤ op.rounded

variable {a : IpAddr} {p : Op}

theorem rule_eq_some {op : Op} {r : Overlay.Rule Bool} :
    op.rule a = some r ↔ Applies op a ∧ r = ⟨op.rounded, op.isAll, op.isAllow⟩ := by
  unfold Op.rule Applies
  split
  · rename_i h
    simp [h, eq_comm]
  · rename_i h
    simp [h]

theorem shielded_iff {ops : List Op} : Shielded ops p a ↔
    ∃ b ∈ Overlay.surviving (ops.filterMap (Op.rule a)), p.rounded < b.level := by
  constructor
  · rintro ⟨pre, r, post, rfl, hr, hlt, hpost⟩
    refine ⟨⟨r.rounded, r.isAll, r.isAllow⟩, Overlay.mem_surviving.2
      ⟨pre.filterMap (Op.rule a), post.filterMap (Op.rule a), ?_, ?_⟩, hlt⟩
    · rw [List.filterMap_append, List.filterMap_cons_some (rule_eq_some.2 ⟨hr, rfl⟩)]
    · intro q hq hs
      obtain ⟨op, hop, hrule⟩ := List.mem_filterMap.1 hq
      obtain ⟨happ, rfl⟩ := rule_eq_some.1 hrule
      exact hpost op hop hs happ
  · rintro ⟨b, hb, hlt⟩
    obtain ⟨pre', post', heq, hpost⟩ := Overlay.mem_surviving.1 hb
    obtain ⟨pre, rest, rfl, -, hrest⟩ := List.filterMap_eq_append_iff.1 heq
    obtain ⟨skip, r, post, rfl, -, hrule, rfl⟩ := List.filterMap_eq_cons_iff.1 hrest
    obtain ⟨happ, rfl⟩ := rule_eq_some.1 hrule
    refine ⟨pre ++ skip, r, post, by simp, happ, hlt, fun op hop hall happ' => ?_⟩
    exact hpost _ (List.mem_filterMap.2 ⟨op, hop, rule_eq_some.2 ⟨happ', rfl⟩⟩) hall

/-- A new rule either leaves the verdict, because a deeper one decides, or gives its own. -/
theorem verdict_snoc (ops : List Op) (hall : p.isAll = false) (hp : Applies p a) :
    (Shielded ops p a ∧ verdict (ops ++ [p]) a = verdict ops a) ∨
      (¬ Shielded ops p a ∧ verdict (ops ++ [p]) a = p.isAllow) := by
  have hsnoc : (ops ++ [p]).filterMap (Op.rule a) =
      ops.filterMap (Op.rule a) ++ [⟨p.rounded, p.isAll, p.isAllow⟩] := by
    rw [List.filterMap_append, List.filterMap_cons_some (rule_eq_some.2 ⟨hp, rfl⟩),
      List.filterMap_nil]
  have hdecisive := Overlay.decisive_snoc (ops.filterMap (Op.rule a))
    (show Overlay.Rule.sweeping ⟨p.rounded, p.isAll, p.isAllow⟩ = false from hall)
  rw [shielded_iff]
  rcases hdecisive with ⟨hdeep, heq⟩ | ⟨hflat, heq⟩
  · exact .inl ⟨hdeep, by rw [verdict, verdict, hsnoc, heq]⟩
  · refine .inr ⟨?_, by rw [verdict, hsnoc, heq]⟩
    rintro ⟨b, hb, hlt⟩
    exact Nat.not_lt.2 (hflat b hb) hlt

theorem verdict_snoc_iff (ops : List Op) (hall : p.isAll = false) (hp : Applies p a) :
    verdict (ops ++ [p]) a = verdict ops a ↔ Shielded ops p a ∨ verdict ops a = p.isAllow := by
  rcases verdict_snoc ops hall hp with ⟨hdeep, heq⟩ | ⟨hflat, heq⟩
  · exact iff_of_true heq (.inl hdeep)
  · rw [heq]
    exact ⟨fun h => .inr h.symm, fun h => (h.resolve_left hflat).symm⟩

theorem verdict_of_bad (ops : List Op) (hp : p.status = .badSubnet) (a : IpAddr) :
    verdict (ops ++ [p]) a = verdict ops a := by
  have hrule : Op.rule a p = none := by rw [Op.rule, if_neg (by rw [hp]; simp)]
  rw [verdict, verdict, List.filterMap_append, List.filterMap_cons_none hrule, List.filterMap_nil,
    List.append_nil]

theorem intact_iff_verdict (ops : List Op) (q p : Op) : Intact ops q p ↔
    ∀ a, q.covers a = true → verdict (ops ++ [p]) a = verdict ops a := by
  obtain ⟨t, hrun, hholds⟩ := AuthTable.holds_new.run ops
  obtain ⟨t', happly, hbase⟩ := t.apply_eq p
  have hholds' := hholds.apply hbase
  rw [List.nil_append] at hholds hholds'
  constructor
  · rintro ⟨t1, t2, hrun1, happly1, h⟩ a ha
    rw [hrun] at hrun1
    cases hrun1
    rw [happly] at happly1
    cases happly1
    have hsame := h a ha
    rw [hholds.isAllowed, hholds'.isAllowed] at hsame
    exact Except.ok.inj hsame
  · intro h
    refine ⟨t, t', hrun, happly, fun a ha => ?_⟩
    rw [hholds.isAllowed, hholds'.isAllowed, h a ha]

theorem exists_covered (q : Op) : ∃ a, q.covers a = true := by
  obtain ⟨verb, subnet, bits⟩ := q
  cases subnet with
  | v4 ip => exact ⟨.v4 ip, decide_eq_true rfl⟩
  | v6 ip => exact ⟨.v6 ip, decide_eq_true rfl⟩
  | unspec => exact ⟨.v4 0, rfl⟩

/-- The opposite rule for the same subnet. -/
def against (p q : Op) : Op := ⟨if p.isAllow then .deny else .allow, q.subnet, q.bits⟩

theorem isAllow_against (p q : Op) : (against p q).isAllow = !p.isAllow := by
  unfold against
  cases p.isAllow <;> rfl

theorem isAll_against (p q : Op) : (against p q).isAll = false := by
  unfold against
  cases p.isAllow <;> rfl

/-- On one level a rule is overwritten. -/
theorem not_intact_of_rounded_le {q : Op} (hq : q.status = .success) (hs : p.status = .success)
    (hp : p.isAll = false) (hin : ∀ a, q.covers a = true → p.covers a = true)
    (hle : q.rounded ≤ p.rounded) :
    ¬ Intact [q, against p q] q p := by
  intro h
  obtain ⟨a, ha⟩ := exists_covered q
  -- the two rules before `p` are on one level, so the later of them decides
  have hbefore : verdict ([q] ++ [against p q]) a = !p.isAllow := by
    rcases verdict_snoc [q] (isAll_against p q)
      ⟨hq, ha⟩ with ⟨⟨pre, r, post, heq, -, hlt, -⟩, -⟩ | ⟨-, heq⟩
    · have hr : r = q := by
        have hmem : r ∈ [q] := by rw [heq]; simp
        exact List.mem_singleton.1 hmem
      rw [hr] at hlt
      exact absurd hlt (Nat.lt_irrefl _)
    · rw [heq, isAllow_against]
  have hsame := (intact_iff_verdict _ q p).1 h a ha
  rcases (verdict_snoc_iff _ hp ⟨hs, hin a ha⟩).1 hsame with ⟨pre, r, post, heq, -, hlt,
    -⟩ | hverdict
  · have hr : r.rounded = q.rounded := by
      have hmem : r ∈ [q, against p q] := by rw [heq]; simp
      rcases List.mem_cons.1 hmem with rfl | hmem
      · rfl
      · rw [List.mem_singleton.1 hmem]
        rfl
    omega
  · rw [show [q, against p q] = [q] ++ [against p q] from rfl, hbefore] at hverdict
    exact absurd hverdict (by cases p.isAllow <;> decide)

/-- **When a finer rule is left intact.** A later `allow` or `deny` of a wider subnet leaves all
addresses of the finer one as they are if and only if each is decided by a rule on a deeper level
than its own, or already has its verdict. For rules that were not pruned in between this comes down
to the widths: they must round up to different multiples of four. -/
theorem finer_intact_iff {q p : Op} (hq : q.status = .success) (hp : p.isAll = false)
    (hbits : p.bits < q.bits) (hin : ∀ a, q.covers a = true → p.covers a = true) :
    (∀ ops, q ∈ ops → (Intact ops q p ↔ p.status = .badSubnet ∨
      ∀ a, q.covers a = true → Shielded ops p a ∨ verdict ops a = p.isAllow)) ∧
    ((∀ pre post, Kept q post → Intact (pre ++ q :: post) q p) ↔
      p.status = .badSubnet ∨ p.rounded ≠ q.rounded) := by
  have hmono : p.rounded ≤ q.rounded := by
    unfold Op.rounded
    omega
  refine ⟨fun ops _ => ?_, ?_⟩
  · rw [intact_iff_verdict]
    cases hs : p.status with
    | badSubnet => exact iff_of_true (fun a _ => verdict_of_bad ops hs a) (.inl rfl)
    | success =>
      simp only [reduceCtorEq, false_or]
      exact forall₂_congr fun a ha => verdict_snoc_iff ops hp ⟨hs, hin a ha⟩
  · cases hs : p.status with
    | badSubnet =>
      exact iff_of_true (fun pre post _ => (intact_iff_verdict _ q p).2 fun a _ =>
        verdict_of_bad _ hs a) (.inl rfl)
    | success =>
      simp only [reduceCtorEq, false_or]
      constructor
      · intro h heq
        refine not_intact_of_rounded_le hq hs hp hin (Nat.le_of_eq heq.symm) (h [] [against p q] ?_)
        intro op hop hall
        rw [List.mem_singleton.1 hop, isAll_against] at hall
        cases hall
      · intro hne pre post hkept
        refine (intact_iff_verdict _ q p).2 fun a ha =>
          (verdict_snoc_iff _ hp ⟨hs, hin a ha⟩).2 (.inl ?_)
        exact ⟨pre, q, post, rfl, ⟨hq, ha⟩, by omega, fun op hop hall happ =>
          hkept op hop hall a ha happ⟩

theorem covers_of_le (v v' : Verb) (ip : UInt32) {m n : Nat} (h : m ≤ n)
    (ha : Op.covers ⟨v, .v4 ip, n⟩ a = true) : Op.covers ⟨v', .v4 ip, m⟩ a = true := by
  cases a with
  | v4 a =>
    have hsplit : 32 - m = 32 - n + (32 - m - (32 - n)) := by omega
    simp only [Op.covers, Int.toNat_natCast, decide_eq_true_eq] at ha ⊢
    rw [hsplit, Nat.pow_add, ← Nat.div_div_eq_div_mul, ← Nat.div_div_eq_div_mul, ha]
  | v6 a => exact ha

-- a /18 outlives a /16
theorem finer_intact_sixteen :
    Intact [⟨.deny, .v4 0x0a000000, 18⟩] ⟨.deny, .v4 0x0a000000, 18⟩ ⟨.allow, .v4 0x0a000000, 16⟩ :=
  (finer_intact_iff (by decide) (by decide) (by decide)
    fun _ => covers_of_le .deny .allow 0x0a000000 (m := 16) (n := 18) (by decide)).2.2
      (.inr (by decide)) [] [] fun _ hop => absurd hop List.not_mem_nil

/-- `deny 10.0.0.0/18`, then `allow 10.0.0.0/17`: the address 10.0.0.1 was denied and is now
allowed. -/
theorem deny_lost : (∀ a, Op.covers ⟨.deny, .v4 0x0a000000, 18⟩ a = true →
      Op.covers ⟨.allow, .v4 0x0a000000, 17⟩ a = true) ∧
    Op.covers ⟨.deny, .v4 0x0a000000, 18⟩ (.v4 0x0a000001) = true ∧
    ∃ t t', AuthTable.new.run [⟨.deny, .v4 0x0a000000, 18⟩] = .ok (t, [.success]) ∧
      t.allow (.v4 0x0a000000) 17 = .ok (t', .success) ∧
      t.isAllowed (.v4 0x0a000001) = .ok false ∧ t'.isAllowed (.v4 0x0a000001) = .ok true := by
  refine ⟨fun _ => covers_of_le .deny .allow 0x0a000000 (m := 17) (n := 18)
    (by decide), by decide, ?_⟩
  exact ⟨_, _, rfl, rfl, by decide +kernel, by decide +kernel⟩

end ChronyRs.Bugs.SharedNibble
