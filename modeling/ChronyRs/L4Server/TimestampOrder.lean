import ChronyRs.L4Server.TimestampSearch

/-!
# Saving a timestamp keeps the order

`save_ntp_timestamps` makes room by one of six paths (append, append to a full ring, insert,
insert into a full ring, trim and insert, overwrite a neighbour). All of them leave a part of the
old entries with the new one in its gap (`makeRoom_spec`), and a part of an ascending sequence is
ascending.

* `Sound.save`, `Sound.changeEntry`, `Sound.readEntry`, `Sound.handleSlew`: every operation keeps
  the map sound, also when it panics.
-/
namespace ChronyRs.L4.Server

open Dial

theorem setNtpTx_rxTs {conv : UInt64 → Timespec} {tss tss' : NtpTimestamps} {rx : UInt64}
    {tx : Option Timespec} {src : TimestampSource} (h : setNtpTx conv tss rx tx src = .ok tss') :
    tss'.rxTs = tss.rxTs := by
  rcases setNtpTx_ok h with ⟨rfl, -⟩ | ⟨t, -, -, rfl⟩ <;> rfl

namespace NtpTimestampMap

variable {F : Type} {m : NtpTimestampMap F} {ts : List NtpTimestamps} {rx : UInt64}

/-! ## The steps of an insertion, on the logical content -/

variable {i k n : Nat} {f : NtpTimestamps → Rust NtpTimestamps}

/-- The entry is replaced by what `f` makes of it; a panic of `f` changes nothing. -/
theorem updateAt_spec (h : m.Alloc ts) (f : NtpTimestamps → Rust NtpTimestamps) (hi : i < m.size) :
    ∃ tss, m.entries[i]? = some tss ∧
      (∀ e, f tss = .error e → updateAt f (m.ntpTssIndex i) m = (.error e, m)) ∧
      ∀ tss', f tss = .ok tss' → ∃ ts',
        updateAt f (m.ntpTssIndex i) m = (.ok (), { m with timestamps := some ts' }) ∧
        Alloc { m with timestamps := some ts' } ts' ∧
        entries { m with timestamps := some ts' } = m.entries.set i tss' := by
  obtain ⟨tss, hread, he⟩ := h.read hi
  refine ⟨tss, he, fun e hf => ?_, fun tss' hf => ⟨ts.set (m.ntpTssIndex i) tss', ?_, ?_, ?_⟩⟩
  · simp only [updateAt, Act.bind_apply, Act.get, h.timestamps_eq, Act.lift, hread, hf]
  · simp only [updateAt, Act.bind_apply, Act.get, h.timestamps_eq, Act.lift, hread, hf]
    rfl
  · exact ⟨rfl, by rw [List.length_set, h.length_eq], h.pow, h.size_le⟩
  · rw [h.entries_eq, ← ring_set (by rw [h.length_eq]; exact h.size_le) hi, h.length_eq,
      ← ntpTssIndex_eq h.pow]
    rfl

/-- `push_ntp_tss` adds a place behind the last entry; in a full ring it is the first entry's. -/
theorem pushNtpTss_spec (h : m.Alloc ts) (k : Nat) :
    ∃ first' size' k' junk, pushNtpTss k m = (.ok k', { m with first := first', size := size' }) ∧
      Alloc { m with first := first', size := size' } ts ∧
      ((k' = k ∧ entries { m with first := first', size := size' } = m.entries ++ [junk]) ∨
        (k' = k - 1 ∧ 0 < m.size ∧
          entries { m with first := first', size := size' } = m.entries.tail ++ [junk])) := by
  have hlen := h.length_eq
  by_cases hlt : m.size < m.maxSize
  · have hpos : (m.first + m.size) % ts.length < ts.length := Nat.mod_lt _ (by omega)
    refine ⟨m.first, m.size + 1, k, ts[(m.first + m.size) % ts.length], ?_,
      ⟨h.timestamps_eq, hlen, h.pow, hlt⟩, .inl ⟨rfl, ?_⟩⟩
    · simp only [pushNtpTss, Act.bind_apply, Act.get, if_pos hlt]
      rfl
    · have hp := ring_push (i := m.first) hlen hlt ts[(m.first + m.size) % ts.length]
      rw [← hlen, List.set_getElem_self] at hp
      rw [h.entries_eq, ← hp]
      simp only [entries, h.timestamps_eq]
  · have hfull : m.size = m.maxSize := Nat.le_antisymm h.size_le (Nat.le_of_not_lt hlt)
    obtain ⟨j, -, hj⟩ := h.pow
    have hpos : 0 < m.size := by
      rw [hfull, hj]
      exact Nat.two_pow_pos j
    have hne : 0 < m.entries.length := by rwa [h.entries_length]
    obtain ⟨e, l, he⟩ := List.exists_cons_of_length_pos hne
    refine ⟨(m.first + 1) % m.maxSize, m.size, k - 1, e, ?_,
      ⟨h.timestamps_eq, hlen, h.pow, h.size_le⟩, .inr ⟨rfl, hpos, ?_⟩⟩
    · simp only [pushNtpTss, Act.bind_apply, Act.get, if_neg hlt]
      rfl
    · have hrot : entries { m with first := (m.first + 1) % m.maxSize } = m.entries.rotate 1 := by
        rw [h.entries_eq, hfull, ← hlen, ← ring_rotate]
        simp only [entries, h.timestamps_eq, hlen]
      rw [show entries { m with first := (m.first + 1) % m.maxSize, size := m.size } =
        _ from hrot, he]
      simp only [List.rotate_cons_succ, List.rotate_zero, List.tail_cons]

theorem shiftUp_spec (k i : Nat) : ∀ {m : NtpTimestampMap F} {ts : List NtpTimestamps},
    m.Alloc ts → i < m.size →
      ∃ ts', shiftUp k i m = (.ok (), { m with timestamps := some ts' }) ∧
        Alloc { m with timestamps := some ts' } ts' ∧
        ∀ j, (entries { m with timestamps := some ts' })[j]? =
          if k < j ∧ j ≤ i then m.entries[j - 1]? else m.entries[j]? := by
  induction i with
  | zero =>
    intro m ts h _
    refine ⟨ts, ?_, ?_, ?_⟩
    · rw [shiftUp, ← h.timestamps_eq]
      rfl
    · rw [← h.timestamps_eq]
      exact h
    · intro j
      rw [if_neg (by omega), ← h.timestamps_eq]
  | succ i ih =>
    intro m ts h hi
    by_cases hk : k < i + 1
    · obtain ⟨src, hread, hsrc⟩ := h.read (show i < m.size by omega)
      obtain ⟨tss, -, -, hok⟩ := updateAt_spec h (fun _ => .ok src) hi
      obtain ⟨ts1, hup, ha1, he1⟩ := hok src rfl
      obtain ⟨ts2, hsh, ha2, he2⟩ := ih ha1 (show i < m.size by omega)
      refine ⟨ts2, ?_, ha2, ?_⟩
      · rw [shiftUp, if_pos hk]
        simp only [Act.bind_apply, Act.get, h.timestamps_eq, Act.lift, hread, hup]
        exact hsh
      · intro j
        rw [he2 j, he1]
        have hlen : i + 1 < m.entries.length := by rw [h.entries_length]; exact hi
        rcases Nat.lt_trichotomy j (i + 1) with hj | rfl | hj
        · rw [List.getElem?_set_ne (by omega), List.getElem?_set_ne (by omega)]
          by_cases hkj : k < j
          · rw [if_pos ⟨hkj, by omega⟩, if_pos ⟨hkj, by omega⟩]
          · rw [if_neg (by omega), if_neg (by omega)]
        · rw [if_neg (by omega), if_pos ⟨hk, Nat.le_refl _⟩, List.getElem?_set_self hlen]
          exact hsrc.symm
        · rw [if_neg (by omega), if_neg (by omega), List.getElem?_set_ne (by omega)]
    · refine ⟨ts, ?_, ?_, ?_⟩
      · rw [shiftUp, if_neg hk, ← h.timestamps_eq]
        rfl
      · rw [← h.timestamps_eq]
        exact h
      · intro j
        rw [if_neg (by omega), ← h.timestamps_eq]

/-- With the entries from `k` on moved up, an entry stored at `k` is inserted there, and the last
place is given up. -/
theorem set_of_shifted {l l' : List NtpTimestamps} (hn : l.length = n + 1) (hk : k ≤ n)
    (h : ∀ j, l'[j]? = if k < j ∧ j ≤ n then l[j - 1]? else l[j]?) (tss : NtpTimestamps) :
    l'.set k tss = l.take k ++ tss :: (l.take n).drop k := by
  have hlen : l'.length = n + 1 := by
    rcases Nat.lt_trichotomy l'.length (n + 1) with hlt | heq | hgt
    · have h1 := h l'.length
      rw [List.getElem?_eq_none (Nat.le_refl _)] at h1
      split at h1
      · rw [List.getElem?_eq_getElem (by omega)] at h1; cases h1
      · rw [List.getElem?_eq_getElem (by omega)] at h1; cases h1
    · exact heq
    · have h1 := h (n + 1)
      rw [if_neg (by omega), List.getElem?_eq_getElem hgt, List.getElem?_eq_none hn.le] at h1
      cases h1
  apply List.ext_getElem?
  intro j
  rcases Nat.lt_trichotomy j k with hj | rfl | hj
  · rw [List.getElem?_set_ne (by omega), h j, if_neg (by omega),
      List.getElem?_append_left (by rw [List.length_take]; omega), List.getElem?_take_of_lt hj]
  · rw [List.getElem?_set_self (by omega),
      List.getElem?_append_right (by rw [List.length_take]; omega), List.length_take,
      Nat.min_eq_left (by omega), Nat.sub_self, List.getElem?_cons_zero]
  · rw [List.getElem?_set_ne (by omega), h j,
      List.getElem?_append_right (by rw [List.length_take]; omega), List.length_take,
      Nat.min_eq_left (by omega), show j - k = (j - 1 - k) + 1 by omega, List.getElem?_cons_succ,
      List.getElem?_drop, show k + (j - 1 - k) = j - 1 by omega]
    by_cases hjn : j ≤ n
    · rw [if_pos ⟨hj, hjn⟩, List.getElem?_take_of_lt (by omega)]
    · rw [if_neg (by omega), List.getElem?_eq_none (by omega), List.getElem?_eq_none]
      rw [List.length_take]
      omega

theorem Alloc.shrink (h : m.Alloc ts) (hn : n ≤ m.size) :
    Alloc { m with size := n } ts ∧ entries { m with size := n } = m.entries.take n := by
  refine ⟨⟨h.timestamps_eq, h.length_eq, h.pow, hn.trans h.size_le⟩, ?_⟩
  rw [h.entries_eq, ← ring_take hn]
  simp only [entries, h.timestamps_eq]

theorem tooFar_eq (h : m.Alloc ts) (hpos : 0 < m.size) (rx : UInt64) :
    ∃ x, m.rxs[m.size - 1]? = some x ∧ m.tooFar rx = .ok (decide (2 ^ 32 < ahead rx x)) := by
  obtain ⟨tss, hread, hrx⟩ := h.read_rx (show m.size - 1 < m.size by omega)
  refine ⟨tss.rxTs, hrx, ?_⟩
  simp only [tooFar, h.timestamps_eq, hread, ok_bind, pure_eq]
  rfl

/-- The loop stops at the insertion point or at an entry that is near enough. -/
theorem trim_spec (rx : UInt64) (k n : Nat) :
    ∀ {m : NtpTimestampMap F}, m.Alloc ts → m.size = n → k ≤ n →
    ∃ n', trim rx k n m = (.ok (), { m with size := n' }) ∧ k ≤ n' ∧ n' ≤ n ∧
      (k < n' → ∃ x, m.rxs[n' - 1]? = some x ∧ ahead rx x ≤ 2 ^ 32) := by
  induction n with
  | zero =>
    intro m _ hn hk
    refine ⟨0, ?_, hk, Nat.le_refl _, fun h => absurd h (Nat.not_lt_zero _)⟩
    rw [trim, ← hn]
    rfl
  | succ n ih =>
    intro m h hn hk
    obtain ⟨x, hx, hfar⟩ := tooFar_eq h (by omega) rx
    have same : (.ok (), m) = ((.ok (), { m with size := n + 1 }) : Rust Unit ×
        NtpTimestampMap F) := by
      rw [← hn]
    rw [trim]
    simp only [Act.bind_apply, Act.get]
    by_cases hlt : k < m.size
    · simp only [if_pos hlt, Act.bind_apply, Act.lift, hfar]
      by_cases hf : 2 ^ 32 < ahead rx x
      · simp only [hf, decide_true, if_true, Act.bind_apply, Act.modify]
        obtain ⟨ha', he'⟩ := h.shrink (show m.size - 1 ≤ m.size by omega)
        obtain ⟨n', htrim, h1, h2, h3⟩ := ih ha' (show m.size - 1 = n by omega) (by omega)
        refine ⟨n', htrim, h1, by omega, ?_⟩
        intro hkn
        obtain ⟨y, hy, hle⟩ := h3 hkn
        refine ⟨y, ?_, hle⟩
        rw [rxs, List.getElem?_map, he', List.getElem?_take_of_lt (by omega),
          ← List.getElem?_map] at hy
        exact hy
      · simp only [hf, decide_false, Bool.false_eq_true, if_false]
        refine ⟨n + 1, same, hk, Nat.le_refl _, fun _ => ⟨x, ?_, by omega⟩⟩
        rw [← hn]
        exact hx
    · simp only [if_neg hlt]
      exact ⟨n + 1, same, hk, Nat.le_refl _, fun hkn => absurd (hn ▸ hkn) hlt⟩

/-- A value before the first entry, with the last entry near it, has all entries near it. -/
theorem near_of_last (h : Ascending (2 ^ 63) m.rxs) {b x y : UInt64} (hb : m.rxs.head? = some b)
    (hrx : 2 ^ 63 ≤ ahead b rx) (hx : m.rxs[n]? = some x) (hlim : ahead rx x ≤ 2 ^ 32)
    (hy : y ∈ m.rxs.take (n + 1)) : ahead rx y ≤ 2 ^ 32 := by
  have hf : From (2 ^ 63) b m.rxs := by
    cases hl : m.rxs with
    | nil => rw [hl] at hb; cases hb
    | cons c l =>
      rw [hl] at hb h
      cases hb
      exact h
  obtain ⟨j, hj⟩ := List.mem_iff_getElem?.1 hy
  have hjn : j < n + 1 := by
    have := (List.getElem?_eq_some_iff.1 hj).1
    rw [List.length_take] at this
    omega
  rw [List.getElem?_take_of_lt hjn] at hj
  have hp : period UInt64 = 2 * 2 ^ 63 := rfl
  have h1 := ahead_before hp hrx (hf.2 y (List.mem_of_getElem? hj))
  have h2 := ahead_before hp hrx (hf.2 x (List.mem_of_getElem? hx))
  rcases Nat.lt_or_ge j n with hlt | hge
  · have := ahead_lt_of_lt hf hj hx hlt
    omega
  · obtain rfl : j = n := by omega
    rw [hx] at hj
    cases hj
    exact hlim

/-! ## Making room -/

section
variable {α : Type}

/-- Dropping the head shifts the place of an insertion. -/
theorem tail_insert_sublist (l : List α) (k : Nat) (a : α) :
    (l.tail.take (k - 1) ++ a :: l.tail.drop (k - 1)).Sublist (l.take k ++ a :: l.drop k) := by
  cases l with
  | nil => simp
  | cons b l =>
    cases k with
    | zero => simp
    | succ k => simp

/-- Overwriting the element before the place of an insertion, or the head. -/
theorem set_pred_sublist (l : List α) (k : Nat) (a : α) (h : k - 1 < l.length) :
    (l.set (k - 1) a).Sublist (l.take k ++ a :: l.drop k) := by
  rw [List.set_eq_take_append_cons_drop, if_pos h]
  cases k with
  | zero =>
    simp only [Nat.zero_sub, List.take_zero, List.nil_append, List.drop_zero]
    exact (List.drop_sublist _ _).cons_cons a
  | succ k =>
    rw [Nat.add_sub_cancel]
    exact (List.take_sublist_take_left (Nat.le_succ k)).append (List.Sublist.refl _)

theorem set_append_last (l : List α) (b a : α) : (l ++ [b]).set l.length a = l ++ [a] := by
  rw [List.set_append_right _ _ (Nat.le_refl _), Nat.sub_self, List.set_cons_zero]

end

/-- `m'` has a place at `k'` for an entry that belongs at `k` in `m`: with an entry stored there,
its content is a part of the old one up to some `n` with the entry inserted. -/
structure Room (m : NtpTimestampMap F) (rx : UInt64) (k : Nat) (m' : NtpTimestampMap F) (k' : Nat) :
    Prop where
  alloc : ∃ ts', m'.Alloc ts'
  lt : k' < m'.size
  kept : ∃ n, k ≤ n ∧ (k = 0 → ∀ x ∈ m.rxs.take n, ahead rx x ≤ 2 ^ 32) ∧
    ∀ tss, (m'.entries.set k' tss).Sublist (m.entries.take k ++ tss :: (m.entries.take n).drop k)

theorem room_append (h : m.Alloc ts) (rx : UInt64) :
    ∃ first' size' k', pushNtpTss m.size m = (.ok k', { m with first := first', size := size' }) ∧
      m.Room rx m.size { m with first := first', size := size' } k' := by
  obtain ⟨first', size', k', junk, hpush, ha, hcase⟩ := pushNtpTss_spec h m.size
  have hlen := h.entries_length
  have hsize := ha.entries_length
  refine ⟨first', size', k', hpush, ⟨⟨ts, ha⟩, ?_, m.size, Nat.le_refl _, ?_, ?_⟩⟩
  · rcases hcase with ⟨rfl, he⟩ | ⟨rfl, hpos, he⟩
    · rw [he, List.length_append, List.length_singleton] at hsize
      omega
    · rw [he, List.length_append, List.length_tail, List.length_singleton] at hsize
      omega
  · intro h0 x hx
    rw [h0, List.take_zero] at hx
    exact absurd hx List.not_mem_nil
  · intro tss
    rw [List.take_of_length_le hlen.le, List.drop_of_length_le hlen.le]
    rcases hcase with ⟨rfl, he⟩ | ⟨rfl, hpos, he⟩
    · rw [he, ← hlen, set_append_last]
    · have htail : m.size - 1 = m.entries.tail.length := by rw [List.length_tail, hlen]
      rw [he, htail, set_append_last]
      exact (List.tail_sublist _).append (List.Sublist.refl _)

theorem room_insert (h : m.Alloc ts) (hk : k ≤ m.size) :
    ∃ ts' first' size' k',
      (do let index ← pushNtpTss k
          let m ← Act.get
          shiftUp index (m.size - 1)
          pure index : Act (NtpTimestampMap F) Nat) m =
        (.ok k', { m with timestamps := some ts', first := first', size := size' }) ∧
      Alloc { m with timestamps := some ts', first := first', size := size' } ts' ∧ k' < size' ∧
      ∀ tss, ((entries { m with timestamps := some ts', first := first', size := size' }).set k'
        tss).Sublist (m.entries.take k ++ tss :: m.entries.drop k) := by
  obtain ⟨first', size', k', junk, hpush, ha, hcase⟩ := pushNtpTss_spec h k
  have hsize := ha.entries_length
  have hlen := h.entries_length
  -- the content after the push, without its last place, is the old one or its tail
  obtain ⟨l, he, hk', hl, hsub⟩ : ∃ l, entries { m with first := first', size := size' } =
      l ++ [junk] ∧
      k' ≤ l.length ∧ size' = l.length + 1 ∧ ∀ tss, (l.take k' ++ tss :: l.drop k').Sublist
        (m.entries.take k ++ tss :: m.entries.drop k) := by
    rcases hcase with ⟨rfl, he⟩ | ⟨rfl, hpos, he⟩
    · rw [he, List.length_append, List.length_singleton] at hsize
      exact ⟨_, he, hlen ▸ hk, hsize.symm, fun tss => List.Sublist.refl _⟩
    · rw [he, List.length_append, List.length_singleton] at hsize
      refine ⟨_, he, ?_, hsize.symm, fun tss => tail_insert_sublist _ _ _⟩
      rw [List.length_tail]
      omega
  obtain ⟨ts', hshift, ha', hget⟩ := shiftUp_spec k' (size' - 1) ha
    (show size' - 1 < size' by omega)
  refine ⟨ts', first', size', k', ?_, ha', by omega, ?_⟩
  · simp only [Act.bind_apply, hpush, Act.get, hshift]
    rfl
  · intro tss
    have hset := set_of_shifted (n := l.length) (k := k') (l := l ++ [junk]) (by simp) hk'
      (fun j => by rw [hget j, he, show size' - 1 = l.length by omega]) tss
    rw [hset, List.take_append_of_le_length hk', List.take_left]
    exact hsub tss

theorem makeRoom_spec (h : m.Sound) (ha : m.Alloc ts) (hg : Gap m.rxs rx k) :
    ∃ ts' first' size' k',
      makeRoom rx k m =
        (.ok k', { m with timestamps := some ts', first := first', size := size' }) ∧
      m.Room rx k { m with timestamps := some ts', first := first', size := size' } k' := by
  have hks : k ≤ m.size := ha.rxs_length ▸ hg.1
  by_cases hk : k = m.size
  · obtain ⟨first', size', k', hpush, hroom⟩ := room_append ha rx
    refine ⟨ts, first', size', k', ?_, ?_⟩
    · rw [makeRoom]
      simp only [Act.bind_apply, Act.get, if_pos hk]
      rw [hk, hpush, ← ha.timestamps_eq]
    · rw [hk, ← ha.timestamps_eq]
      exact hroom
  obtain ⟨n, htrim, hkn, hn, hlast⟩ := trim_spec rx k m.size ha rfl hks
  obtain ⟨ha1, he1⟩ := ha.shrink hn
  -- what is left after the trimming is near, also where the gap is before the first entry
  have hnear : k = 0 → ∀ x ∈ m.rxs.take n, ahead rx x ≤ 2 ^ 32 := by
    intro h0 y hy
    have hpos : 0 < n := by
      rcases Nat.eq_zero_or_pos n with rfl | h1
      · rw [List.take_zero] at hy
        exact absurd hy List.not_mem_nil
      · exact h1
    obtain ⟨x, hx, hle⟩ := hlast (by omega)
    cases hh : m.rxs.head? with
    | none =>
      rw [List.head?_eq_none_iff] at hh
      rw [hh] at hx
      cases hx
    | some b =>
      rcases hg.2 b hh with ⟨-, hge⟩ | ⟨h1, -⟩
      · exact near_of_last h.ascending hh hge hx hle (by rwa [Nat.sub_add_cancel hpos])
      · omega
  have htake : (m.entries.take n).take k = m.entries.take k := by
    rw [List.take_take, Nat.min_eq_left hkn]
  by_cases hlim : n ≤ k + ntptsInsertLimit
  · obtain ⟨ts', first', size', k', hins, ha', hlt, hsub⟩ := room_insert ha1 hkn
    refine ⟨ts', first', size', k', ?_, ⟨ts', ha'⟩, hlt, n, hkn, hnear, ?_⟩
    · rw [makeRoom]
      simp only [Act.bind_apply, Act.get, if_neg hk, htrim, if_pos hlim]
      exact hins
    · intro tss
      have := hsub tss
      rwa [he1, htake] at this
  · refine ⟨ts, m.first, n, k - 1, ?_, ?_⟩
    · rw [makeRoom]
      simp only [Act.bind_apply, Act.get, if_neg hk, htrim, if_neg hlim]
      rw [← ha.timestamps_eq]
      rfl
    · rw [← ha.timestamps_eq]
      refine ⟨⟨ts, ha1⟩, show k - 1 < n by omega, n, hkn, hnear, ?_⟩
      intro tss
      have := set_pred_sublist (m.entries.take n) k tss (by
        rw [List.length_take, ha.entries_length]
        omega)
      rw [he1]
      rwa [htake] at this

/-- The entries of a map with a place for `rx`, with an entry for `rx` in it. -/
theorem Room.ascending {m' : NtpTimestampMap F} {k' : Nat} (hr : m.Room rx k m' k') (h : m.Sound)
    (hg : Gap m.rxs rx k) {tss : NtpTimestamps} (ht : tss.rxTs = rx) :
    Ascending (2 ^ 63) ((m'.entries.set k' tss).map NtpTimestamps.rxTs) := by
  obtain ⟨n, hkn, hnear, hsub⟩ := hr.kept
  refine Ascending.sublist ?_ ((hsub tss).map NtpTimestamps.rxTs)
  rw [List.map_append, List.map_cons, ht, List.map_take, List.map_drop, List.map_take]
  have hasc : Ascending (2 ^ 63) (m.rxs.take n) := h.ascending.sublist (List.take_sublist _ _)
  have htake : m.rxs.take k = (m.rxs.take n).take k := by rw [List.take_take, Nat.min_eq_left hkn]
  show Ascending (2 ^ 63) (m.rxs.take k ++ rx :: (m.rxs.take n).drop k)
  rw [htake]
  cases hl : m.rxs.take n with
  | nil =>
    rw [List.take_nil, List.drop_nil]
    refine ⟨List.pairwise_singleton _ _, ?_⟩
    intro x hx
    rw [List.mem_singleton.1 hx, ahead_self]
    omega
  | cons b l =>
    rw [hl] at hasc hnear htake
    have hb : m.rxs.head? = some b := by
      cases hx : m.rxs with
      | nil => rw [hx, List.take_nil] at hl; cases hl
      | cons c l' =>
        cases n with
        | zero => rw [List.take_zero] at hl; cases hl
        | succ n =>
          rw [hx, List.take_succ_cons] at hl
          cases hl
          rfl
    rcases hg.2 b hb with ⟨rfl, hge⟩ | ⟨hpos, hlt, hp, hq⟩
    · refine Ascending.cons rfl hasc hge ?_
      intro x hx
      have := hnear rfl x hx
      omega
    · obtain ⟨k, rfl⟩ : ∃ j, k = j + 1 := ⟨k - 1, by omega⟩
      rw [htake] at hp
      rw [List.take_succ_cons] at hp ⊢
      rw [List.drop_succ_cons]
      refine Ascending.insert (by rwa [List.take_append_drop]) hlt hp ?_
      intro x hx
      refine hq x ?_
      rw [← List.drop_succ_cons (a := b), ← hl] at hx
      rw [List.drop_take] at hx
      exact List.mem_of_mem_take hx

/-- From `m` to `m'` no entry changed but that for `rx`, which `Q` holds of if it is there. -/
def Changes (rx : UInt64) (Q : NtpTimestamps → Prop) (m m' : NtpTimestampMap F) : Prop :=
  ∀ e ∈ m'.entries, (e ∈ m.entries ∧ e.rxTs ≠ rx) ∨ (e.rxTs = rx ∧ Q e)

/-- Storing an entry for `rx` in its place, and caching the place. -/
theorem Room.store {m1 : NtpTimestampMap F} {k' : Nat} (hr : m.Room rx k m1 k') (h : m.Sound)
    (hg : Gap m.rxs rx k) (h0 : rx ≠ 0) (epoch : UInt16) :
    let m2 := { m1 with cachedIndex := k', cachedRxTs := rx }
    ∃ ts', let m' := { m1 with timestamps := some ts', cachedIndex := k', cachedRxTs := rx }
      updateAt (fun tss => .ok (tss.reset rx epoch)) (m2.ntpTssIndex k') m2 = (.ok (), m') ∧
      m'.Sound ∧ m'.rxs[k']? = some rx ∧
        Changes rx (fun e => ∃ tss, e = .reset tss rx epoch) m m' := by
  intro m2
  obtain ⟨ts1, ha1⟩ := hr.alloc
  have hac : m2.Alloc ts1 := ⟨ha1.timestamps_eq, ha1.length_eq, ha1.pow, ha1.size_le⟩
  obtain ⟨tss, -, -, hok⟩ := updateAt_spec hac (fun tss => .ok (tss.reset rx epoch)) hr.lt
  obtain ⟨ts', hup, ha', he'⟩ := hok _ rfl
  refine ⟨ts', ?_⟩
  intro m'
  replace ha' : m'.Alloc ts' := ha'
  replace he' : m'.entries = m1.entries.set k' (tss.reset rx epoch) := he'
  have hmem : ∀ e ∈ m'.entries, e = tss.reset rx epoch ∨ e ∈ m.entries := by
    obtain ⟨n, -, -, hsub⟩ := hr.kept
    intro e he
    rw [he'] at he
    rcases List.mem_append.1 ((hsub _).subset he) with h1 | h1
    · exact .inr (List.mem_of_mem_take h1)
    rcases List.mem_cons.1 h1 with h1 | h1
    · exact .inl h1
    · exact .inr (List.mem_of_mem_take (List.mem_of_mem_drop h1))
  have hat : m'.rxs[k']? = some rx := by
    have hlt : k' < m1.entries.length := by
      rw [ha1.entries_length]
      exact hr.lt
    rw [rxs, he', List.getElem?_map, List.getElem?_set_self hlt]
    rfl
  refine ⟨hup, ha'.sound ?_ ?_ fun _ => hat, hat, ?_⟩
  · rw [rxs, he']
    exact hr.ascending h hg rfl
  · intro x hx
    obtain ⟨e, he, rfl⟩ := List.mem_map.1 hx
    rcases hmem e he with rfl | h1
    · exact h0
    · exact h.nonzero _ (List.mem_map_of_mem h1)
  · intro e he
    rcases hmem e he with rfl | h1
    · exact .inr ⟨rfl, tss, rfl⟩
    · refine .inl ⟨h1, fun hrx => ?_⟩
      exact hg.not_mem h.ascending (hrx ▸ List.mem_map_of_mem h1)

/-! ## Every operation keeps the map sound -/

theorem Sound.cached (h : m.Sound) (hi : m.rxs[i]? = some rx) :
    Sound { m with cachedIndex := i, cachedRxTs := rx } :=
  ⟨h.empty, fun ts hts => ⟨hts, (h.alloc ts hts).length_eq, (h.alloc ts hts).pow,
    (h.alloc ts hts).size_le⟩, h.ascending, h.nonzero, fun _ => hi⟩

/-- An entry is found through a slot of the allocated vector. -/
theorem Sound.alloc_of_hit (h : m.Sound) (hi : m.rxs[i]? = some rx) :
    ∃ ts, m.Alloc ts ∧ i < m.size := by
  cases hts : m.timestamps with
  | none =>
    have he : m.rxs = [] := by rw [rxs, entries, hts]; rfl
    rw [he] at hi
    cases hi
  | some ts =>
    refine ⟨ts, h.alloc ts hts, ?_⟩
    rw [← (h.alloc ts hts).rxs_length]
    exact (List.getElem?_eq_some_iff.1 hi).1

theorem touch_spec (h : m.Sound) (hf : ∀ tss tss', f tss = .ok tss' → tss'.rxTs = tss.rxTs)
    (hi : m.rxs[i]? = some rx) :
    ∃ r m', updateAt f (m.ntpTssIndex i) { m with cachedIndex := i, cachedRxTs := rx } = (r, m') ∧
      m'.Sound ∧ m'.maxSize = m.maxSize ∧ m'.rxs = m.rxs ∧
      ((∃ e, r = .error e) ∧ m'.entries = m.entries ∨
        r = .ok () ∧
          Changes rx (fun e => ∃ old ∈ m.entries, old.rxTs = rx ∧ f old = .ok e) m m') := by
  obtain ⟨ts, ha, hlt⟩ := h.alloc_of_hit hi
  have hc := h.cached hi
  have hac := hc.alloc ts ha.timestamps_eq
  obtain ⟨tss, htss, herr, hok⟩ := updateAt_spec hac f hlt
  have htss' : m.entries[i]? = some tss := htss
  rcases hft : f tss with e | tss'
  · exact ⟨_, _, herr e hft, hc, rfl, rfl, .inl ⟨⟨e, rfl⟩, rfl⟩⟩
  obtain ⟨ts', hup, ha', he'⟩ := hok tss' hft
  have hrx : tss.rxTs = rx := by
    rw [rxs, List.getElem?_map, htss'] at hi
    exact Option.some.inj hi
  have hrxs : rxs { m with timestamps := some ts', cachedIndex := i, cachedRxTs := rx } =
      m.rxs := by
    obtain ⟨h1, hx⟩ := List.getElem?_eq_some_iff.1 hi
    have hset : m.rxs.set i m.rxs[i] = m.rxs := List.set_getElem_self h1
    rw [rxs, he', List.map_set, hf tss tss' hft, hrx]
    rwa [hx] at hset
  refine ⟨_, _, hup, ha'.sound ?_ ?_ ?_, rfl, hrxs, .inr ⟨rfl, ?_⟩⟩
  · rw [hrxs]
    exact h.ascending
  · rw [hrxs]
    exact h.nonzero
  · intro _
    rw [hrxs]
    exact hi
  · intro e he
    rw [he'] at he
    obtain ⟨j, hj⟩ := List.mem_iff_getElem?.1 he
    by_cases hij : i = j
    · subst hij
      rw [List.getElem?_set_self (by rw [hac.entries_length]; exact hlt)] at hj
      cases hj
      exact .inr ⟨(hf tss _ hft).trans hrx, tss, List.mem_of_getElem? htss', hrx, hft⟩
    · rw [List.getElem?_set_ne hij] at hj
      refine .inl ⟨List.mem_of_getElem? hj, ?_⟩
      intro hej
      have hj' : m.rxs[j]? = some rx := by
        rw [rxs, List.getElem?_map]
        exact (congrArg (Option.map _) hj).trans (congrArg some hej)
      obtain ⟨h1, hx⟩ := List.getElem?_eq_some_iff.1 hi
      obtain ⟨h2, hy⟩ := List.getElem?_eq_some_iff.1 hj'
      exact hij ((h.ascending.nodup.getElem_inj_iff).1 (hx.trans hy.symm))

/-- The public lookups: the slot of the entry, or nothing, or a panic that changes nothing. -/
theorem findSlot_cases (h : m.Sound) (rx : UInt64) :
    (∃ i, findSlot rx m = (.ok (some (m.ntpTssIndex i)),
      { m with cachedIndex := i, cachedRxTs := rx }) ∧ m.rxs[i]? = some rx) ∨
    (findSlot rx m = (.ok none, m) ∧ rx ∉ m.rxs) ∨
    (findSlot rx m = (.error .overflow, m) ∧
      ¬ m.rxs.Pairwise (fun x y => x.toNat < y.toNat)) := by
  rw [findSlot]
  simp only [Act.bind_apply, Act.get]
  by_cases hts : m.timestamps = none
  · right; left
    rw [if_pos hts]
    refine ⟨rfl, ?_⟩
    rw [rxs, entries, hts]
    exact List.not_mem_nil
  rw [if_neg hts]
  simp only [Act.bind_apply]
  rcases find_cases h rx with ⟨i, hfind, hi⟩ | ⟨k, hfind, hg⟩ | ⟨hfind, hw⟩
  · exact .inl ⟨i, by rw [hfind]; rfl, hi⟩
  · exact .inr (.inl ⟨by rw [hfind]; rfl, hg.not_mem h.ascending⟩)
  · exact .inr (.inr ⟨by rw [hfind], hw⟩)

theorem Sound.allocate (h : m.Sound) (hp : ∃ k ≤ 31, m.maxSize = 2 ^ k) :
    m.allocate.Sound ∧ m.allocate.entries = m.entries ∧ m.allocate.maxSize = m.maxSize ∧
      ∃ ts, m.allocate.Alloc ts := by
  cases hts : m.timestamps with
  | some ts =>
    have ha : m.allocate = m := by rw [NtpTimestampMap.allocate, hts]
    rw [ha]
    exact ⟨h, rfl, rfl, ts, h.alloc ts hts⟩
  | none =>
    have h0 := h.empty hts
    have ha : m.allocate = { m with timestamps := some (List.replicate m.maxSize .blank) } := by
      rw [NtpTimestampMap.allocate, hts]
    have he : m.allocate.entries = m.entries := by
      simp only [ha, entries, hts, h0, ring_zero]
    have hx : m.allocate.rxs = m.rxs := by rw [rxs, he]; rfl
    have hal : m.allocate.Alloc (List.replicate m.maxSize .blank) := by
      rw [ha]
      exact ⟨rfl, List.length_replicate, hp, by rw [show m.size = 0 from h0]; exact Nat.zero_le _⟩
    have hc : m.allocate.cachedIndex = m.cachedIndex ∧ m.allocate.cachedRxTs = m.cachedRxTs := by
      rw [ha]
      exact ⟨rfl, rfl⟩
    refine ⟨hal.sound ?_ ?_ ?_, he, by rw [ha], _, hal⟩
    · rw [hx]
      exact h.ascending
    · rw [hx]
      exact h.nonzero
    · rw [hx, hc.1, hc.2]
      exact h.cache

section
variable [F64Math F]

/-- **Saving.** The map stays sound, also when the call panics. When it returns, the timestamp is
stored: its entry was there and is disabled now, or it was not and is fresh. -/
theorem Sound.save (h : m.Sound) (hp : ∃ k ≤ 31, m.maxSize = 2 ^ k) (rx : UInt64)
    (tx : Option Timespec) (src : TimestampSource) :
    ∃ r m', saveNtpTimestamps rx tx src m = (r, m') ∧ m'.Sound ∧ m'.maxSize = m.maxSize ∧
      ((∃ e, r = .error e) ∨ rx = 0 ∧ m'.entries = m.entries ∨
        r = .ok () ∧ rx ≠ 0 ∧ rx ∈ m'.rxs ∧ Changes rx (fun e =>
          (∃ old ∈ m.entries, old.rxTs = rx ∧ e = old.disable) ∨
          (rx ∉ m.rxs ∧ ∃ epoch tss,
            setNtpTx (ntp64ToTimespec F) (.reset tss rx epoch) rx tx src = .ok e)) m m') := by
  obtain ⟨hs, he, hmax, ts, ha⟩ := h.allocate hp
  have hrxs : m.allocate.rxs = m.rxs := by rw [rxs, he]; rfl
  rw [saveNtpTimestamps]
  simp only [Act.bind_apply, Act.modify]
  by_cases h0 : rx = 0
  · simp only [if_pos h0]
    exact ⟨_, _, rfl, hs, hmax, .inr (.inl ⟨h0, he⟩)⟩
  simp only [if_neg h0, Act.bind_apply]
  rcases find_cases hs rx with ⟨i, hfind, hi⟩ | ⟨k, hfind, hg⟩ | ⟨hfind, -⟩
  · obtain ⟨r, m', hup, hs', hmax', hx', hcase⟩ :=
      touch_spec (f := fun tss => .ok tss.disable) hs (fun tss tss' h => by cases h; rfl) hi
    simp only [hfind, Act.get, if_true]
    refine ⟨r, m', hup, hs', hmax'.trans hmax, ?_⟩
    rcases hcase with ⟨herr, -⟩ | ⟨rfl, hch⟩
    · exact .inl herr
    refine .inr (.inr ⟨rfl, h0, ?_, ?_⟩)
    · rw [hx']
      exact List.mem_of_getElem? hi
    · intro e hmem
      rcases hch e hmem with ⟨h1, h2⟩ | ⟨h1, old, h2, h3, h4⟩
      · exact .inl ⟨he ▸ h1, h2⟩
      · cases h4
        exact .inr ⟨h1, .inl ⟨old, he ▸ h2, h3, rfl⟩⟩
  · obtain ⟨ts', first', size', k', hroom, hr⟩ := makeRoom_spec hs ha hg
    obtain ⟨ts1, hup1, hs1, hat, hch1⟩ := hr.store hs hg h0 m.allocate.slewEpoch
    -- the entry is in its place before its transmit timestamp is looked at
    obtain ⟨r, m', hup, hs', hmax', hx', hcase⟩ :=
      touch_spec (f := fun tss => setNtpTx (ntp64ToTimespec F) tss rx tx src) hs1
        (fun _ _ => setNtpTx_rxTs) hat
    have hnot : rx ∉ m.rxs := hrxs ▸ hg.not_mem hs.ascending
    dsimp only at hup1
    simp only [hfind, Act.get, Bool.false_eq_true, if_false, Act.bind_apply, hroom, Act.modify,
      hup1]
    refine ⟨r, m', hup, hs', hmax'.trans hmax, ?_⟩
    rcases hcase with ⟨herr, -⟩ | ⟨rfl, hch⟩
    · exact .inl herr
    refine .inr (.inr ⟨rfl, h0, ?_, ?_⟩)
    · rw [hx']
      exact List.mem_of_getElem? hat
    · intro e hmem
      rcases hch e hmem with ⟨h1, h2⟩ | ⟨h1, old, h2, h3, h4⟩
      · rcases hch1 e h1 with ⟨h5, -⟩ | ⟨h5, -⟩
        · exact .inl ⟨he ▸ h5, h2⟩
        · exact absurd h5 h2
      · rcases hch1 old h2 with ⟨-, h5⟩ | ⟨-, tss, rfl⟩
        · exact absurd h3 h5
        · exact .inr ⟨h1, .inr ⟨hnot, _, tss, h4⟩⟩
  · simp only [hfind]
    exact ⟨_, _, rfl, hs, hmax, .inl ⟨_, rfl⟩⟩

end

/-- **Changing a stored entry** (`update_ntp_tx_timestamp`, `disable_ntp_timestamps`). -/
theorem Sound.changeEntry (h : m.Sound) (rx : UInt64)
    (hf : ∀ tss tss', f tss = .ok tss' → tss'.rxTs = tss.rxTs) :
    ∃ r m', changeEntry rx f m = (r, m') ∧ m'.Sound ∧ m'.maxSize = m.maxSize ∧
      ((rx ∉ m.rxs ∨ ∃ e, r = .error e) ∧ m'.entries = m.entries ∨ r = .ok () ∧
        Changes rx (fun e => ∃ old ∈ m.entries, old.rxTs = rx ∧ f old = .ok e) m m') := by
  rw [NtpTimestampMap.changeEntry, Act.bind_apply]
  rcases findSlot_cases h rx with ⟨i, hfind, hi⟩ | ⟨hfind, hnot⟩ | ⟨hfind, -⟩
  · obtain ⟨r, m', hup, hs', hmax', -, hcase⟩ := touch_spec h hf hi
    rw [hfind]
    exact ⟨r, m', hup, hs', hmax', hcase.imp_left (And.imp_left .inr)⟩
  · rw [hfind]
    exact ⟨_, _, rfl, h, rfl, .inl ⟨.inl hnot, rfl⟩⟩
  · rw [hfind]
    exact ⟨_, _, rfl, h, rfl, .inl ⟨.inr ⟨_, rfl⟩, rfl⟩⟩

/-- **Reading an entry** changes the cache only. -/
theorem Sound.readEntry {α : Type} (h : m.Sound) (rx : UInt64) (absent : α)
    (f : NtpTimestampMap F → NtpTimestamps → Rust α) :
    ∃ r m', readEntry rx absent f m = (r, m') ∧
      m'.Sound ∧ m'.maxSize = m.maxSize ∧ m'.entries = m.entries ∧
      ((∃ e, r = .error e) ∨ r = .ok absent ∨
        ∃ tss ∈ m.entries, tss.rxTs = rx ∧ r = f m' tss) := by
  rw [NtpTimestampMap.readEntry, Act.bind_apply]
  rcases findSlot_cases h rx with ⟨i, hfind, hi⟩ | ⟨hfind, -⟩ | ⟨hfind, -⟩
  · obtain ⟨ts, ha, hlt⟩ := h.alloc_of_hit hi
    obtain ⟨tss, hread, hget⟩ := ha.read hlt
    have hrx : tss.rxTs = rx := by
      rw [rxs, List.getElem?_map, hget] at hi
      exact Option.some.inj hi
    refine ⟨f { m with cachedIndex := i, cachedRxTs := rx } tss, _, ?_, h.cached hi, rfl, rfl,
      .inr (.inr ⟨tss, List.mem_of_getElem? hget, hrx, rfl⟩)⟩
    simp only [hfind, Act.bind_apply, Act.get, ha.timestamps_eq, Act.lift, hread]
  · rw [hfind]
    exact ⟨_, _, rfl, h, rfl, rfl, .inr (.inl rfl)⟩
  · rw [hfind]
    exact ⟨_, _, rfl, h, rfl, rfl, .inl ⟨_, rfl⟩⟩

theorem Sound.handleSlew (h : m.Sound) (doffset : F) (c : ChangeType) :
    (m.handleSlew doffset c).Sound ∧ (m.handleSlew doffset c).maxSize = m.maxSize ∧
      (m.handleSlew doffset c).entries.Sublist m.entries := by
  by_cases hc : c = .unknownStep
  · have he : (m.handleSlew doffset c).entries = [] := by
      simp only [NtpTimestampMap.handleSlew, if_pos hc, entries]
      cases m.timestamps <;> rfl
    have hx : (m.handleSlew doffset c).rxs = [] := by rw [rxs, he]; rfl
    refine ⟨⟨?_, ?_, ?_, ?_, ?_⟩, ?_, ?_⟩
    · intro _
      simp only [NtpTimestampMap.handleSlew, if_pos hc]
    · intro ts hts
      simp only [NtpTimestampMap.handleSlew, if_pos hc] at hts ⊢
      have ha := h.alloc ts hts
      exact ⟨hts, ha.length_eq, ha.pow, Nat.zero_le _⟩
    · rw [hx]
      trivial
    · rw [hx]
      simp
    · intro h0
      simp only [NtpTimestampMap.handleSlew, if_pos hc] at h0
      exact absurd rfl h0
    · simp only [NtpTimestampMap.handleSlew, if_pos hc]
    · rw [he]
      exact List.nil_sublist _
  · have heq : m.handleSlew doffset c = { m with
        slewEpoch := m.slewEpoch + 1, slewOffset := doffset } := by
      simp only [NtpTimestampMap.handleSlew, if_neg hc]
    rw [heq]
    refine ⟨⟨h.empty, ?_, h.ascending, h.nonzero, h.cache⟩, rfl, List.Sublist.refl _⟩
    intro ts hts
    have ha := h.alloc ts hts
    exact ⟨hts, ha.length_eq, ha.pow, ha.size_le⟩

end NtpTimestampMap

end ChronyRs.L4.Server
