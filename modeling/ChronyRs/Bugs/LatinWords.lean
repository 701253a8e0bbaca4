import ChronyRs.L2Auth.KeyFile
import Mathlib.Data.List.TakeWhile

/-!
# Configuration lines that are not ASCII change

`normalize_line` goes through the bytes of a line and pushes each as a character, `out.push(p as
char)`. That is the character with the number of the byte, so a character of two bytes in UTF-8
comes out as two characters, which take four bytes. A key with an umlaut is loaded with other bytes
than the file has.

* `normalizeLine_eq`: what the result is for every line.
* `normalizeLine_iff`: exactly the lines whose words, and whose key, are kept.
* `umlaut_key_changed`: a key of two bytes is loaded with four.

Fix: go through the characters of the line.
-/
namespace ChronyRs.Bugs.LatinWords

open ChronyRs.Text L1.CmdParse

/-! ## Bytes as characters -/

/-- Every byte as a character of its own. -/
def latin (s : Str) : Str := (utf8 s).map byteChar

variable {c : Char} {s w b t : Str}

theorem encode_ascii (h : c.toNat < 128) : (String.utf8EncodeChar c).map byteChar = [c] := by
  have hc : String.utf8EncodeChar c = [UInt8.ofNat c.toNat] := if_pos (Nat.le_of_lt_succ h)
  rw [hc, List.map_singleton, byteChar, UInt8.toNat_ofNat_of_lt' (h.trans (by decide)),
    Char.ofNat_toNat]

/-- The bytes of any other character are not ASCII, and there are at least two. -/
theorem encode_other (h : 128 ≤ c.toNat) :
    (∀ b ∈ String.utf8EncodeChar c, 128 ≤ b.toNat) ∧ 2 ≤ (String.utf8EncodeChar c).length := by
  have hv : ¬ c.val.toNat ≤ 0x7f := Nat.not_le.2 h
  rw [String.utf8EncodeChar, if_neg hv]
  split
  · simp
    omega
  split
  · simp
    omega
  · simp
    omega

theorem byteChar_of_ge {b : UInt8} (h : 128 ≤ b.toNat) :
    isCSpace (byteChar b) = false ∧ isComment (byteChar b) = false := by
  have hall : ∀ n : Fin 256, 128 ≤ n.val →
      isCSpace (Char.ofNat n) = false ∧ isComment (Char.ofNat n) = false := by decide +kernel
  exact hall ⟨b.toNat, b.toNat_lt⟩ h

theorem isCSpace_ascii (h : isCSpace c = true) : c.toNat < 128 := by
  simp only [isCSpace, Bool.or_eq_true, beq_iff_eq] at h
  obtain ((((rfl | rfl) | rfl) | rfl) | rfl) | rfl := h <;> decide

/-- The first byte of a character decides like the character, and no byte of a word is a space. -/
theorem encode_word (h : isCSpace c = false) : ∃ b bs, String.utf8EncodeChar c = b :: bs ∧
    isComment (byteChar b) = isComment c ∧ ∀ b' ∈ b :: bs, isCSpace (byteChar b') = false := by
  rcases Nat.lt_or_ge c.toNat 128 with hlt | hge
  · have hmap := encode_ascii hlt
    obtain ⟨b, bs, hb⟩ := List.exists_cons_of_ne_nil (String.utf8EncodeChar_ne_nil (c := c))
    rw [hb, List.map_cons, List.cons.injEq, List.map_eq_nil_iff] at hmap
    obtain ⟨rfl, rfl⟩ := hmap
    exact ⟨b, [], hb, rfl, by simpa using h⟩
  · obtain ⟨hbytes, -⟩ := encode_other hge
    have hcomment : isComment c = false := by
      by_contra hc
      simp only [isComment, Bool.not_eq_false, Bool.or_eq_true, beq_iff_eq] at hc
      obtain ((rfl | rfl) | rfl) | rfl := hc <;> exact absurd hge (by decide)
    obtain ⟨b, bs, hb⟩ := List.exists_cons_of_ne_nil (String.utf8EncodeChar_ne_nil (c := c))
    rw [hb] at hbytes
    refine ⟨b, bs, hb, ?_, fun b' hb' => (byteChar_of_ge (hbytes b' hb')).1⟩
    rw [hcomment, (byteChar_of_ge (hbytes b List.mem_cons_self)).2]

theorem length_latin :
    s.length ≤ (latin s).length ∧ ((∃ c ∈ s, 128 ≤ c.toNat) → s.length < (latin s).length) := by
  induction s with
  | nil => simp
  | cons c s ih =>
    have hcons : (latin (c :: s)).length = (String.utf8EncodeChar c).length +
        (latin s).length := by simp [latin]
    rw [hcons, List.length_cons]
    have hone := List.length_pos_iff.2 (String.utf8EncodeChar_ne_nil (c := c))
    refine ⟨by omega, ?_⟩
    rintro ⟨d, hd, hge⟩
    obtain rfl | hd := List.mem_cons.1 hd
    · have := (encode_other hge).2
      omega
    · have := ih.2 ⟨d, hd, hge⟩
      omega

theorem latin_ascii (h : ∀ c ∈ s, c.toNat < 128) : latin s = s := by
  induction s with
  | nil => rfl
  | cons c s ih =>
    rw [List.forall_mem_cons] at h
    have hs := ih h.2
    rw [latin] at hs ⊢
    rw [utf8_cons, List.map_append, encode_ascii h.1, hs, List.singleton_append]

/-! ## The loop over the line -/

/-- The first word starts with a comment character. -/
def Commented (line : Str) : Prop := (line.dropWhile isCSpace).head?.any isComment = true

instance decidableCommented (line : Str) : Decidable (Commented line) :=
  inferInstanceAs (Decidable (_ = _))

theorem normalizeBytes_word {bs : Bytes} (h : ∀ b ∈ bs, isCSpace (byteChar b) = false)
    (rest : Bytes) :
    normalizeBytes (bs ++ rest) false false = bs.map byteChar ++
      normalizeBytes rest false false := by
  induction bs with
  | nil => rfl
  | cons b bs ih =>
    rw [List.forall_mem_cons] at h
    simp [normalizeBytes, h.1, ih h.2]

/-- A character of a word, whatever stood before it. -/
theorem normalizeBytes_char (h : isCSpace c = false) (rest : Bytes) (space first : Bool)
    (hf : (first && isComment c) = false) : normalizeBytes
      (String.utf8EncodeChar c ++ rest) space first =
      (String.utf8EncodeChar c).map byteChar ++ normalizeBytes rest false false := by
  obtain ⟨b, bs, hb, hcomment, hspace⟩ := encode_word h
  rw [List.forall_mem_cons] at hspace
  rw [hb, List.cons_append, normalizeBytes, hspace.1, hcomment, hf, normalizeBytes_word hspace.2]
  rfl

theorem normalizeBytes_space (h : isCSpace c = true) (rest : Bytes) (space first : Bool) :
    normalizeBytes (String.utf8EncodeChar c ++ rest) space first =
      (if space then [] else [' ']) ++ normalizeBytes rest true first := by
  have hmap := encode_ascii (isCSpace_ascii h)
  obtain ⟨b, bs, hb⟩ := List.exists_cons_of_ne_nil (String.utf8EncodeChar_ne_nil (c := c))
  rw [hb, List.map_cons, List.cons.injEq, List.map_eq_nil_iff] at hmap
  obtain ⟨rfl, rfl⟩ := hmap
  rw [hb, List.singleton_append, normalizeBytes, h]
  cases space <;> rfl

/-- A comment is dropped; any other line goes on as if something stood before it. -/
theorem normalizeBytes_first (s : Str) : normalizeBytes (utf8 s) true true =
    if Commented s then [] else normalizeBytes (utf8 s) true false := by
  induction s with
  | nil => rfl
  | cons c s ih =>
    rw [utf8_cons]
    by_cases hc : isCSpace c = true
    · have hcons : Commented (c :: s) ↔ Commented
          s := by rw [Commented, List.dropWhile_cons_of_pos hc]; rfl
      rw [normalizeBytes_space hc, normalizeBytes_space hc, ih]
      simp [hcons]
    · rw [Bool.not_eq_true] at hc
      have hcons : Commented (c :: s) ↔ isComment c = true := by
        rw [Commented, List.dropWhile_cons_of_neg (by simp [hc])]
        rfl
      by_cases hcomment : isComment c = true
      · obtain ⟨b, bs, hb, hbc, hspace⟩ := encode_word hc
        rw [if_pos (hcons.2 hcomment), hb, List.cons_append, normalizeBytes,
          hspace b List.mem_cons_self, hbc, hcomment]
        rfl
      · rw [if_neg fun h => hcomment (hcons.1 h), normalizeBytes_char hc _ _ _
          (by simpa using hcomment), normalizeBytes_char hc _ _ _ rfl]

theorem normalizeBytes_rest (hw : ∀ c ∈ w, isCSpace c = false) (s : Str) :
    normalizeBytes (utf8 (w ++ s)) false false = latin w ++ normalizeBytes
      (utf8 s) false false := by
  induction w with
  | nil => rfl
  | cons c w ih =>
    rw [List.forall_mem_cons] at hw
    rw [List.cons_append, utf8_cons, normalizeBytes_char hw.1 _ _ _ rfl, ih hw.2, latin,
      latin, utf8_cons, List.map_append, List.append_assoc]

/-! ## Words -/

def Word (w : Str) : Prop := w ≠ [] ∧ ∀ c ∈ w, isCSpace c = false

def join (ws : List Str) : Str := [' '].intercalate ws

theorem join_cons_cons (w v : Str) (ws : List Str) :
    join (w :: v :: ws) = w ++ ' ' :: join (v :: ws) := by
  simp [join, List.intercalate]

theorem words_space (h : isCSpace c = true) (s : Str) :
    words isCSpace (c :: s) = words isCSpace s := by
  rw [words, ← List.nil_append (c :: s), List.splitOnP_append_cons_of_forall_mem (by simp) c h]
  simp [words]

theorem words_blank (h : ∀ c ∈ b, isCSpace c = true) (s : Str) :
    words isCSpace (b ++ s) = words isCSpace s := by
  induction b with
  | nil => rfl
  | cons c b ih =>
    rw [List.forall_mem_cons] at h
    rw [List.cons_append, words_space h.1, ih h.2]

/-- The line ends here, or a space follows. -/
def AtEnd (t : Str) : Prop := t.head?.all isCSpace = true

theorem words_word (hw : Word w) (ht : AtEnd t) :
    words isCSpace (w ++ t) = w :: words isCSpace t := by
  cases t with
  | nil => rw [List.append_nil, words_single hw.1 hw.2]; rfl
  | cons c t => rw [words_cons hw.1 hw.2 ht, words_space ht]

/-- **The shape of a line**: spaces only, or spaces and a word before the rest. -/
theorem line_cases (s : Str) : (∀ c ∈ s, isCSpace c = true) ∨
    ∃ b w t, s = b ++ (w ++ t) ∧ (∀ c ∈ b, isCSpace c = true) ∧ Word w ∧ AtEnd t := by
  induction s with
  | nil => exact .inl (by simp)
  | cons c s ih =>
    by_cases hc : isCSpace c = true
    · obtain hs | ⟨b, w, t, rfl, hb, hw, ht⟩ := ih
      · exact .inl (List.forall_mem_cons.2 ⟨hc, hs⟩)
      · exact .inr ⟨c :: b, w, t, rfl, List.forall_mem_cons.2 ⟨hc, hb⟩, hw, ht⟩
    · rw [Bool.not_eq_true] at hc
      have hone : Word [c] := ⟨by simp, by simpa using hc⟩
      by_cases hs : AtEnd s
      · exact .inr ⟨[], [c], s, rfl, by simp, hone, hs⟩
      · -- the word goes on
        obtain hblank | ⟨b, w, t, rfl, hb, hw, ht⟩ := ih
        · refine absurd ?_ hs
          cases s with
          | nil => rfl
          | cons d s => exact hblank d List.mem_cons_self
        · cases b with
          | nil =>
            exact .inr ⟨[], c :: w, t, rfl, by simp,
            ⟨by simp, List.forall_mem_cons.2 ⟨hc, hw.2⟩⟩, ht⟩
          | cons d b => exact absurd (hb d List.mem_cons_self) hs

/-- To show something of every line, show it of spaces and of a line that begins with a word. -/
theorem line_induction {P : Str → Prop} (hblank : ∀ s, (∀ c ∈ s, isCSpace c = true) → P s)
    (hword : ∀ b w t, (∀ c ∈ b, isCSpace c = true) → Word w → AtEnd t → P t → P (b ++ (w ++ t)))
    (s : Str) : P s := by
  induction hn : s.length using Nat.strong_induction_on generalizing s with
  | _ n ih =>
    obtain hs | ⟨b, w, t, rfl, hb, hw, ht⟩ := line_cases s
    · exact hblank s hs
    · have hlt : t.length < n := by
        have := List.length_pos_iff.2 hw.1
        simp only [← hn, List.length_append]
        omega
      exact hword b w t hb hw ht (ih t.length hlt t rfl)

theorem words_of_blank (h : ∀ c ∈ s, isCSpace c = true) : words isCSpace s = [] := by
  rw [← List.append_nil s, words_blank h]
  rfl

theorem words_line (hb : ∀ c ∈ b, isCSpace c = true) (hw : Word w) (ht : AtEnd t) :
    words isCSpace (b ++ (w ++ t)) = w :: words isCSpace t := by
  rw [words_blank hb, words_word hw ht]

theorem word_of_mem (h : w ∈ words isCSpace s) : Word w := by
  induction s using line_induction with
  | hblank s hs => simp [words_of_blank hs] at h
  | hword b v t hb hv ht ih =>
    rw [words_line hb hv ht] at h
    obtain rfl | h := List.mem_cons.1 h
    · exact hv
    · exact ih h

theorem flatten_words (s : Str) : (words isCSpace s).flatten = s.filter (!isCSpace ·) := by
  induction s using line_induction with
  | hblank s hs => rw [words_of_blank hs, List.filter_eq_nil_iff.2 (by simpa using hs)]; rfl
  | hword b w t hb hw ht ih =>
    rw [words_line hb hw ht, List.filter_append, List.filter_append,
      List.filter_eq_nil_iff.2 (by simpa using hb),
      List.filter_eq_self.2 (by simpa using hw.2), List.flatten_cons, ih, List.nil_append]

theorem words_join {ws : List Str} (h : ∀ w ∈ ws, Word w) : words isCSpace (join ws) = ws := by
  induction ws with
  | nil => rfl
  | cons w ws ih =>
    rw [List.forall_mem_cons] at h
    cases ws with
    | nil => simpa [join, List.intercalate] using words_single h.1.1 h.1.2
    | cons v ws => rw [join_cons_cons, words_cons h.1.1 h.1.2 rfl, ih h.2]

theorem getLast?_join {ws : List Str} (h : ∀ w ∈ ws, Word w) : (join ws).getLast? ≠ some ' ' := by
  induction ws with
  | nil => exact Option.some_ne_none ' ' |>.symm
  | cons w ws ih =>
    rw [List.forall_mem_cons] at h
    cases ws with
    | nil =>
      intro hlast
      have hmem : ' ' ∈ w := by simpa [join, List.intercalate] using List.mem_of_getLast? hlast
      exact absurd (h.1.2 ' ' hmem) (by decide)
    | cons v ws =>
      have hne : join (v :: ws) ≠ [] := fun h0 => by
        have hwords := words_join h.2
        rw [h0] at hwords
        cases hwords
      rw [join_cons_cons, List.getLast?_append_of_ne_nil _ (by simp),
        List.getLast?_cons_of_ne_nil hne]
      exact ih h.2

/-! ## What the lines become -/

theorem word_latin (h : Word w) : Word (latin w) := by
  refine ⟨?_, fun c hc => ?_⟩
  · exact List.length_pos_iff.1 ((List.length_pos_iff.2 h.1).trans_le length_latin.1)
  · simp only [latin, utf8, List.mem_map, List.mem_flatMap] at hc
    obtain ⟨b, ⟨d, hd, hb⟩, rfl⟩ := hc
    obtain ⟨b0, bs, hbs, -, hspace⟩ := encode_word (h.2 d hd)
    exact hspace b (hbs ▸ hb)

theorem words_latin (s : Str) : ∀ w ∈ (words isCSpace s).map latin, Word w := by
  intro w hw
  obtain ⟨v, hv, rfl⟩ := List.mem_map.1 hw
  exact word_latin (word_of_mem hv)

theorem normalizeBytes_blank (hb : ∀ c ∈ b, isCSpace c = true) (s : Str) :
    normalizeBytes (utf8 (b ++ s)) true false = normalizeBytes (utf8 s) true false := by
  induction b with
  | nil => rfl
  | cons c b ih =>
    rw [List.forall_mem_cons] at hb
    rw [List.cons_append, utf8_cons, normalizeBytes_space hb.1, ih hb.2]
    rfl

/-- The words, with a space behind the last one if the line goes on. -/
theorem normalizeBytes_line (s : Str) : ∃ t, (t = [] ∨ t = [' '] ∧ words isCSpace s ≠ []) ∧
    normalizeBytes (utf8 s) true false = join ((words isCSpace s).map latin) ++ t := by
  induction s using line_induction with
  | hblank s hs =>
    refine ⟨[], .inl rfl, ?_⟩
    rw [words_of_blank hs, ← List.append_nil s, normalizeBytes_blank hs]
    rfl
  | hword b w t hb hw ht ih =>
    obtain ⟨u, hu, ih⟩ := ih
    have hline : normalizeBytes (utf8 (b ++ (w ++ t))) true false = latin w ++
        normalizeBytes (utf8 t) false false := by
      obtain ⟨c, w', rfl⟩ := List.exists_cons_of_ne_nil hw.1
      have hw' := List.forall_mem_cons.1 hw.2
      rw [normalizeBytes_blank hb, List.cons_append, utf8_cons, normalizeBytes_char hw'.1 _ _ _ rfl,
        normalizeBytes_rest hw'.2, ← List.append_assoc]
      simp [latin]
    rw [hline, words_line hb hw ht, List.map_cons]
    cases t with
    | nil => exact ⟨[], .inl rfl, by simp [words, join, List.intercalate, normalizeBytes]⟩
    | cons c t =>
      have hspace : normalizeBytes (utf8 (c :: t)) false false = ' ' ::
          normalizeBytes (utf8 (c :: t)) true false := by
        rw [utf8_cons, normalizeBytes_space ht, normalizeBytes_space ht]
        rfl
      rw [hspace, ih]
      cases hws : words isCSpace (c :: t) with
      | nil => exact ⟨[' '], .inr ⟨rfl, by simp⟩, by simp_all [join, List.intercalate]⟩
      | cons v ws =>
        refine ⟨u, hu.imp_right fun h => ⟨h.1, by simp⟩, ?_⟩
        rw [List.map_cons, join_cons_cons, List.append_assoc, List.cons_append]

/-- **The result for every line.** -/
theorem normalizeLine_eq (line : Str) :
    normalizeLine line = if Commented line then [] else join ((words isCSpace line).map latin) := by
  rw [normalizeLine, normalizeBytes_first]
  by_cases hc : Commented line
  · rw [if_pos hc, if_pos hc]
    rfl
  · obtain ⟨t, ht, hout⟩ := normalizeBytes_line line
    have hlast := getLast?_join (words_latin line)
    rw [if_neg hc, if_neg hc, hout]
    obtain rfl | ⟨rfl, -⟩ := ht
    · rw [List.append_nil, if_neg hlast]
    · rw [List.getLast?_concat, if_pos rfl, List.dropLast_concat]

/-! ## Which lines are kept -/

theorem dropWhile_line (hb : ∀ c ∈ b, isCSpace c = true) (hw : Word w) (t : Str) :
    (b ++ (w ++ t)).dropWhile isCSpace = w ++ t := by
  obtain ⟨c, w, rfl⟩ := List.exists_cons_of_ne_nil hw.1
  rw [List.dropWhile_append_of_pos hb, List.cons_append, List.dropWhile_cons_of_neg
    (by simp [hw.2 c List.mem_cons_self])]

theorem commented_iff (s : Str) : Commented s ↔ (words isCSpace s).head?.any
    (·.head?.any isComment) = true := by
  obtain hs | ⟨b, w, t, rfl, hb, hw, ht⟩ := line_cases s
  · rw [words_of_blank hs, Commented, List.dropWhile_eq_nil_iff.2 hs]
    rfl
  · obtain ⟨c, w', rfl⟩ := List.exists_cons_of_ne_nil hw.1
    rw [words_line hb hw ht, Commented, dropWhile_line hb hw]
    rfl

/-- A split depends on the words only. -/
theorem splitWord_words (s : Str) : (splitWord s).1 = (words isCSpace s).headD [] ∧
    words isCSpace (splitWord s).2 = (words isCSpace s).tail := by
  obtain hs | ⟨b, w, t, rfl, hb, hw, ht⟩ := line_cases s
  · rw [words_of_blank hs, splitWord, List.dropWhile_eq_nil_iff.2 hs]
    exact ⟨rfl, rfl⟩
  · have hw' : ∀ c ∈ w, (!isCSpace c) = true := by simpa using hw.2
    have ht' : t.takeWhile (!isCSpace ·) = [] ∧ t.dropWhile (!isCSpace ·) = t := by
      cases t with
      | nil => exact ⟨rfl, rfl⟩
      | cons c t => simp [show isCSpace c = true from ht]
    have hblank : ∀ c ∈ t.takeWhile isCSpace, isCSpace c = true :=
      List.all_eq_true.1 List.all_takeWhile
    rw [words_line hb hw ht, splitWord, dropWhile_line hb hw]
    dsimp only
    rw [List.takeWhile_append_of_pos hw', List.dropWhile_append_of_pos hw', ht'.1, ht'.2,
      List.append_nil]
    refine ⟨rfl, ?_⟩
    rw [List.tail_cons, ← words_blank hblank, List.takeWhile_append_dropWhile]

theorem parseKey_congr (h : words isCSpace s = words isCSpace t) : parseKey s = parseKey t := by
  have hsplit : ∀ {s t : Str}, words isCSpace s = words isCSpace t →
      (splitWord s).1 = (splitWord t).1 ∧
      words isCSpace (splitWord s).2 = words isCSpace (splitWord t).2 := by
    intro s t h
    obtain ⟨hs1, hs2⟩ := splitWord_words s
    obtain ⟨ht1, ht2⟩ := splitWord_words t
    exact ⟨by rw [hs1, ht1, h], by rw [hs2, ht2, h]⟩
  have h1 := hsplit h
  have h2 := hsplit h1.2
  have h3 := hsplit h2.2
  have h4 := hsplit h3.2
  simp only [parseKey, h1.1, h2.1, h3.1, h4.1]

/-- Nothing is left of a comment, and of any other line its words with single spaces between them;
to normalise twice is to normalise once; and a key line is read with the id, type and key that stand
in it. -/
structure Kept (line : Str) : Prop where
  words : normalizeLine line = if Commented line then [] else join (words isCSpace line)
  idempotent : normalizeLine (normalizeLine line) = normalizeLine line
  key : ¬ Commented line → parseKey (normalizeLine line) = parseKey line

/-- **Which lines are kept**: comments, and lines of ASCII characters. -/
theorem normalizeLine_iff (line : Str) : Kept line ↔ Commented line ∨
    ∀ c ∈ line, c.toNat < 128 := by
  have hwords : ∀ w ∈ words isCSpace line, Word w := fun w hw => word_of_mem hw
  constructor
  · intro h
    by_cases hc : Commented line
    · exact .inl hc
    · -- the words of both sides agree one by one
      have heq := h.words
      rw [normalizeLine_eq, if_neg hc, if_neg hc] at heq
      have hmap : (words isCSpace line).map latin = words isCSpace line := by
        rw [← words_join (words_latin line), heq, words_join hwords]
      refine .inr fun c hmem => Nat.lt_of_not_le fun hge => ?_
      have hspace : isCSpace c = false :=
        Bool.eq_false_iff.2 fun hs => absurd (isCSpace_ascii hs) (Nat.not_lt.2 hge)
      have hin : c ∈ (words isCSpace line).flatten := by
        rw [flatten_words, List.mem_filter]
        exact ⟨hmem, by simp [hspace]⟩
      obtain ⟨w, hw, hcw⟩ := List.mem_flatten.1 hin
      have hsame : latin w = w :=
        List.map_inj_left (g := id).1 (hmap.trans (List.map_id _).symm) w hw
      exact absurd (congrArg List.length hsame) (length_latin.2 ⟨c, hcw, hge⟩).ne'
  · intro h
    by_cases hc : Commented line
    · have hnil : normalizeLine line = [] := by rw [normalizeLine_eq, if_pos hc]
      exact ⟨by rw [hnil, if_pos hc], by rw [hnil]; rfl, fun hn => absurd hc hn⟩
    · have hascii := h.resolve_left hc
      have hmap : (words isCSpace line).map latin = words isCSpace line := by
        refine (List.map_congr_left fun w hw => latin_ascii fun c hcw => hascii c ?_).trans
          (List.map_id _)
        have hin := List.mem_flatten.2 ⟨w, hw, hcw⟩
        rw [flatten_words] at hin
        exact (List.mem_filter.1 hin).1
      have heq : normalizeLine line = join (words isCSpace
          line) := by rw [normalizeLine_eq, if_neg hc, hmap]
      have hsame : words isCSpace (normalizeLine line) =
          words isCSpace line := by rw [heq, words_join hwords]
      refine ⟨by rw [heq, if_neg hc], ?_, fun _ => parseKey_congr hsame⟩
      have hc' : ¬ Commented (normalizeLine line) := by rwa [commented_iff, hsame, ← commented_iff]
      rw [normalizeLine_eq (normalizeLine line), if_neg hc', hsame, hmap, heq]

open L2 in
/-- **A key of one character that is not ASCII.** The file has the bytes `c3 a9` behind the type. -/
theorem umlaut_key_changed : ¬ Commented "1 MD5 é".toList ∧ utf8 "é".toList = [0xc3, 0xa9] ∧
    (((KeyRing.empty (⟨⟩ : InternalMd5Backend)).reload
      (some "1 MD5 é\n".toList)).toOption.map fun s =>
      s.entries.map fun k => k.mac) = some [.ntpMac [0xc3, 0x83, 0xc2, 0xa9] 0] := by
  decide +kernel

end ChronyRs.Bugs.LatinWords
