/-
  IssueTracker/Proofs/Text/Utf8.lean --- what is written as UTF-8 reads back.

  `next_encodeChar` says that the bytes of a character are read as this character, whatever
  comes behind them; `decode_encode` follows for whole texts.  The other way round, what reads as a
  character was written for it (`next_eq_some`), so that a text has one spelling in bytes
  (`decode?_eq_some_iff`).  A byte below 80 is written for its own character and for no other, so
  that such a character can be looked for, or left out, among the bytes.
-/
import IssueTracker.Text.Utf8

set_option autoImplicit false

namespace IssueTracker.Text.Utf8

/-! ## Bytes -/

theorem toNat_toUInt8 {n : Nat} (hn : n < 256) : n.toUInt8.toNat = n :=
  UInt8.toNat_ofNat_of_lt' hn

theorem payload_continuation {k : Nat} (hk : k < 64) : payload (0x80 + k).toUInt8 = k := by
  rw [payload, toNat_toUInt8 (by omega)]
  omega

theorem isContinuation_continuation {k : Nat} (hk : k < 64) :
    isContinuation (0x80 + k).toUInt8 = true := by
  rw [isContinuation, toNat_toUInt8 (by omega)]
  simp only [Bool.and_eq_true, decide_eq_true_eq]
  omega

/-- A continuation byte adds its six bits. -/
theorem takeContinuations_continuation {k : Nat} (hk : k < 64) (more acc : Nat)
    (bs : List UInt8) :
    takeContinuations (more + 1) acc ((0x80 + k).toUInt8 :: bs) =
      takeContinuations more (acc * 64 + k) bs := by
  rw [takeContinuations, if_pos (isContinuation_continuation hk), payload_continuation hk]

/-- A lead byte and a second byte in its range start a character. -/
theorem next_of_lead {n k bits more low high : Nat} (hn : 0x80 ≤ n) (hbyte : n < 256)
    (hlead : lead? n = some ⟨bits, more, low, high⟩) (hk : k < 64) (hlow : low ≤ 0x80 + k)
    (hhigh : 0x80 + k ≤ high) (bs : List UInt8) :
    next n.toUInt8 ((0x80 + k).toUInt8 :: bs) = takeContinuations more (bits * 64 + k) bs := by
  have hsecond : (0x80 + k).toUInt8.toNat = 0x80 + k := toNat_toUInt8 (by omega)
  unfold next
  rw [toNat_toUInt8 hbyte, if_neg (Nat.not_lt_of_le hn), hlead]
  simp only [hsecond]
  rw [if_pos ⟨hlow, hhigh⟩, payload_continuation hk]

/-- A byte below 80 is a character. -/
theorem next_of_lt {n : Nat} (hn : n < 0x80) (bs : List UInt8) :
    next n.toUInt8 bs = (some (Char.ofNat n), bs) := by
  unfold next
  rw [toNat_toUInt8 (by omega), if_pos hn]

theorem lead?_of_two {n : Nat} (hlow : 0xC2 ≤ n) (hhigh : n ≤ 0xDF) :
    lead? n = some ⟨n % 32, 0, 0x80, 0xBF⟩ :=
  if_pos ⟨hlow, hhigh⟩

theorem lead?_of_three {n : Nat} (hlow : 0xE0 ≤ n) (hhigh : n ≤ 0xEF) :
    lead? n =
      some ⟨n % 16, 1, if n = 0xE0 then 0xA0 else 0x80, if n = 0xED then 0x9F else 0xBF⟩ := by
  rw [lead?, if_neg (by omega), if_pos ⟨hlow, hhigh⟩]

theorem lead?_of_four {n : Nat} (hlow : 0xF0 ≤ n) (hhigh : n ≤ 0xF4) :
    lead? n =
      some ⟨n % 8, 2, if n = 0xF0 then 0x90 else 0x80, if n = 0xF4 then 0x8F else 0xBF⟩ := by
  rw [lead?, if_neg (by omega), if_neg (by omega), if_pos ⟨hlow, hhigh⟩]

/-! ## Characters -/

/-- The code point of a character is no surrogate, and not too large. -/
theorem toNat_valid (c : Char) : c.toNat < 0xD800 ∨ 0xDFFF < c.toNat ∧ c.toNat < 0x110000 :=
  c.valid

/-- The bytes of a character are read as this character. -/
theorem next_encodeChar (c : Char) (bs : List UInt8) :
    ∃ b rest, encodeChar c = b :: rest ∧ next b (rest ++ bs) = (some c, bs) := by
  have hvalid := toNat_valid c
  have hchar : Char.ofNat c.toNat = c := Char.ofNat_toNat c
  rw [encodeChar]
  generalize c.toNat = n at hvalid hchar ⊢
  by_cases hone : n < 0x80
  · refine ⟨_, _, if_pos hone, ?_⟩
    rw [List.nil_append, next_of_lt hone, hchar]
  by_cases htwo : n < 0x800
  · refine ⟨_, _, (if_neg hone).trans (if_pos htwo), ?_⟩
    have hlead := lead?_of_two (n := 0xC0 + n / 64) (by omega) (by omega)
    rw [List.cons_append, next_of_lead (by omega) (by omega) hlead (by omega) (by omega) (by omega)]
    simp only [takeContinuations, List.nil_append]
    have hall : (0xC0 + n / 64) % 32 * 64 + n % 64 = n := by omega
    rw [hall, hchar]
  by_cases hthree : n < 0x10000
  · refine ⟨_, _, (if_neg hone).trans ((if_neg htwo).trans (if_pos hthree)), ?_⟩
    have hlead := lead?_of_three (n := 0xE0 + n / 4096) (by omega) (by omega)
    have hlow : (if 0xE0 + n / 4096 = 0xE0 then 0xA0 else 0x80) ≤ 0x80 + n / 64 % 64 := by
      split <;> omega
    have hhigh : 0x80 + n / 64 % 64 ≤ if 0xE0 + n / 4096 = 0xED then 0x9F else 0xBF := by
      split <;> omega
    rw [List.cons_append, List.cons_append,
      next_of_lead (by omega) (by omega) hlead (by omega) hlow hhigh]
    rw [takeContinuations_continuation (by omega)]
    simp only [takeContinuations, List.nil_append]
    have hall : ((0xE0 + n / 4096) % 16 * 64 + n / 64 % 64) * 64 + n % 64 = n := by omega
    rw [hall, hchar]
  · refine ⟨_, _, (if_neg hone).trans ((if_neg htwo).trans (if_neg hthree)), ?_⟩
    have hlead := lead?_of_four (n := 0xF0 + n / 262144) (by omega) (by omega)
    have hlow : (if 0xF0 + n / 262144 = 0xF0 then 0x90 else 0x80) ≤ 0x80 + n / 4096 % 64 := by
      split <;> omega
    have hhigh : 0x80 + n / 4096 % 64 ≤ if 0xF0 + n / 262144 = 0xF4 then 0x8F else 0xBF := by
      split <;> omega
    rw [List.cons_append, List.cons_append, List.cons_append,
      next_of_lead (by omega) (by omega) hlead (by omega) hlow hhigh]
    rw [takeContinuations_continuation (by omega), takeContinuations_continuation (by omega)]
    simp only [takeContinuations, List.nil_append]
    have hall : (((0xF0 + n / 262144) % 8 * 64 + n / 4096 % 64) * 64 + n / 64 % 64) * 64 + n % 64 =
        n := by omega
    rw [hall, hchar]

theorem encode_cons (c : Char) (cs : List Char) : encode (c :: cs) = encodeChar c ++ encode cs := by
  rw [encode, List.flatMap_cons]
  rfl

/-- What was written reads back. -/
theorem decode_encode (cs : List Char) : decode (encode cs) = cs := by
  induction cs with
  | nil => rw [encode, List.flatMap_nil, decode]
  | cons c cs ih =>
      obtain ⟨b, rest, hbytes, hnext⟩ := next_encodeChar c (encode cs)
      rw [encode_cons, hbytes, List.cons_append, decode, hnext, ih]
      rfl

/-! ## What reads was written -/

theorem toUInt8_toNat (b : UInt8) : b.toNat.toUInt8 = b := UInt8.ofNat_toNat

/-- A continuation byte is the one of its six bits. -/
theorem eq_continuation {b : UInt8} (h : isContinuation b = true) :
    payload b < 64 ∧ b = (0x80 + payload b).toUInt8 := by
  simp only [isContinuation, Bool.and_eq_true, decide_eq_true_eq] at h
  have hbits : payload b < 64 := Nat.mod_lt _ (by decide)
  have hall : 0x80 + payload b = b.toNat := by
    rw [payload]
    omega
  exact ⟨hbits, by rw [hall, toUInt8_toNat]⟩

/-- Further bytes of a character that reads are continuation bytes. -/
theorem takeContinuations_succ_eq_some {more acc : Nat} {bs rest : List UInt8} {c : Char}
    (h : takeContinuations (more + 1) acc bs = (some c, rest)) :
    ∃ k tail, k < 64 ∧ bs = (0x80 + k).toUInt8 :: tail ∧
      takeContinuations more (acc * 64 + k) tail = (some c, rest) := by
  cases bs with
  | nil => simp [takeContinuations] at h
  | cons b tail =>
      rw [takeContinuations] at h
      split at h
      · next hb =>
        obtain ⟨hbits, heq⟩ := eq_continuation hb
        exact ⟨payload b, tail, hbits, congrArg (· :: tail) heq, h⟩
      · simp at h

theorem takeContinuations_zero_eq_some {acc : Nat} {bs rest : List UInt8} {c : Char}
    (h : takeContinuations 0 acc bs = (some c, rest)) : Char.ofNat acc = c ∧ bs = rest := by
  simpa [takeContinuations] using h

/-- A number that is no surrogate, and not too large, is the code point of its character. -/
theorem toNat_ofNat_of_valid {n : Nat} (h : n < 0xD800 ∨ 0xDFFF < n ∧ n < 0x110000) :
    (Char.ofNat n).toNat = n := by
  rw [Char.ofNat, dif_pos (show n.isValidChar from h)]
  rfl

theorem encodeChar_of_two {m k : Nat} (hlow : 0xC2 ≤ m) (hhigh : m ≤ 0xDF) (hk : k < 64) :
    encodeChar (Char.ofNat (m % 32 * 64 + k)) = [m.toUInt8, (0x80 + k).toUInt8] := by
  rw [encodeChar, toNat_ofNat_of_valid (by omega)]
  have hlead : 0xC0 + (m % 32 * 64 + k) / 64 = m := by omega
  have hlast : (m % 32 * 64 + k) % 64 = k := by omega
  simp only [hlead, hlast]
  rw [if_neg (by omega), if_pos (by omega)]

theorem encodeChar_of_three {m k l : Nat} (hlow : 0xE0 ≤ m) (hhigh : m ≤ 0xEF) (hk : k < 64)
    (hl : l < 64) (hleast : (if m = 0xE0 then 0xA0 else 0x80) ≤ 0x80 + k)
    (hgreatest : 0x80 + k ≤ if m = 0xED then 0x9F else 0xBF) :
    encodeChar (Char.ofNat ((m % 16 * 64 + k) * 64 + l)) =
      [m.toUInt8, (0x80 + k).toUInt8, (0x80 + l).toUInt8] := by
  have hlong : m = 0xE0 → 0x20 ≤ k := by split at hleast <;> omega
  have hplain : m = 0xED → k < 0x20 := by split at hgreatest <;> omega
  rw [encodeChar, toNat_ofNat_of_valid (by omega)]
  have hlead : 0xE0 + ((m % 16 * 64 + k) * 64 + l) / 4096 = m := by omega
  have hsecond : ((m % 16 * 64 + k) * 64 + l) / 64 % 64 = k := by omega
  have hlast : ((m % 16 * 64 + k) * 64 + l) % 64 = l := by omega
  simp only [hlead, hsecond, hlast]
  rw [if_neg (by omega), if_neg (by omega), if_pos (by omega)]

theorem encodeChar_of_four {m k l o : Nat} (hlow : 0xF0 ≤ m) (hhigh : m ≤ 0xF4) (hk : k < 64)
    (hl : l < 64) (ho : o < 64) (hleast : (if m = 0xF0 then 0x90 else 0x80) ≤ 0x80 + k)
    (hgreatest : 0x80 + k ≤ if m = 0xF4 then 0x8F else 0xBF) :
    encodeChar (Char.ofNat (((m % 8 * 64 + k) * 64 + l) * 64 + o)) =
      [m.toUInt8, (0x80 + k).toUInt8, (0x80 + l).toUInt8, (0x80 + o).toUInt8] := by
  have hlong : m = 0xF0 → 0x10 ≤ k := by split at hleast <;> omega
  have hsmall : m = 0xF4 → k < 0x10 := by split at hgreatest <;> omega
  rw [encodeChar, toNat_ofNat_of_valid (by omega)]
  have hlead : 0xF0 + (((m % 8 * 64 + k) * 64 + l) * 64 + o) / 262144 = m := by omega
  have hsecond : (((m % 8 * 64 + k) * 64 + l) * 64 + o) / 4096 % 64 = k := by omega
  have hthird : (((m % 8 * 64 + k) * 64 + l) * 64 + o) / 64 % 64 = l := by omega
  have hlast : (((m % 8 * 64 + k) * 64 + l) * 64 + o) % 64 = o := by omega
  simp only [hlead, hsecond, hthird, hlast]
  rw [if_neg (by omega), if_neg (by omega), if_neg (by omega)]

theorem lead?_eq_some {n : Nat} {l : Lead} (h : lead? n = some l) :
    (0xC2 ≤ n ∧ n ≤ 0xDF ∧ l = ⟨n % 32, 0, 0x80, 0xBF⟩) ∨
      (0xE0 ≤ n ∧ n ≤ 0xEF ∧
        l = ⟨n % 16, 1, if n = 0xE0 then 0xA0 else 0x80, if n = 0xED then 0x9F else 0xBF⟩) ∨
      (0xF0 ≤ n ∧ n ≤ 0xF4 ∧
        l = ⟨n % 8, 2, if n = 0xF0 then 0x90 else 0x80, if n = 0xF4 then 0x8F else 0xBF⟩) := by
  unfold lead? at h
  split at h
  · next hn => exact Or.inl ⟨hn.1, hn.2, (Option.some.inj h).symm⟩
  · split at h
    · next hn => exact Or.inr (Or.inl ⟨hn.1, hn.2, (Option.some.inj h).symm⟩)
    · split at h
      · next hn => exact Or.inr (Or.inr ⟨hn.1, hn.2, (Option.some.inj h).symm⟩)
      · cases h

/-- The second byte of a character is a continuation byte. -/
theorem range_of_lead? {n : Nat} {l : Lead} (h : lead? n = some l) :
    0x80 ≤ l.low ∧ l.high ≤ 0xBF := by
  rcases lead?_eq_some h with ⟨-, -, rfl⟩ | ⟨-, -, rfl⟩ | ⟨-, -, rfl⟩
  · exact ⟨Nat.le_refl _, Nat.le_refl _⟩
  · constructor <;> dsimp only <;> split <;> omega
  · constructor <;> dsimp only <;> split <;> omega

/-- What reads behind a lead byte is a second byte in its range, and what continues it. -/
theorem next_of_ge {b : UInt8} {bs rest : List UInt8} {c : Char} (hb : 0x80 ≤ b.toNat)
    (h : next b bs = (some c, rest)) :
    ∃ l second tail, lead? b.toNat = some l ∧ bs = second :: tail ∧
      (l.low ≤ second.toNat ∧ second.toNat ≤ l.high) ∧
      takeContinuations l.more (l.bits * 64 + payload second) tail = (some c, rest) := by
  unfold next at h
  rw [if_neg (Nat.not_lt_of_le hb)] at h
  split at h
  · next l second tail hlead =>
    split at h
    · next hrange => exact ⟨l, second, tail, hlead, rfl, hrange, h⟩
    · simp at h
  · simp at h

/-- What reads as a character is written for it. -/
theorem next_eq_some {b : UInt8} {bs rest : List UInt8} {c : Char}
    (h : next b bs = (some c, rest)) : b :: bs = encodeChar c ++ rest := by
  by_cases hone : b.toNat < 0x80
  · unfold next at h
    rw [if_pos hone] at h
    obtain ⟨rfl, rfl⟩ : Char.ofNat b.toNat = c ∧ bs = rest := by simpa using h
    rw [encodeChar, toNat_ofNat_of_valid (by omega), if_pos hone, toUInt8_toNat]
    rfl
  obtain ⟨l, second, tail, hlead, rfl, ⟨hlow, hhigh⟩, hmore⟩ := next_of_ge (Nat.le_of_not_lt hone) h
  have hrange := range_of_lead? hlead
  obtain ⟨hk, hsecond⟩ := eq_continuation (b := second) (by
    simp only [isContinuation, Bool.and_eq_true, decide_eq_true_eq]
    omega)
  rw [hsecond, toNat_toUInt8 (by omega)] at hlow hhigh
  generalize payload second = k at hk hsecond hlow hhigh hmore
  subst hsecond
  rw [← toUInt8_toNat b]
  generalize b.toNat = m at hlead
  rcases lead?_eq_some hlead with ⟨hm, hm', rfl⟩ | ⟨hm, hm', rfl⟩ | ⟨hm, hm', rfl⟩
  · obtain ⟨rfl, rfl⟩ := takeContinuations_zero_eq_some hmore
    rw [encodeChar_of_two hm hm' hk]
    rfl
  · obtain ⟨k₁, tail, hk₁, rfl, hread⟩ := takeContinuations_succ_eq_some hmore
    obtain ⟨rfl, rfl⟩ := takeContinuations_zero_eq_some hread
    rw [encodeChar_of_three hm hm' hk hk₁ hlow hhigh]
    rfl
  · obtain ⟨k₁, tail, hk₁, rfl, hread₁⟩ := takeContinuations_succ_eq_some hmore
    obtain ⟨k₂, tail, hk₂, rfl, hread₂⟩ := takeContinuations_succ_eq_some hread₁
    obtain ⟨rfl, rfl⟩ := takeContinuations_zero_eq_some hread₂
    rw [encodeChar_of_four hm hm' hk hk₁ hk₂ hlow hhigh]
    rfl

/-- Bytes read as a text exactly if they are what is written for it. -/
theorem decode?_eq_some_iff {bs : List UInt8} {cs : List Char} :
    decode? bs = some cs ↔ encode cs = bs := by
  constructor
  · intro h
    induction bs using decode?.induct generalizing cs with
    | case1 =>
        rw [decode?, Option.some.injEq] at h
        rw [← h]
        rfl
    | case2 b bs d ds hds hd ih =>
        rw [decode?, hd, hds] at h
        obtain rfl := Option.some.inj h
        rw [encode_cons, ih hds]
        exact (next_eq_some (Prod.ext hd rfl)).symm
    | case3 b bs hnone ih =>
        rw [decode?] at h
        split at h
        · next d ds hd hds => exact absurd hds (hnone d ds hd)
        · cases h
  · rintro rfl
    induction cs with
    | nil => rw [encode, List.flatMap_nil, decode?]
    | cons c cs ih =>
        obtain ⟨b, rest, hbytes, hnext⟩ := next_encodeChar c (encode cs)
        rw [encode_cons, hbytes, List.cons_append, decode?, hnext, ih]

/-! ## Bytes below 80 -/

theorem encode_ne_nil {cs : List Char} (h : cs ≠ []) : encode cs ≠ [] := by
  intro hempty
  have hread := decode_encode cs
  rw [hempty, decode] at hread
  exact h hread.symm

/-- The bytes of a character are one below 80, or all are from 80 on. -/
theorem encodeChar_cases (c : Char) :
    c.toNat < 0x80 ∧ encodeChar c = [c.toNat.toUInt8] ∨
      0x80 ≤ c.toNat ∧ ∀ b ∈ encodeChar c, 0x80 ≤ b.toNat := by
  have hvalid := toNat_valid c
  rw [encodeChar]
  generalize c.toNat = n at hvalid ⊢
  by_cases hone : n < 0x80
  · exact Or.inl ⟨hone, if_pos hone⟩
  · refine Or.inr ⟨Nat.le_of_not_lt hone, ?_⟩
    intro b hb
    simp only [if_neg hone] at hb
    split at hb
    · simp only [List.mem_cons, List.not_mem_nil, or_false] at hb
      rcases hb with rfl | rfl <;> rw [toNat_toUInt8 (by omega)] <;> omega
    · split at hb
      · simp only [List.mem_cons, List.not_mem_nil, or_false] at hb
        rcases hb with rfl | rfl | rfl <;> rw [toNat_toUInt8 (by omega)] <;> omega
      · simp only [List.mem_cons, List.not_mem_nil, or_false] at hb
        rcases hb with rfl | rfl | rfl | rfl <;> rw [toNat_toUInt8 (by omega)] <;> omega

/-- The byte of an ASCII character is written for this character and for no other. -/
theorem filter_encodeChar {d : Char} (hd : d.toNat < 0x80) (c : Char) :
    (encodeChar c).filter (· != d.toNat.toUInt8) = if c = d then [] else encodeChar c := by
  have hbyte : d.toNat.toUInt8.toNat = d.toNat := toNat_toUInt8 (by omega)
  rcases encodeChar_cases c with ⟨hc, hone⟩ | ⟨hc, hmore⟩
  · rw [hone]
    by_cases heq : c = d
    · rw [heq, if_pos rfl]
      simp
    · have hne : c.toNat.toUInt8 ≠ d.toNat.toUInt8 := by
        intro hsame
        have hcode := congrArg UInt8.toNat hsame
        rw [hbyte, toNat_toUInt8 (by omega)] at hcode
        exact heq (Char.toNat_inj.1 hcode)
      rw [if_neg heq]
      simp [hne]
  · have hne : c ≠ d := by
      rintro rfl
      omega
    rw [if_neg hne, List.filter_eq_self]
    intro b hb
    have hge := hmore b hb
    have hdiff : b ≠ d.toNat.toUInt8 := by
      rintro rfl
      omega
    simpa using hdiff

/-- To leave out the byte of an ASCII character is to leave out the character. -/
theorem filter_encode {d : Char} (hd : d.toNat < 0x80) (cs : List Char) :
    (encode cs).filter (· != d.toNat.toUInt8) = encode (cs.filter (· ≠ d)) := by
  induction cs with
  | nil => rfl
  | cons c cs ih =>
      rw [encode_cons, List.filter_append, filter_encodeChar hd, ih]
      by_cases heq : c = d
      · rw [if_pos heq, List.nil_append, List.filter_cons_of_neg (by simpa using heq)]
      · rw [if_neg heq, List.filter_cons_of_pos (by simpa using heq), encode_cons]

/-- The byte of an ASCII character is not written if the character is not. -/
theorem not_mem_encode {d : Char} (hd : d.toNat < 0x80) {cs : List Char} (hcs : d ∉ cs) :
    d.toNat.toUInt8 ∉ encode cs := by
  have hkeep : cs.filter (· ≠ d) = cs := by
    apply List.filter_eq_self.2
    intro c hc
    have hne : c ≠ d := fun heq => hcs (heq ▸ hc)
    simpa using hne
  have hfilter := filter_encode hd cs
  rw [hkeep, List.filter_eq_self] at hfilter
  intro hmem
  simpa using hfilter _ hmem

end IssueTracker.Text.Utf8
