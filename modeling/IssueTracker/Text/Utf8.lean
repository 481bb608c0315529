/-
  IssueTracker/Text/Utf8.lean --- UTF-8 on lists of bytes.

  `encode` writes characters as bytes.  Reading goes character by character:
  `next` takes the character at the front, or, where the bytes are no character,
  the longest front part that some character could have started with.  `decode`
  puts one U+FFFD in the place of each such part, `decode?` refuses.

  The first continuation byte has a narrower range after the lead bytes E0, ED,
  F0 and F4; that keeps out overlong forms, surrogates and code points past
  10FFFF.
-/
set_option autoImplicit false

namespace IssueTracker.Text.Utf8

/-- The bytes of one character. -/
def encodeChar (c : Char) : List UInt8 :=
  let n := c.toNat
  if n < 0x80 then [n.toUInt8]
  else if n < 0x800 then [(0xC0 + n / 64).toUInt8, (0x80 + n % 64).toUInt8]
  else if n < 0x10000 then
    [(0xE0 + n / 4096).toUInt8, (0x80 + n / 64 % 64).toUInt8, (0x80 + n % 64).toUInt8]
  else
    [(0xF0 + n / 262144).toUInt8, (0x80 + n / 4096 % 64).toUInt8,
      (0x80 + n / 64 % 64).toUInt8, (0x80 + n % 64).toUInt8]

/-- The bytes of a list of characters. -/
def encode (cs : List Char) : List UInt8 := cs.flatMap encodeChar

/-- The bytes of a text. -/
def bytes (s : String) : List UInt8 := encode s.toList

/-- The character that stands for bytes that are none. -/
def replacement : Char := '\uFFFD'

/-- Is the byte a continuation byte? -/
def isContinuation (b : UInt8) : Bool := 0x80 ≤ b.toNat && b.toNat ≤ 0xBF

/-- The six bits that a continuation byte carries. -/
def payload (b : UInt8) : Nat := b.toNat % 64

/-- What a lead byte past ASCII announces. -/
structure Lead where
  /-- The bits of the code point in the lead byte. -/
  bits : Nat
  /-- The continuation bytes behind the second byte. -/
  more : Nat
  /-- The least second byte. -/
  low : Nat
  /-- The greatest second byte. -/
  high : Nat

/-- The lead bytes of two, three and four bytes. -/
def lead? (n : Nat) : Option Lead :=
  if 0xC2 ≤ n ∧ n ≤ 0xDF then some ⟨n % 32, 0, 0x80, 0xBF⟩
  else if 0xE0 ≤ n ∧ n ≤ 0xEF then
    some ⟨n % 16, 1, if n = 0xE0 then 0xA0 else 0x80, if n = 0xED then 0x9F else 0xBF⟩
  else if 0xF0 ≤ n ∧ n ≤ 0xF4 then
    some ⟨n % 8, 2, if n = 0xF0 then 0x90 else 0x80, if n = 0xF4 then 0x8F else 0xBF⟩
  else none

/-- Takes further continuation bytes into a code point of which `acc` is known. -/
def takeContinuations : Nat → Nat → List UInt8 → Option Char × List UInt8
  | 0, acc, bs => (some (Char.ofNat acc), bs)
  | _ + 1, _, [] => (none, [])
  | n + 1, acc, b :: bs =>
      if isContinuation b then takeContinuations n (acc * 64 + payload b) bs
      else (none, b :: bs)

/-- The character that starts with the byte `b` and goes on with `bs`, or `none`
for a front part that is no character, and the bytes behind it. -/
def next (b : UInt8) (bs : List UInt8) : Option Char × List UInt8 :=
  if b.toNat < 0x80 then (some (Char.ofNat b.toNat), bs)
  else
    match lead? b.toNat, bs with
    | some l, c :: r =>
        if l.low ≤ c.toNat ∧ c.toNat ≤ l.high then
          takeContinuations l.more (l.bits * 64 + payload c) r
        else (none, c :: r)
    | _, r => (none, r)

theorem length_takeContinuations_le (n acc : Nat) (bs : List UInt8) :
    (takeContinuations n acc bs).2.length ≤ bs.length := by
  induction n generalizing acc bs with
  | zero => simp [takeContinuations]
  | succ n ih =>
      cases bs with
      | nil => simp [takeContinuations]
      | cons b bs =>
          simp only [takeContinuations]
          split
          · exact Nat.le_succ_of_le (ih _ _)
          · exact Nat.le_refl _

theorem length_next_le (b : UInt8) (bs : List UInt8) : (next b bs).2.length ≤ bs.length := by
  unfold next
  split
  · exact Nat.le_refl _
  · split
    · split
      · exact Nat.le_succ_of_le (length_takeContinuations_le _ _ _)
      · exact Nat.le_refl _
    · exact Nat.le_refl _

/-- The characters of the bytes, one U+FFFD for each front part that is none. -/
def decode : List UInt8 → List Char
  | [] => []
  | b :: bs => (next b bs).1.getD replacement :: decode (next b bs).2
termination_by bs => bs.length
decreasing_by
  have := length_next_le b bs
  simp only [List.length_cons]
  omega

/-- The characters of the bytes, if they all are characters. -/
def decode? : List UInt8 → Option (List Char)
  | [] => some []
  | b :: bs =>
      match (next b bs).1, decode? (next b bs).2 with
      | some c, some cs => some (c :: cs)
      | _, _ => none
termination_by bs => bs.length
decreasing_by
  have := length_next_le b bs
  simp only [List.length_cons]
  omega

theorem encode_append (xs ys : List Char) : encode (xs ++ ys) = encode xs ++ encode ys := by
  simp [encode]

end IssueTracker.Text.Utf8
