/-
  IssueTracker/Proofs/Json/Written.lean --- JSON that is written reads back.

  `doc` is the tree of a value, as it would be read.  `parse_render` says that the text of a value
  is read as its tree, and that nothing is left over.  It goes by the value: `value_chars`,
  `items_chars` and `members_chars` say the same of a value, of further items and of further
  members with any text behind them.

  Doubles are left out: no value that the tracker stores or publishes holds one.
-/
import IssueTracker.Json.Read
import IssueTracker.Json.Value
import Mathlib.Data.List.Basic
import Mathlib.Tactic.SplitIfs

set_option autoImplicit false

namespace IssueTracker

namespace Json

variable {c : Char} {cs rest : List Char} {n : Nat}

/-! ## Strings -/

theorem hexValue?_hexLower (h : n < 16) : hexValue? (hexLower n) = some n := by
  have hall : ∀ k < 16, hexValue? (hexLower k) = some k := by decide
  exact hall n h

theorem takeString_short {e : Char} {es : List Element} (he : shortEscape? e = some c)
    (h : takeString cs = some (es, rest)) :
    takeString ('\\' :: e :: cs) = some (.char c :: es, rest) := by
  rw [takeString]
  · simp only [he, h]
    rfl
  · rintro a b d f r rfl -
    cases he

/-- A control is written by its number. -/
theorem takeString_control {es : List Element} (hc : c.toNat < 0x20)
    (h : takeString cs = some (es, rest)) :
    takeString ('\\' :: 'u' :: '0' :: '0' :: hexLower (c.toNat / 16) :: hexLower (c.toNat % 16) :: cs) =
      some (.char c :: es, rest) := by
  have hhigh := hexValue?_hexLower (n := c.toNat / 16) (by omega)
  have hlow := hexValue?_hexLower (n := c.toNat % 16) (by omega)
  have hzero : hexValue? '0' = some 0 := rfl
  have hvalue : 0 * 4096 + 0 * 256 + c.toNat / 16 * 16 + c.toNat % 16 = c.toNat := by omega
  have hplain : elementOfUnit c.toNat = .char c := by
    rw [elementOfUnit, if_neg (by omega), Char.ofNat_toNat]
  rw [takeString]
  simp only [hzero, hhigh, hlow, h, Option.bind_eq_bind, Option.bind_some, hvalue, hplain]
  rfl

/-- A written character is read as itself. -/
theorem takeString_escape {es : List Element} (h : takeString cs = some (es, rest)) :
    takeString (escape c ++ cs) = some (.char c :: es, rest) := by
  unfold escape
  split_ifs with hc hc hc hc hc hc hc hcontrol
  · exact takeString_short (by rw [hc]; rfl) h
  · exact takeString_short (by rw [hc]; rfl) h
  · exact takeString_short (by rw [hc]; rfl) h
  · exact takeString_short (by rw [hc]; rfl) h
  · exact takeString_short (by rw [hc]; rfl) h
  · exact takeString_short (by rw [hc]; rfl) h
  · exact takeString_short (by rw [hc]; rfl) h
  · exact takeString_control hcontrol h
  · rename_i hquote hback _ _ _ _
    rw [List.singleton_append, takeString]
    · rw [if_neg (not_or.2 ⟨hcontrol, hback⟩), h]
      rfl
    · exact hquote
    · exact fun _ _ _ _ _ heq _ => hback heq
    · exact fun _ _ heq _ => hback heq

theorem quote_append (s : String) (rest : List Char) :
    quote s ++ rest = '"' :: (s.toList.flatMap escape ++ '"' :: rest) := by
  simp [quote]

theorem takeString_quote (s rest : List Char) :
    takeString (s.flatMap escape ++ '"' :: rest) = some (s.map .char, rest) := by
  induction s with
  | nil => rfl
  | cons c s ih =>
      rw [List.flatMap_cons, List.append_assoc]
      exact takeString_escape ih

theorem spelled_chars (s : String) : spelled (s.toList.map .char) = some s := by
  have hspell : ∀ cs : List Char, spell (cs.map .char) = some cs := by
    intro cs
    induction cs with
    | nil => rfl
    | cons c cs ih => simp only [List.map_cons, spell, ih, Option.map_some]
  simp only [spelled, hspell, Option.map_some, String.ofList_toList]

/-! ## Numbers -/

/-- The digits of a number. -/
def wholeDigits (n : Nat) : List Nat :=
  if n < 10 then [n] else wholeDigits (n / 10) ++ [n % 10]

theorem lt_of_mem_wholeDigits {d : Nat} (h : d ∈ wholeDigits n) : d < 10 := by
  induction n using wholeDigits.induct with
  | case1 n hn =>
      rw [wholeDigits, if_pos hn, List.mem_singleton] at h
      exact h ▸ hn
  | case2 n hn ih =>
      rw [wholeDigits, if_neg hn, List.mem_append, List.mem_singleton] at h
      rcases h with h | h
      · exact ih h
      · omega

theorem digits_eq_map (n : Nat) : Text.digits n = (wholeDigits n).map Text.digitChar := by
  induction n using wholeDigits.induct with
  | case1 n hn => rw [Text.digits, wholeDigits, if_pos hn, if_pos hn, List.map_singleton]
  | case2 n hn ih =>
      rw [Text.digits, wholeDigits, if_neg hn, if_neg hn, List.map_append, ih, List.map_singleton]

@[simp] theorem valueOfDigits_wholeDigits (n : Nat) : valueOfDigits (wholeDigits n) = n := by
  induction n using wholeDigits.induct with
  | case1 n hn => rw [wholeDigits, if_pos hn, valueOfDigits, List.foldl_cons, List.foldl_nil]; omega
  | case2 n hn ih =>
      rw [valueOfDigits] at ih
      rw [wholeDigits, if_neg hn, valueOfDigits, List.foldl_append, ih, List.foldl_cons,
        List.foldl_nil]
      omega

theorem wholeDigits_ne_nil (n : Nat) : wholeDigits n ≠ [] := by
  unfold wholeDigits
  split <;> simp

/-- Only zero starts with a zero. -/
theorem eq_nil_of_wholeDigits {ds : List Nat} (h : wholeDigits n = 0 :: ds) : ds = [] := by
  induction n using wholeDigits.induct generalizing ds with
  | case1 n hn =>
      rw [wholeDigits, if_pos hn, List.cons.injEq] at h
      exact h.2.symm
  | case2 n hn ih =>
      rw [wholeDigits, if_neg hn] at h
      cases hfront : wholeDigits (n / 10) with
      | nil => exact absurd hfront (wholeDigits_ne_nil _)
      | cons d front =>
          rw [hfront, List.cons_append, List.cons.injEq] at h
          obtain ⟨rfl, -⟩ := h
          have hvalue := valueOfDigits_wholeDigits (n / 10)
          rw [hfront, ih hfront, valueOfDigits, List.foldl_cons, List.foldl_nil] at hvalue
          omega

/-- May the character go on with a whole number? -/
def continuesNumber (c : Char) : Bool :=
  Text.isDigit c || c == '.' || c == 'e' || c == 'E'

/-- Does a number end before this text? -/
def EndsNumber (cs : List Char) : Prop := ∀ c, cs.head? = some c → continuesNumber c = false

theorem endsNumber_nil : EndsNumber [] := by
  rintro c ⟨⟩

theorem endsNumber_cons (h : continuesNumber c = false) : EndsNumber (c :: cs) := by
  rintro d ⟨⟩
  exact h

theorem takeDigits_map {ds : List Nat} (hds : ∀ d ∈ ds, d < 10) (hrest : EndsNumber rest) :
    takeDigits (ds.map Text.digitChar ++ rest) = (ds, rest) := by
  induction ds with
  | nil =>
      cases rest with
      | nil => rfl
      | cons c cs =>
          have hc := hrest c rfl
          simp only [continuesNumber, Text.isDigit, Bool.or_eq_false_iff,
            Option.isSome_eq_false_iff, Option.isNone_iff_eq_none] at hc
          rw [List.map_nil, List.nil_append, takeDigits, hc.1.1.1]
  | cons d ds ih =>
      have hd : Text.digitValue? (Text.digitChar d) = some d :=
        Text.digitValue?_digitChar (hds d List.mem_cons_self)
      rw [List.map_cons, List.cons_append, takeDigits, hd]
      rw [ih fun e he => hds e (List.mem_cons_of_mem _ he)]

theorem takeWhole_digits (n : Nat) (hrest : EndsNumber rest) :
    takeWhole (Text.digits n ++ rest) = some (wholeDigits n, rest) := by
  have htake : takeDigits (Text.digits n ++ rest) = (wholeDigits n, rest) := by
    rw [digits_eq_map]
    exact takeDigits_map (fun _ => lt_of_mem_wholeDigits) hrest
  rw [takeWhole, htake]
  split
  · next heq => exact absurd (congrArg Prod.fst heq) (wholeDigits_ne_nil n)
  · next heq => exact absurd (eq_nil_of_wholeDigits (congrArg Prod.fst heq)) (by simp)
  · next heq => rw [heq]

theorem takeFraction_of_endsNumber (h : EndsNumber cs) : takeFraction cs = some (none, cs) := by
  unfold takeFraction
  split
  · exact absurd (h '.' rfl) (by decide)
  · rfl

theorem takeExponent_of_endsNumber (h : EndsNumber cs) : takeExponent cs = some (none, cs) := by
  cases cs with
  | nil => rfl
  | cons c cs =>
      have hc := h c rfl
      simp only [continuesNumber, Bool.or_eq_false_iff, beq_eq_false_iff_ne] at hc
      exact if_neg (not_or.2 ⟨hc.1.2, hc.2⟩)

/-- A whole number as it is written. -/
def numeral (n : Int) : Numeral := ⟨n < 0, wholeDigits n.natAbs, none, none⟩

theorem takeNumeral_minus {ds : List Nat} (hwhole : takeWhole cs = some (ds, rest))
    (hrest : EndsNumber rest) :
    takeNumeral ('-' :: cs) = some (⟨true, ds, none, none⟩, rest) := by
  simp only [takeNumeral, hwhole, takeFraction_of_endsNumber hrest,
    takeExponent_of_endsNumber hrest, Option.bind_eq_bind, Option.bind_some]
  rfl

theorem takeNumeral_of_ne {ds : List Nat} (hc : c ≠ '-')
    (hwhole : takeWhole (c :: cs) = some (ds, rest)) (hrest : EndsNumber rest) :
    takeNumeral (c :: cs) = some (⟨false, ds, none, none⟩, rest) := by
  unfold takeNumeral
  split
  next negative r hsign =>
    split at hsign
    · next heq => exact absurd (List.cons.inj heq).1 hc
    · obtain ⟨rfl, rfl⟩ := Prod.mk.inj hsign
      simp only [hwhole, takeFraction_of_endsNumber hrest, takeExponent_of_endsNumber hrest,
        Option.bind_eq_bind, Option.bind_some]
      rfl

theorem takeNumeral_signedDecimal (n : Int) (hrest : EndsNumber rest) :
    takeNumeral ((Text.signedDecimal n).toList ++ rest) = some (numeral n, rest) := by
  cases n with
  | ofNat n =>
      have hwhole := takeWhole_digits n hrest
      simp only [Text.signedDecimal, Text.decimal, String.toList_ofList]
      cases hdigits : Text.digits n with
      | nil => exact absurd hdigits (Text.digits_ne_nil n)
      | cons c cs =>
          have hc : c ≠ '-' := by
            rintro rfl
            exact Text.not_mem_digits rfl n (hdigits ▸ List.mem_cons_self)
          rw [hdigits] at hwhole
          exact takeNumeral_of_ne hc hwhole hrest
  | negSucc n =>
      have hminus : "-".toList = ['-'] := rfl
      simp only [Text.signedDecimal, Text.decimal, String.toList_append, String.toList_ofList,
        hminus, numeral, Int.negSucc_lt_zero, decide_true, Int.natAbs_negSucc]
      exact takeNumeral_minus (takeWhole_digits (n + 1) hrest) hrest

/-! ## Values -/

mutual

/-- The tree of a value as it is written. -/
def doc : Json → Doc
  | .null => .null
  | .bool b => .bool b
  | .int n => .number (numeral n)
  | .real _ => .broken
  | .text s => .text (some s)
  | .list js => .list (itemDocs js) .closed
  | .object ms => .object (memberDocs ms) .closed

/-- The trees of the items. -/
def itemDocs : List Json → List Doc
  | [] => []
  | j :: js => doc j :: itemDocs js

/-- The trees of the members. -/
def memberDocs : List (String × Json) → List (Option String × Doc)
  | [] => []
  | (k, j) :: ms => (some k, doc j) :: memberDocs ms

end

mutual

/-- Has the value no doubles, whole numbers of 64 bits, and lists and objects at most `depth`
deep? -/
def fits : Nat → Json → Bool
  | _, .null => true
  | _, .bool _ => true
  | _, .int n => -(Text.maxSigned64 + 1 : Int) ≤ n && n ≤ Text.maxWord64
  | _, .real _ => false
  | _, .text _ => true
  | 0, .list _ => false
  | depth + 1, .list js => itemsFit depth js
  | 0, .object _ => false
  | depth + 1, .object ms => membersFit depth ms

/-- Do all items fit? -/
def itemsFit : Nat → List Json → Bool
  | _, [] => true
  | depth, j :: js => fits depth j && itemsFit depth js

/-- Do the values of all members fit? -/
def membersFit : Nat → List (String × Json) → Bool
  | _, [] => true
  | depth, (_, j) :: ms => fits depth j && membersFit depth ms

end

theorem fits_nat {n : Nat} (h : n ≤ Text.maxWord64) (depth : Nat) : fits depth (.int n) = true := by
  have hlow : -(Text.maxSigned64 + 1 : Int) ≤ n := by omega
  have hhigh : (n : Int) ≤ Text.maxWord64 := by omega
  cases depth <;> exact Bool.and_eq_true_iff.2 ⟨decide_eq_true hlow, decide_eq_true hhigh⟩

/-- A written number starts with a digit or a minus sign. -/
theorem signedDecimal_head (n : Int) :
    ∃ c cs, (Text.signedDecimal n).toList = c :: cs ∧ (c = '-' ∨ Text.isDigit c = true) := by
  cases n with
  | ofNat n =>
      simp only [Text.signedDecimal, Text.decimal, String.toList_ofList]
      cases hdigits : Text.digits n with
      | nil => exact absurd hdigits (Text.digits_ne_nil n)
      | cons c cs =>
          exact ⟨c, cs, rfl, Or.inr (Text.isDigit_of_mem_digits (hdigits ▸ List.mem_cons_self))⟩
  | negSucc n =>
      exact ⟨'-', Text.digits (n + 1), by simp [Text.signedDecimal, Text.decimal], Or.inl rfl⟩

theorem skipSpace_cons (h : isSpace c = false) : skipSpace (c :: cs) = c :: cs := by
  rw [skipSpace, List.dropWhile_cons_of_neg]
  simp [h]

/-- Where a number starts, it is read. -/
theorem value_of_takeNumeral {m : Numeral} (hc : c = '-' ∨ Text.isDigit c = true)
    (h : takeNumeral (c :: cs) = some (m, rest)) (fuel : Nat) :
    value (fuel + 1) (c :: cs) = (.number m, rest) := by
  have hother : ∀ d, Text.isDigit d = false → d ≠ '-' → c ≠ d := by
    rintro d hd hminus rfl
    rcases hc with hc | hc
    · exact hminus hc
    · rw [hc] at hd
      cases hd
  have hspace : isSpace c = false := by
    simp only [isSpace, Bool.or_eq_false_iff, beq_eq_false_iff_ne]
    exact ⟨⟨⟨hother _ rfl (by decide), hother _ rfl (by decide)⟩, hother _ rfl (by decide)⟩,
      hother _ rfl (by decide)⟩
  rw [value, skipSpace_cons hspace]
  split
  · next heq => exact absurd (List.cons.inj heq).1 (hother _ rfl (by decide))
  · next heq => exact absurd (List.cons.inj heq).1 (hother _ rfl (by decide))
  · next heq => exact absurd (List.cons.inj heq).1 (hother _ rfl (by decide))
  · next heq => exact absurd (List.cons.inj heq).1 (hother _ rfl (by decide))
  · next heq => exact absurd (List.cons.inj heq).1 (hother _ rfl (by decide))
  · next heq => exact absurd (List.cons.inj heq).1 (hother _ rfl (by decide))
  · simp only [h]

/-- A value starts with no blank, and not with the bracket that ends a list. -/
theorem chars_head {j : Json} {depth : Nat} (h : fits depth j = true) :
    ∃ c cs, chars j = c :: cs ∧ isSpace c = false ∧ c ≠ ']' := by
  cases j with
  | null => exact ⟨_, _, rfl, rfl, by decide⟩
  | bool b => cases b <;> exact ⟨_, _, rfl, rfl, by decide⟩
  | int n =>
      obtain ⟨c, cs, hchars, hc⟩ := signedDecimal_head n
      have hspace : ∀ d, isSpace d = true → Text.isDigit d = false ∧ d ≠ '-' := by
        intro d hd
        simp only [isSpace, Bool.or_eq_true, beq_iff_eq] at hd
        rcases hd with ((rfl | rfl) | rfl) | rfl <;> exact ⟨rfl, by decide⟩
      refine ⟨c, cs, hchars, ?_, ?_⟩
      · rw [Bool.eq_false_iff]
        intro hblank
        obtain ⟨hdigit, hminus⟩ := hspace c hblank
        rcases hc with hc | hc
        · exact hminus hc
        · rw [hc] at hdigit
          cases hdigit
      · rintro rfl
        rcases hc with hc | hc <;> exact absurd hc (by decide)
  | real x => cases depth <;> cases h
  | text s => exact ⟨_, _, rfl, rfl, by decide⟩
  | list js => cases js <;> exact ⟨_, _, rfl, rfl, by decide⟩
  | object ms =>
      cases ms with
      | nil => exact ⟨_, _, rfl, rfl, by decide⟩
      | cons m ms => exact ⟨_, _, rfl, rfl, by decide⟩

/-- The characters are read as the tree, and the text behind them is left. -/
def ReadsAs (cs : List Char) (d : Doc) : Prop :=
  ∀ (fuel : Nat) (rest : List Char), cs.length ≤ fuel → EndsNumber rest →
    value fuel (cs ++ rest) = (d, rest)

theorem readsAs_text (s : String) : ReadsAs (quote s) (.text (some s)) := by
  intro fuel rest hfuel _
  cases fuel with
  | zero => exact absurd hfuel (by simp [quote])
  | succ fuel =>
      have htake := takeString_quote s.toList rest
      rw [quote_append, value]
      simp only [skipSpace_cons (c := '"') rfl, htake, spelled_chars]

theorem readsAs_int (n : Int) : ReadsAs (chars (.int n)) (doc (.int n)) := by
  intro fuel rest hfuel hrest
  obtain ⟨c, cs, hchars, hc⟩ := signedDecimal_head n
  have htake := takeNumeral_signedDecimal n hrest
  rw [hchars] at htake
  simp only [chars, hchars] at hfuel ⊢
  cases fuel with
  | zero => exact absurd hfuel (by simp)
  | succ fuel => exact value_of_takeNumeral hc htake fuel

/-- The word `null`, `true` or `false`. -/
theorem readsAs_word {d : Doc} {w : List Char} (hne : w ≠ [])
    (h : ∀ fuel rest, value (fuel + 1) (w ++ rest) = (d, rest)) : ReadsAs w d := by
  intro fuel rest hfuel _
  cases fuel with
  | zero => exact absurd (List.length_eq_zero_iff.1 (Nat.le_zero.1 hfuel)) hne
  | succ fuel => exact h fuel rest

theorem value_list {fuel : Nat} {ds : List Doc} {tail : Tail} (hspace : isSpace c = false)
    (hc : c ≠ ']') (hitems : items fuel (c :: cs) = (ds, tail, rest)) :
    value (fuel + 1) ('[' :: c :: cs) = (.list ds tail, rest) := by
  rw [value]
  simp only [skipSpace_cons (c := '[') rfl, skipSpace_cons hspace]
  split
  · next heq => exact absurd (List.cons.inj heq).1 hc
  · rw [hitems]

theorem value_object {fuel : Nat} {ms : List (Option String × Doc)} {tail : Tail} {k : String}
    (hmembers : members fuel (quote k ++ cs) = (ms, tail, rest)) :
    value (fuel + 1) ('{' :: (quote k ++ cs)) = (.object ms tail, rest) := by
  rw [quote_append] at hmembers ⊢
  rw [value]
  simp only [skipSpace_cons (c := '{') rfl, skipSpace_cons (c := '"') rfl]
  split
  · next heq => exact absurd (List.cons.inj heq).1 (by decide)
  · rw [hmembers]

/-- Behind its name and the colon, the value of a member is read, and then the next one. -/
theorem members_quote_next {fuel : Nat} {k : String} {d : Doc} {ms : List (Option String × Doc)}
    {tail : Tail} {after : List Char} (hvalue : value fuel cs = (d, ',' :: rest))
    (hrest : members fuel rest = (ms, tail, after)) :
    members (fuel + 1) (quote k ++ ':' :: cs) = ((some k, d) :: ms, tail, after) := by
  have htake := takeString_quote k.toList (':' :: cs)
  rw [quote_append, members]
  simp only [skipSpace_cons (c := '"') rfl, skipSpace_cons (c := ':') rfl,
    skipSpace_cons (c := ',') rfl, htake, hvalue, hrest, spelled_chars]

/-- The value of the last member is read up to the bracket. -/
theorem members_quote_last {fuel : Nat} {k : String} {d : Doc}
    (hvalue : value fuel cs = (d, '}' :: rest)) :
    members (fuel + 1) (quote k ++ ':' :: cs) = ([(some k, d)], .closed, rest) := by
  have htake := takeString_quote k.toList (':' :: cs)
  rw [quote_append, members]
  simp only [skipSpace_cons (c := '"') rfl, skipSpace_cons (c := ':') rfl,
    skipSpace_cons (c := '}') rfl, htake, hvalue, spelled_chars]

mutual

/-- A value is read as its tree. -/
theorem value_chars : ∀ (j : Json) {depth : Nat}, fits depth j = true → ReadsAs (chars j) (doc j)
  | .null, _, _ => readsAs_word (by simp [chars]) fun _ _ => rfl
  | .bool true, _, _ => readsAs_word (by simp [chars]) fun _ _ => rfl
  | .bool false, _, _ => readsAs_word (by simp [chars]) fun _ _ => rfl
  | .int n, _, _ => readsAs_int n
  | .real _, depth, h => by cases depth <;> cases h
  | .text s, _, _ => readsAs_text s
  | .list [], _, _ => readsAs_word (by simp [chars]) fun _ _ => rfl
  | .list (j :: js), 0, h => by cases h
  | .list (j :: js), depth + 1, h => by
      simp only [fits, itemsFit, Bool.and_eq_true] at h
      obtain ⟨c, cs, hchars, hspace, hc⟩ := chars_head h.1
      intro fuel rest hfuel _
      simp only [chars, List.length_append, List.length_cons, List.length_nil] at hfuel
      cases fuel with
      | zero => omega
      | succ fuel =>
          have hitems := items_chars js h.2 (value_chars j h.1) fuel rest (by omega)
          simp only [chars, List.append_assoc, List.cons_append, List.nil_append, hchars] at hitems ⊢
          exact value_list hspace hc hitems
  | .object [], _, _ => readsAs_word (by simp [chars]) fun _ _ => rfl
  | .object (m :: ms), 0, h => by cases h
  | .object ((k, j) :: ms), depth + 1, h => by
      simp only [fits, membersFit, Bool.and_eq_true] at h
      intro fuel rest hfuel _
      simp only [chars, List.length_append, List.length_cons, List.length_nil] at hfuel
      cases fuel with
      | zero => omega
      | succ fuel =>
          have hmembers := members_chars ms h.2 k (value_chars j h.1) fuel rest (by omega)
          simp only [chars, List.append_assoc, List.cons_append, List.nil_append] at hmembers ⊢
          exact value_object hmembers

/-- An item and those that follow it are read up to the bracket. -/
theorem items_chars : ∀ (js : List Json) {depth : Nat}, itemsFit depth js = true →
    ∀ {cs : List Char} {d : Doc}, ReadsAs cs d → ∀ (fuel : Nat) (rest : List Char),
      cs.length + (itemChars js).length < fuel →
        items fuel (cs ++ itemChars js ++ ']' :: rest) = (d :: itemDocs js, .closed, rest)
  | _, _, _, _, _, _, 0, _, hfuel => absurd hfuel (Nat.not_lt_zero _)
  | [], _, _, cs, d, hd, fuel + 1, rest, hfuel => by
      have hvalue := hd fuel (']' :: rest) (by omega) (endsNumber_cons rfl)
      simp only [itemChars, List.append_nil, items, hvalue]
      rfl
  | j :: js, depth, h, cs, d, hd, fuel + 1, rest, hfuel => by
      simp only [itemsFit, Bool.and_eq_true] at h
      simp only [itemChars, List.length_append, List.length_cons] at hfuel
      have hvalue := hd fuel (',' :: (chars j ++ itemChars js ++ ']' :: rest)) (by omega)
        (endsNumber_cons rfl)
      have hrest := items_chars js h.2 (value_chars j h.1) fuel rest (by omega)
      have hsplit : cs ++ itemChars (j :: js) ++ ']' :: rest =
          cs ++ ',' :: (chars j ++ itemChars js ++ ']' :: rest) := by
        simp [itemChars]
      rw [hsplit, items, hvalue]
      simp only [skipSpace_cons (c := ',') rfl, hrest, itemDocs]

/-- A member and those that follow it are read up to the bracket. -/
theorem members_chars : ∀ (ms : List (String × Json)) {depth : Nat}, membersFit depth ms = true →
    ∀ (k : String) {cs : List Char} {d : Doc}, ReadsAs cs d → ∀ (fuel : Nat) (rest : List Char),
      (quote k).length + cs.length + (memberChars ms).length + 1 < fuel →
        members fuel (quote k ++ ':' :: cs ++ memberChars ms ++ '}' :: rest) =
          ((some k, d) :: memberDocs ms, .closed, rest)
  | _, _, _, _, _, _, _, 0, _, hfuel => absurd hfuel (Nat.not_lt_zero _)
  | [], _, _, k, cs, d, hd, fuel + 1, rest, hfuel => by
      have hvalue := hd fuel ('}' :: rest) (by omega) (endsNumber_cons rfl)
      simp only [memberChars, List.append_nil, List.append_assoc, List.cons_append]
      exact members_quote_last hvalue
  | (k', j) :: ms, depth, h, k, cs, d, hd, fuel + 1, rest, hfuel => by
      simp only [membersFit, Bool.and_eq_true] at h
      simp only [memberChars, List.length_append, List.length_cons] at hfuel
      have hvalue := hd fuel
        (',' :: (quote k' ++ ':' :: chars j ++ memberChars ms ++ '}' :: rest)) (by omega)
        (endsNumber_cons rfl)
      have hrest := members_chars ms h.2 k' (value_chars j h.1) fuel rest (by omega)
      have hsplit : quote k ++ ':' :: cs ++ memberChars ((k', j) :: ms) ++ '}' :: rest =
          quote k ++ ':' ::
            (cs ++ ',' :: (quote k' ++ ':' :: chars j ++ memberChars ms ++ '}' :: rest)) := by
        simp [memberChars]
      rw [hsplit]
      exact members_quote_next hvalue hrest

end

/-! ## Texts -/

theorem parseFront_render {j : Json} {depth : Nat} (h : fits depth j = true) :
    parseFront j.render = (j.doc, []) := by
  have hvalue := value_chars j h (2 * (chars j).length + 2) [] (by omega) endsNumber_nil
  rw [List.append_nil] at hvalue
  simp only [parseFront, render, String.toList_ofList, hvalue]

/-- The text of a value is read as its tree. -/
theorem readText_render {α : Type} (read : Reader α) {j : Json} {depth : Nat}
    (h : fits depth j = true) : readText read j.render = read j.doc := by
  have hend : endsAfterValue j.render = true := by
    rw [endsAfterValue, parseFront_render h]
    rfl
  rw [readText, parse, parseFront_render h]
  cases hread : read j.doc with
  | ok a => simp only [hend, if_true]
  | error f => rfl

end Json

end IssueTracker
