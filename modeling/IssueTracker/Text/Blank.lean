/-
  IssueTracker/Text/Blank.lean --- the Unicode property White_Space, and trimming.

  `isBlank` is the table of the property: the five controls from tab to carriage
  return, the space, next line, and the separators of the general categories Zs,
  Zl and Zp.  The zero width characters U+200B, U+2060 and U+FEFF, the Mongolian
  vowel separator and the information separators are not in it.
-/
set_option autoImplicit false

namespace IssueTracker.Text

/-- Has the character the property White_Space? -/
def isBlank (c : Char) : Bool :=
  let n := c.toNat
  (9 ≤ n && n ≤ 13) || n == 0x20 || n == 0x85 || n == 0xA0 || n == 0x1680 ||
    (0x2000 ≤ n && n ≤ 0x200A) || n == 0x2028 || n == 0x2029 || n == 0x202F ||
    n == 0x205F || n == 0x3000

/-- The characters from the first that is not blank. -/
def trimStart (cs : List Char) : List Char := cs.dropWhile isBlank

/-- The characters up to the last that is not blank. -/
def trimEnd (cs : List Char) : List Char := (cs.reverse.dropWhile isBlank).reverse

/-- The characters between the first and the last that are not blank. -/
def trim (cs : List Char) : List Char := trimEnd (trimStart cs)

/-- A text without its leading and trailing blanks. -/
def trimmed (s : String) : String := String.ofList (trim s.toList)

@[simp] theorem toList_trimmed (s : String) : (trimmed s).toList = trim s.toList := by
  simp [trimmed]

end IssueTracker.Text
