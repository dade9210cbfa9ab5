/-!
# Blank characters

Blank means the Unicode property `White_Space`. Formulas may hold blanks between their parts, and
every text that users enter is trimmed by the same rule.
-/

namespace Tabletop.Text

/-- The characters with the Unicode property `White_Space`. -/
def isBlank (c : Char) : Bool :=
  let n := c.toNat
  (9 ≤ n && n ≤ 13) || n == 0x20 || n == 0x85 || n == 0xA0 || n == 0x1680 ||
    (0x2000 ≤ n && n ≤ 0x200A) || n == 0x2028 || n == 0x2029 || n == 0x202F || n == 0x205F ||
    n == 0x3000

/-- All blanks of ASCII that programs commonly skip are blank. -/
theorem isBlank_of_isWhitespace {c : Char} (h : c.isWhitespace = true) : isBlank c = true := by
  simp only [Char.isWhitespace, Bool.or_eq_true, decide_eq_true_eq] at h
  rcases h with ((rfl | rfl) | rfl) | rfl <;> rfl

/-- The text without its leading blanks. -/
def skipBlank : List Char → List Char
  | [] => []
  | c :: cs => if isBlank c then skipBlank cs else c :: cs

theorem skipBlank_eq_dropWhile (cs : List Char) : skipBlank cs = cs.dropWhile isBlank := by
  induction cs with
  | nil => rfl
  | cons c cs ih =>
    rw [skipBlank, List.dropWhile_cons, ih]

theorem length_skipBlank_le (cs : List Char) : (skipBlank cs).length ≤ cs.length := by
  induction cs with
  | nil => exact Nat.le_refl _
  | cons c cs ih =>
    rw [skipBlank]
    split
    · exact Nat.le_succ_of_le ih
    · exact Nat.le_refl _

/-- The text without leading and trailing blanks. -/
def trimChars (cs : List Char) : List Char :=
  (skipBlank (skipBlank cs).reverse).reverse

/-- The string without leading and trailing blanks. -/
def trim (s : String) : String := String.ofList (trimChars s.toList)

/-- A string of blanks only. -/
def blank (s : String) : Bool := s.toList.all isBlank

end Tabletop.Text
