/-! # Blank text

A text is blank when nothing is left after trimming the characters with the Unicode property
`White_Space`. The same trimming is applied to numbers read from the environment.
-/

namespace Spellcraft

def isBlank (c : Char) : Bool :=
  let n := c.toNat
  (0x09 ≤ n && n ≤ 0x0D) || n == 0x20 || n == 0x85 || n == 0xA0 || n == 0x1680
    || (0x2000 ≤ n && n ≤ 0x200A) || n == 0x2028 || n == 0x2029 || n == 0x202F
    || n == 0x205F || n == 0x3000

def trimBlanks (cs : List Char) : List Char :=
  (((cs.dropWhile isBlank).reverse).dropWhile isBlank).reverse

def isBlankText (text : String) : Bool := text.toList.all isBlank

theorem dropWhile_isBlank_eq_nil_iff (cs : List Char) :
    cs.dropWhile isBlank = [] ↔ cs.all isBlank = true := by
  induction cs with
  | nil => simp
  | cons c rest ih => by_cases h : isBlank c <;> simp [h, ih]

/-- A text is blank exactly when trimming leaves nothing of it. -/
theorem trimBlanks_eq_nil_iff (cs : List Char) :
    trimBlanks cs = [] ↔ cs.all isBlank = true := by
  unfold trimBlanks
  rw [List.reverse_eq_nil_iff, dropWhile_isBlank_eq_nil_iff, List.all_reverse,
    ← dropWhile_isBlank_eq_nil_iff cs]
  constructor
  · intro h
    cases hd : cs.dropWhile isBlank with
    | nil => rfl
    | cons c rest =>
      have hne : cs.dropWhile isBlank ≠ [] := by simp [hd]
      have := List.head_dropWhile_not isBlank hne
      simp [hd] at this h
      simp [this] at h
  · intro h; simp [h]

def asciiLower (text : String) : String := text.map Char.toLower

end Spellcraft
