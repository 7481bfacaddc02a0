/-!
# Blank characters

`isBlank` is the Unicode property White_Space: the ASCII tab, line feed, vertical tab, form feed,
carriage return and space, next line (`U+0085`), no-break space (`U+00A0`), Ogham space mark
(`U+1680`), the spaces `U+2000` to `U+200A`, the line and paragraph separators (`U+2028`,
`U+2029`), narrow no-break space (`U+202F`), medium mathematical space (`U+205F`) and ideographic
space (`U+3000`). `trimBlank` drops blank characters from both ends of a text.
-/

namespace DaemonBridge

/-- Ranges of code points with the property White_Space, first and last included. -/
def blankRanges : List (Nat × Nat) :=
  [(0x09, 0x0D), (0x20, 0x20), (0x85, 0x85), (0xA0, 0xA0), (0x1680, 0x1680), (0x2000, 0x200A),
    (0x2028, 0x2029), (0x202F, 0x202F), (0x205F, 0x205F), (0x3000, 0x3000)]

/-- Whether a character has the property White_Space. -/
def isBlank (c : Char) : Bool := blankRanges.any fun (lo, hi) => lo ≤ c.toNat && c.toNat ≤ hi

/-- A text without the blank characters at its ends. -/
def trimBlank (s : String) : String :=
  String.ofList ((s.toList.dropWhile isBlank).reverse.dropWhile isBlank).reverse

theorem isBlank_of_isWhitespace {c : Char} (h : c.isWhitespace) : isBlank c := by
  simp only [Char.isWhitespace, Bool.or_eq_true, decide_eq_true_eq] at h
  simp only [isBlank, blankRanges, List.any_cons, List.any_nil, Bool.or_eq_true,
    Bool.and_eq_true, decide_eq_true_eq]
  rcases h with ((h | h) | h) | h <;> subst h <;> decide

example : blankRanges.length = 10 := rfl
example : trimBlank " 　a b \t" = "a b" := by decide +kernel

end DaemonBridge
