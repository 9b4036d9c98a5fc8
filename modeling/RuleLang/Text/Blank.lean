import RuleLang.Text.CharSet

/-!
# Blank characters

The Unicode property `White_Space`. An expression that holds nothing else is empty, a line that
holds nothing else is no expression, and string lists may have such characters between their
items. The property is wider than the core library's `Char.isWhitespace`
(`isBlank_of_isWhitespace`): it has the no-break space and the typographic spaces too, though not
the zero-width ones.
-/

namespace RuleLang

/-- The characters with the property `White_Space`. -/
def blankCharacters : CharSet where
  ranges :=
    [(0x0009, 0x000D), (0x0020, 0x0020), (0x0085, 0x0085), (0x00A0, 0x00A0), (0x1680, 0x1680),
     (0x2000, 0x200A), (0x2028, 0x2029), (0x202F, 0x202F), (0x205F, 0x205F), (0x3000, 0x3000)]

/-- Whether a character has the property `White_Space`. -/
def isBlank (c : Char) : Bool :=
  blankCharacters.has c

/-- Whether a text has blank characters only; the empty text has. -/
def allBlank (cs : List Char) : Bool :=
  cs.all isBlank

theorem isBlank_of_isWhitespace {c : Char} (h : c.isWhitespace) : isBlank c := by
  simp only [Char.isWhitespace, Bool.or_eq_true, decide_eq_true_eq] at h
  rcases h with ((rfl | rfl) | rfl) | rfl <;> rfl

end RuleLang
