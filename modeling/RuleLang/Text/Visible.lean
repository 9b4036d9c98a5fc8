import RuleLang.Text.Blank
import RuleLang.Text.GraphemeExtend
import RuleLang.Text.Unassigned

/-!
# Visible text

A text between double quotes, in which every character can be told by sight (`visible`): quotes and
backslashes are escaped, and so is what leaves no mark of its own (`isUnseen`), such as controls,
blank characters other than the space, unassigned code points, and marks that combine with the
character before.
-/

namespace RuleLang

/-- The characters of the general category `Cc`. -/
def controls : CharSet where
  ranges := [(0x0000, 0x001F), (0x007F, 0x009F)]

/-- The characters of the general category `Cf`: they direct how the text around them is drawn. -/
def formatControls : CharSet where
  ranges :=
    [(0x00AD, 0x00AD), (0x0600, 0x0605), (0x061C, 0x061C), (0x06DD, 0x06DD), (0x070F, 0x070F),
     (0x0890, 0x0891), (0x08E2, 0x08E2), (0x180E, 0x180E), (0x200B, 0x200F), (0x202A, 0x202E),
     (0x2060, 0x2064), (0x2066, 0x206F), (0xFEFF, 0xFEFF), (0xFFF9, 0xFFFB), (0x110BD, 0x110BD),
     (0x110CD, 0x110CD), (0x13430, 0x1343F), (0x1BCA0, 0x1BCA3), (0x1D173, 0x1D17A),
     (0xE0001, 0xE0001), (0xE0020, 0xE007F)]

/-- The characters of the general category `Co`: how they look is left to private agreement. -/
def privateUse : CharSet where
  ranges := [(0xE000, 0xF8FF), (0xF0000, 0xFFFFD), (0x100000, 0x10FFFD)]

/-- Letters that stand for the lack of one in a Hangul syllable, and are drawn as nothing. -/
def hangulFillers : CharSet where
  ranges := [(0x115F, 0x1160), (0x3164, 0x3164), (0xFFA0, 0xFFA0)]

/-- The two sound marks of halfwidth katakana. They extend the character before them, but each has
a place of its own in the line. -/
def halfwidthSoundMarks : CharSet where
  ranges := [(0xFF9E, 0xFF9F)]

/-- Whether a character cannot be told by sight. -/
def isUnseen (c : Char) : Bool :=
  (isBlank c && c ≠ ' ') || controls.has c || formatControls.has c || privateUse.has c ||
    unassigned.has c || hangulFillers.has c ||
    (graphemeExtend.has c && !halfwidthSoundMarks.has c)

/-- A character as it is written in a visible text. -/
def visibleChar (c : Char) : List Char :=
  match c with
  | '\x00' => ['\\', '0']
  | '\t' => ['\\', 't']
  | '\n' => ['\\', 'n']
  | '\r' => ['\\', 'r']
  | '"' => ['\\', '"']
  | '\\' => ['\\', '\\']
  | c =>
    if isUnseen c then ['\\', 'u', '\x7b'] ++ Nat.toDigits 16 c.toNat ++ ['\x7d'] else [c]

/-- A text as it is written for the eye. -/
def visible (cs : List Char) : List Char :=
  '"' :: (cs.flatMap visibleChar ++ ['"'])

end RuleLang
