import RuleLang.Text.Blank

/-!
# The shape of a string array

A string array is written as one or more quoted items between brackets, with commas between them
and blank characters around them. Inside an item a backslash keeps the next character from ending
it. The shape is decided by one pass over the characters (`hasShape`), and says nothing yet about
the items: whether their escapes mean anything is asked when they are read.
-/

namespace RuleLang

namespace StringArray

/-- What the characters read so far leave open. -/
inductive Progress where
  /-- Nothing read yet. -/
  | start
  /-- An item has to follow. -/
  | beforeItem
  /-- Inside an item. -/
  | inItem
  /-- Inside an item, after a backslash. -/
  | afterBackslash
  /-- After an item. -/
  | afterItem
  /-- After the closing bracket. -/
  | closed
  /-- No string array starts like this. -/
  | broken
deriving DecidableEq, Repr

/-- One character further. -/
def Progress.next : Progress → Char → Progress
  | start, c => if c = '[' then beforeItem else broken
  | beforeItem, c => if c = '"' then inItem else if isBlank c then beforeItem else broken
  | inItem, c => if c = '"' then afterItem else if c = '\\' then afterBackslash else inItem
  | afterBackslash, c => if c = '\n' then broken else inItem
  | afterItem, c =>
    if c = ',' then beforeItem
    else if c = ']' then closed
    else if isBlank c then afterItem
    else broken
  | closed, _ => broken
  | broken, _ => broken

/-- Whether a text has the shape of a string array. -/
def hasShape (cs : List Char) : Bool :=
  cs.foldl Progress.next .start = .closed

end StringArray

end RuleLang
