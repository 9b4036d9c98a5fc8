/-!
# Lines

The lines of a text, and texts as lines. A line ends at a line feed, or at a carriage return and a
line feed, and the last line need not end at all.
-/

namespace RuleLang

/-- A line without the carriage return at its end. -/
def dropReturn (line : List Char) : List Char :=
  if line.getLast? = some '\r' then line.dropLast else line

/-- The lines of a text. -/
def lines (cs : List Char) : List (List Char) :=
  if cs = [] then []
  else
    let line := cs.takeWhile (· ≠ '\n')
    match _ : cs.dropWhile (· ≠ '\n') with
    | [] => [line]
    | _ :: rest => dropReturn line :: lines rest
termination_by cs.length
decreasing_by
  rename_i rest hrest
  calc rest.length < (cs.dropWhile (· ≠ '\n')).length := by rw [hrest]; exact Nat.lt_succ_self _
    _ ≤ cs.length := (List.dropWhile_suffix _).length_le

/-- Lines of text, each with its end. -/
def unlines (lines : List String) : String :=
  String.join (lines.map (· ++ "\n"))

end RuleLang
