import RuleLang.Json.Number
import RuleLang.Json.Text

/-!
# JSON arrays of strings

A JSON text that is an array of strings and nothing else (`readStrings`). The first character that
does not belong decides the failure; a value of another type is read as far as its name needs, and
refused after it.
-/

namespace RuleLang.Json

/-- White space of JSON. It is narrower than `isBlank`. -/
def isSpace (c : Char) : Bool :=
  c = ' ' || c = '\t' || c = '\n' || c = '\r'

/-- The text without the white space in front. -/
def skipSpace (cs : List Char) : List Char :=
  cs.dropWhile isSpace

/-- The refusal of one of the words of JSON, from after its first letter. -/
def refuseWord (wanted : Wanted) (found : Found) : (letters cs : List Char) → Failure
  | [], cs => .before (.wrongType found wanted) cs
  | _ :: _, [] => .before .endInValue []
  | letter :: letters, c :: cs =>
    if c = letter then refuseWord wanted found letters cs else .within .expectedWord (c :: cs)

/-- The failure of a reader that stands in front of a value of a type that is not wanted. -/
def refuse (wanted : Wanted) (cs : List Char) : Failure :=
  let named : Except Failure (Found × List Char) → Failure
    | .ok (found, rest) => .before (.wrongType found wanted) rest
    | .error failure => failure
  match cs with
  | 'n' :: cs => refuseWord wanted .null ['u', 'l', 'l'] cs
  | 't' :: cs => refuseWord wanted (.boolean true) ['r', 'u', 'e'] cs
  | 'f' :: cs => refuseWord wanted (.boolean false) ['a', 'l', 's', 'e'] cs
  | '-' :: cs => named (readNumber true cs)
  | '"' :: cs => named ((readString cs).map fun (s, rest) => (.string s, rest))
  | '[' :: _ => .before (.wrongType .sequence wanted) cs
  | '{' :: _ => .before (.wrongType .map wanted) cs
  | cs => if startsWithDigit cs then named (readNumber false cs) else .within .expectedValue cs

/-- A string, in front of which there is no white space. -/
def readItem : List Char → Except Failure (String × List Char)
  | [] => .error (.before .endInValue [])
  | '"' :: cs =>
    match readString cs with
    | .ok (s, rest) => .ok (String.ofList s, rest)
    | .error failure => .error failure
  | cs => .error (refuse .string cs)

/-- An item takes at least its opening quote. -/
theorem length_lt_of_readItem {cs rest : List Char} {s : String}
    (h : readItem cs = .ok (s, rest)) : rest.length < cs.length := by
  unfold readItem at h
  split at h
  · contradiction
  · split at h
    · rename_i hstring
      obtain ⟨-, rfl⟩ := Prod.mk.inj (Except.ok.inj h)
      exact Nat.lt_succ_of_lt (length_lt_of_readString hstring)
    · contradiction
  · contradiction

theorem length_skipSpace_le (cs : List Char) : (skipSpace cs).length ≤ cs.length :=
  (List.dropWhile_suffix isSpace).length_le

/-- The items that follow an item, up to the closing bracket. -/
def readMoreItems (cs : List Char) : Except Failure (List String × List Char) :=
  match _ : skipSpace cs with
  | [] => .error (.before .endInList [])
  | ']' :: rest => .ok ([], rest)
  | ',' :: rest =>
    -- A bracket right after a comma has a failure of its own, which no item has.
    if (skipSpace rest).head? = some ']' then .error (.within .trailingComma (skipSpace rest))
    else
      match _ : readItem (skipSpace rest) with
      | .error failure => .error failure
      | .ok (item, rest) =>
        match readMoreItems rest with
        | .error failure => .error failure
        | .ok (items, rest) => .ok (item :: items, rest)
  | rest => .error (.within .expectedCommaOrEnd rest)
termination_by cs.length
decreasing_by
  -- An item is never empty, and the comma in front of it is gone as well.
  rename_i afterComma hcomma _ hitem
  calc _ < (skipSpace afterComma).length := length_lt_of_readItem hitem
    _ ≤ afterComma.length := length_skipSpace_le afterComma
    _ < (skipSpace cs).length := by rw [hcomma]; exact Nat.lt_succ_self afterComma.length
    _ ≤ cs.length := length_skipSpace_le cs

/-- The items from after the opening bracket up to the closing one. -/
def readItems (cs : List Char) : Except Failure (List String × List Char) :=
  match skipSpace cs with
  | [] => .error (.before .endInList [])
  | ']' :: cs => .ok ([], cs)
  | cs => do
    let (item, rest) ← readItem cs
    let (items, rest) ← readMoreItems rest
    return (item :: items, rest)

/-- The items of a text that is an array of strings. -/
def readStrings (text : List Char) : Except Failure (List String) :=
  match skipSpace text with
  | [] => .error (.before .endInValue [])
  | '[' :: cs => do
    let (items, rest) ← readItems cs
    match skipSpace rest with
    | [] => return items
    | rest => throw (.within .trailingCharacters rest)
  | cs => .error (refuse .sequence cs)

end RuleLang.Json
