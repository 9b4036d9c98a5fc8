import Mathlib.Data.List.Forall2
import RuleLang.Json.Strings
import RuleLang.Proofs.ArrayText

/-!
# JSON spellings of string arrays

A string has many spellings in JSON. Most characters may stand for themselves, some have a short
escape, and all can be written by their code units, in hexadecimal digits of either case
(`Spells`). Between the items of an array there may be white space (`SpellsItems`). Whatever the
spelling, the reader gives the items back (`readStrings_of_spellsArray`), and the text has the shape
of a string array (`isWritten_of_spellsArray`).

Both follow the spelling. A character is read from its own spelling, and what is left is the
spelling of the other characters (`Spells.readString`). The shape looks at quotes and backslashes
only. A spelling shows a quote behind a backslash and nowhere else, and a backslash in front of a
character that belongs to it (`Spells.isItem`).
-/

namespace RuleLang.Json

open StringArray (IsItem AreItems IsWritten)

/-! ### The spellings -/

/-- A character is the hexadecimal digit of the given value, in either case. -/
def IsHexDigit (value : Nat) (c : Char) : Prop :=
  value < 16 ∧ (c = Nat.digitChar value ∨ c = (Nat.digitChar value).toUpper)

instance (value : Nat) (c : Char) : Decidable (IsHexDigit value c) :=
  inferInstanceAs (Decidable (_ ∧ _))

/-- Four characters are the hexadecimal digits of a code unit. -/
def IsHexQuad (unit : Nat) (quad : List Char) : Prop :=
  unit < 0x10000 ∧
    List.Forall₂ IsHexDigit [unit / 0x1000, unit / 0x100 % 16, unit / 0x10 % 16, unit % 16] quad

instance (unit : Nat) (quad : List Char) : Decidable (IsHexQuad unit quad) :=
  inferInstanceAs (Decidable (_ ∧ _))

/-- The characters that have a short escape, each with the letter of it. -/
def shortEscapes : List (Char × Char) :=
  [('"', '"'), ('\\', '\\'), ('/', '/'), ('\x08', 'b'), ('\x0c', 'f'), ('\n', 'n'), ('\r', 'r'),
    ('\t', 't')]

/-- The first code unit of a character above U+FFFF. -/
def highSurrogate (c : Char) : Nat :=
  0xD800 + (c.toNat - 0x10000) / 0x400

/-- The second code unit of a character above U+FFFF. -/
def lowSurrogate (c : Char) : Nat :=
  0xDC00 + (c.toNat - 0x10000) % 0x400

/-- **The spellings of a character** inside a string. -/
inductive SpellsChar : Char → List Char → Prop where
  /-- The character itself: neither a quote, nor a backslash, nor a control character. -/
  | plain {c : Char} (hquote : c ≠ '"') (hbackslash : c ≠ '\\') (hcontrol : 0x20 ≤ c.toNat) :
      SpellsChar c [c]
  /-- A short escape. -/
  | short {c letter : Char} (hshort : (c, letter) ∈ shortEscapes) : SpellsChar c ['\\', letter]
  /-- The only code unit of the character. -/
  | unit {c : Char} {quad : List Char} (hquad : IsHexQuad c.toNat quad) :
      SpellsChar c ('\\' :: 'u' :: quad)
  /-- The two code units of a character above U+FFFF. -/
  | pair {c : Char} {high low : List Char} (habove : 0xFFFF < c.toNat)
      (hhigh : IsHexQuad (highSurrogate c) high) (hlow : IsHexQuad (lowSurrogate c) low) :
      SpellsChar c ('\\' :: 'u' :: (high ++ '\\' :: 'u' :: low))

/-- The spellings of a string, between its quotes. -/
inductive Spells : List Char → List Char → Prop where
  | nil : Spells [] []
  | cons {c : Char} {spelled cs rest : List Char} (hc : SpellsChar c spelled)
      (hcs : Spells cs rest) : Spells (c :: cs) (spelled ++ rest)

/-- The spellings of one or more items, white space around them and commas between them. -/
inductive SpellsItems : List String → List Char → Prop where
  | last {item : String} {before spelled after : List Char} (hbefore : before.all isSpace = true)
      (hitem : Spells item.toList spelled) (hafter : after.all isSpace = true) :
      SpellsItems [item] (before ++ '"' :: (spelled ++ '"' :: after))
  | cons {item : String} {items : List String} {before spelled after rest : List Char}
      (hbefore : before.all isSpace = true) (hitem : Spells item.toList spelled)
      (hafter : after.all isSpace = true) (hitems : SpellsItems items rest) :
      SpellsItems (item :: items) (before ++ '"' :: (spelled ++ '"' :: (after ++ ',' :: rest)))

/-- **The spellings of an array of strings** that has an item. -/
def SpellsArray (items : List String) (cs : List Char) : Prop :=
  ∃ inner, SpellsItems items inner ∧ cs = '[' :: inner ++ [']']

/-! ### Hexadecimal digits -/

namespace IsHexDigit

variable {value : Nat} {c : Char}

/-- Digits of either case are read as their values. -/
theorem hexDigit? (h : IsHexDigit value c) : hexDigit? c = some value := by
  -- checked value by value, there are sixteen in each case
  have hdigits : ∀ n < 16, Json.hexDigit? (Nat.digitChar n) = some n ∧
      Json.hexDigit? (Nat.digitChar n).toUpper = some n := by decide
  obtain ⟨hvalue, rfl | rfl⟩ := h
  · exact (hdigits value hvalue).1
  · exact (hdigits value hvalue).2

/-- Digits take one byte each. -/
theorem utf8Size (h : IsHexDigit value c) : c.utf8Size = 1 := by
  have hdigits : ∀ n < 16, (Nat.digitChar n).utf8Size = 1 ∧
      (Nat.digitChar n).toUpper.utf8Size = 1 := by decide
  obtain ⟨hvalue, rfl | rfl⟩ := h
  · exact (hdigits value hvalue).1
  · exact (hdigits value hvalue).2

theorem ne (h : IsHexDigit value c) : c ≠ '"' ∧ c ≠ '\\' := by
  have hdigits : ∀ n < 16, (Nat.digitChar n ≠ '"' ∧ Nat.digitChar n ≠ '\\') ∧
      (Nat.digitChar n).toUpper ≠ '"' ∧ (Nat.digitChar n).toUpper ≠ '\\' := by decide
  obtain ⟨hvalue, rfl | rfl⟩ := h
  · exact (hdigits value hvalue).1
  · exact (hdigits value hvalue).2

end IsHexDigit

namespace IsHexQuad

variable {unit : Nat} {quad : List Char}

/-- The four digits, each with its value. -/
theorem exists_digits (h : IsHexQuad unit quad) :
    ∃ a b c d, quad = [a, b, c, d] ∧ IsHexDigit (unit / 0x1000) a ∧
      IsHexDigit (unit / 0x100 % 16) b ∧ IsHexDigit (unit / 0x10 % 16) c ∧
      IsHexDigit (unit % 16) d := by
  obtain ⟨-, hdigits⟩ := h
  cases hdigits with
  | cons ha hdigits =>
  cases hdigits with
  | cons hb hdigits =>
  cases hdigits with
  | cons hc hdigits =>
  cases hdigits with
  | cons hd hdigits =>
  cases hdigits
  exact ⟨_, _, _, _, rfl, ha, hb, hc, hd⟩

/-- **Four digits** are read as the code unit that they denote. -/
theorem readHexQuad (h : IsHexQuad unit quad) (rest : List Char) :
    readHexQuad (quad ++ rest) = .ok (unit, rest) := by
  obtain ⟨a, b, c, d, rfl, ha, hb, hc, hd⟩ := h.exists_digits
  have hsize : byteSize [a, b, c, d] = 4 := by
    rw [byteSize_cons, byteSize_cons, byteSize_cons, byteSize_cons, byteSize_nil, ha.utf8Size,
      hb.utf8Size, hc.utf8Size, hd.utf8Size]
  have hvalue : hexValue? [a, b, c, d] = some unit := by
    have hdigits : [a, b, c, d].mapM hexDigit?
        = some [unit / 0x1000, unit / 0x100 % 16, unit / 0x10 % 16, unit % 16] := by
      simp [ha.hexDigit?, hb.hexDigit?, hc.hexDigit?, hd.hexDigit?]
    rw [hexValue?, hdigits, Option.map_some, List.foldl_cons, List.foldl_cons, List.foldl_cons,
      List.foldl_cons, List.foldl_nil]
    -- the digits are those of a number below 16 ^ 4
    have hunit := h.1
    refine congrArg some ?_
    omega
  have htake : ([a, b, c, d] ++ rest).take 4 = [a, b, c, d] := rfl
  have hdrop : ([a, b, c, d] ++ rest).drop 4 = rest := rfl
  rw [Json.readHexQuad, htake, hdrop, hsize, if_neg (Nat.lt_irrefl 4), hvalue]

/-- Digits are neither quotes nor backslashes. -/
theorem forall_ne (h : IsHexQuad unit quad) : ∀ c ∈ quad, c ≠ '"' ∧ c ≠ '\\' := by
  obtain ⟨a, b, c, d, rfl, ha, hb, hc, hd⟩ := h.exists_digits
  simp only [List.forall_mem_cons]
  exact ⟨ha.ne, hb.ne, hc.ne, hd.ne, fun _ h => absurd h List.not_mem_nil⟩

end IsHexQuad

/-! ### Reading a string -/

/-- Code units of pairs are no characters. -/
theorem not_isSurrogate (c : Char) :
    isLowSurrogate c.toNat = false ∧ isHighSurrogate c.toNat = false := by
  have hvalid : c.toNat < 0xD800 ∨ 0xDFFF < c.toNat ∧ c.toNat < 0x110000 := c.valid
  -- the range of the surrogates is left out of the characters
  simp only [isLowSurrogate, isHighSurrogate, Bool.and_eq_false_iff, decide_eq_false_iff_not]
  omega

/-- The two halves of a pair are told apart by their ranges, and together give the character. -/
theorem surrogates_of_lt {c : Char} (h : 0xFFFF < c.toNat) :
    isLowSurrogate (highSurrogate c) = false ∧ isHighSurrogate (highSurrogate c) = true ∧
      isLowSurrogate (lowSurrogate c) = true ∧
      ofSurrogates (highSurrogate c) (lowSurrogate c) = c := by
  have hvalid : c.toNat < 0xD800 ∨ 0xDFFF < c.toNat ∧ c.toNat < 0x110000 := c.valid
  have hhigh : 0xD800 ≤ highSurrogate c ∧ highSurrogate c ≤ 0xDBFF := by
    unfold highSurrogate
    omega
  have hlow : 0xDC00 ≤ lowSurrogate c ∧ lowSurrogate c ≤ 0xDFFF := by
    unfold lowSurrogate
    omega
  -- the halves are the quotient and the remainder of what is above U+FFFF
  have hsum : 0x10000 + (highSurrogate c - 0xD800) * 0x400 + (lowSurrogate c - 0xDC00)
      = c.toNat := by
    unfold highSurrogate lowSurrogate
    omega
  refine ⟨?_, ?_, ?_, ?_⟩
  · rw [isLowSurrogate, Bool.and_eq_false_iff]
    exact Or.inl (decide_eq_false (by omega))
  · rw [isHighSurrogate, decide_eq_true hhigh.1, decide_eq_true hhigh.2]
    rfl
  · rw [isLowSurrogate, decide_eq_true hlow.1, decide_eq_true hlow.2]
    rfl
  · rw [ofSurrogates, hsum, Char.ofNat_toNat]

/-- A code unit that is no half of a pair is a character of its own. -/
theorem readUnicodeEscape_unit {n : Nat} {cs rest : List Char}
    (hread : readHexQuad cs = .ok (n, rest)) (hlow : isLowSurrogate n = false)
    (hhigh : isHighSurrogate n = false) : readUnicodeEscape cs = .ok (Char.ofNat n, rest) := by
  simp only [readUnicodeEscape, hread, bind, Except.bind, hlow, hhigh, Bool.false_eq_true, if_false]
  rfl

/-- The first half of a pair has the second one behind it. -/
theorem readUnicodeEscape_pair {high low : Nat} {cs afterHigh rest : List Char}
    (hread : readHexQuad cs = .ok (high, '\\' :: 'u' :: afterHigh))
    (hread' : readHexQuad afterHigh = .ok (low, rest)) (hnotLow : isLowSurrogate high = false)
    (hhigh : isHighSurrogate high = true) (hlow : isLowSurrogate low = true) :
    readUnicodeEscape cs = .ok (ofSurrogates high low, rest) := by
  simp only [readUnicodeEscape, readLowSurrogate, readPairMark, hread, hread', bind, Except.bind,
    hnotLow, hhigh, hlow, Bool.false_eq_true, if_false, if_true]
  rfl

/-- The escape of a character is read as the character. -/
theorem readEscape_of_spellsChar {c : Char} {escape : List Char}
    (h : SpellsChar c ('\\' :: escape)) (rest : List Char) :
    readEscape (escape ++ rest) = .ok (c, rest) := by
  have hletter : shortEscape? 'u' = none := by decide
  -- by the kind of escape: one letter, one code unit, or the two of a pair
  cases h with
  | plain _ hbackslash _ => exact absurd rfl hbackslash
  | @short letter hshort =>
    have htable : ∀ entry ∈ shortEscapes, shortEscape? entry.2 = some entry.1 := by decide
    rw [List.singleton_append, readEscape, htable _ hshort]
  | @unit quad hquad =>
    obtain ⟨hlow, hhigh⟩ := not_isSurrogate c
    have hread := readUnicodeEscape_unit (hquad.readHexQuad rest) hlow hhigh
    rw [Char.ofNat_toNat] at hread
    rw [List.cons_append, readEscape, hletter]
    exact hread
  | @pair high low habove hhigh hlow =>
    obtain ⟨hnotLow, hisHigh, hisLow, hpair⟩ := surrogates_of_lt habove
    have hread := readUnicodeEscape_pair (hhigh.readHexQuad ('\\' :: 'u' :: (low ++ rest)))
      (hlow.readHexQuad rest) hnotLow hisHigh hisLow
    rw [hpair] at hread
    rw [List.cons_append, readEscape, hletter, List.append_assoc, List.cons_append,
      List.cons_append]
    exact hread

/-- An escape in front is read as its character. -/
theorem readString_escape {c : Char} {cs s rest after : List Char}
    (hescape : readEscape cs = .ok (c, rest)) (hrest : readString rest = .ok (s, after)) :
    readString ('\\' :: cs) = .ok (c :: s, after) := by
  rw [readString]
  split
  · rename_i failure hfailure
    rw [hescape] at hfailure
    cases hfailure
  · rename_i c' rest' hread
    rw [hescape] at hread
    cases hread
    rw [hrest]

/-- A character that needs no escape is read as itself. -/
theorem readString_plain {c : Char} {cs s after : List Char} (hquote : c ≠ '"')
    (hbackslash : c ≠ '\\') (hcontrol : 0x20 ≤ c.toNat) (hcs : readString cs = .ok (s, after)) :
    readString (c :: cs) = .ok (c :: s, after) := by
  rw [readString.eq_4 c cs hquote hbackslash, if_neg (Nat.not_lt.mpr hcontrol), hcs]

/-- The spelling of a character is read as the character, and what comes behind it as before. -/
theorem SpellsChar.readString {c : Char} {spelled rest s after : List Char}
    (h : SpellsChar c spelled) (hrest : readString rest = .ok (s, after)) :
    readString (spelled ++ rest) = .ok (c :: s, after) := by
  cases h with
  | plain hquote hbackslash hcontrol => exact readString_plain hquote hbackslash hcontrol hrest
  | short hshort => exact readString_escape (readEscape_of_spellsChar (.short hshort) rest) hrest
  | unit hquad => exact readString_escape (readEscape_of_spellsChar (.unit hquad) rest) hrest
  | pair habove hhigh hlow =>
    exact readString_escape (readEscape_of_spellsChar (.pair habove hhigh hlow) rest) hrest

/-- **The spelling of a string** is read as the string, up to the quote behind it. -/
theorem Spells.readString {s spelled : List Char} (h : Spells s spelled) (rest : List Char) :
    readString (spelled ++ '"' :: rest) = .ok (s, rest) := by
  -- on the string, a character and its spelling at a time, with the rest already read
  induction h with
  | nil => rw [List.nil_append, Json.readString]
  | cons hc _ ih =>
    rw [List.append_assoc]
    exact hc.readString ih

/-! ### Reading an array -/

/-- White space is passed over up to the first other character. -/
theorem skipSpace_append {before : List Char} (hbefore : before.all isSpace = true) {c : Char}
    (hc : isSpace c = false) (rest : List Char) : skipSpace (before ++ c :: rest) = c :: rest := by
  rw [skipSpace, List.dropWhile_append_of_pos (List.all_eq_true.mp hbefore),
    List.dropWhile_cons_of_neg (Bool.eq_false_iff.mp hc)]

/-- The spelling of an item is read as the item. -/
theorem readItem_of_spells {item : String} {spelled : List Char} (h : Spells item.toList spelled)
    (rest : List Char) : readItem ('"' :: (spelled ++ '"' :: rest)) = .ok (item, rest) := by
  rw [readItem, h.readString]
  exact congrArg (fun s => Except.ok (s, rest)) String.ofList_toList

/-- At a closing bracket there are no more items. -/
theorem readMoreItems_end {cs rest : List Char} (h : skipSpace cs = ']' :: rest) :
    readMoreItems cs = .ok ([], rest) := by
  rw [readMoreItems]
  split
  · rename_i hnil
    rw [h] at hnil
    cases hnil
  · rename_i rest' hbracket
    rw [h] at hbracket
    cases hbracket
    rfl
  · rename_i hcomma
    rw [h] at hcomma
    cases hcomma
  · rename_i hbracket _
    exact absurd h (hbracket rest)

/-- Behind a comma there is one item more. -/
theorem readMoreItems_comma {cs behind after rest : List Char} {item : String}
    {items : List String} (h : skipSpace cs = ',' :: behind)
    (hhead : (skipSpace behind).head? = some '"')
    (hitem : readItem (skipSpace behind) = .ok (item, after))
    (hitems : readMoreItems after = .ok (items, rest)) :
    readMoreItems cs = .ok (item :: items, rest) := by
  rw [readMoreItems]
  split
  · rename_i hnil
    rw [h] at hnil
    cases hnil
  · rename_i hbracket
    rw [h] at hbracket
    cases hbracket
  · rename_i behind' hcomma
    rw [h] at hcomma
    cases hcomma
    -- an item follows the comma, so it is not one too many
    have hnot : (skipSpace behind).head? ≠ some ']' := by
      rw [hhead]
      decide
    rw [if_neg hnot]
    split
    · rename_i failure hfailure
      rw [hitem] at hfailure
      cases hfailure
    · rename_i item' after' hread
      rw [hitem] at hread
      cases hread
      rw [hitems]
  · rename_i hcomma
    exact absurd h (hcomma behind)

/-- The first item, and the others behind it, up to the bracket that closes the array. -/
theorem SpellsItems.exists_readItem {items : List String} {inner : List Char}
    (h : SpellsItems items inner) (rest : List Char) :
    ∃ item others after, items = item :: others ∧
      (skipSpace (inner ++ ']' :: rest)).head? = some '"' ∧
      readItem (skipSpace (inner ++ ']' :: rest)) = .ok (item, after) ∧
      readMoreItems after = .ok (others, rest) := by
  -- on the items from the back, so that those behind a comma are read already
  induction h with
  | @last item before spelled after hbefore hitem hafter =>
    have hskip : skipSpace (before ++ '"' :: (spelled ++ '"' :: after) ++ ']' :: rest)
        = '"' :: (spelled ++ '"' :: (after ++ ']' :: rest)) := by
      rw [List.append_assoc, List.cons_append, skipSpace_append hbefore rfl]
      simp
    rw [hskip]
    exact ⟨item, [], _, rfl, rfl, readItem_of_spells hitem _,
      readMoreItems_end (skipSpace_append hafter rfl rest)⟩
  | @cons item items before spelled after inner hbefore hitem hafter _ ih =>
    obtain ⟨next, others, behind, rfl, hhead, hnext, hothers⟩ := ih
    have hskip : skipSpace
          (before ++ '"' :: (spelled ++ '"' :: (after ++ ',' :: inner)) ++ ']' :: rest)
        = '"' :: (spelled ++ '"' :: (after ++ ',' :: (inner ++ ']' :: rest))) := by
      rw [List.append_assoc, List.cons_append, skipSpace_append hbefore rfl]
      simp
    rw [hskip]
    exact ⟨item, next :: others, _, rfl, rfl, readItem_of_spells hitem _,
      readMoreItems_comma (skipSpace_append hafter rfl _) hhead hnext hothers⟩

/-- **The spelling of an array** is read as its items. -/
theorem readStrings_of_spellsArray {items : List String} {cs : List Char}
    (h : SpellsArray items cs) : readStrings cs = .ok items := by
  obtain ⟨inner, hinner, rfl⟩ := h
  obtain ⟨item, others, after, rfl, hhead, hitem, hothers⟩ := hinner.exists_readItem []
  -- the first item is neither missing nor the closing bracket
  have hitems : readItems (inner ++ [']']) = .ok (item :: others, []) := by
    rw [readItems]
    split
    · rename_i hnil
      rw [hnil] at hhead
      cases hhead
    · rename_i hbracket
      rw [hbracket] at hhead
      cases hhead
    · rw [hitem]
      change (readMoreItems after >>= _) = _
      rw [hothers]
      rfl
  have hskip : skipSpace ('[' :: inner ++ [']']) = '[' :: (inner ++ [']']) :=
    @skipSpace_append [] rfl '[' rfl (inner ++ [']'])
  rw [readStrings, hskip]
  change (readItems (inner ++ [']']) >>= _) = _
  rw [hitems]
  rfl

/-! ### The shape -/

/-- Characters other than quotes and backslashes may stand in an item. -/
theorem isItem_append {cs rest : List Char} (h : ∀ c ∈ cs, c ≠ '"' ∧ c ≠ '\\')
    (hrest : IsItem rest) : IsItem (cs ++ rest) := by
  induction cs with
  | nil => exact hrest
  | cons c cs ih =>
    obtain ⟨⟨hquote, hbackslash⟩, hcs⟩ := List.forall_mem_cons.mp h
    exact .plain hquote hbackslash (ih hcs)

/-- The spelling of a character may stand in an item. -/
theorem SpellsChar.isItem {c : Char} {spelled rest : List Char} (h : SpellsChar c spelled)
    (hrest : IsItem rest) : IsItem (spelled ++ rest) := by
  -- each escape takes the character behind its backslash; the digits behind that stand for
  -- themselves
  cases h with
  | plain hquote hbackslash _ => exact .plain hquote hbackslash hrest
  | @short letter hshort =>
    have hletters : ∀ entry ∈ shortEscapes, entry.2 ≠ '\n' := by decide
    exact .escaped (hletters _ hshort) hrest
  | unit hquad => exact .escaped (by decide) (isItem_append hquad.forall_ne hrest)
  | pair _ hhigh hlow =>
    rw [List.cons_append, List.cons_append, List.append_assoc]
    exact .escaped (by decide) (isItem_append hhigh.forall_ne
      (.escaped (by decide) (isItem_append hlow.forall_ne hrest)))

/-- A spelling has quotes behind backslashes only, and no backslash at its end. -/
theorem Spells.isItem {s spelled : List Char} (h : Spells s spelled) : IsItem spelled := by
  induction h with
  | nil => exact .nil
  | cons hc _ ih => exact hc.isItem ih

/-- White space of JSON is blank. -/
theorem isBlank_of_isSpace {c : Char} (h : isSpace c = true) : isBlank c = true := by
  simp only [isSpace, Bool.or_eq_true, decide_eq_true_eq] at h
  rcases h with ((rfl | rfl) | rfl) | rfl <;> rfl

theorem allBlank_of_isSpace {cs : List Char} (h : cs.all isSpace = true) : allBlank cs = true :=
  List.all_eq_true.mpr fun c hc => isBlank_of_isSpace (List.all_eq_true.mp h c hc)

/-- The spellings of items are items. -/
theorem SpellsItems.areItems {items : List String} {inner : List Char}
    (h : SpellsItems items inner) : AreItems inner := by
  induction h with
  | last hbefore hitem hafter =>
    exact .last (allBlank_of_isSpace hbefore) hitem.isItem (allBlank_of_isSpace hafter)
  | cons hbefore hitem hafter _ ih =>
    exact .cons (allBlank_of_isSpace hbefore) hitem.isItem (allBlank_of_isSpace hafter) ih

/-- **The spelling of an array** has the shape of a string array. -/
theorem isWritten_of_spellsArray {items : List String} {cs : List Char}
    (h : SpellsArray items cs) : IsWritten cs := by
  obtain ⟨inner, hinner, rfl⟩ := h
  exact ⟨inner, hinner.areItems, rfl⟩

end RuleLang.Json
