import RuleLang.Proofs.JsonSpelling

/-!
# What is read is spelled

The reader of string arrays takes nothing but their spellings. Each of its parts takes characters
from the front of the text, and these spell what it gives: a code unit (`exists_hexQuad`), an escape
(`exists_escape`), a string (`exists_spells`), an item with all that follow it
(`exists_spellsItems`). So a text that is read as a list with items in it, and has the brackets of
the array at its ends, is a spelling of the list (`spellsArray_of_readStrings`).

With the readers run on spellings before, this makes the two notions the same: an array has just the
spellings that are read as it (`readStrings_eq_ok_iff`).
-/

namespace RuleLang.Json

/-! ### Code units -/

/-- Every character that is read as a hexadecimal digit is an ASCII character. -/
theorem toNat_lt_of_hexDigit? {c : Char} {value : Nat} (h : hexDigit? c = some value) :
    c.toNat < 128 := by
  unfold hexDigit? at h
  split at h
  · rename_i hrange
    exact Nat.lt_of_le_of_lt (show c.toNat ≤ '9'.toNat from hrange.2) (by decide)
  · split at h
    · rename_i hrange
      exact Nat.lt_of_le_of_lt (show c.toNat ≤ 'f'.toNat from hrange.2) (by decide)
    · split at h
      · rename_i hrange
        exact Nat.lt_of_le_of_lt (show c.toNat ≤ 'F'.toNat from hrange.2) (by decide)
      · cases h

/-- A character that is read as a digit is written for its value. -/
theorem isHexDigit_of_hexDigit? {c : Char} {value : Nat} (h : hexDigit? c = some value) :
    IsHexDigit value c := by
  -- a digit is an ASCII character, so the table of these is enough
  have htable : ∀ n < 128, ∀ value ∈ hexDigit? (Char.ofNat n), IsHexDigit value (Char.ofNat n) := by
    decide +kernel
  have hc := htable c.toNat (toNat_lt_of_hexDigit? h)
  rw [Char.ofNat_toNat] at hc
  exact hc value h

theorem forall₂_of_mapM_hexDigit? {cs : List Char} {values : List Nat}
    (h : cs.mapM hexDigit? = some values) : List.Forall₂ IsHexDigit values cs := by
  induction cs generalizing values with
  | nil =>
    obtain rfl : [] = values := by simpa using h
    exact .nil
  | cons c cs ih =>
    rw [List.mapM_cons] at h
    obtain ⟨value, hvalue, h⟩ := Option.bind_eq_some_iff.mp h
    obtain ⟨others, hothers, h⟩ := Option.bind_eq_some_iff.mp h
    cases h
    exact .cons (isHexDigit_of_hexDigit? hvalue) (ih hothers)

/-- Hexadecimal digits are a byte each. -/
theorem byteSize_of_forall₂ {cs : List Char} {values : List Nat}
    (h : List.Forall₂ IsHexDigit values cs) : byteSize cs = cs.length := by
  induction h with
  | nil => rfl
  | cons hc _ ih => rw [byteSize_cons, hc.utf8Size, ih, List.length_cons, Nat.add_comm]

variable {cs rest : List Char}

/-- **A code unit** that is read is written in four hexadecimal digits. -/
theorem exists_hexQuad {unit : Nat} (h : readHexQuad cs = .ok (unit, rest)) :
    ∃ quad, cs = quad ++ rest ∧ IsHexQuad unit quad := by
  rw [readHexQuad] at h
  split at h
  · cases h
  · rename_i hsize
    split at h
    · rename_i value hvalue
      obtain ⟨rfl, rfl⟩ := Prod.mk.inj (Except.ok.inj h)
      obtain ⟨digits, hmapM, hfold⟩ := Option.map_eq_some_iff.mp hvalue
      have hdigits := forall₂_of_mapM_hexDigit? hmapM
      refine ⟨cs.take 4, (List.take_append_drop 4 cs).symm, ?_⟩
      -- four bytes of digits are four digits
      have hlength : digits.length = 4 := by
        rw [hdigits.length_eq]
        rw [byteSize_of_forall₂ hdigits] at hsize
        have htake := List.length_take_le 4 cs
        omega
      obtain ⟨a, b, c, d, rfl⟩ : ∃ a b c d, digits = [a, b, c, d] :=
        List.length_eq_four.mp hlength
      generalize cs.take 4 = quad at hdigits ⊢
      rw [List.foldl_cons, List.foldl_cons, List.foldl_cons, List.foldl_cons, List.foldl_nil]
        at hfold
      obtain ⟨ha, hb, hc, hd⟩ : a < 16 ∧ b < 16 ∧ c < 16 ∧ d < 16 := by
        cases hdigits with
        | cons ha hdigits =>
        cases hdigits with
        | cons hb hdigits =>
        cases hdigits with
        | cons hc hdigits =>
        cases hdigits with
        | cons hd hdigits => exact ⟨ha.1, hb.1, hc.1, hd.1⟩
      refine ⟨by omega, ?_⟩
      -- the value in base 16 has these four digits and no others
      have hparts : [value / 0x1000, value / 0x100 % 16, value / 0x10 % 16, value % 16]
          = [a, b, c, d] := by
        rw [← hfold]
        congr <;> omega
      rw [hparts]
      exact hdigits
    · cases h

/-! ### Escapes -/

/-- A letter that is read as a short escape is in the table of these. -/
theorem mem_shortEscapes {c letter : Char} (h : shortEscape? letter = some c) :
    (c, letter) ∈ shortEscapes := by
  unfold shortEscape? at h
  split at h <;> cases h <;> decide

theorem toNat_ofNat {n : Nat} (h : n.isValidChar) : (Char.ofNat n).toNat = n := by
  rw [Char.ofNat, dif_pos h]
  rfl

/-- The only code unit of a character, read as the character. -/
theorem isHexQuad_toNat {unit : Nat} {quad : List Char} (h : IsHexQuad unit quad)
    (hlow : isLowSurrogate unit = false) (hhigh : isHighSurrogate unit = false) :
    IsHexQuad (Char.ofNat unit).toNat quad := by
  simp only [isLowSurrogate, isHighSurrogate, Bool.and_eq_false_iff, decide_eq_false_iff_not]
    at hlow hhigh
  have hunit := h.1
  have hvalid : unit.isValidChar := by
    unfold Nat.isValidChar
    omega
  rwa [toNat_ofNat hvalid]

/-- Two halves of a pair are the halves of the character that they are read as. -/
theorem surrogates_ofSurrogates {high low : Nat} (hhigh : isHighSurrogate high = true)
    (hlow : isLowSurrogate low = true) :
    0xFFFF < (ofSurrogates high low).toNat ∧ highSurrogate (ofSurrogates high low) = high ∧
      lowSurrogate (ofSurrogates high low) = low := by
  simp only [isLowSurrogate, isHighSurrogate, Bool.and_eq_true, decide_eq_true_eq] at hlow hhigh
  have hvalid : (0x10000 + (high - 0xD800) * 0x400 + (low - 0xDC00)).isValidChar := by
    unfold Nat.isValidChar
    omega
  have htoNat : (ofSurrogates high low).toNat
      = 0x10000 + (high - 0xD800) * 0x400 + (low - 0xDC00) := by
    rw [ofSurrogates, toNat_ofNat hvalid]
  unfold highSurrogate lowSurrogate
  omega

theorem eq_cons_of_readPairMark {mark : Char} (h : readPairMark mark cs = .ok rest) :
    cs = mark :: rest := by
  cases cs with
  | nil => cases h
  | cons c cs =>
    rw [readPairMark] at h
    split at h
    · rename_i hc
      rw [hc, Except.ok.inj h]
    · cases h

/-- **A code unit escape** that is read is that of its character, or those of its two halves. -/
theorem exists_unicodeEscape {c : Char} (h : readUnicodeEscape cs = .ok (c, rest)) :
    ∃ escape, cs = escape ++ rest ∧ SpellsChar c ('\\' :: 'u' :: escape) := by
  obtain ⟨⟨unit, behind⟩, hunit, hunitCase⟩ := exists_of_bind_eq_ok h
  obtain ⟨quad, rfl, hquad⟩ := exists_hexQuad hunit
  dsimp only at hunitCase
  split at hunitCase
  · cases hunitCase
  · rename_i hlow
    split at hunitCase
    · -- a first half: its second half is an escape of its own, right behind it
      rename_i hhigh
      obtain ⟨afterSlash, hslash, hpair⟩ := exists_of_bind_eq_ok hunitCase
      obtain ⟨afterLetter, hletter, hpair⟩ := exists_of_bind_eq_ok hpair
      obtain ⟨⟨second, behindPair⟩, hsecond, hpair⟩ := exists_of_bind_eq_ok hpair
      obtain ⟨quad', hquadText, hquad'⟩ := exists_hexQuad hsecond
      dsimp only at hpair
      split at hpair
      · rename_i hisLow
        obtain ⟨rfl, rfl⟩ := Prod.mk.inj (Except.ok.inj hpair)
        obtain ⟨habove, hfirst, hlast⟩ := surrogates_ofSurrogates hhigh hisLow
        rw [eq_cons_of_readPairMark hslash, eq_cons_of_readPairMark hletter, hquadText]
        refine ⟨quad ++ '\\' :: 'u' :: quad', by simp, ?_⟩
        exact .pair habove (by rwa [hfirst]) (by rwa [hlast])
      · cases hpair
    · -- no half of a pair, so the code unit is a character
      rename_i hhigh
      obtain ⟨rfl, rfl⟩ := Prod.mk.inj (Except.ok.inj hunitCase)
      exact ⟨quad, rfl, .unit (isHexQuad_toNat hquad (by simpa using hlow) (by simpa using hhigh))⟩

/-- **An escape** that is read is one of its character. -/
theorem exists_escape {c : Char} (h : readEscape cs = .ok (c, rest)) :
    ∃ escape, cs = escape ++ rest ∧ SpellsChar c ('\\' :: escape) := by
  cases cs with
  | nil => cases h
  | cons letter cs =>
    rw [readEscape] at h
    split at h
    · rename_i hshort
      obtain ⟨rfl, rfl⟩ := Prod.mk.inj (Except.ok.inj h)
      exact ⟨[letter], rfl, .short (mem_shortEscapes hshort)⟩
    · split at h
      · rename_i hletter
        -- the letter belongs to the escape, and the four digits behind it
        obtain ⟨escape, rfl, hspells⟩ := exists_unicodeEscape h
        exact ⟨letter :: escape, rfl, hletter ▸ hspells⟩
      · cases h

/-! ### Strings -/

/-- **A string** that is read is spelled up to its closing quote. -/
theorem exists_spells {s : List Char} (h : readString cs = .ok (s, rest)) :
    ∃ spelled, cs = spelled ++ '"' :: rest ∧ Spells s spelled := by
  fun_induction readString cs generalizing s with
  | case1 => cases h
  | case2 cs =>
    obtain ⟨rfl, rfl⟩ := Prod.mk.inj (Except.ok.inj h)
    exact ⟨[], rfl, .nil⟩
  | case3 => cases h
  | case4 => cases h
  | case5 cs c behind hescape _ t afterString hstring ih =>
    obtain ⟨rfl, rfl⟩ := Prod.mk.inj (Except.ok.inj h)
    -- an escape and the string behind it
    obtain ⟨escape, rfl, hc⟩ := exists_escape hescape
    obtain ⟨spelled, rfl, hspelled⟩ := ih hstring
    exact ⟨_, by simp, .cons hc hspelled⟩
  | case6 => cases h
  | case7 => cases h
  | case8 c cs hquote hbackslash hcontrol t afterString hstring ih =>
    obtain ⟨rfl, rfl⟩ := Prod.mk.inj (Except.ok.inj h)
    obtain ⟨spelled, rfl, hspelled⟩ := ih hstring
    exact ⟨_, rfl, .cons (.plain hquote hbackslash (Nat.not_lt.mp hcontrol)) hspelled⟩

/-- An item that is read stands in quotes, and is spelled between them. -/
theorem exists_spells_of_readItem {item : String} (h : readItem cs = .ok (item, rest)) :
    ∃ spelled, cs = '"' :: (spelled ++ '"' :: rest) ∧ Spells item.toList spelled := by
  unfold readItem at h
  split at h
  · cases h
  · split at h
    · rename_i hstring
      obtain ⟨rfl, rfl⟩ := Prod.mk.inj (Except.ok.inj h)
      obtain ⟨spelled, rfl, hspelled⟩ := exists_spells hstring
      exact ⟨spelled, rfl, by rwa [String.toList_ofList]⟩
    · cases h
  · cases h

/-! ### Arrays -/

/-- White space in front of a text is a part of it. -/
theorem exists_spaces (cs : List Char) :
    ∃ spaces : List Char, spaces.all isSpace = true ∧ cs = spaces ++ skipSpace cs :=
  ⟨cs.takeWhile isSpace, List.all_takeWhile, List.takeWhile_append_dropWhile.symm⟩

/-- **An item with those that follow it**, up to the bracket that closes the array. -/
theorem exists_spellsItems {items : List String} (h : readMoreItems cs = .ok (items, rest))
    {item : String} {before spelled : List Char} (hbefore : before.all isSpace = true)
    (hitem : Spells item.toList spelled) :
    ∃ inner, SpellsItems (item :: items) inner ∧
      before ++ '"' :: (spelled ++ '"' :: cs) = inner ++ ']' :: rest := by
  fun_induction readMoreItems cs generalizing item items before spelled with
  | case1 => cases h
  | case2 cs closed hclosed =>
    obtain ⟨rfl, rfl⟩ := Prod.mk.inj (Except.ok.inj h)
    obtain ⟨after, hafter, hcs⟩ := exists_spaces cs
    rw [hcs, hclosed]
    exact ⟨_, .last hbefore hitem hafter, by simp⟩
  | case3 => cases h
  | case4 => cases h
  | case5 => cases h
  | case6 cs behind hcomma _ next afterNext hnext others closed hothers ih =>
    obtain ⟨rfl, rfl⟩ := Prod.mk.inj (Except.ok.inj h)
    obtain ⟨after, hafter, hcs⟩ := exists_spaces cs
    obtain ⟨before', hbefore', hbehind⟩ := exists_spaces behind
    obtain ⟨spelled', hnextText, hspelled'⟩ := exists_spells_of_readItem hnext
    -- the next item and those behind it spell the rest
    obtain ⟨inner, hinner, htext⟩ := ih hothers hbefore' hspelled'
    rw [hcs, hcomma, hbehind, hnextText, htext]
    exact ⟨_, .cons hbefore hitem hafter hinner, by simp⟩
  | case7 => cases h

/-- A list that is read with items in it is spelled up to the bracket that closes it. -/
theorem exists_spellsItems_of_readItems {items : List String} (h : readItems cs = .ok (items, rest))
    (hne : items ≠ []) : ∃ inner, SpellsItems items inner ∧ cs = inner ++ ']' :: rest := by
  obtain ⟨before, hbefore, hcs⟩ := exists_spaces cs
  unfold readItems at h
  split at h
  · cases h
  · -- a closing bracket right away is that of the empty list
    obtain ⟨rfl, -⟩ := Prod.mk.inj (Except.ok.inj h)
    exact absurd rfl hne
  · obtain ⟨⟨item, behind⟩, hitem, h⟩ := exists_of_bind_eq_ok h
    obtain ⟨⟨others, closed⟩, hothers, h⟩ := exists_of_bind_eq_ok h
    obtain ⟨rfl, rfl⟩ := Prod.mk.inj (Except.ok.inj h)
    obtain ⟨spelled, htext, hspelled⟩ := exists_spells_of_readItem hitem
    obtain ⟨inner, hinner, hbehind⟩ := exists_spellsItems hothers hbefore hspelled
    rw [hcs, htext, hbehind]
    exact ⟨inner, hinner, rfl⟩

/-- A text that is read as a list with items is a spelling of it, up to white space around it. The
brackets at its ends leave no room for that. -/
theorem spellsArray_of_readStrings {items : List String} (h : readStrings cs = .ok items)
    (hne : items ≠ []) (hopening : cs.head? = some '[') (hclosing : cs.getLast? = some ']') :
    SpellsArray items cs := by
  obtain ⟨behind, rfl⟩ := List.head?_eq_some_iff.mp hopening
  have hskip : skipSpace ('[' :: behind) = '[' :: behind := rfl
  rw [readStrings, hskip] at h
  obtain ⟨⟨found, rest⟩, hread, h⟩ := exists_of_bind_eq_ok h
  dsimp only at h
  split at h
  · rename_i hend
    obtain rfl := Except.ok.inj h
    obtain ⟨inner, hinner, rfl⟩ := exists_spellsItems_of_readItems hread hne
    obtain ⟨spaces, hspaces, hrest⟩ := exists_spaces rest
    rw [hend, List.append_nil] at hrest
    have hnil : rest = [] := by
      by_contra hrestNe
      -- the last character would be both white space and the bracket
      have htext : '[' :: (inner ++ ']' :: rest) = ('[' :: inner ++ [']']) ++ rest := by simp
      rw [htext, List.getLast?_append_of_ne_nil _ hrestNe] at hclosing
      have hspace := List.all_eq_true.mp hspaces ']' (hrest ▸ List.mem_of_getLast? hclosing)
      cases hspace
    rw [hnil]
    exact ⟨inner, hinner, rfl⟩
  · cases h

/-- **The spellings of an array** with items are the texts, from bracket to bracket, that are read
as it. -/
theorem readStrings_eq_ok_iff {items : List String} (hne : items ≠ [])
    (hopening : cs.head? = some '[') (hclosing : cs.getLast? = some ']') :
    readStrings cs = .ok items ↔ SpellsArray items cs :=
  ⟨fun h => spellsArray_of_readStrings h hne hopening hclosing, readStrings_of_spellsArray⟩

end RuleLang.Json
