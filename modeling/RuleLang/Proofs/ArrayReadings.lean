import RuleLang.Proofs.JsonReading
import RuleLang.Proofs.Membership

/-!
# Three readings of a string array

A string array is looked at three times: the search for lexemes takes a group for it, the shape
decides that the group is one, and the items are read when an operator asks for them. Each reading
has its own rule for where things end.

* A group ends at the first bracket, wherever this stands. The shape goes by quotes, and an item may
  hold brackets. So a text with the shape of a string array is a token only if its brackets are the
  two at its ends (`tokenize_stringArray_iff`).
* The shape looks at an escape's first letter only, takes every blank character for white space, and
  every character for a part of an item. The reader of the items is JSON's and takes less. What it
  does not take is said place by place (`ReadableAt`): blank characters outside the items that JSON
  does not know, control characters in an item, and escapes that are none. Nothing else makes a
  string array unreadable, and nothing but string arrays is read (`arrayItems_iff_readable`).

Both sides of the second point are followed along the text, with the state that the shape is in.
Blank runs keep the state, and so does an item as a whole, so an item with the blanks around it is
one step (`readableFrom_item_iff`), and the items of an array go one by one.
-/

namespace RuleLang

/-! ### Legal escapes -/

namespace Json

open StringArray (IsItem AreItems IsWritten)

/-- **What stands in an item if every backslash starts an escape** of JSON: a letter's, that of a
code unit which is a character, or those of a pair's two halves, one behind the other. -/
inductive EscapesLegal : List Char → Prop where
  | nil : EscapesLegal []
  | plain {c : Char} {cs : List Char} (hquote : c ≠ '"') (hbackslash : c ≠ '\\')
      (hcs : EscapesLegal cs) : EscapesLegal (c :: cs)
  | short {c letter : Char} {cs : List Char} (hletter : (c, letter) ∈ shortEscapes)
      (hcs : EscapesLegal cs) : EscapesLegal ('\\' :: letter :: cs)
  | unit {unit : Nat} {quad cs : List Char} (hquad : IsHexQuad unit quad)
      (hlow : isLowSurrogate unit = false) (hhigh : isHighSurrogate unit = false)
      (hcs : EscapesLegal cs) : EscapesLegal ('\\' :: 'u' :: (quad ++ cs))
  | pair {high low : Nat} {quad quad' cs : List Char} (hquad : IsHexQuad high quad)
      (hhigh : isHighSurrogate high = true) (hquad' : IsHexQuad low quad')
      (hlow : isLowSurrogate low = true) (hcs : EscapesLegal cs) :
      EscapesLegal ('\\' :: 'u' :: (quad ++ '\\' :: 'u' :: (quad' ++ cs)))

/-- Escapes that are legal for JSON are escapes of an item. -/
theorem EscapesLegal.isItem {cs : List Char} (h : EscapesLegal cs) : IsItem cs := by
  induction h with
  | nil => exact .nil
  | plain hquote hbackslash _ ih => exact .plain hquote hbackslash ih
  | short hletter _ ih =>
    -- an item may escape anything but a line feed
    have hletters : ∀ entry ∈ shortEscapes, entry.2 ≠ '\n' := by decide
    exact .escaped (hletters _ hletter) ih
  | unit hquad _ _ _ ih => exact .escaped (by decide) (isItem_append hquad.forall_ne ih)
  | pair hquad _ hquad' _ _ ih =>
    exact .escaped (by decide) (isItem_append hquad.forall_ne
      (.escaped (by decide) (isItem_append hquad'.forall_ne ih)))

/-- No control character: each stands for itself or can be seen. -/
def NoControl (cs : List Char) : Prop := ∀ c ∈ cs, 0x20 ≤ c.toNat

/-- The digits of a code unit are no control characters. -/
theorem IsHexQuad.noControl {unit : Nat} {quad : List Char} (h : IsHexQuad unit quad) :
    NoControl quad := by
  have hdigits : ∀ n < 16, 0x20 ≤ (Nat.digitChar n).toNat ∧
      0x20 ≤ (Nat.digitChar n).toUpper.toNat := by decide
  have hdigit {value : Nat} {c : Char} (hc : IsHexDigit value c) : 0x20 ≤ c.toNat := by
    obtain ⟨hvalue, rfl | rfl⟩ := hc
    · exact (hdigits value hvalue).1
    · exact (hdigits value hvalue).2
  obtain ⟨a, b, c, d, rfl, ha, hb, hc, hd⟩ := h.exists_digits
  simp only [NoControl, List.forall_mem_cons]
  exact ⟨hdigit ha, hdigit hb, hdigit hc, hdigit hd, fun _ h => absurd h List.not_mem_nil⟩

/-- A spelling of a character has legal escapes and no control characters. -/
theorem SpellsChar.escapesLegal {c : Char} {spelled rest : List Char} (h : SpellsChar c spelled)
    (hrest : EscapesLegal rest) : EscapesLegal (spelled ++ rest) ∧ NoControl spelled := by
  -- by the four ways to spell a character, each of which is a rule for legal escapes
  cases h with
  | plain hquote hbackslash hcontrol =>
    exact ⟨.plain hquote hbackslash hrest, by simpa [NoControl] using hcontrol⟩
  | short hshort =>
    have hletters : ∀ entry ∈ shortEscapes, 0x20 ≤ entry.2.toNat := by decide
    refine ⟨.short hshort hrest, ?_⟩
    simp only [NoControl, List.forall_mem_cons]
    exact ⟨by decide, hletters _ hshort, fun _ h => absurd h List.not_mem_nil⟩
  | unit hquad =>
    obtain ⟨hlow, hhigh⟩ := not_isSurrogate c
    refine ⟨.unit hquad hlow hhigh hrest, ?_⟩
    have hquad := hquad.noControl
    simp only [NoControl, List.forall_mem_cons]
    exact ⟨by decide, by decide, hquad⟩
  | pair habove hhigh hlow =>
    obtain ⟨-, hisHigh, hisLow, -⟩ := surrogates_of_lt habove
    constructor
    · rw [List.cons_append, List.cons_append, List.append_assoc]
      exact .pair hhigh hisHigh hlow hisLow hrest
    · have hfirst := hhigh.noControl
      have hsecond := hlow.noControl
      simp only [NoControl, List.forall_mem_cons, List.forall_mem_append]
      exact ⟨by decide, by decide, hfirst, by decide, by decide, hsecond⟩

/-- **The spellings of strings** are the items with legal escapes and without control characters. -/
theorem exists_spells_iff {item : List Char} :
    (∃ s : String, Spells s.toList item) ↔ EscapesLegal item ∧ NoControl item := by
  constructor
  · rintro ⟨s, hspells⟩
    generalize s.toList = text at hspells
    induction hspells with
    | nil => exact ⟨.nil, fun c hc => absurd hc List.not_mem_nil⟩
    | cons hc _ ih =>
      obtain ⟨hlegal, hcontrol⟩ := hc.escapesLegal ih.1
      exact ⟨hlegal, List.forall_mem_append.mpr ⟨hcontrol, ih.2⟩⟩
  · rintro ⟨hlegal, hcontrol⟩
    suffices hspells : ∃ s, Spells s item by
      obtain ⟨s, hs⟩ := hspells
      exact ⟨String.ofList s, by rwa [String.toList_ofList]⟩
    -- each character is spelled by itself, each escape by the character that it denotes
    induction hlegal with
    | nil => exact ⟨[], .nil⟩
    | @plain c cs hquote hbackslash _ ih =>
      obtain ⟨hc, hcs⟩ := List.forall_mem_cons.mp hcontrol
      obtain ⟨s, hs⟩ := ih hcs
      exact ⟨c :: s, .cons (.plain hquote hbackslash hc) hs⟩
    | @short c letter cs hletter _ ih =>
      obtain ⟨-, hcontrol⟩ := List.forall_mem_cons.mp hcontrol
      obtain ⟨s, hs⟩ := ih (List.forall_mem_cons.mp hcontrol).2
      exact ⟨c :: s, .cons (.short hletter) hs⟩
    | @unit unit quad cs hquad hlow hhigh _ ih =>
      obtain ⟨s, hs⟩ := ih fun c hc => hcontrol c (by simp [hc])
      exact ⟨_, .cons (.unit (isHexQuad_toNat hquad hlow hhigh)) hs⟩
    | @pair high low quad quad' cs hquad hhigh hquad' hlow _ ih =>
      obtain ⟨s, hs⟩ := ih fun c hc => hcontrol c (by simp [hc])
      obtain ⟨habove, hfirst, hsecond⟩ := surrogates_ofSurrogates hhigh hlow
      -- the two halves are those of the character that they are put together to
      have hpair : SpellsChar (ofSurrogates high low)
          ('\\' :: 'u' :: (quad ++ '\\' :: 'u' :: quad')) :=
        .pair habove (by rwa [hfirst]) (by rwa [hsecond])
      have hspells := Spells.cons hpair hs
      rw [List.cons_append, List.cons_append, List.append_assoc] at hspells
      exact ⟨_, hspells⟩

end Json

/-! ### What makes an array readable -/

namespace StringArray

open Json (isSpace EscapesLegal NoControl)

/-- Outside the items, where blank characters may stand. -/
def Progress.IsOutside (p : Progress) : Prop := p = .beforeItem ∨ p = .afterItem

/-- Inside an item. -/
def Progress.IsInside (p : Progress) : Prop := p = .inItem ∨ p = .afterBackslash

/-- **What JSON wants of a character** in a string array, after characters that lead to the state
`p`, and in front of the characters `after`. -/
structure ReadableAt (p : Progress) (c : Char) (after : List Char) : Prop where
  /-- A blank character outside the items is white space of JSON. -/
  space : p.IsOutside → isBlank c = true → isSpace c = true
  /-- A character of an item is no control character. -/
  control : p.IsInside → 0x20 ≤ c.toNat
  /-- Between a quote that opens an item and the one that closes it, all escapes are legal. -/
  escapes : p = .beforeItem → c = '"' →
    ∃ item rest, after = item ++ '"' :: rest ∧ EscapesLegal item

/-- What JSON wants of each character, where the first comes after the state `p`. -/
def ReadableFrom (p : Progress) (cs : List Char) : Prop :=
  ∀ before c after, cs = before ++ c :: after → ReadableAt (before.foldl Progress.next p) c after

/-- **What JSON wants of the characters** of a string array. -/
def Readable (cs : List Char) : Prop := ReadableFrom .start cs

variable {p : Progress} {c : Char} {cs : List Char}

/-- Nothing is wanted where nothing follows. -/
theorem readableFrom_nil : ReadableFrom p [] := by
  intro before c after h
  simp at h

/-- **One character more** is wanted to be readable in front of the others, and these after it. -/
theorem readableFrom_cons :
    ReadableFrom p (c :: cs) ↔ ReadableAt p c cs ∧ ReadableFrom (p.next c) cs := by
  constructor
  · intro h
    refine ⟨h [] c cs rfl, fun before d after hcs => ?_⟩
    exact h (c :: before) d after (by rw [hcs]; rfl)
  · rintro ⟨hc, hcs⟩ before d after htext
    cases before with
    | nil =>
      obtain ⟨rfl, rfl⟩ := List.cons.inj htext
      exact hc
    | cons b before =>
      obtain ⟨rfl, hrest⟩ := List.cons.inj htext
      exact hcs before d after hrest

/-! ### Along the text -/

/-- Blank characters outside the items change nothing. -/
theorem next_of_isBlank (hp : p.IsOutside) (hc : isBlank c = true) : p.next c = p := by
  rcases hp with rfl | rfl
  · rw [Progress.next, if_neg (ne_of_isBlank hc rfl), if_pos hc]
  · rw [Progress.next, if_neg (ne_of_isBlank hc rfl), if_neg (ne_of_isBlank hc rfl), if_pos hc]

/-- All that is wanted of a blank character outside the items is that it is white space of JSON. -/
theorem readableAt_of_isBlank (hp : p.IsOutside) (hc : isBlank c = true) :
    ReadableAt p c cs ↔ isSpace c = true := by
  constructor
  · intro h
    exact h.space hp hc
  · intro hspace
    refine ⟨fun _ _ => hspace, fun hinside => ?_, fun _ hquote => ?_⟩
    · rcases hp with rfl | rfl <;> simp [Progress.IsInside] at hinside
    · subst hquote
      cases hc

/-- **A run of blank characters** has to be white space of JSON. -/
theorem readableFrom_blanks (hp : p.IsOutside) {blanks : List Char}
    (hblanks : allBlank blanks = true) :
    ReadableFrom p (blanks ++ cs) ↔ blanks.all isSpace = true ∧ ReadableFrom p cs := by
  -- on the blanks: the state stays the same, so that the rest comes after it too
  induction blanks with
  | nil => rw [List.nil_append, List.all_nil, and_iff_right rfl]
  | cons b blanks ih =>
    obtain ⟨hb, hblanks⟩ : isBlank b = true ∧ allBlank blanks = true := by
      simpa [allBlank] using hblanks
    rw [List.cons_append, readableFrom_cons, next_of_isBlank hp hb, readableAt_of_isBlank hp hb,
      ih hblanks, List.all_cons, Bool.and_eq_true, and_assoc]

/-- All that is wanted of a character inside an item is that it is no control character. -/
theorem readableAt_of_isInside (hp : p.IsInside) : ReadableAt p c cs ↔ 0x20 ≤ c.toNat := by
  constructor
  · intro h
    exact h.control hp
  · intro hc
    refine ⟨fun houtside => ?_, fun _ => hc, fun hbefore => ?_⟩
    · rcases hp with rfl | rfl <;> simp [Progress.IsOutside] at houtside
    · rcases hp with rfl | rfl <;> cases hbefore

/-- **The characters of an item** have to be other than control characters. -/
theorem readableFrom_inItem {item : List Char} (hitem : IsItem item) :
    ReadableFrom .inItem (item ++ cs) ↔ NoControl item ∧ ReadableFrom .inItem cs := by
  have hinside (c : Char) (cs : List Char) : ReadableAt .inItem c cs ↔ 0x20 ≤ c.toNat :=
    readableAt_of_isInside (Or.inl rfl)
  -- by the rules for items; an escape takes two characters, and the state is inside for both
  induction hitem with
  | nil =>
    have hnil : NoControl [] := fun c hc => absurd hc List.not_mem_nil
    rw [List.nil_append, and_iff_right hnil]
  | @plain c item hquote hbackslash _ ih =>
    have hnext : Progress.next .inItem c = .inItem := by
      rw [Progress.next, if_neg hquote, if_neg hbackslash]
    rw [List.cons_append, readableFrom_cons, hnext, hinside, NoControl, List.forall_mem_cons,
      and_assoc]
    exact and_congr_right' ih
  | @escaped c item hc _ ih =>
    have hbackslash : Progress.next .inItem '\\' = .afterBackslash := rfl
    have hnext : Progress.next .afterBackslash c = .inItem := if_neg hc
    rw [List.cons_append, List.cons_append, readableFrom_cons, hbackslash, readableFrom_cons, hnext,
      hinside, readableAt_of_isInside (Or.inr rfl), NoControl, List.forall_mem_cons,
      List.forall_mem_cons, and_assoc, and_assoc]
    exact and_congr_right' (and_congr_right' ih)

/-- The quote that closes an item is the first one that no backslash stands in front of. -/
theorem IsItem.eq_of_append_eq {item item' rest rest' : List Char} (h : IsItem item)
    (h' : IsItem item') (heq : item ++ '"' :: rest = item' ++ '"' :: rest') : item = item' := by
  -- the items cannot part: a rule that takes a quote ends an item, and a backslash takes the
  -- character behind it
  induction h generalizing item' with
  | nil =>
    cases h' with
    | nil => rfl
    | plain hquote _ _ => exact absurd (List.cons.inj heq).1.symm hquote
    | escaped _ _ => cases (List.cons.inj heq).1
  | @plain c item hquote hbackslash _ ih =>
    cases h' with
    | nil => exact absurd (List.cons.inj heq).1 hquote
    | plain _ _ hitem' =>
      obtain ⟨rfl, hrest⟩ := List.cons.inj heq
      rw [ih hitem' hrest]
    | escaped _ _ => exact absurd (List.cons.inj heq).1 hbackslash
  | @escaped c item hc _ ih =>
    cases h' with
    | nil => cases (List.cons.inj heq).1
    | plain _ hbackslash _ => exact absurd (List.cons.inj heq).1.symm hbackslash
    | escaped _ hitem' =>
      obtain ⟨-, htail⟩ := List.cons.inj heq
      obtain ⟨rfl, hrest⟩ := List.cons.inj htail
      rw [ih hitem' hrest]

/-- All that is wanted of the quote that opens an item is that the escapes in the item are legal. -/
theorem readableAt_opening {item : List Char} (hitem : IsItem item) :
    ReadableAt .beforeItem '"' (item ++ '"' :: cs) ↔ EscapesLegal item := by
  constructor
  · intro h
    -- the item with legal escapes that starts here is this one: both end at the same quote
    obtain ⟨item', rest, heq, hlegal⟩ := h.escapes rfl rfl
    rwa [hitem.eq_of_append_eq hlegal.isItem heq]
  · intro hlegal
    refine ⟨fun _ hblank => ?_, fun hinside => ?_, fun _ _ => ⟨item, cs, rfl, hlegal⟩⟩
    · cases hblank
    · simp [Progress.IsInside] at hinside

/-- A character that ends a state outside the items is wanted by JSON too. -/
theorem readableAt_mark {after : List Char} (hp : ¬ p.IsInside) (hblank : isBlank c = false)
    (hquote : c ≠ '"') : ReadableAt p c after :=
  ⟨fun _ h => absurd h (by simp [hblank]), fun h => absurd h hp, fun _ h => absurd h hquote⟩

/-- **An item with the blanks around it** has to be a spelling of a string between white space. -/
theorem readableFrom_item_iff {before item after : List Char} (hbefore : allBlank before = true)
    (hitem : IsItem item) (hafter : allBlank after = true) :
    ReadableFrom .beforeItem (before ++ '"' :: (item ++ '"' :: (after ++ cs))) ↔
      before.all isSpace = true ∧ (∃ s : String, Json.Spells s.toList item) ∧
        after.all isSpace = true ∧ ReadableFrom .afterItem cs := by
  have hopening : Progress.next .beforeItem '"' = .inItem := rfl
  have hclosing : Progress.next .inItem '"' = .afterItem := rfl
  have hquote (cs : List Char) : ReadableAt .inItem '"' cs :=
    (readableAt_of_isInside (Or.inl rfl)).mpr (by decide)
  -- state by state along the text: blanks, quote, item, quote, blanks
  rw [readableFrom_blanks (Or.inl rfl) hbefore, readableFrom_cons, hopening,
    readableAt_opening hitem, readableFrom_inItem hitem, readableFrom_cons, hclosing,
    readableFrom_blanks (Or.inr rfl) hafter, Json.exists_spells_iff, and_iff_right (hquote _),
    and_assoc]

/-- The closing bracket is readable. -/
theorem readableFrom_afterItem_closing : ReadableFrom .afterItem [']'] := by
  refine readableFrom_cons.mpr ⟨readableAt_mark ?_ rfl (by decide), readableFrom_nil⟩
  simp [Progress.IsInside]

/-- A comma is readable, and behind it an item is wanted. -/
theorem readableFrom_afterItem_comma :
    ReadableFrom .afterItem (',' :: cs) ↔ ReadableFrom .beforeItem cs := by
  have hcomma : ReadableAt .afterItem ',' cs := by
    refine readableAt_mark ?_ rfl (by decide)
    simp [Progress.IsInside]
  rw [readableFrom_cons, and_iff_right hcomma]
  rfl

theorem item_append (before item after cs : List Char) :
    before ++ '"' :: (item ++ '"' :: after) ++ cs
      = before ++ '"' :: (item ++ '"' :: (after ++ cs)) := by
  simp

/-- Readable items are spellings. -/
theorem AreItems.exists_spellsItems {items : List Char} (h : AreItems items)
    (hread : ReadableFrom .beforeItem (items ++ [']'])) :
    ∃ strings, Json.SpellsItems strings items := by
  -- by the rules for items; each item with its blanks is taken off from the front
  induction h with
  | @last before item after hbefore hitem hafter =>
    rw [item_append, readableFrom_item_iff hbefore hitem hafter] at hread
    obtain ⟨hbefore, ⟨s, hs⟩, hafter, -⟩ := hread
    exact ⟨[s], .last hbefore hs hafter⟩
  | @cons before item after items hbefore hitem hafter _ ih =>
    rw [item_append, List.append_assoc, List.cons_append,
      readableFrom_item_iff hbefore hitem hafter, readableFrom_afterItem_comma] at hread
    obtain ⟨hbefore, ⟨s, hs⟩, hafter, hitems⟩ := hread
    obtain ⟨strings, hstrings⟩ := ih hitems
    exact ⟨s :: strings, .cons hbefore hs hafter hstrings⟩

/-- Spellings are readable. -/
theorem readableFrom_of_spellsItems {strings : List String} {items : List Char}
    (h : Json.SpellsItems strings items) : ReadableFrom .beforeItem (items ++ [']']) := by
  induction h with
  | @last item before spelled after hbefore hitem hafter =>
    rw [item_append, readableFrom_item_iff (Json.allBlank_of_isSpace hbefore) hitem.isItem
      (Json.allBlank_of_isSpace hafter)]
    exact ⟨hbefore, ⟨item, hitem⟩, hafter, readableFrom_afterItem_closing⟩
  | @cons item _ before spelled after _ hbefore hitem hafter _ ih =>
    rw [item_append, List.append_assoc, List.cons_append,
      readableFrom_item_iff (Json.allBlank_of_isSpace hbefore) hitem.isItem
        (Json.allBlank_of_isSpace hafter), readableFrom_afterItem_comma]
    exact ⟨hbefore, ⟨item, hitem⟩, hafter, ih⟩

/-- The opening bracket is readable, and behind it an item is wanted. -/
theorem readable_iff {items : List Char} :
    Readable ('[' :: items) ↔ ReadableFrom .beforeItem items := by
  have hopening : ReadableAt .start '[' items := by
    refine readableAt_mark ?_ rfl (by decide)
    simp [Progress.IsInside]
  rw [Readable, readableFrom_cons, and_iff_right hopening]
  rfl

/-- **The spellings of arrays** are the texts with the shape of a string array that JSON can read.
-/
theorem exists_spellsArray_iff :
    (∃ strings, Json.SpellsArray strings cs) ↔ IsWritten cs ∧ Readable cs := by
  constructor
  · rintro ⟨strings, hspells⟩
    refine ⟨Json.isWritten_of_spellsArray hspells, ?_⟩
    obtain ⟨items, hitems, rfl⟩ := hspells
    exact readable_iff.mpr (readableFrom_of_spellsItems hitems)
  · rintro ⟨⟨items, hitems, rfl⟩, hread⟩
    obtain ⟨strings, hstrings⟩ := hitems.exists_spellsItems (readable_iff.mp hread)
    exact ⟨strings, items, hstrings, rfl⟩

/-- A text with the shape of a string array has an item in front of its closing bracket. -/
theorem head?_skipSpace_ne_closing {items : List Char} (h : AreItems items) :
    (Json.skipSpace (items ++ [']'])).head? ≠ some ']' := by
  have hquote {before rest : List Char} (hbefore : allBlank before = true) :
      (Json.skipSpace (before ++ '"' :: rest)).head? ≠ some ']' := by
    induction before with
    | nil => simp [Json.skipSpace, isSpace]
    | cons b before ih =>
      obtain ⟨hb, hbefore⟩ : isBlank b = true ∧ allBlank before = true := by
        simpa [allBlank] using hbefore
      by_cases hspace : isSpace b = true
      · rw [List.cons_append, Json.skipSpace, List.dropWhile_cons_of_pos hspace]
        exact ih hbefore
      · -- a blank character that is no white space of JSON is no bracket either
        rw [List.cons_append, Json.skipSpace, List.dropWhile_cons_of_neg hspace, List.head?_cons]
        rintro ⟨⟩
        cases hb
  cases h with
  | last hbefore _ _ =>
    rw [List.append_assoc, List.cons_append]
    exact hquote hbefore
  | cons hbefore _ _ _ =>
    rw [List.append_assoc, List.cons_append]
    exact hquote hbefore

/-- No text with the shape of a string array is read as the empty list. -/
theorem ne_nil_of_readStrings {items : List String} (hwritten : IsWritten cs)
    (h : Json.readStrings cs = .ok items) : items ≠ [] := by
  rintro rfl
  obtain ⟨inner, hinner, rfl⟩ := hwritten
  have hskip : Json.skipSpace ('[' :: inner ++ [']']) = '[' :: (inner ++ [']']) := rfl
  rw [Json.readStrings, hskip] at h
  obtain ⟨⟨found, rest⟩, hread, h⟩ := Json.exists_of_bind_eq_ok h
  obtain rfl : found = [] := by
    dsimp only at h
    split at h
    · exact Except.ok.inj h
    · cases h
  unfold Json.readItems at hread
  -- an empty list is read in front of a closing bracket only, and there is an item in front of it
  split at hread
  · cases hread
  · rename_i hclosing
    exact head?_skipSpace_ne_closing hinner (by rw [hclosing]; rfl)
  · obtain ⟨_, _, hread⟩ := Json.exists_of_bind_eq_ok hread
    obtain ⟨_, _, hread⟩ := Json.exists_of_bind_eq_ok hread
    cases hread

end StringArray

/-! ### Classified and read -/

/-- Being classified as a string array is a matter of the shape. -/
theorem Value.classify_eq_stringArray_iff {text : String} :
    classify text = .stringArray text ↔ StringArray.IsWritten text.toList := by
  constructor
  · intro h
    have hclassified := classifiedAs_classify text
    rw [h] at hclassified
    cases hclassified with
    | stringArray hshape => exact StringArray.hasShape_iff.mp hshape
  · intro h
    have hclassify := classify_stringArray h
    rwa [String.ofList_toList] at hclassify

theorem arrayItems_eq_ok_iff {text : String} {items : List String} :
    arrayItems text = .ok items ↔ Json.readStrings text.toList = .ok items :=
  mapError_eq_ok_iff

/-- Whether the items can be read shows in the text, once this is classified as a string array. -/
theorem exists_arrayItems_iff {text : String} (h : Value.classify text = .stringArray text) :
    (∃ items, arrayItems text = .ok items) ↔ StringArray.Readable text.toList := by
  have hwritten := Value.classify_eq_stringArray_iff.mp h
  have hends : text.toList.head? = some '[' ∧ text.toList.getLast? = some ']' := by
    obtain ⟨inner, -, htext⟩ := hwritten
    rw [htext]
    exact ⟨rfl, List.getLast?_concat⟩
  -- the items are read if there is a spelling of them, and the spellings are the readable texts
  calc (∃ items, arrayItems text = .ok items)
      ↔ ∃ items, Json.SpellsArray items text.toList := by
        refine exists_congr fun items => ?_
        rw [arrayItems_eq_ok_iff]
        constructor
        · intro hread
          exact Json.spellsArray_of_readStrings hread
            (StringArray.ne_nil_of_readStrings hwritten hread) hends.1 hends.2
        · exact Json.readStrings_of_spellsArray
    _ ↔ StringArray.Readable text.toList := by
        rw [StringArray.exists_spellsArray_iff, and_iff_right hwritten]

/-- Where an item is wanted of a text that is classified as a string array but cannot be read, there
is an error. -/
theorem exists_error_arrayItems {text : String} (h : Value.classify text = .stringArray text)
    (hunreadable : ¬ StringArray.Readable text.toList) : ∃ e, arrayItems text = .error e := by
  rw [exists_error_iff]
  intro items hitems
  exact hunreadable ((exists_arrayItems_iff h).mp ⟨items, hitems⟩)

/-- The membership operators fail exactly where it is not found out whether there is an item. -/
theorem exists_error_combine_iff {op : Operator} (hop : op = .contains ∨ op = .notContains)
    {a b : Value} {found : Prop} (hfound : found → ∃ held, contains? a b = .ok (some held))
    (hnotFound : ¬ found → ∃ e, contains? a b = .error e) :
    (∃ e, combine op a b = .error e) ↔ ¬ found := by
  constructor
  · rintro ⟨e, he⟩ hin
    obtain ⟨held, hheld⟩ := hfound hin
    obtain ⟨hcontains, hnotContains⟩ := combine_membership hheld
    rcases hop with rfl | rfl
    · cases hcontains.symm.trans he
    · cases hnotContains.symm.trans he
  · intro hout
    obtain ⟨e, he⟩ := hnotFound hout
    refine ⟨e, ?_⟩
    rcases hop with rfl | rfl
    · rw [combine, he]
      rfl
    · rw [combine, he]
      rfl

/-- **The items that are read and the arrays that are classified.** A text from bracket to bracket
is read as a list with items exactly if it is a string array whose white space, characters and
escapes are those of JSON. So the membership operators fail on a string array for that reason alone.
-/
theorem arrayItems_iff_readable {text : String} (hopening : text.toList.head? = some '[')
    (hclosing : text.toList.getLast? = some ']') :
    ((∃ items, items ≠ [] ∧ arrayItems text = .ok items) ↔
      Value.classify text = .stringArray text ∧ StringArray.Readable text.toList) ∧
    (Value.classify text = .stringArray text →
      ∀ op, op = .contains ∨ op = .notContains →
        (∀ item, (∃ e, combine op (.stringArray text) (.string item) = .error e) ↔
          ¬ StringArray.Readable text.toList) ∧
        ∀ wanted, Value.classify wanted = .stringArray wanted →
          ((∃ e, combine op (.stringArray text) (.stringArray wanted) = .error e) ↔
            ¬ (StringArray.Readable text.toList ∧ StringArray.Readable wanted.toList))) := by
  constructor
  · -- both sides speak of the spellings of the text
    rw [Value.classify_eq_stringArray_iff, ← StringArray.exists_spellsArray_iff]
    constructor
    · rintro ⟨items, hne, hitems⟩
      rw [arrayItems_eq_ok_iff, Json.readStrings_eq_ok_iff hne hopening hclosing] at hitems
      exact ⟨items, hitems⟩
    · rintro ⟨items, hspells⟩
      have hread := Json.readStrings_of_spellsArray hspells
      have hne := StringArray.ne_nil_of_readStrings (Json.isWritten_of_spellsArray hspells) hread
      exact ⟨items, hne, arrayItems_eq_ok_iff.mpr hread⟩
  · intro htext op hop
    refine ⟨fun item => ?_, fun wanted hwanted => ?_⟩
    · refine exists_error_combine_iff hop (fun hread => ?_) (fun hunreadable => ?_)
      · obtain ⟨items, hitems⟩ := (exists_arrayItems_iff htext).mpr hread
        exact ⟨_, contains?_item hitems item⟩
      · obtain ⟨e, he⟩ := exists_error_arrayItems htext hunreadable
        exact ⟨e, by rw [contains?, he]; rfl⟩
    · refine exists_error_combine_iff hop (fun hread => ?_) (fun hunreadable => ?_)
      · obtain ⟨items, hitems⟩ := (exists_arrayItems_iff htext).mpr hread.1
        obtain ⟨others, hothers⟩ := (exists_arrayItems_iff hwanted).mpr hread.2
        exact ⟨_, contains?_items hitems hothers⟩
      · -- the array on the left is read first
        rcases em (StringArray.Readable text.toList) with hread | htextUnreadable
        · obtain ⟨items, hitems⟩ := (exists_arrayItems_iff htext).mpr hread
          obtain ⟨e, he⟩ := exists_error_arrayItems hwanted fun hwantedRead =>
            hunreadable ⟨hread, hwantedRead⟩
          exact ⟨e, by rw [contains?, hitems, he]; rfl⟩
        · obtain ⟨e, he⟩ := exists_error_arrayItems htext htextUnreadable
          exact ⟨e, by rw [contains?, he]; rfl⟩

/-- An escaped bracket between white space is read, a first code unit without its second is not. -/
theorem arrayItems_iff_readable_escapes :
    StringArray.Readable "[ \"\\u005B\" ,\t\"b\"]".toList ∧
      Value.classify "[\"\\uD83D\"]" = .stringArray "[\"\\uD83D\"]" ∧
      ¬ StringArray.Readable "[\"\\uD83D\"]".toList := by
  have hitems : arrayItems "[ \"\\u005B\" ,\t\"b\"]" = .ok ["[", "b"] := by decide +kernel
  have hclassify : Value.classify "[\"\\uD83D\"]" = .stringArray "[\"\\uD83D\"]" := by
    decide +kernel
  have hfails : combine .contains (.stringArray "[\"\\uD83D\"]") (.string "b")
      = .error (.malformed (.unreadableArray "[\"\\uD83D\"]" ⟨.endOfHexEscape, 1⟩)) := by
    decide +kernel
  have hread := (@arrayItems_iff_readable "[ \"\\u005B\" ,\t\"b\"]" rfl rfl).1
  have hfail := (@arrayItems_iff_readable "[\"\\uD83D\"]" rfl rfl).2
  exact ⟨(hread.mp ⟨_, List.cons_ne_nil _ _, hitems⟩).2, hclassify,
    ((hfail hclassify _ (Or.inl rfl)).1 "b").mp ⟨_, hfails⟩⟩

/-! ### Classified and found -/

/-- The brackets of a text are the two at its ends. -/
def StringArray.OuterBracketsOnly (cs : List Char) : Prop :=
  ∃ inner, cs = '[' :: inner ++ [']'] ∧ '[' ∉ inner ∧ ']' ∉ inner

/-- **The string arrays that are tokens.** A string array is the only token of its text exactly if
its brackets are the two at its ends, and no other string array is a token of any expression. -/
theorem tokenize_stringArray_iff (text : String) :
    ((tokenize text).outcome = .ok [.stringArray text] ↔
      Value.classify text = .stringArray text ∧
        StringArray.OuterBracketsOnly text.toList) ∧
    ((∃ expression tokens, (tokenize expression).outcome = .ok tokens ∧
        .stringArray text ∈ tokens) ↔
      Value.classify text = .stringArray text ∧
        StringArray.OuterBracketsOnly text.toList) := by
  -- whatever the expression, its tokens are such as can be written
  have hfound {expression : String} {tokens : List Value}
      (htokens : (tokenize expression).outcome = .ok tokens) (hmem : .stringArray text ∈ tokens) :
      Value.classify text = .stringArray text ∧ StringArray.OuterBracketsOnly text.toList := by
    obtain ⟨hwritten, houter⟩ := (writable_of_tokenize htokens).lexical _ hmem
    exact ⟨Value.classify_eq_stringArray_iff.mpr hwritten, houter⟩
  have hsingle (hclassify : Value.classify text = .stringArray text)
      (houter : StringArray.OuterBracketsOnly text.toList) :
      (tokenize text).outcome = .ok [.stringArray text] := by
    -- brackets at the ends alone are what makes the array one lexeme
    have hlexical : ∀ token ∈ [Value.stringArray text], token.IsLexical := by
      rw [List.forall_mem_singleton]
      exact ⟨Value.classify_eq_stringArray_iff.mp hclassify, houter⟩
    have hpieces := pieces_literals hlexical
    exact tokenize_of_pieces hpieces (List.cons_ne_nil _ _) hlexical
      ⟨fun hnegative => absurd hnegative id, trivial⟩ rfl
  constructor
  · constructor
    · intro htokens
      exact hfound htokens List.mem_cons_self
    · rintro ⟨hclassify, houter⟩
      exact hsingle hclassify houter
  · constructor
    · rintro ⟨expression, tokens, htokens, hmem⟩
      exact hfound htokens hmem
    · rintro ⟨hclassify, houter⟩
      exact ⟨text, _, hsingle hclassify houter, List.mem_cons_self⟩

/-- A bracket in an item ends the group that is looked for, and nothing of the array is a token. -/
theorem tokenize_stringArray_with_bracket :
    Value.classify "[\"a]\"]" = .stringArray "[\"a]\"]" ∧
      (tokenize "[\"a]\"]").outcome = .ok [] := by
  decide +kernel

end RuleLang
