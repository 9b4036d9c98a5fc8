import Mathlib.Tactic.Tauto
import RuleLang.StringArray

/-!
# The text of a string array

The shape that a string array is written in, as a grammar (`StringArray.IsWritten`): items between
double quotes, commas between the items, blank characters around them, and brackets around all.

The pass over the characters decides this grammar (`hasShape_iff`). What it has to do with the
characters that are still to come is said for each state on its own (`Progress.Completes`), and one
character leads from what a state asks for to what the next state asks for
(`Progress.completes_cons_iff`).
-/

namespace RuleLang

namespace StringArray

/-- What stands between the quotes of an item: neither quotes nor backslashes, but for backslashes
with another character behind them. This one may be any but a line break. -/
inductive IsItem : List Char → Prop where
  | nil : IsItem []
  | plain {c : Char} {cs : List Char} (hquote : c ≠ '"') (hbackslash : c ≠ '\\')
      (hcs : IsItem cs) : IsItem (c :: cs)
  | escaped {c : Char} {cs : List Char} (hc : c ≠ '\n') (hcs : IsItem cs) :
      IsItem ('\\' :: c :: cs)

/-- One or more items with commas between them. -/
inductive AreItems : List Char → Prop where
  | last {before item after : List Char} (hbefore : allBlank before = true) (hitem : IsItem item)
      (hafter : allBlank after = true) : AreItems (before ++ '"' :: (item ++ '"' :: after))
  | cons {before item after items : List Char} (hbefore : allBlank before = true)
      (hitem : IsItem item) (hafter : allBlank after = true) (hitems : AreItems items) :
      AreItems (before ++ '"' :: (item ++ '"' :: (after ++ ',' :: items)))

/-- **The texts of string arrays.** -/
def IsWritten (cs : List Char) : Prop :=
  ∃ items, AreItems items ∧ cs = '[' :: items ++ [']']

/-- Blank characters, and behind them a text of which `rest` holds. -/
def AfterBlanks (rest : List Char → Prop) (cs : List Char) : Prop :=
  ∃ blanks behind, allBlank blanks = true ∧ rest behind ∧ cs = blanks ++ behind

variable {c : Char} {cs : List Char} {rest : List Char → Prop}

/-- The first character is already past the blanks, or is one of them. -/
theorem afterBlanks_cons :
    AfterBlanks rest (c :: cs) ↔ rest (c :: cs) ∨ isBlank c = true ∧ AfterBlanks rest cs := by
  constructor
  · rintro ⟨blanks, behind, hblanks, hrest, hcs⟩
    cases blanks with
    | nil =>
      rw [List.nil_append] at hcs
      exact Or.inl (hcs ▸ hrest)
    | cons b blanks =>
      obtain ⟨rfl, rfl⟩ := List.cons.inj hcs
      rw [allBlank, List.all_cons, Bool.and_eq_true] at hblanks
      exact Or.inr ⟨hblanks.1, blanks, behind, hblanks.2, hrest, rfl⟩
  · rintro (hrest | ⟨hc, blanks, behind, hblanks, hrest, rfl⟩)
    · exact ⟨[], c :: cs, rfl, hrest, rfl⟩
    · refine ⟨c :: blanks, behind, ?_, hrest, rfl⟩
      rw [allBlank, List.all_cons, hc, Bool.true_and]
      exact hblanks

/-! ### What each state asks for -/

/-- What comes after the bracket or a comma: items and the closing bracket. -/
def ItemsFollow (cs : List Char) : Prop :=
  ∃ items, AreItems items ∧ cs = items ++ [']']

/-- What comes after an item: a comma and more, or the closing bracket. -/
def EndFollows (cs : List Char) : Prop :=
  AfterBlanks (fun cs => cs = [']'] ∨ ∃ behind, cs = ',' :: behind ∧ ItemsFollow behind) cs

/-- What comes after the quote that opens an item. -/
def ItemFollows (cs : List Char) : Prop :=
  ∃ item behind, IsItem item ∧ EndFollows behind ∧ cs = item ++ '"' :: behind

/-- The texts that complete a string array from a state on. -/
def Progress.Completes : Progress → List Char → Prop
  | .start, cs => IsWritten cs
  | .beforeItem, cs => ItemsFollow cs
  | .inItem, cs => ItemFollows cs
  | .afterBackslash, cs => ∃ c behind, cs = c :: behind ∧ c ≠ '\n' ∧ ItemFollows behind
  | .afterItem, cs => EndFollows cs
  | .closed, cs => cs = []
  | .broken, _ => False

/-- Items follow just where a quote does, behind blanks, and behind it an item and its end. -/
theorem itemsFollow_iff :
    ItemsFollow cs ↔
      AfterBlanks (fun cs => ∃ behind, cs = '"' :: behind ∧ ItemFollows behind) cs := by
  constructor
  · -- the bracket at the end belongs to what follows the last item
    rintro ⟨items, hitems, rfl⟩
    cases hitems with
    | @last before item after hbefore hitem hafter =>
      refine ⟨before, _, hbefore, ⟨_, rfl, item, after ++ [']'], hitem, ?_, rfl⟩, by simp⟩
      exact ⟨after, [']'], hafter, Or.inl rfl, rfl⟩
    | @cons before item after items hbefore hitem hafter hitems =>
      refine ⟨before, _, hbefore, ⟨_, rfl, item, after ++ ',' :: (items ++ [']']), hitem, ?_, rfl⟩,
        by simp⟩
      exact ⟨after, _, hafter, Or.inr ⟨_, rfl, items, hitems, rfl⟩, rfl⟩
  · rintro ⟨before, _, hbefore, ⟨_, rfl, item, _, hitem, ⟨after, _, hafter, hend, rfl⟩, rfl⟩, rfl⟩
    rcases hend with rfl | ⟨_, rfl, items, hitems, rfl⟩
    · exact ⟨_, .last hbefore hitem hafter, by simp⟩
    · exact ⟨_, .cons hbefore hitem hafter hitems, by simp⟩

/-! ### One character further -/

/-- In front of an item a quote opens it, or the blanks go on. -/
theorem itemsFollow_cons :
    ItemsFollow (c :: cs) ↔ c = '"' ∧ ItemFollows cs ∨ isBlank c = true ∧ ItemsFollow cs := by
  have hquote : (∃ behind, c :: cs = '"' :: behind ∧ ItemFollows behind) ↔
      c = '"' ∧ ItemFollows cs := by
    simp only [List.cons.injEq, and_assoc, exists_and_left, exists_eq_left']
  rw [itemsFollow_iff, afterBlanks_cons, ← itemsFollow_iff, hquote]

/-- Behind an item stand a comma, the last bracket or a blank. -/
theorem endFollows_cons :
    EndFollows (c :: cs) ↔
      c = ',' ∧ ItemsFollow cs ∨ c = ']' ∧ cs = [] ∨ isBlank c = true ∧ EndFollows cs := by
  have hcomma : (∃ behind, c :: cs = ',' :: behind ∧ ItemsFollow behind) ↔
      c = ',' ∧ ItemsFollow cs := by
    simp only [List.cons.injEq, and_assoc, exists_and_left, exists_eq_left']
  rw [EndFollows, afterBlanks_cons, ← EndFollows, hcomma, List.cons.injEq]
  tauto

/-- Inside an item a character closes it, starts an escape or belongs to it. -/
theorem itemFollows_cons :
    ItemFollows (c :: cs) ↔ c = '"' ∧ EndFollows cs ∨
      c = '\\' ∧ (∃ d behind, cs = d :: behind ∧ d ≠ '\n' ∧ ItemFollows behind) ∨
      (c ≠ '"' ∧ c ≠ '\\') ∧ ItemFollows cs := by
  constructor
  · -- the three ways to go on are the three rules for an item
    rintro ⟨item, behind, hitem, hend, hcs⟩
    cases hitem with
    | nil =>
      obtain ⟨rfl, rfl⟩ := List.cons.inj hcs
      exact Or.inl ⟨rfl, hend⟩
    | @plain d item hquote hbackslash hitem =>
      obtain ⟨rfl, rfl⟩ := List.cons.inj hcs
      exact Or.inr (Or.inr ⟨⟨hquote, hbackslash⟩, item, behind, hitem, hend, rfl⟩)
    | @escaped d item hd hitem =>
      obtain ⟨rfl, rfl⟩ := List.cons.inj hcs
      exact Or.inr (Or.inl ⟨rfl, d, _, rfl, hd, item, behind, hitem, hend, rfl⟩)
  · rintro (⟨rfl, hend⟩ | ⟨rfl, d, _, rfl, hd, item, behind, hitem, hend, rfl⟩ |
      ⟨⟨hquote, hbackslash⟩, item, behind, hitem, hend, rfl⟩)
    · exact ⟨[], cs, .nil, hend, rfl⟩
    · exact ⟨'\\' :: d :: item, behind, .escaped hd hitem, hend, rfl⟩
    · exact ⟨c :: item, behind, .plain hquote hbackslash hitem, hend, rfl⟩

namespace Progress

/-- Nothing is left to come after the closing bracket alone. -/
theorem completes_nil_iff {p : Progress} : p.Completes [] ↔ p = .closed := by
  cases p with
  | start => simp [Completes, IsWritten]
  | beforeItem => simp [Completes, ItemsFollow]
  | inItem => simp [Completes, ItemFollows]
  | afterBackslash => simp [Completes]
  | afterItem =>
    refine iff_of_false ?_ (by simp)
    rintro ⟨blanks, behind, -, hbehind, hnil⟩
    -- the bracket at least is still to come
    obtain ⟨-, rfl⟩ := List.append_eq_nil_iff.mp hnil.symm
    simp at hbehind
  | closed => exact iff_of_true rfl rfl
  | broken => exact iff_of_false id (by simp)

/-- **One character** leads to the state that asks for the characters behind it. -/
theorem completes_cons_iff {p : Progress} : p.Completes (c :: cs) ↔ (p.next c).Completes cs := by
  cases p with
  | start =>
    by_cases hc : c = '['
    · subst hc
      simp [next, Completes, IsWritten, ItemsFollow]
    · simp [next, Completes, IsWritten, hc]
  | beforeItem =>
    rw [Completes, itemsFollow_cons]
    -- a quote is not blank, so at most one of the two goes on
    by_cases hquote : c = '"'
    · subst hquote
      have hblank : isBlank '"' = false := by decide
      simp [next, Completes, hblank]
    · by_cases hblank : isBlank c <;> simp [next, Completes, hquote, hblank]
  | inItem =>
    rw [Completes, itemFollows_cons]
    -- a quote closes the item, and a backslash takes the character behind it along
    by_cases hquote : c = '"'
    · subst hquote
      simp [next, Completes]
    · by_cases hbackslash : c = '\\' <;> simp [next, Completes, hquote, hbackslash]
  | afterBackslash =>
    have hbehind : Completes .afterBackslash (c :: cs) ↔ c ≠ '\n' ∧ ItemFollows cs := by
      simp only [Completes, List.cons.injEq, and_assoc, exists_and_left, exists_eq_left']
    rw [hbehind]
    by_cases hc : c = '\n' <;> simp [next, Completes, hc]
  | afterItem =>
    rw [Completes, endFollows_cons]
    -- neither is a comma or a bracket
    by_cases hcomma : c = ','
    · subst hcomma
      have hblank : isBlank ',' = false := by decide
      simp [next, Completes, hblank]
    · by_cases hbracket : c = ']'
      · subst hbracket
        have hblank : isBlank ']' = false := by decide
        simp [next, Completes, hblank]
      · by_cases hblank : isBlank c <;> simp [next, Completes, hcomma, hbracket, hblank]
  | closed => simp [next, Completes]
  | broken => rfl

/-- The states that a text leads through end in the last one just where it completes an array. -/
theorem foldl_next_eq_closed_iff {p : Progress} : cs.foldl next p = .closed ↔ p.Completes cs := by
  induction cs generalizing p with
  | nil => exact completes_nil_iff.symm
  | cons c cs ih => rw [List.foldl_cons, ih, completes_cons_iff]

end Progress

/-- **The shape of string arrays** is the grammar. -/
theorem hasShape_iff : hasShape cs = true ↔ IsWritten cs := by
  rw [hasShape, decide_eq_true_iff]
  exact Progress.foldl_next_eq_closed_iff

end StringArray

end RuleLang
