import RuleLang.Proofs.LexemeForms

/-!
# Pieces of a concatenation

The texts of the lexemes of an expression, without their places (`pieces`), and what becomes of them
when the expression goes on with a separator: then the pieces of the two parts come one after the
other. No piece reaches over the seam, none ends early because of it, and none comes up in front of
it.

For the last of these, the first part must not leave a mark open that the second part closes. There
are two ways to see that it does not: every mark of the first part is inside one of its lexemes
(`pieces_append_of_marksCovered`), or the second part has nothing that closes a mark
(`pieces_append_of_not_mem`). The search goes from piece to piece, and so does the induction that
both are cases of (`pieces_append`).
-/

namespace RuleLang

/-- The texts of the lexemes of a text. -/
def pieces (cs : List Char) : List (List Char) :=
  (Lexeme.scan 0 cs).map (·.text)

namespace Lexeme

variable {offset : Nat} {c : Char} {cs rest : List Char}

/-- Whether the character at an offset belongs to a lexeme. -/
def Covers (lexeme : Lexeme) (position : Nat) : Prop :=
  lexeme.offset ≤ position ∧ position < lexeme.offset + byteSize lexeme.text

/-- Whether a character opens a quoted text or a group. -/
def isMark (c : Char) : Bool :=
  c = '"' || c = '['

/-- **Every mark** of a text that stands `offset` bytes behind the start of the expression belongs
to one of its lexemes. -/
def MarksCovered (offset : Nat) (cs : List Char) : Prop :=
  ∀ before mark after, cs = before ++ mark :: after → isMark mark = true →
    ∃ lexeme ∈ scan offset cs, lexeme.Covers (offset + byteSize before)

/-- It is enough to look at the marks one by one. -/
theorem marksCovered_iff :
    MarksCovered offset cs ↔ ∀ i : Fin cs.length, isMark (cs.get i) = true →
      ∃ lexeme ∈ scan offset cs, lexeme.Covers (offset + byteSize (cs.take i)) := by
  constructor
  · intro h i hmark
    refine h (cs.take i) (cs.get i) (cs.drop (i + 1)) ?_ hmark
    have hdrop := List.drop_eq_getElem_cons i.isLt
    rw [List.get_eq_getElem, ← hdrop, List.take_append_drop]
  · rintro h before mark after rfl hmark
    have hlength : before.length < (before ++ mark :: after).length := by simp
    have hcovered := h ⟨before.length, hlength⟩
    rw [List.get_eq_getElem, List.getElem_append_right (Nat.le_refl _)] at hcovered
    simpa using hcovered (by simpa using hmark)

instance (lexeme : Lexeme) (position : Nat) : Decidable (lexeme.Covers position) :=
  inferInstanceAs (Decidable (_ ∧ _))

instance : Decidable (MarksCovered offset cs) :=
  decidable_of_iff _ marksCovered_iff.symm

/-! ### The search, step by step -/

theorem scan_nil (offset : Nat) : scan offset [] = [] := by
  rw [scan]

/-- A character that begins no piece is passed over, by as many bytes as it takes. -/
theorem scan_skip (h : first (c :: cs) = []) (offset : Nat) :
    scan offset (c :: cs) = scan (offset + c.utf8Size) cs := by
  rw [scan]
  exact if_pos h

/-- A piece is a lexeme where it stands, and the search goes on behind it. -/
theorem scan_piece (h : first cs ≠ []) (offset : Nat) :
    scan offset cs
      = ⟨first cs, offset⟩ :: scan (offset + byteSize (first cs)) (cs.drop (first cs).length) := by
  cases cs with
  | nil => exact absurd rfl h
  | cons c cs =>
    rw [scan]
    exact if_neg h

/-- **Induction along the search**: over a character that begins no piece, and over a piece. -/
@[elab_as_elim]
theorem scan_induction {motive : List Char → Prop} (nil : motive [])
    (skip : ∀ c cs, first (c :: cs) = [] → motive cs → motive (c :: cs))
    (piece : ∀ cs, first cs ≠ [] → motive (cs.drop (first cs).length) → motive cs)
    (cs : List Char) : motive cs := by
  -- a piece is not empty, so either step leaves a shorter text
  induction hlength : cs.length using Nat.strongRecOn generalizing cs with
  | ind n ih =>
    cases cs with
    | nil => exact nil
    | cons c cs =>
      by_cases h : first (c :: cs) = []
      · refine skip c cs h (ih cs.length ?_ cs rfl)
        rw [← hlength]
        exact Nat.lt_succ_self _
      · refine piece (c :: cs) h (ih _ ?_ _ rfl)
        have hpos : 0 < (first (c :: cs)).length := List.length_pos_iff.mpr h
        rw [← hlength, List.length_drop, List.length_cons]
        omega

/-- The texts of the lexemes do not depend on the offset that the search starts from. -/
theorem map_text_scan (offset : Nat) (cs : List Char) :
    (scan offset cs).map (·.text) = pieces cs := by
  unfold pieces
  generalize 0 = start
  induction cs using scan_induction generalizing offset start with
  | nil => rw [scan_nil, scan_nil]
  | skip c cs h ih => rw [scan_skip h, scan_skip h, ih]
  | piece cs h ih => rw [scan_piece h, scan_piece h, List.map_cons, List.map_cons, ih]

/-- No lexeme stands in front of where the search starts. -/
theorem le_offset_of_mem_scan {lexeme : Lexeme} (h : lexeme ∈ scan offset cs) :
    offset ≤ lexeme.offset := by
  induction cs using scan_induction generalizing offset with
  | nil =>
    rw [scan_nil] at h
    exact absurd h List.not_mem_nil
  | skip c cs hskip ih =>
    rw [scan_skip hskip] at h
    exact Nat.le_trans (Nat.le_add_right _ _) (ih h)
  | piece cs hpiece ih =>
    rw [scan_piece hpiece] at h
    rcases List.mem_cons.mp h with rfl | h
    · exact Nat.le_refl _
    · exact Nat.le_trans (Nat.le_add_right _ _) (ih h)

end Lexeme

open Lexeme

variable {c : Char} {cs rest : List Char}

theorem pieces_nil : pieces [] = [] := by
  rw [pieces, scan_nil, List.map_nil]

theorem pieces_skip (h : first (c :: cs) = []) : pieces (c :: cs) = pieces cs := by
  rw [pieces, scan_skip h, map_text_scan]

theorem pieces_piece (h : first cs ≠ []) :
    pieces cs = first cs :: pieces (cs.drop (first cs).length) := by
  rw [pieces, scan_piece h, List.map_cons, map_text_scan]

theorem pieces_blank (hc : isBlank c = true) : pieces (c :: cs) = pieces cs :=
  pieces_skip (first_blank hc cs)

/-- A parenthesis is a piece, whatever is behind it. -/
theorem pieces_paren (hc : c = '(' ∨ c = ')') : pieces (c :: cs) = [c] :: pieces cs := by
  have hfirst := first_paren hc cs
  rw [pieces_piece (by rw [hfirst]; exact List.cons_ne_nil c []), hfirst]
  rfl

/-- A piece is the first one of what is left of the text where it is found. -/
theorem exists_of_mem_pieces {piece : List Char} (h : piece ∈ pieces cs) :
    ∃ behind, first behind = piece ∧ first behind ≠ [] := by
  induction cs using scan_induction with
  | nil =>
    rw [pieces_nil] at h
    exact absurd h List.not_mem_nil
  | skip c cs hskip ih =>
    rw [pieces_skip hskip] at h
    exact ih h
  | piece cs hpiece ih =>
    rw [pieces_piece hpiece] at h
    rcases List.mem_cons.mp h with rfl | h
    · exact ⟨cs, rfl, hpiece⟩
    · exact ih h

/-- Every piece has one of the forms of lexemes. -/
theorem hasForm_of_mem_pieces {piece : List Char} (h : piece ∈ pieces cs) : HasForm piece := by
  obtain ⟨behind, rfl, hne⟩ := exists_of_mem_pieces h
  exact hasForm_first hne

/-- Blank characters in front of a text are passed over. -/
theorem pieces_blanks_append {blanks : List Char} (h : allBlank blanks = true) (cs : List Char) :
    pieces (blanks ++ cs) = pieces cs := by
  induction blanks with
  | nil => rfl
  | cons b blanks ih =>
    rw [allBlank, List.all_cons, Bool.and_eq_true] at h
    rw [List.cons_append, pieces_blank h.1, ih h.2]

/-- Blank characters hold no pieces. -/
theorem pieces_of_allBlank (h : allBlank cs = true) : pieces cs = [] := by
  rw [← List.append_nil cs, pieces_blanks_append h, pieces_nil]

/-- The first piece and those of the text behind it. -/
theorem pieces_of_first {piece : List Char} (hfirst : first (piece ++ rest) = piece)
    (hne : piece ≠ []) : pieces (piece ++ rest) = piece :: pieces rest := by
  rw [pieces_piece (by rwa [hfirst]), hfirst, List.drop_left]

/-! ### At a seam -/

theorem drop_first_append (h : first (cs ++ c :: rest) = first cs) :
    (cs ++ c :: rest).drop (first (cs ++ c :: rest)).length
      = cs.drop (first cs).length ++ c :: rest := by
  rw [h, List.drop_append_of_le_length (first_isPrefix cs).length_le]

/-- **The pieces of a concatenation**, where `motive` says of what is left of the first part that no
piece comes up in it because of the second one. -/
theorem pieces_append (hc : isSeparator c = true) {motive : List Char → Prop}
    (skip : ∀ d ds, motive (d :: ds) → first (d :: ds) = [] →
      first (d :: (ds ++ c :: rest)) = [] ∧ motive ds)
    (piece : ∀ ds, motive ds → first ds ≠ [] → motive (ds.drop (first ds).length))
    (h : motive cs) : pieces (cs ++ c :: rest) = pieces cs ++ pieces (c :: rest) := by
  induction cs using scan_induction with
  | nil => rw [List.nil_append, pieces_nil, List.nil_append]
  | skip d ds hskip ih =>
    obtain ⟨happend, hds⟩ := skip d ds h hskip
    rw [pieces_skip hskip, List.cons_append, pieces_skip happend, ih hds]
  | piece ds hpiece ih =>
    -- a piece ends where it did, so what is left of the first part goes on with the same separator
    have happend := first_append_of_ne_nil hc hpiece rest
    have hne : first (ds ++ c :: rest) ≠ [] := by rwa [happend]
    rw [pieces_piece hpiece, pieces_piece hne, drop_first_append happend, happend,
      ih (piece ds h hpiece), List.cons_append]

/-- A second part that closes no mark adds its pieces to those of the first. -/
theorem pieces_append_of_not_mem (hc : isSeparator c = true) (hquote : '"' ∉ c :: rest)
    (hbracket : ']' ∉ c :: rest) (cs : List Char) :
    pieces (cs ++ c :: rest) = pieces cs ++ pieces (c :: rest) := by
  refine pieces_append hc (motive := fun _ => True) (fun d ds _ hskip => ?_)
    (fun _ _ _ => trivial) trivial
  -- nothing needs to be known of the first part, since a mark left open in it stays open
  rw [← List.cons_append, first_append_of_closed hc (Or.inr hquote) (Or.inr hbracket)]
  exact ⟨hskip, trivial⟩

/-- A text that is a piece from end to end stays one in front of a separator. -/
theorem pieces_whole_append (hc : isSeparator c = true) (hwhole : first cs = cs) (hne : cs ≠ [])
    (rest : List Char) : pieces (cs ++ c :: rest) = cs :: pieces (c :: rest) := by
  refine pieces_of_first ?_ hne
  rw [first_append_of_ne_nil hc (by rwa [hwhole]), hwhole]

/-- A text that is a piece from end to end has no other pieces. -/
theorem pieces_whole (hwhole : first cs = cs) (hne : cs ≠ []) : pieces cs = [cs] := by
  have hfirst : first (cs ++ []) = cs := by rwa [List.append_nil]
  have hpieces := pieces_of_first hfirst hne
  rwa [List.append_nil, pieces_nil] at hpieces

namespace Lexeme.MarksCovered

variable {offset : Nat}

/-- A character that begins no piece is no mark, and the marks behind it are those of the rest. -/
theorem skip (h : MarksCovered offset (c :: cs)) (hskip : first (c :: cs) = []) :
    isMark c = false ∧ MarksCovered (offset + c.utf8Size) cs := by
  constructor
  · rw [Bool.eq_false_iff]
    intro hmark
    -- a lexeme over it would start at it, but all of them start behind it
    obtain ⟨lexeme, hmem, hcovers⟩ := h [] c cs rfl hmark
    rw [scan_skip hskip] at hmem
    have hoffset := le_offset_of_mem_scan hmem
    have hsize := c.utf8Size_pos
    have hfront := hcovers.1
    rw [byteSize_nil] at hfront
    omega
  · rintro before mark after rfl hmark
    have hcovered := h (c :: before) mark after rfl hmark
    rwa [scan_skip hskip, byteSize_cons, ← Nat.add_assoc] at hcovered

/-- The marks behind a piece are those of the rest. -/
theorem piece (h : MarksCovered offset cs) (hpiece : first cs ≠ []) :
    MarksCovered (offset + byteSize (first cs)) (cs.drop (first cs).length) := by
  intro before mark after hparts hmark
  have htake : cs.take (first cs).length = first cs :=
    (List.prefix_iff_eq_take.mp (first_isPrefix cs)).symm
  have hcs : cs = first cs ++ before ++ mark :: after := by
    calc cs = cs.take (first cs).length ++ cs.drop (first cs).length :=
          (List.take_append_drop _ cs).symm
      _ = first cs ++ before ++ mark :: after := by rw [htake, hparts, List.append_assoc]
  obtain ⟨lexeme, hmem, hcovers⟩ := h (first cs ++ before) mark after hcs hmark
  rw [byteSize_append, ← Nat.add_assoc] at hcovers
  rw [scan_piece hpiece] at hmem
  rcases List.mem_cons.mp hmem with rfl | hmem
  · -- the piece ends in front of the mark
    exact absurd hcovers.2 (Nat.not_lt.mpr (Nat.le_add_right _ _))
  · exact ⟨lexeme, hmem, hcovers⟩

end Lexeme.MarksCovered

/-- A first part whose marks are all inside its lexemes keeps its pieces, whatever is behind the
separator. -/
theorem pieces_append_of_marksCovered (hc : isSeparator c = true) {offset : Nat}
    (h : MarksCovered offset cs) (rest : List Char) :
    pieces (cs ++ c :: rest) = pieces cs ++ pieces (c :: rest) := by
  -- the offset grows along the search
  refine pieces_append hc (motive := fun cs => ∃ offset, MarksCovered offset cs) ?_ ?_ ⟨offset, h⟩
  · rintro d ds ⟨offset, hmarks⟩ hskip
    obtain ⟨hmark, hds⟩ := hmarks.skip hskip
    refine ⟨?_, _, hds⟩
    simp only [isMark, Bool.or_eq_false_iff, decide_eq_false_iff_not] at hmark
    rw [← List.cons_append, first_append_of_closed hc (Or.inl hmark.1) (Or.inl hmark.2), hskip]
  · rintro ds ⟨offset, hmarks⟩ hpiece
    exact ⟨_, hmarks.piece hpiece⟩

end RuleLang
