import RuleLang.Proofs.Literals
import RuleLang.Proofs.Lookahead

/-!
# Spacing between tokens

Blank characters may be put between the lexemes of an expression, at any number of places at once,
and the expression is read as before (`tokenize_spread`). Within a lexeme they may not, except
behind a minus sign that is split off from its number: that is the one lexeme which becomes two.

The search for lexemes goes along both texts in step. A piece is found again because what follows it
stops it as well (`first_stopsAs`), and a character that begins no piece begins none in the other
text, where only blank characters have come in (`first_cons_spread`). What is carried along is which
places are left to fill (`Breakable`), for the minus signs with the token in front of them.
-/

namespace RuleLang

open Lexeme

variable {previous : Option Value} {depth offset position : Nat} {tokens : List Value}
  {piece cs rest : List Char} {c : Char}

/-! ### Pieces and kinds of errors -/

/-- Up to the texts of its errors, an expression has the tokens that its pieces are read as, if it
has any text. -/
theorem mapError_kind_tokenize (expression : String) :
    (tokenize expression).outcome.mapError Error.kind
      = if allBlank expression.toList then .error .emptyExpression
        else readTokens none 0 (pieces expression.toList) := by
  rw [tokenize]
  by_cases hblank : allBlank expression.toList
  · rw [if_pos hblank, if_pos hblank]
    rfl
  · rw [if_neg hblank, if_neg hblank, pieces]
    change _ = readTokens none 0 ((lexemes expression).map (·.text))
    rw [← mapError_kind_tokensFrom]
    simp only [Logged.outcome_bind, Logged.outcome_note, Logged.outcome_pure]
    cases (tokensFrom none 0 (lexemes expression)).outcome <;> rfl

/-- A sign is split off from something behind it. -/
theorem exists_of_splitSign_fst {text : List Char}
    (h : (splitSign previous text).1 = [.operator .subtract]) :
    ∃ unsigned, text = '-' :: unsigned ∧ unsigned ≠ [] ∧
      splitSign previous text = ([.operator .subtract], unsigned) := by
  unfold splitSign at h ⊢
  split at h
  · split at h
    · rename_i unsigned hsplit
      exact ⟨unsigned, rfl, hsplit.1, if_pos hsplit⟩
    · cases h
  · cases h

/-- **A minus sign that is split off** may as well be a piece of its own. -/
theorem readTokens_split {unsigned : List Char} {pieces : List (List Char)}
    (hsplit : splitSign previous ('-' :: unsigned) = ([.operator .subtract], unsigned))
    (hhead : unsigned.head? ≠ some '-') :
    readTokens previous depth (['-'] :: unsigned :: pieces)
      = readTokens previous depth (('-' :: unsigned) :: pieces) := by
  have hsubtract : readPiece? previous ['-'] = some [.operator .subtract] :=
    readPiece?_symbol previous .subtract
  -- behind the subtraction the unsigned number is read as behind the sign
  have hunsigned : readPiece? previous ('-' :: unsigned)
      = (readPiece? (some (.operator .subtract)) unsigned).map (.operator .subtract :: ·) := by
    rw [readPiece?, readPiece?, hsplit, splitSign_of_head hhead]
    dsimp only
    split
    · split <;> rfl
    · rfl
  rw [readTokens, hsubtract]
  change (([Value.operator .subtract] ++ ·) <$> readTokens (some (.operator .subtract)) depth
    (unsigned :: pieces)) = _
  rw [readTokens, readTokens, hunsigned]
  cases readPiece? (some (.operator .subtract)) unsigned with
  | none => rfl
  | some tokens =>
    dsimp only [Option.map_some]
    have hdepth : (Value.operator .subtract :: tokens).foldlM depthAfter? depth
        = tokens.foldlM depthAfter? depth := rfl
    rw [hdepth, getLast?_cons_or]
    cases tokens.foldlM depthAfter? depth with
    | none => rfl
    | some depth' =>
      dsimp only
      cases readTokens (tokens.getLast?.or (some (.operator .subtract))) depth' pieces <;> rfl

/-! ### Blank characters put in -/

/-- A text that stands `offset` bytes behind the start of the expression, with `gaps position` put
in at each place, where the position of a place is counted in the expression as it was. -/
def spread (gaps : Nat → List Char) (offset : Nat) : List Char → List Char
  | [] => gaps offset
  | c :: cs => gaps offset ++ c :: spread gaps (offset + c.utf8Size) cs

section Spread

variable {gaps : Nat → List Char} (hblank : ∀ position, allBlank (gaps position) = true)

include hblank

/-- Blank characters put in leave a text blank or not, as it was. -/
theorem allBlank_spread : allBlank (spread gaps offset cs) = allBlank cs := by
  induction cs generalizing offset with
  | nil => exact hblank offset
  | cons c cs ih =>
    have hoffset := hblank offset
    rw [allBlank] at hoffset
    rw [spread, allBlank, List.all_append, hoffset, Bool.true_and, List.all_cons, allBlank,
      List.all_cons, ← allBlank, ih, ← allBlank]

/-- A piece is stopped by a text with blank characters put in as by the text without them. -/
theorem stopsAs_spread (offset : Nat) (cs : List Char) : StopsAs cs (spread gaps offset cs) := by
  have hgap := List.all_eq_true.mp (hblank offset)
  intro c hc
  cases cs with
  | nil => exact Or.inl (hgap c (List.mem_of_mem_head? hc))
  | cons d cs =>
    rw [spread] at hc
    -- the first character behind the place is that of the gap, or of the text if the gap is empty
    cases hgaps : gaps offset with
    | nil =>
      rw [hgaps] at hc
      exact Or.inr hc
    | cons b blanks =>
      rw [hgaps] at hc hgap
      obtain rfl := Option.some.inj hc
      exact Or.inl (hgap b List.mem_cons_self)

/-- The character that ends a run is the same, if blank characters do not end it. -/
theorem head?_dropWhile_spread {inside : Char → Bool}
    (hinside : ∀ c, isBlank c = true → inside c = true) :
    ((spread gaps offset cs).dropWhile inside).head? = (cs.dropWhile inside).head? := by
  have hgap (position : Nat) : ∀ c ∈ gaps position, inside c = true :=
    fun c hc => hinside c (List.all_eq_true.mp (hblank position) c hc)
  induction cs generalizing offset with
  | nil =>
    have hall : (gaps offset ++ []).dropWhile inside = [] :=
      List.dropWhile_append_of_pos (hgap offset)
    rw [List.append_nil] at hall
    rw [spread, hall, List.dropWhile_nil]
  | cons c cs ih =>
    rw [spread, List.dropWhile_append_of_pos (hgap offset), List.dropWhile_cons,
      List.dropWhile_cons]
    split
    · exact ih
    · rfl

/-- A mark that is not closed stays open. -/
theorem enclosed_cons_spread {opening closing : Char} {inside : Char → Bool}
    (hinside : ∀ d, isBlank d = true → inside d = true)
    (hopen : enclosed opening closing inside (c :: cs) = []) :
    enclosed opening closing inside (c :: spread gaps offset cs) = [] := by
  rw [enclosed] at hopen ⊢
  rw [head?_dropWhile_spread hblank hinside]
  split at hopen
  · cases hopen
  · rename_i hmarks
    exact if_neg hmarks

/-- A word without blank characters that is found between them was there before. -/
theorem isPrefix_of_isPrefix_spread {word : List Char} (hword : word.any isBlank = false)
    (h : word <+: spread gaps offset cs) : word <+: cs := by
  induction word generalizing offset cs with
  | nil => exact List.nil_prefix
  | cons a word ih =>
    obtain ⟨ha, hword⟩ := Bool.or_eq_false_iff.mp hword
    have hstart : a ∈ (spread gaps offset cs).head? := by
      obtain ⟨behind, hbehind⟩ := h
      rw [← hbehind]
      rfl
    -- the word does not start in a gap, so the gap in front of it is empty
    have hgap : gaps offset = [] := by
      by_contra hne
      obtain ⟨b, blanks, hgaps⟩ := List.exists_cons_of_ne_nil hne
      have hb := hblank offset
      have hhead : (spread gaps offset cs).head? = some b := by
        cases cs <;> rw [spread, hgaps] <;> rfl
      obtain rfl := Option.some.inj (hhead.symm.trans hstart)
      rw [hgaps, allBlank, List.all_cons, ha] at hb
      cases hb
    cases cs with
    | nil =>
      rw [spread, hgap] at hstart
      cases hstart
    | cons c cs =>
      rw [spread, hgap, List.nil_append, List.cons_prefix_cons] at h
      exact List.cons_prefix_cons.mpr ⟨h.1, ih hword h.2⟩

/-- Nor does a word come up that starts in front of the gaps. -/
theorem isPrefix_cons_of_isPrefix_spread {word : List Char} (hword : word.any isBlank = false)
    (h : word <+: c :: spread gaps offset cs) : word <+: c :: cs := by
  cases word with
  | nil => exact List.nil_prefix
  | cons a word =>
    rw [List.cons_prefix_cons] at h ⊢
    exact ⟨h.1, isPrefix_of_isPrefix_spread hblank (Bool.or_eq_false_iff.mp hword).2 h.2⟩

/-- **No piece comes up** where there was none. -/
theorem first_cons_spread (hskip : first (c :: cs) = []) :
    first (c :: spread gaps offset cs) = [] := by
  obtain ⟨hnumber, hquotation, htruth, hsymbol, hgroup⟩ := first_eq_nil_iff.mp hskip
  refine first_eq_nil_iff.mpr ⟨?_, ?_, ?_, ?_, ?_⟩
  · -- a minus sign is a piece in any case
    have hminus : c ≠ '-' := by
      rintro rfl
      exact symbol_eq_nil_iff.mp hsymbol .subtract (List.prefix_append ['-'] cs)
    rw [number_cons_eq_nil_iff hminus] at hnumber ⊢
    exact hnumber
  · refine enclosed_cons_spread hblank (fun d hd => ?_) hquotation
    exact decide_eq_true (ne_of_isBlank hd rfl)
  · refine truth_eq_nil_iff.mpr fun word hmem hfront => ?_
    have hwords : ∀ word ∈ ["True", "False", "true", "false"],
        word.toList.any isBlank = false := by decide +kernel
    exact truth_eq_nil_iff.mp htruth word hmem
      (isPrefix_cons_of_isPrefix_spread hblank (hwords word hmem) hfront)
  · refine symbol_eq_nil_iff.mpr fun op hfront => ?_
    have hop : op.symbol.toList.any isBlank = false := by
      cases op <;> decide +kernel
    exact symbol_eq_nil_iff.mp hsymbol op (isPrefix_cons_of_isPrefix_spread hblank hop hfront)
  · refine enclosed_cons_spread hblank (fun d hd => ?_) hgroup
    have hopening : d ≠ '[' := ne_of_isBlank hd rfl
    have hclosing : d ≠ ']' := ne_of_isBlank hd rfl
    simp [hopening, hclosing]

omit hblank

/-- Where nothing is put into a piece, it stays in one. -/
theorem spread_append (hne : piece ≠ [])
    (hinside : ∀ position, offset < position → position < offset + byteSize piece →
      gaps position = []) (rest : List Char) :
    spread gaps offset (piece ++ rest)
      = gaps offset ++ (piece ++ spread gaps (offset + byteSize piece) rest) := by
  induction piece generalizing offset with
  | nil => exact absurd rfl hne
  | cons c cs ih =>
    rw [List.cons_append, spread]
    cases cs with
    | nil => rfl
    | cons d cs =>
      have hsize := c.utf8Size_pos
      have hsize' := d.utf8Size_pos
      rw [byteSize_cons] at hinside ⊢
      -- the place between two characters of the piece is in the middle of it
      have hgap : gaps (offset + c.utf8Size) = [] := by
        refine hinside _ (by omega) ?_
        rw [byteSize_cons]
        omega
      rw [ih (List.cons_ne_nil d cs), hgap, List.nil_append, Nat.add_assoc]
      · rfl
      · intro position hafter hbefore
        exact hinside position (by omega) (by omega)

end Spread

/-! ### Places for blank characters -/

/-- Whether a place is in the middle of a lexeme. -/
def Lexeme.Spans (lexeme : Lexeme) (position : Nat) : Prop :=
  lexeme.offset < position ∧ position < lexeme.offset + byteSize lexeme.text

instance (lexeme : Lexeme) (position : Nat) : Decidable (lexeme.Spans position) :=
  inferInstanceAs (Decidable (_ ∧ _))

/-- **The places where blank characters may be put**, in a text that stands `offset` bytes behind
the start of the expression and is read after the token `previous`: those that are in the middle of
no lexeme, and those behind a minus sign that is split off from its number. -/
def Breakable (previous : Option Value) (offset : Nat) (cs : List Char) (position : Nat) : Prop :=
  (∀ lexeme ∈ scan offset cs, ¬ lexeme.Spans position) ∨
    ∃ before lexeme after tokens, scan offset cs = before ++ lexeme :: after ∧
      readPieces? previous (before.map (·.text)) = some tokens ∧
      (splitSign (tokens.getLast?.or previous) lexeme.text).1 = [.operator .subtract] ∧
      position = lexeme.offset + 1

namespace Breakable

/-- A character that begins no piece takes no place away. -/
theorem skip (h : Breakable previous offset (c :: cs) position) (hskip : first (c :: cs) = []) :
    Breakable previous (offset + c.utf8Size) cs position := by
  rwa [Breakable, scan_skip hskip] at h

/-- In the middle of the first piece there is only the place behind its minus sign. -/
theorem inside (h : Breakable previous offset cs position) (hpiece : first cs ≠ [])
    (hafter : offset < position) (hbefore : position < offset + byteSize (first cs)) :
    (splitSign previous (first cs)).1 = [.operator .subtract] ∧ position = offset + 1 := by
  rw [Breakable, scan_piece hpiece] at h
  rcases h with hnone | ⟨before, lexeme, after, tokens, hscan, hread, hsplit, hposition⟩
  · exact absurd ⟨hafter, hbefore⟩ (hnone _ List.mem_cons_self)
  · cases before with
    | nil =>
      obtain ⟨rfl, -⟩ := List.cons.inj hscan
      cases hread
      exact ⟨hsplit, hposition⟩
    | cons b before =>
      -- the lexemes behind the first piece start where it ends
      have hmem : lexeme ∈ scan (offset + byteSize (first cs)) (cs.drop (first cs).length) := by
        rw [show scan _ _ = before ++ lexeme :: after from (List.cons.inj hscan).2]
        exact List.mem_append_right _ List.mem_cons_self
      have hoffset := le_offset_of_mem_scan hmem
      omega

/-- Behind the first piece the places are those of the rest. -/
theorem behind (h : Breakable previous offset cs position) (hpiece : first cs ≠ [])
    (htokens : readPiece? previous (first cs) = some tokens) :
    Breakable (tokens.getLast?.or previous) (offset + byteSize (first cs))
      (cs.drop (first cs).length) position := by
  by_cases hbehind : position < offset + byteSize (first cs)
  · -- all lexemes of the rest start behind the place
    refine Or.inl fun lexeme hmem hspans => ?_
    have hoffset := le_offset_of_mem_scan hmem
    have hafter := hspans.1
    omega
  · rw [Breakable, scan_piece hpiece] at h
    rcases h with hnone | ⟨before, lexeme, after, tokens', hscan, hread, hsplit, hposition⟩
    · exact Or.inl fun lexeme hmem => hnone lexeme (List.mem_cons_of_mem _ hmem)
    · cases before with
      | nil =>
        -- the place behind the minus sign is not behind the piece
        obtain ⟨rfl, -⟩ := List.cons.inj hscan
        cases hread
        obtain ⟨unsigned, hminus, hne, -⟩ := exists_of_splitSign_fst hsplit
        dsimp only at hminus hposition
        obtain ⟨d, digits, rfl⟩ := List.exists_cons_of_ne_nil hne
        rw [hminus, byteSize_cons, byteSize_cons] at hbehind
        have hsize : '-'.utf8Size = 1 := rfl
        have hsize' := d.utf8Size_pos
        omega
      | cons b before =>
        -- the tokens in front of the sign are those of the piece and those behind it
        obtain ⟨rfl, hrest⟩ := List.cons.inj hscan
        obtain ⟨found, more, hfound, hmore, rfl⟩ := readPieces?_cons.mp hread
        obtain rfl := Option.some.inj (hfound.symm.trans htokens)
        rw [List.getLast?_append, Option.or_assoc] at hsplit
        exact Or.inr ⟨before, lexeme, after, more, hrest, hmore, hsplit, hposition⟩

end Breakable

/-! ### Two texts in step -/

/-- A minus sign in front of blank characters is a piece of its own. -/
theorem pieces_minus_append {blanks : List Char} (hblanks : allBlank blanks = true)
    (hne : blanks ≠ []) (cs : List Char) :
    pieces ('-' :: (blanks ++ cs)) = ['-'] :: pieces cs := by
  obtain ⟨b, behind, rfl⟩ := List.exists_cons_of_ne_nil hne
  have hb : isSeparator b = true := by
    rw [allBlank, List.all_cons, Bool.and_eq_true] at hblanks
    simp [isSeparator, hblanks.1]
  calc pieces (['-'] ++ b :: (behind ++ cs))
      = ['-'] :: pieces (b :: behind ++ cs) :=
        pieces_whole_append hb (first_symbol .subtract) (List.cons_ne_nil _ _) _
    _ = ['-'] :: pieces cs := by rw [pieces_blanks_append hblanks]

/-- Behind its minus sign a number is found as an unsigned one. -/
theorem first_of_minus {unsigned : List Char} (hne : unsigned ≠ [])
    (hfirst : first ('-' :: (unsigned ++ rest)) = '-' :: unsigned) :
    first (unsigned ++ rest) = unsigned ∧ unsigned.head? ≠ some '-' := by
  have hform := hasForm_first (show first ('-' :: (unsigned ++ rest)) ≠ [] by rw [hfirst]; simp)
  rw [hfirst] at hform
  obtain ⟨d, digits, rfl, hd⟩ := hform.of_minus hne
  have hminus : d ≠ '-' := by
    rintro rfl
    cases hd
  obtain ⟨hunsigned, hnumber⟩ := number_ne_nil_of_isDigit hd (digits ++ rest)
  refine ⟨?_, fun hhead => hminus (Option.some.inj hhead)⟩
  rw [List.cons_append] at hfirst ⊢
  rw [first_eq_number hnumber, number] at hfirst
  rw [first_eq_number hunsigned, number_of_ne hminus]
  split at hfirst
  · cases hfirst
  · exact (List.cons.inj hfirst).2

section Step

variable {gaps : Nat → List Char} (hblank : ∀ position, allBlank (gaps position) = true)

include hblank

/-- A piece that nothing is put into is found again. -/
theorem pieces_spread_piece (hne : piece ≠ []) (hfirst : first (piece ++ rest) = piece)
    (hinside : ∀ position, offset < position → position < offset + byteSize piece →
      gaps position = []) :
    pieces (spread gaps offset (piece ++ rest))
      = piece :: pieces (spread gaps (offset + byteSize piece) rest) := by
  have hstop := stopsAs_spread hblank (offset + byteSize piece) rest
  rw [spread_append hne hinside, pieces_blanks_append (hblank offset),
    pieces_of_first (first_stopsAs hstop hne hfirst) hne]

/-- A number with something put behind its minus sign, and nowhere else, is found as two pieces. -/
theorem pieces_spread_minus {unsigned : List Char} (hne : unsigned ≠ [])
    (hfirst : first ('-' :: (unsigned ++ rest)) = '-' :: unsigned) (hgap : gaps (offset + 1) ≠ [])
    (hinside : ∀ position, offset + 1 < position → position < offset + 1 + byteSize unsigned →
      gaps position = []) :
    pieces (spread gaps offset ('-' :: (unsigned ++ rest)))
      = ['-'] :: unsigned :: pieces (spread gaps (offset + 1 + byteSize unsigned) rest) := by
  have hstop := stopsAs_spread hblank (offset + 1 + byteSize unsigned) rest
  have hunsigned := first_stopsAs hstop hne (first_of_minus hne hfirst).1
  calc pieces (gaps offset ++ '-' :: spread gaps (offset + 1) (unsigned ++ rest))
      = pieces ('-' :: (gaps (offset + 1) ++
          (unsigned ++ spread gaps (offset + 1 + byteSize unsigned) rest))) := by
        rw [pieces_blanks_append (hblank offset), spread_append hne hinside]
    _ = ['-'] :: pieces (unsigned ++ spread gaps (offset + 1 + byteSize unsigned) rest) :=
        pieces_minus_append (hblank _) hgap _
    _ = ['-'] :: unsigned :: pieces (spread gaps (offset + 1 + byteSize unsigned) rest) := by
        rw [pieces_of_first hunsigned hne]

/-- **The two texts are read alike**, the rest of each after the same token. -/
theorem readTokens_pieces_spread
    (hgaps : ∀ position, gaps position ≠ [] → Breakable previous offset cs position) :
    readTokens previous depth (pieces (spread gaps offset cs))
      = readTokens previous depth (pieces cs) := by
  induction cs using scan_induction generalizing previous depth offset with
  | nil => rw [spread, pieces_of_allBlank (hblank offset), pieces_nil]
  | skip c cs hskip ih =>
    rw [spread, pieces_blanks_append (hblank offset), pieces_skip (first_cons_spread hblank hskip),
      pieces_skip hskip]
    exact ih fun position hgap => (hgaps position hgap).skip hskip
  | piece cs hpiece ih =>
    have hinside (position : Nat) (hgap : gaps position ≠ []) :=
      (hgaps position hgap).inside hpiece
    have hrest (tokens : List Value) (depth : Nat)
        (htokens : readPiece? previous (first cs) = some tokens) :=
      @ih _ depth _ fun position hgap => (hgaps position hgap).behind hpiece htokens
    -- from here on the text is its first piece and the rest
    have hcs := List.prefix_iff_eq_append.mp (first_isPrefix cs)
    clear ih hgaps
    generalize hfirst : first cs = piece at hpiece hinside hrest hcs
    generalize cs.drop piece.length = rest at hrest hcs
    subst hcs
    rw [pieces_of_first hfirst hpiece]
    by_cases hwhole : ∀ position, offset < position → position < offset + byteSize piece →
        gaps position = []
    · -- nothing is put into the piece, and it is found as it was
      rw [pieces_spread_piece hblank hpiece hfirst hwhole]
      exact readTokens_cons_congr hrest
    · -- the piece is a number, and something is put behind its minus sign, but nowhere else
      push Not at hwhole
      obtain ⟨position, hafter, hbefore, hgap⟩ := hwhole
      obtain ⟨hsign, rfl⟩ := hinside position hgap hafter hbefore
      obtain ⟨unsigned, rfl, hne, hsplit⟩ := exists_of_splitSign_fst hsign
      have hsize : byteSize ('-' :: unsigned) = 1 + byteSize unsigned := rfl
      have hwhole : ∀ position, offset + 1 < position →
          position < offset + 1 + byteSize unsigned → gaps position = [] := by
        intro position hafter' hbefore'
        by_contra hgap'
        have hposition := (hinside position hgap' (by omega) (by omega)).2
        omega
      rw [hsize, ← Nat.add_assoc] at hrest
      calc readTokens previous depth (pieces (spread gaps offset ('-' :: (unsigned ++ rest))))
          = readTokens previous depth (['-'] :: unsigned ::
              pieces (spread gaps (offset + 1 + byteSize unsigned) rest)) := by
            rw [pieces_spread_minus hblank hne hfirst hgap hwhole]
        _ = readTokens previous depth (('-' :: unsigned) ::
              pieces (spread gaps (offset + 1 + byteSize unsigned) rest)) :=
            readTokens_split hsplit (first_of_minus hne hfirst).2
        _ = readTokens previous depth (('-' :: unsigned) :: pieces rest) :=
            readTokens_cons_congr hrest

end Step

/-- **Spacing between tokens does not matter.** With blank characters put in wherever they may be,
the expression has the same tokens, or else an error of the same kind. -/
theorem tokenize_spread {expression : String} {gaps : Nat → List Char}
    (hblank : ∀ position, allBlank (gaps position) = true)
    (hgaps : ∀ position, gaps position ≠ [] → Breakable none 0 expression.toList position) :
    (tokenize (String.ofList (spread gaps 0 expression.toList))).outcome.mapError Error.kind
      = (tokenize expression).outcome.mapError Error.kind := by
  rw [mapError_kind_tokenize, mapError_kind_tokenize, String.toList_ofList, allBlank_spread hblank,
    readTokens_pieces_spread hblank hgaps]

/-- Spaces around a minus sign that is split off from its number. -/
theorem tokenize_spread_difference :
    (tokenize "5 - 3").outcome.mapError Error.kind
      = (tokenize "5-3").outcome.mapError Error.kind := by
  have hscan : scan 0 "5-3".toList = [⟨['5'], 0⟩, ⟨['-', '3'], 1⟩] := by decide +kernel
  have hfront : Breakable none 0 "5-3".toList 1 := by
    refine Or.inl ?_
    rw [hscan]
    decide
  have hbehind : Breakable none 0 "5-3".toList 2 := by
    refine Or.inr ⟨[⟨['5'], 0⟩], ⟨['-', '3'], 1⟩, [], [.number ⟨5, 0, by decide⟩], hscan, ?_,
      rfl, rfl⟩
    decide +kernel
  exact @tokenize_spread "5-3" (fun position => if position = 1 ∨ position = 2 then [' '] else [])
    (fun position => by split <;> rfl)
    (fun position hgap => by
      by_cases hposition : position = 1 ∨ position = 2
      · rcases hposition with rfl | rfl
        · exact hfront
        · exact hbehind
      · exact absurd (if_neg hposition) hgap)

end RuleLang
