import RuleLang.Proofs.Spacing
import RuleLang.Proofs.TokenWalk

/-!
# Where diagnostics point

A warning about something that is discarded and the error about a numeral out of range quote a text
and give an offset (`Diagnosed`). The offset is that of the lexeme, and the text is what is left of
the lexeme when a minus sign has been split off. So the offset is that of the text, unless a minus
sign has been split off, which happens behind an operand: then it is that of the minus sign, one
byte in front of the text (`diagnostic_pointsAt_iff`).
-/

namespace RuleLang

open Lexeme (HasForm scan scan_nil scan_skip scan_piece scan_induction)

/-- The bytes of a text. The array is taken apart by its fields, which the kernel can evaluate. -/
def utf8 (text : String) : List UInt8 := text.toUTF8.data.toList

/-- At an offset in an expression, its bytes are those of the text. -/
def PointsAt (expression text : String) (offset : Nat) : Prop :=
  utf8 text <+: (utf8 expression).drop offset

instance (expression text : String) (offset : Nat) : Decidable (PointsAt expression text offset) :=
  inferInstanceAs (Decidable (_ <+: _))

/-- A text and an offset that a reading of tokens gives in a warning, or in the error about a
numeral out of range. -/
inductive Diagnosed (reading : Logged Error (List Value)) (text : String) (offset : Nat) :
    Prop where
  | discarded (h : .discarded text offset ∈ reading.records)
  | outOfRange (h : reading.outcome = .error (.malformed (.numberOutOfRange text offset)))

/-! ### Bytes -/

/-- The bytes of a text are those of its characters, one after the other. -/
theorem utf8_ofList (cs : List Char) :
    utf8 (String.ofList cs) = cs.flatMap String.utf8EncodeChar := by
  rw [utf8, String.toUTF8, String.toByteArray_ofList, List.utf8Encode]
  simp

theorem length_utf8_ofList (cs : List Char) : (utf8 (String.ofList cs)).length = byteSize cs := by
  induction cs with
  | nil => rfl
  | cons c cs ih =>
    rw [utf8_ofList, List.flatMap_cons, List.length_append, String.length_utf8EncodeChar,
      ← utf8_ofList, ih, byteSize_cons]

section

variable {expression text : String} {before behind : List Char}

/-- The bytes from an offset on are those of the text behind it, if the offset is that of a
character. -/
theorem drop_utf8 (h : expression.toList = before ++ behind) :
    (utf8 expression).drop (byteSize before) = utf8 (String.ofList behind) := by
  have hbytes : utf8 expression = utf8 (String.ofList before) ++ utf8 (String.ofList behind) := by
    rw [← String.ofList_toList (s := expression), h]
    simp only [utf8_ofList, List.flatMap_append]
  rw [hbytes, List.drop_left' (length_utf8_ofList before)]

/-- An offset points at every text that starts there. -/
theorem pointsAt_of_isPrefix (h : expression.toList = before ++ behind)
    (htext : text.toList <+: behind) : PointsAt expression text (byteSize before) := by
  obtain ⟨rest, rfl⟩ := htext
  rw [PointsAt, drop_utf8 h]
  refine ⟨utf8 (String.ofList rest), ?_⟩
  rw [← String.ofList_toList (s := text)]
  simp only [utf8_ofList, List.flatMap_append, String.toList_ofList]

/-- Where there is a minus sign, there is no digit. -/
theorem not_pointsAt_minus (h : expression.toList = before ++ '-' :: behind) {d : Char}
    {ds : List Char} (hd : Digit.isDigit d = true) :
    ¬ PointsAt expression (String.ofList (d :: ds)) (byteSize before) := by
  -- the first bytes differ: 45 is the minus sign, and digits are 48 to 57
  have hbyte : ∀ digit : Digit,
      String.utf8EncodeChar digit.char = [(48 + digit.val).toUInt8] := by decide
  have hne : ∀ digit : Digit, (48 + digit.val).toUInt8 ≠ 45 := by decide
  obtain ⟨digit, hdigit⟩ := Option.isSome_iff_exists.mp hd
  rw [PointsAt, drop_utf8 h, utf8_ofList, utf8_ofList, List.flatMap_cons, List.flatMap_cons,
    Digit.ofChar?_eq_some_iff.mp hdigit, hbyte digit]
  intro hprefix
  exact hne digit (List.cons_prefix_cons.mp hprefix).1

end

/-! ### The lexeme of a diagnostic -/

/-- **A lexeme stands at its offset.** -/
theorem Lexeme.exists_of_mem_scan {lexeme : Lexeme} {cs : List Char} {offset : Nat}
    (h : lexeme ∈ scan offset cs) : ∃ before behind, cs = before ++ behind ∧
      lexeme.text <+: behind ∧ lexeme.offset = offset + byteSize before := by
  induction cs using scan_induction generalizing offset with
  | nil =>
    rw [scan_nil] at h
    cases h
  | skip c cs hskip ih =>
    rw [scan_skip hskip] at h
    obtain ⟨before, behind, rfl, htext, hoffset⟩ := ih h
    refine ⟨c :: before, behind, rfl, htext, ?_⟩
    rw [hoffset, byteSize_cons, Nat.add_assoc]
  | piece cs hpiece ih =>
    rw [scan_piece hpiece] at h
    have hprefix := Lexeme.first_isPrefix cs
    rcases List.mem_cons.mp h with rfl | h
    · exact ⟨[], cs, rfl, hprefix, rfl⟩
    · obtain ⟨before, behind, hparts, htext, hoffset⟩ := ih h
      refine ⟨Lexeme.first cs ++ before, behind, ?_, htext, ?_⟩
      · rw [List.append_assoc, ← hparts]
        exact (List.prefix_iff_eq_append.mp hprefix).symm
      · -- the piece taken counts towards the offset of every lexeme behind it
        rw [hoffset, byteSize_append, Nat.add_assoc]

/-- A text that is not known is the text of its value. -/
theorem Value.text_classify_of_unknown {s : String} (h : (classify s).kind = .unknown) :
    (classify s).text = s := by
  have hclassified := classifiedAs_classify s
  generalize classify s = value at h hclassified
  cases hclassified with
  | unknown => rfl
  | _ => cases h

/-- A piece is out of range only if what is left of it is not known. -/
theorem kind_of_readPiece?_eq_none {previous : Option Value} {piece : List Char}
    (h : readPiece? previous piece = none) :
    (Value.classify (String.ofList (splitSign previous piece).2)).kind = .unknown := by
  unfold readPiece? at h
  dsimp only at h
  split at h
  · assumption
  · cases h

/-- **The lexeme that is quoted**, behind others that have tokens: what is left of it when a minus
sign has been split off is not known, and is the text that is quoted. -/
def Quoted (previous : Option Value) (lexemes : List Lexeme) (text : String) (offset : Nat) :
    Prop :=
  ∃ front lexeme behind tokens warnings, lexemes = front ++ lexeme :: behind ∧
    Walk previous front tokens warnings ∧ lexeme.offset = offset ∧
    (Value.classify text).kind = .unknown ∧
    text = String.ofList (splitSign (tokens.getLast?.or previous) lexeme.text).2

theorem Quoted.head {previous : Option Value} {lexeme : Lexeme} {left : List Char}
    (hleft : (splitSign previous lexeme.text).2 = left)
    (hunknown : (Value.classify (String.ofList left)).kind = .unknown) (lexemes : List Lexeme) :
    Quoted previous (lexeme :: lexemes) (String.ofList left) lexeme.offset :=
  ⟨[], lexeme, lexemes, [], [], rfl, .nil previous, rfl, hunknown, congrArg _ hleft.symm⟩

/-- A lexeme quoted behind one that has tokens is quoted behind both. -/
theorem Quoted.cons {previous : Option Value} {lexeme : Lexeme} {lexemes : List Lexeme}
    {first : List Value} {warnings : List Record} {text : String} {offset : Nat}
    (hread : ReadAs previous lexeme first warnings)
    (h : Quoted (first.getLast?.or previous) lexemes text offset) :
    Quoted previous (lexeme :: lexemes) text offset := by
  obtain ⟨front, quoted, behind, tokens, others, rfl, hwalk, hoffset, hunknown, htext⟩ := h
  refine ⟨lexeme :: front, quoted, behind, first ++ tokens, warnings ++ others, rfl,
    .cons hread hwalk, hoffset, hunknown, ?_⟩
  rw [List.getLast?_append, Option.or_assoc]
  exact htext

/-- **Every diagnostic is about a lexeme.** -/
theorem quoted_of_diagnosed {previous : Option Value} {depth : Nat} {lexemes : List Lexeme}
    {cs : List Char} {text : String} {offset : Nat}
    (hpieces : ∀ lexeme ∈ lexemes, lexeme.text ∈ pieces cs)
    (h : Diagnosed (tokensFrom previous depth lexemes) text offset) :
    Quoted previous lexemes text offset := by
  induction lexemes generalizing previous depth with
  | nil =>
    rw [tokensFrom] at h
    split at h <;> rcases h with h | h <;> cases h
  | cons lexeme lexemes ih =>
    obtain ⟨hlexeme, hlexemes⟩ := List.forall_mem_cons.mp hpieces
    generalize hleft : (splitSign previous lexeme.text).2 = left
    rw [tokensFrom_cons, hleft] at h
    rcases exists_readAs_or_outOfRange hlexeme previous with ⟨first, warnings, hread⟩ | hrange
    · rw [hread.read.1] at h
      dsimp only at h
      cases hdepth : first.foldlM depthAfter? depth with
      | none =>
        -- a parenthesis that closes nothing is an error of another kind
        rw [hdepth] at h
        rcases h with h | h <;> cases h
      | some depth' =>
        rw [hdepth] at h
        -- the warning is about this lexeme, or what is diagnosed is behind it
        rcases h with h | h
        · rcases List.mem_append.mp h with h | h
          · rw [warningsAbout, hleft] at h
            split at h
            · rename_i hunknown
              rw [Value.text_classify_of_unknown hunknown, List.mem_singleton] at h
              cases h
              exact .head hleft hunknown lexemes
            · cases h
          · exact Quoted.cons hread (ih hlexemes (.discarded h))
        · exact Quoted.cons hread (ih hlexemes (.outOfRange (map_eq_error_iff.mp h)))
    · -- a numeral out of range is an error, so what is diagnosed is this lexeme and no other
      have hnone := hrange.readPiece?_eq_none previous
      have hunknown := kind_of_readPiece?_eq_none hnone
      rw [hleft] at hunknown
      rw [hnone] at h
      rcases h with h | h
      · cases h
      · cases h
        rw [Value.text_classify_of_unknown hunknown]
        exact .head hleft hunknown lexemes

/-! ### Where it points -/

/-- A lexeme of an expression stands at its offset, counted from the start. -/
theorem Lexeme.exists_toList_of_mem {expression : String} {lexeme : Lexeme}
    (h : lexeme ∈ lexemes expression) : ∃ before behind, expression.toList = before ++ behind ∧
      lexeme.text <+: behind ∧ lexeme.offset = byteSize before := by
  obtain ⟨before, behind, hparts, htext, hoffset⟩ := Lexeme.exists_of_mem_scan h
  exact ⟨before, behind, hparts, htext, by rw [hoffset, Nat.zero_add]⟩

/-- What is diagnosed of an expression is diagnosed of its lexemes: the note on the tokens is no
warning, and for an expression without text the error is another. -/
theorem diagnosed_tokensFrom {expression text : String} {offset : Nat}
    (h : Diagnosed (tokenize expression) text offset) :
    Diagnosed (tokensFrom none 0 (lexemes expression)) text offset := by
  unfold tokenize at h
  split at h
  · rcases h with h | h <;> cases h
  · cases houtcome : (tokensFrom none 0 (lexemes expression)).outcome with
    | error e =>
      rw [Logged.bind_eq_of_error houtcome] at h
      rcases h with h | h
      · exact .discarded h
      · exact .outOfRange (houtcome.trans h)
    | ok tokens =>
      rw [Logged.bind_eq_of_ok houtcome] at h
      rcases h with h | h
      · refine .discarded ?_
        rcases List.mem_append.mp h with h | h
        · exact h
        · cases List.mem_singleton.mp h
      · cases h

/-- **Where a diagnostic points.** It points at the text that it quotes, unless the lexeme starts
with a minus sign and stands behind an operand. Then the minus sign is not quoted, and the
diagnostic points at the minus sign. -/
theorem diagnostic_pointsAt_iff {expression text : String} {offset : Nat}
    (h : Diagnosed (tokenize expression) text offset) :
    ∃ front lexeme behind tokens warnings, lexemes expression = front ++ lexeme :: behind ∧
      lexeme.offset = offset ∧ Walk none front tokens warnings ∧
      (PointsAt expression text offset ↔
        ¬ (lexeme.text.head? = some '-' ∧ tokens.getLast?.any Value.endsOperand = true)) ∧
      (PointsAt expression text offset ∨ PointsAt expression ("-" ++ text) offset) := by
  have hpieces : ∀ lexeme ∈ lexemes expression, lexeme.text ∈ pieces expression.toList :=
    fun lexeme hlexeme => List.mem_map_of_mem hlexeme
  obtain ⟨front, lexeme, behind, tokens, warnings, hparts, hwalk, rfl, hunknown, htext⟩ :=
    quoted_of_diagnosed hpieces (diagnosed_tokensFrom h)
  rw [Option.or_none] at htext
  have hmem : lexeme ∈ lexemes expression := by
    rw [hparts]
    simp
  obtain ⟨before, after, hexpression, hprefix, hoffset⟩ := Lexeme.exists_toList_of_mem hmem
  refine ⟨front, lexeme, behind, tokens, warnings, hparts, rfl, hwalk, ?_⟩
  rw [hoffset]
  by_cases hminus : lexeme.text.head? = some '-' ∧
      tokens.getLast?.any Value.endsOperand = true
  · obtain ⟨hhead, hoperand⟩ := hminus
    obtain ⟨unsigned, hunsigned⟩ := List.head?_eq_some_iff.mp hhead
    -- a minus sign alone is known
    have hne : unsigned ≠ [] := by
      rintro rfl
      rw [htext, hunsigned] at hunknown
      cases hunknown
    obtain ⟨d, ds, rfl, hd⟩ :=
      HasForm.of_minus (hunsigned ▸ hasForm_of_mem_pieces (hpieces lexeme hmem)) hne
    rw [hunsigned, splitSign_behind_operand hoperand hne] at htext
    rw [hunsigned] at hprefix
    obtain ⟨rest, rfl⟩ := hprefix
    rw [List.cons_append] at hexpression
    refine ⟨iff_of_false ?_ (not_not_intro ⟨hhead, hoperand⟩), Or.inr ?_⟩
    · rw [htext]
      exact not_pointsAt_minus hexpression hd
    · -- with the minus sign in front, the text is the whole lexeme
      refine pointsAt_of_isPrefix hexpression ⟨rest, ?_⟩
      simp only [htext, String.toList_append, String.toList_ofList]
      rfl
  · rw [splitSign_of_not_behind_operand hminus] at htext
    have hpoints : PointsAt expression text (byteSize before) := by
      refine pointsAt_of_isPrefix hexpression ?_
      rwa [htext, String.toList_ofList]
    exact ⟨iff_of_true hpoints hminus, Or.inl hpoints⟩

/-- Behind a character of two bytes, the group is quoted where it stands. -/
theorem diagnostic_pointsAt_iff_behind_wide_text :
    ∃ front lexeme behind tokens warnings,
      lexemes "\"é\" -[x]" = front ++ lexeme :: behind ∧ lexeme.offset = 6 ∧
        Walk none front tokens warnings ∧
        (PointsAt "\"é\" -[x]" "[x]" 6 ↔
          ¬ (lexeme.text.head? = some '-' ∧ tokens.getLast?.any Value.endsOperand = true)) ∧
        (PointsAt "\"é\" -[x]" "[x]" 6 ∨ PointsAt "\"é\" -[x]" ("-" ++ "[x]") 6) :=
  diagnostic_pointsAt_iff (.discarded (by decide +kernel))

/-- Behind an operand, a warning and an error quote a number that is one byte further on. -/
theorem diagnostics_point_at_minus_behind_operand :
    Diagnosed (tokenize "5-1.") "1." 1 ∧ ¬ PointsAt "5-1." "1." 1 ∧ PointsAt "5-1." "1." 2 ∧
      Diagnosed (tokenize "5-79228162514264337593543950336") "79228162514264337593543950336" 1 ∧
      ¬ PointsAt "5-79228162514264337593543950336" "79228162514264337593543950336" 1 :=
  ⟨.discarded (by decide +kernel), by decide +kernel, by decide +kernel,
    .outOfRange (by decide +kernel), by decide +kernel⟩

end RuleLang
