import RuleLang.Proofs.ArrayReadings
import RuleLang.Proofs.Batch
import RuleLang.Proofs.KindInference

/-!
# Reports as lines of JSON

What a JSON object of strings is, is said by its spellings (`Json.SpellsObject`), those of its
strings among them, and not by the function that writes one. A text spells the members of one object
at most (`Json.SpellsObject.unique`), because it is read from the front: up to the closing quote of
a string there is one way to go on, and behind it white space ends where a mark stands. What is
written is a spelling and has no control characters, whatever is in the strings
(`Json.spellsObject_object`).

So of the lines that a check prints, each says of its expression what the check has found, to every
reader of JSON (`check_json_lines_faithful`). No line ends inside a string, since a line end is a
control character.
-/

namespace RuleLang

namespace Json

/-! ### Spellings of objects -/

/-- The spellings of a string in its quotes, with white space around them. -/
inductive SpellsString (s : String) : List Char → Prop where
  | quoted {before spelled after : List Char} (hbefore : before.all isSpace = true)
      (hs : Spells s.toList spelled) (hafter : after.all isSpace = true) :
      SpellsString s (before ++ '"' :: (spelled ++ '"' :: after))

/-- The spellings of a member: its name, a colon and its value. -/
inductive SpellsMember (member : String × String) : List Char → Prop where
  | named {name value : List Char} (hname : SpellsString member.1 name)
      (hvalue : SpellsString member.2 value) : SpellsMember member (name ++ ':' :: value)

/-- The spellings of one or more members, up to the end of the object. -/
inductive SpellsMembers : List (String × String) → List Char → Prop where
  | last {member : String × String} {cs : List Char} (hmember : SpellsMember member cs) :
      SpellsMembers [member] (cs ++ ['\x7d'])
  | cons {member : String × String} {members : List (String × String)} {cs rest : List Char}
      (hmember : SpellsMember member cs) (hmembers : SpellsMembers members rest) :
      SpellsMembers (member :: members) (cs ++ ',' :: rest)

/-- **The spellings of an object** that has a member and whose values are strings. -/
def SpellsObject (members : List (String × String)) (cs : List Char) : Prop :=
  ∃ inner, SpellsMembers members inner ∧ cs = '\x7b' :: inner

/-- From a spelling of a string in front of a mark the reader takes the string, and behind the white
space that is left it meets the mark. -/
theorem SpellsString.readItem {s : String} {cs : List Char} (h : SpellsString s cs) {c : Char}
    (hc : isSpace c = false) (rest : List Char) :
    ∃ after, readItem (skipSpace (cs ++ c :: rest)) = .ok (s, after) ∧
      skipSpace after = c :: rest := by
  obtain ⟨hbefore, hs, hafter⟩ := h
  rename_i before spelled after
  refine ⟨after ++ c :: rest, ?_, skipSpace_append hafter hc rest⟩
  -- the white space in front goes first, so that the reader stands at the opening quote
  rw [List.append_assoc, List.cons_append, skipSpace_append hbefore rfl, List.append_assoc,
    List.cons_append]
  exact readItem_of_spells hs _

/-- A text in front of a mark spells one string, and the mark is where it ends. -/
theorem SpellsString.unique {s s' : String} {cs cs' rest rest' : List Char} {c c' : Char}
    (h : SpellsString s cs) (h' : SpellsString s' cs') (hc : isSpace c = false)
    (hc' : isSpace c' = false) (heq : cs ++ c :: rest = cs' ++ c' :: rest') :
    s = s' ∧ c = c' ∧ rest = rest' := by
  obtain ⟨after, hread, hskip⟩ := h.readItem hc rest
  obtain ⟨after', hread', hskip'⟩ := h'.readItem hc' rest'
  rw [heq, hread'] at hread
  cases hread
  rw [hskip'] at hskip
  cases hskip
  exact ⟨rfl, rfl, rfl⟩

/-- A text in front of a mark spells one member: its name ends at the colon, and its value
at the mark. -/
theorem SpellsMember.unique {member member' : String × String} {cs cs' rest rest' : List Char}
    {c c' : Char} (h : SpellsMember member cs) (h' : SpellsMember member' cs')
    (hc : isSpace c = false) (hc' : isSpace c' = false)
    (heq : cs ++ c :: rest = cs' ++ c' :: rest') : member = member' ∧ c = c' ∧ rest = rest' := by
  obtain ⟨hname, hvalue⟩ := h
  obtain ⟨hname', hvalue'⟩ := h'
  rw [List.append_assoc, List.append_assoc, List.cons_append, List.cons_append] at heq
  -- what is left behind the name is the same for both, so the values are compared on one text
  obtain ⟨hnames, -, heq⟩ := hname.unique hname' rfl rfl heq
  obtain ⟨hvalues, hmark⟩ := hvalue.unique hvalue' hc hc' heq
  exact ⟨Prod.ext hnames hvalues, hmark⟩

/-- A text spells one list of members, read from the front one member at a time. -/
theorem SpellsMembers.unique {members members' : List (String × String)} {cs : List Char}
    (h : SpellsMembers members cs) (h' : SpellsMembers members' cs) : members' = members := by
  induction h generalizing members' with
  | @last member cs hmember =>
    -- behind the last member there is a brace, and behind any other a comma
    generalize hcs : cs ++ ['\x7d'] = text at h'
    cases h' with
    | last hmember' =>
      obtain ⟨rfl, -⟩ := hmember.unique hmember' rfl rfl hcs
      rfl
    | cons hmember' _ =>
      obtain ⟨-, hmark, -⟩ := hmember.unique hmember' rfl rfl hcs
      cases hmark
  | @cons member members cs rest hmember _ ih =>
    generalize hcs : cs ++ ',' :: rest = text at h'
    cases h' with
    | last hmember' =>
      obtain ⟨-, hmark, -⟩ := hmember.unique hmember' rfl rfl hcs
      cases hmark
    | cons hmember' hmembers' =>
      obtain ⟨rfl, -, rfl⟩ := hmember.unique hmember' rfl rfl hcs
      rw [ih hmembers']

/-- **A text spells one object** at most. -/
theorem SpellsObject.unique {members members' : List (String × String)} {cs : List Char}
    (h : SpellsObject members cs) (h' : SpellsObject members' cs) : members' = members := by
  obtain ⟨inner, hinner, rfl⟩ := h
  obtain ⟨inner', hinner', hsame⟩ := h'
  cases hsame
  exact hinner.unique hinner'

/-! ### What is written -/

/-- A character is spelled by its escape. -/
theorem spellsChar_escape (c : Char) : SpellsChar c (escape c) := by
  have hquads : ∀ n < 0x20, IsHexQuad n
      ['0', '0', Nat.digitChar (n / 16), Nat.digitChar (n % 16)] := by decide
  unfold escape
  split
  · exact .short (by decide)
  · exact .short (by decide)
  · exact .short (by decide)
  · exact .short (by decide)
  · exact .short (by decide)
  · exact .short (by decide)
  · exact .short (by decide)
  · -- what is left are the control characters without a short escape, and what needs none
    split
    · exact .unit (hquads _ ‹_›)
    · exact .plain ‹_› ‹_› (Nat.not_lt.mp ‹_›)

/-- A string is spelled by the escapes of its characters, one after the other. -/
theorem spells_flatMap_escape (cs : List Char) : Spells cs (cs.flatMap escape) := by
  induction cs with
  | nil => exact .nil
  | cons c cs ih => exact .cons (spellsChar_escape c) ih

theorem spellsString_quote (s : String) : SpellsString s (quote s.toList) :=
  @SpellsString.quoted s [] (s.toList.flatMap escape) [] rfl (spells_flatMap_escape s.toList) rfl

theorem spellsMember_member (name value : String) :
    SpellsMember (name, value) (member name value) :=
  .named (spellsString_quote name) (spellsString_quote value)

/-- No control character is written for a string, since none stands in a spelling. -/
theorem noControl_quote (s : String) : NoControl (quote s.toList) := by
  -- by cases on the escapes this would be the work of `spellsChar_escape` once more; the iff for
  -- strings that can be spelled has it already
  have hspelled : NoControl (s.toList.flatMap escape) :=
    (exists_spells_iff.mp ⟨s, spells_flatMap_escape s.toList⟩).2
  simp only [NoControl, quote, List.forall_mem_cons, List.forall_mem_append] at hspelled ⊢
  exact ⟨by decide, hspelled, by decide, fun _ h => absurd h List.not_mem_nil⟩

theorem noControl_member (name value : String) : NoControl (member name value) := by
  have hname := noControl_quote name
  have hvalue := noControl_quote value
  simp only [NoControl, member, List.forall_mem_cons, List.forall_mem_append] at hname hvalue ⊢
  exact ⟨hname, by decide, hvalue⟩

/-- Members as they are written, with commas between them. -/
def writtenMembers (members : List (String × String)) : List Char :=
  [','].intercalate (members.map fun (name, value) => member name value)

/-- Behind a member that is not the last a comma is written. -/
theorem writtenMembers_cons_cons (name value : String) (next : String × String)
    (members : List (String × String)) :
    writtenMembers ((name, value) :: next :: members)
      = member name value ++ ',' :: writtenMembers (next :: members) := by
  rw [writtenMembers, List.map_cons, List.map_cons, List.intercalate_cons_cons, List.append_assoc]
  rfl

theorem writtenMembers_singleton (name value : String) :
    writtenMembers [(name, value)] = member name value :=
  List.intercalate_singleton

/-- Members as they are written spell themselves up to the closing brace. -/
theorem spellsMembers_writtenMembers {members : List (String × String)} (hne : members ≠ []) :
    SpellsMembers members (writtenMembers members ++ ['\x7d']) ∧
      NoControl (writtenMembers members) := by
  induction members with
  | nil => exact absurd rfl hne
  | cons first members ih =>
    obtain ⟨name, value⟩ := first
    -- a comma is written between two members only, so the last one is a case of its own
    cases members with
    | nil =>
      rw [writtenMembers_singleton]
      exact ⟨.last (spellsMember_member name value), noControl_member name value⟩
    | cons next members =>
      obtain ⟨hspells, hcontrol⟩ := ih (List.cons_ne_nil _ _)
      rw [writtenMembers_cons_cons]
      constructor
      · rw [List.append_assoc, List.cons_append]
        exact .cons (spellsMember_member name value) hspells
      · exact List.forall_mem_append.mpr ⟨noControl_member name value,
          List.forall_mem_cons.mpr ⟨by decide, hcontrol⟩⟩

/-- **What is written for an object** is one of its spellings, without control characters. -/
theorem spellsObject_object {members : List (String × String)} (hne : members ≠ []) :
    SpellsObject members (object members).toList ∧ NoControl (object members).toList := by
  obtain ⟨hspells, hcontrol⟩ := spellsMembers_writtenMembers hne
  have hobject : (object members).toList = '\x7b' :: (writtenMembers members ++ ['\x7d']) :=
    String.toList_ofList
  rw [hobject]
  refine ⟨⟨_, hspells, rfl⟩, ?_⟩
  simp only [NoControl, List.forall_mem_cons, List.forall_mem_append] at hcontrol ⊢
  exact ⟨by decide, hcontrol, by decide, fun _ h => absurd h List.not_mem_nil⟩

end Json

open Json (SpellsObject NoControl)

/-! ### Lines -/

/-- What a check has to say of an expression, as the members of an object. -/
inductive Tells (options : CheckOptions) (expression : String) : List (String × String) → Prop where
  /-- Without evaluation, the postfix order and the tree. -/
  | parsed {tokens : List Value} {expr : Expr} (hparseOnly : options.parseOnly = true)
      (htokens : (tokenize expression).outcome = .ok tokens)
      (hexpr : (parse tokens).outcome = .ok expr) :
      Tells options expression [("expression", expression),
        ("postfix", Value.literals " " expr.toPostfix), ("tree", expr.text)]
  /-- With evaluation, the kind of the value and its text. -/
  | evaluated {value : Value} (hparseOnly : options.parseOnly = false)
      (hvalue : (evaluate options.engine expression).outcome = .ok value) :
      Tells options expression [("expression", expression), ("kind", value.kind.name),
        ("result", value.text)]

/-- **A faithful line of JSON** for an expression: an object, and one only, whose members tell what
the check has to say. -/
def FaithfulLine (options : CheckOptions) (expression line : String) : Prop :=
  NoControl line.toList ∧ ∃ members, Tells options expression members ∧
    ∀ members', SpellsObject members' line.toList ↔ members' = members

/-- The members of a report tell what the check has found. -/
theorem tells_of_report {options : CheckOptions} {expression : String} {found : Report}
    (h : (report options expression).outcome = .ok found) :
    Tells options expression found.members := by
  rcases report_eq_ok_iff.mp h with ⟨hparseOnly, tokens, expr, htokens, hexpr, rfl⟩ |
    ⟨hparseOnly, value, hvalue, rfl⟩
  · exact .parsed hparseOnly htokens hexpr
  · exact .evaluated hparseOnly hvalue

/-- A report is printed as a faithful line. -/
theorem faithfulLine_of_report {options : CheckOptions} {expression : String} {found : Report}
    (h : (report options expression).outcome = .ok found) :
    FaithfulLine options expression (found.print true) := by
  have hne : found.members ≠ [] := by cases found <;> exact List.cons_ne_nil _ _
  obtain ⟨hspells, hcontrol⟩ := Json.spellsObject_object hne
  -- one spelling is what is written, and by uniqueness there is no other object that it spells
  refine ⟨hcontrol, found.members, tells_of_report h, fun members' => ⟨hspells.unique, ?_⟩⟩
  rintro rfl
  exact hspells

/-- **JSON output is faithful.** If a check that is asked for JSON succeeds, it prints one line for
each expression, in order, and each line is an object, and to every reader the same one: its members
hold the expression as it was given, and the value with its kind, or the postfix order and the tree
if expressions are only parsed. -/
theorem check_json_lines_faithful {arguments : List String} {input : ByteArray}
    {options : CheckOptions} {expressions : List String}
    (hasks : AsksToCheck arguments input options true expressions)
    (hcode : (outcome arguments input).code = 0) :
    ∃ lines, (outcome arguments input).stdout = unlines lines ∧
      List.Forall₂ (FaithfulLine options) expressions lines := by
  obtain ⟨found, hfound, hstdout⟩ := exists_reports_of_code_eq_zero hasks hcode
  refine ⟨found.map (Report.print true), hstdout, ?_⟩
  rw [List.forall₂_map_right_iff]
  exact hfound.imp fun _ _ => faithfulLine_of_report

/-- A string of a line end, a control character and a character above U+FFFF. -/
theorem check_json_lines_faithful_escapes :
    (outcome (checkArguments {} true ["\"\n\x01😀\"", "1+2"]) .empty).stdout
        = "\x7b\"expression\":\"\\\"\\n\\u0001😀\\\"\",\"kind\":\"String\"," ++
          "\"result\":\"\\n\\u0001😀\"\x7d\n" ++
          "\x7b\"expression\":\"1+2\",\"kind\":\"Number\",\"result\":\"3\"\x7d\n" ∧
      ∃ lines, (outcome (checkArguments {} true ["\"\n\x01😀\"", "1+2"]) .empty).stdout
          = unlines lines ∧
        List.Forall₂ (FaithfulLine {}) ["\"\n\x01😀\"", "1+2"] lines :=
  ⟨by decide +kernel,
    check_json_lines_faithful (asksToCheck_checkArguments {} true .empty (List.cons_ne_nil _ _))
      (by decide +kernel)⟩

end RuleLang
