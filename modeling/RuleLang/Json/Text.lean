import RuleLang.Json.Failure

/-!
# JSON strings

Reading a JSON string (`readString`) and writing one (`quote`). The reader takes every escape of
the format, in either case of the hexadecimal digits, and wants surrogates to come in pairs. The
writer keeps every character that may stand for itself. An object whose values are strings is
written from such strings (`object`).
-/

namespace RuleLang.Json

/-! ### Reading -/

/-- The character that a letter denotes after a backslash. -/
def shortEscape? : Char → Option Char
  | '"' => some '"'
  | '\\' => some '\\'
  | '/' => some '/'
  | 'b' => some '\x08'
  | 'f' => some '\x0c'
  | 'n' => some '\n'
  | 'r' => some '\r'
  | 't' => some '\t'
  | _ => none

/-- The value of a hexadecimal digit, in either case. -/
def hexDigit? (c : Char) : Option Nat :=
  if '0' ≤ c ∧ c ≤ '9' then some (c.toNat - '0'.toNat)
  else if 'a' ≤ c ∧ c ≤ 'f' then some (c.toNat - 'a'.toNat + 10)
  else if 'A' ≤ c ∧ c ≤ 'F' then some (c.toNat - 'A'.toNat + 10)
  else none

/-- The number that a run of hexadecimal digits denotes. -/
def hexValue? (cs : List Char) : Option Nat :=
  (cs.mapM hexDigit?).map (·.foldl (fun n d => 16 * n + d) 0)

/-- Four hexadecimal digits. The next four bytes are taken for them, whatever they are. -/
def readHexQuad (cs : List Char) : Except Failure (Nat × List Char) :=
  -- Four bytes are asked for before any is looked at: too short a text fails at its end.
  if byteSize (cs.take 4) < 4 then .error (.before .endInString [])
  else
    match hexValue? (cs.take 4) with
    | some n => .ok (n, cs.drop 4)
    | none => .error ⟨.invalidEscape, byteSize cs - 4⟩

/-- A character that has to follow the first half of a surrogate pair. -/
def readPairMark (mark : Char) : List Char → Except Failure (List Char)
  | [] => .error (.before .endInString [])
  | c :: cs => if c = mark then .ok cs else .error (.within .endOfHexEscape (c :: cs))

/-- Whether a code unit is the first half of a surrogate pair. -/
def isHighSurrogate (n : Nat) : Bool :=
  0xD800 ≤ n && n ≤ 0xDBFF

/-- Whether a code unit is the second half of a surrogate pair. -/
def isLowSurrogate (n : Nat) : Bool :=
  0xDC00 ≤ n && n ≤ 0xDFFF

/-- The character that a surrogate pair denotes. -/
def ofSurrogates (high low : Nat) : Char :=
  Char.ofNat (0x10000 + (high - 0xD800) * 0x400 + (low - 0xDC00))

/-- The second half of a surrogate pair, an escape of its own. Gives the character of the pair. -/
def readLowSurrogate (high : Nat) (cs : List Char) : Except Failure (Char × List Char) := do
  -- No short escape may stand here, nor a character written as itself.
  let cs ← readPairMark '\\' cs
  let cs ← readPairMark 'u' cs
  let (low, cs) ← readHexQuad cs
  if isLowSurrogate low then
    return (ofSurrogates high low, cs)
  else
    throw (.before .loneSurrogate cs)

/-- A character written by its code units, from after the letter `u` of the first. -/
def readUnicodeEscape (cs : List Char) : Except Failure (Char × List Char) := do
  let (n, cs) ← readHexQuad cs
  if isLowSurrogate n then
    throw (.before .loneSurrogate cs)
  else if isHighSurrogate n then
    readLowSurrogate n cs
  else
    return (Char.ofNat n, cs)

/-- The character that an escape denotes, from after its backslash. -/
def readEscape : List Char → Except Failure (Char × List Char)
  | [] => .error (.before .endInString [])
  | c :: cs =>
    match shortEscape? c with
    | some meant => .ok (meant, cs)
    | none =>
      if c = 'u' then readUnicodeEscape cs else .error (.within .invalidEscape (c :: cs))

/-! ### A reader leaves a shorter text -/

/-- Readers in a row succeed when each of them does. -/
theorem exists_of_bind_eq_ok {α β : Type} {x : Except Failure α} {f : α → Except Failure β} {b : β}
    (h : (x >>= f) = .ok b) : ∃ a, x = .ok a ∧ f a = .ok b := by
  cases x with
  | error failure => contradiction
  | ok a => exact ⟨a, rfl, h⟩

theorem length_le_of_readHexQuad {cs rest : List Char} {n : Nat}
    (h : readHexQuad cs = .ok (n, rest)) : rest.length ≤ cs.length := by
  rw [readHexQuad] at h
  split at h
  · contradiction
  · split at h
    · obtain ⟨rfl, rfl⟩ := Prod.mk.inj (Except.ok.inj h)
      exact (List.drop_sublist 4 cs).length_le
    · contradiction

theorem length_le_of_readPairMark {mark : Char} {cs rest : List Char}
    (h : readPairMark mark cs = .ok rest) : rest.length ≤ cs.length := by
  cases cs with
  | nil => contradiction
  | cons c cs =>
    rw [readPairMark] at h
    split at h
    · rw [Except.ok.inj h]
      exact Nat.le_succ rest.length
    · contradiction

theorem length_le_of_readLowSurrogate {high : Nat} {cs rest : List Char} {c : Char}
    (h : readLowSurrogate high cs = .ok (c, rest)) : rest.length ≤ cs.length := by
  obtain ⟨afterSlash, hslash, h⟩ := exists_of_bind_eq_ok h
  obtain ⟨afterLetter, hletter, h⟩ := exists_of_bind_eq_ok h
  obtain ⟨⟨low, afterDigits⟩, hdigits, h⟩ := exists_of_bind_eq_ok h
  have hrest : afterDigits = rest := by
    dsimp only at h
    split at h
    · exact (Prod.mk.inj (Except.ok.inj h)).2
    · contradiction
  calc rest.length = afterDigits.length := by rw [hrest]
    _ ≤ afterLetter.length := length_le_of_readHexQuad hdigits
    _ ≤ afterSlash.length := length_le_of_readPairMark hletter
    _ ≤ cs.length := length_le_of_readPairMark hslash

theorem length_le_of_readUnicodeEscape {cs rest : List Char} {c : Char}
    (h : readUnicodeEscape cs = .ok (c, rest)) : rest.length ≤ cs.length := by
  obtain ⟨⟨n, afterDigits⟩, hdigits, h⟩ := exists_of_bind_eq_ok h
  have hdigits := length_le_of_readHexQuad hdigits
  dsimp only at h
  split at h
  · contradiction
  · split at h
    · exact Nat.le_trans (length_le_of_readLowSurrogate h) hdigits
    · obtain ⟨rfl, rfl⟩ := Prod.mk.inj (Except.ok.inj h)
      exact hdigits

/-- An escape takes at least one character. -/
theorem length_lt_of_readEscape {cs rest : List Char} {c : Char}
    (h : readEscape cs = .ok (c, rest)) : rest.length < cs.length := by
  cases cs with
  | nil => contradiction
  | cons letter cs =>
    rw [readEscape] at h
    split at h
    · obtain ⟨rfl, rfl⟩ := Prod.mk.inj (Except.ok.inj h)
      exact Nat.lt_succ_self cs.length
    · split at h
      · exact Nat.lt_succ_of_le (length_le_of_readUnicodeEscape h)
      · contradiction

/-- The characters of a string, from after its opening quote, and what follows its closing one. -/
def readString (cs : List Char) : Except Failure (List Char × List Char) :=
  match cs with
  | [] => .error (.before .endInString [])
  | '"' :: cs => .ok ([], cs)
  | '\\' :: cs =>
    match h : readEscape cs with
    | .error failure => .error failure
    | .ok (c, rest) =>
      have := length_lt_of_readEscape h
      match readString rest with
      | .error failure => .error failure
      | .ok (s, rest) => .ok (c :: s, rest)
  | c :: cs =>
    if c.toNat < 0x20 then .error (.within .controlCharacter (c :: cs))
    else
      match readString cs with
      | .error failure => .error failure
      | .ok (s, rest) => .ok (c :: s, rest)
termination_by cs.length

/-- A string takes at least its closing quote. -/
theorem length_lt_of_readString {cs s rest : List Char}
    (h : readString cs = .ok (s, rest)) : rest.length < cs.length := by
  fun_induction readString cs generalizing s with
  | case1 => contradiction
  | case2 cs =>
    obtain ⟨rfl, rfl⟩ := Prod.mk.inj (Except.ok.inj h)
    exact Nat.lt_succ_self cs.length
  | case3 => contradiction
  | case4 => contradiction
  | case5 cs c afterEscape _ hescape t afterString hstring ih =>
    obtain ⟨-, rfl⟩ := Prod.mk.inj (Except.ok.inj h)
    exact Nat.lt_succ_of_lt (Nat.lt_trans (ih hstring) hescape)
  | case6 => contradiction
  | case7 => contradiction
  | case8 c cs _ _ _ t afterString hstring ih =>
    obtain ⟨-, rfl⟩ := Prod.mk.inj (Except.ok.inj h)
    exact Nat.lt_succ_of_lt (ih hstring)

/-! ### Writing -/

/-- A character as it is written inside a string. -/
def escape (c : Char) : List Char :=
  match c with
  | '"' => ['\\', '"']
  | '\\' => ['\\', '\\']
  | '\x08' => ['\\', 'b']
  | '\x0c' => ['\\', 'f']
  | '\n' => ['\\', 'n']
  | '\r' => ['\\', 'r']
  | '\t' => ['\\', 't']
  | c =>
    if c.toNat < 0x20 then
      ['\\', 'u', '0', '0', Nat.digitChar (c.toNat / 16), Nat.digitChar (c.toNat % 16)]
    else
      [c]

/-- The string that holds the given characters. -/
def quote (cs : List Char) : List Char :=
  '"' :: (cs.flatMap escape ++ ['"'])

/-- A member of an object, its value being a string. -/
def member (name value : String) : List Char :=
  quote name.toList ++ ':' :: quote value.toList

/-- The object with the given members, in the given order. -/
def object (members : List (String × String)) : String :=
  let written := members.map fun (name, value) => member name value
  String.ofList ('\x7b' :: ([','].intercalate written ++ ['\x7d']))

end RuleLang.Json
