import DataBridge.Json.Basic
import DataBridge.Yaml.Scalar
import DataBridge.Proofs.Words

/-!
# Reading JSON texts

A reader of JSON texts with whole numbers.  Any blanks may stand between the
parts of a document, and containers may nest up to a number of levels.  What is
printed is read as the document that it was printed from.
-/

namespace DataBridge.Json

/-- A reader takes a value from the front of characters and leaves the rest. -/
abbrev Reader (α : Type) := List Char → Option (α × List Char)

/-- Whether a character may stand between the parts of a document. -/
def isSpace (c : Char) : Bool :=
  c == ' ' || c == '\n' || c == '\r' || c == '\t'

def skip (chars : List Char) : List Char :=
  chars.dropWhile isSpace

/-- Reads a natural number.  It has no leading zeros. -/
def readNatural : Reader Nat := fun chars =>
  match chars.takeWhile Char.isDigit with
  | [] => none
  | '0' :: _ :: _ => none
  | digits => some (Nat.ofDigitChars 10 digits 0, chars.dropWhile Char.isDigit)

def readNumber : Reader Int
  | '-' :: rest => (readNatural rest).map fun (value, after) =>
      (-(value : Int), after)
  | chars => (readNatural chars).map fun (value, after) =>
      ((value : Int), after)

/-- The character that a letter behind a backslash stands for. -/
def escaped? : Char → Option Char
  | '"' => some '"'
  | '\\' => some '\\'
  | '/' => some '/'
  | 'n' => some '\n'
  | 'r' => some '\r'
  | 't' => some '\t'
  | 'b' => some '\x08'
  | 'f' => some '\x0c'
  | _ => none

/-- The character with a number of four hexadecimal digits.  Halves of a
surrogate pair are not read. -/
def unicode? (digits : List Char) : Option Char := do
  let values ← digits.mapM Yaml.hexDigit?
  let code := values.foldl (fun total value => total * 16 + value) 0
  if code.isValidChar then some (Char.ofNat code) else none

def readText : Reader (List Char)
  | [] => none
  | '"' :: rest => some ([], rest)
  | '\\' :: 'u' :: a :: b :: c :: d :: rest => do
      let first ← unicode? [a, b, c, d]
      let (text, after) ← readText rest
      return (first :: text, after)
  | '\\' :: letter :: rest => do
      let first ← escaped? letter
      let (text, after) ← readText rest
      return (first :: text, after)
  | first :: rest =>
      if first.toNat < 32 then none
      else do
        let (text, after) ← readText rest
        return (first :: text, after)

/-- Reads what is no container. -/
def readSimple : Reader Json
  | 'n' :: 'u' :: 'l' :: 'l' :: rest => some (.null, rest)
  | 't' :: 'r' :: 'u' :: 'e' :: rest => some (.bool true, rest)
  | 'f' :: 'a' :: 'l' :: 's' :: 'e' :: rest => some (.bool false, rest)
  | '"' :: rest => do
      let (text, after) ← readText rest
      return (.string (String.ofList text), after)
  | chars => (readNumber chars).map fun (value, after) => (.number value, after)

/-- Reads the parts of a container behind its first one, up to the bracket that
closes it.  There are at most `count` of them. -/
def readMore {α : Type} (close : Char) (part : Reader α) (count : Nat) :
    Reader (List α) :=
  fun chars =>
    match count, skip chars with
    | count + 1, ',' :: rest => do
        let (first, after) ← part (skip rest)
        let (others, last) ← readMore close part count after
        return (first :: others, last)
    | _, c :: rest => if c = close then some ([], rest) else none
    | _, [] => none

/-- Reads the parts of a container behind its opening bracket. -/
def readParts {α : Type} (close : Char) (part : Reader α) : Reader (List α) :=
  fun chars =>
    match skip chars with
    | [] => none
    | c :: rest =>
        if c = close then some ([], rest)
        else do
          let (first, after) ← part (c :: rest)
          let (others, last) ← readMore close part after.length after
          return (first :: others, last)

def readMember (value : Reader Json) : Reader (String × Json)
  | '"' :: rest => do
      let (name, after) ← readText rest
      match skip after with
      | ':' :: rest => do
          let (document, last) ← value (skip rest)
          return ((String.ofList name, document), last)
      | _ => none
  | _ => none

/-- Reads a document whose containers nest at most `levels` deep. -/
def readWithin : Nat → Reader Json
  | 0, chars => readSimple chars
  | levels + 1, chars =>
      match chars with
      | '[' :: rest =>
          (readParts ']' (readWithin levels) rest).map fun (items, after) =>
            (.array items, after)
      | '{' :: rest =>
          (readParts '}' (readMember (readWithin levels)) rest).map
            fun (members, after) => (.object members, after)
      | _ => readSimple chars

/-- The document of a text whose containers nest at most `levels` deep.  The
JSON library's own reader stops at 127 levels and refuses what nests deeper. -/
def read? (levels : Nat) (text : String) : Option Json := do
  let (document, rest) ← readWithin levels (skip text.toList)
  if (skip rest).isEmpty then some document else none

section Blanks

/-- Characters that may stand between the parts of a document. -/
def Blank (chars : List Char) : Prop :=
  ∀ c ∈ chars, isSpace c = true

variable {blanks rest : List Char} {c : Char}

private theorem skip_append (blank : Blank blanks) :
    skip (blanks ++ rest) = skip rest :=
  List.dropWhile_append_of_pos blank

theorem skip_cons (solid : isSpace c = false) : skip (c :: rest) = c :: rest :=
  List.dropWhile_cons_of_neg (by simp [solid])

theorem skip_append_cons (blank : Blank blanks) (solid : isSpace c = false) :
    skip (blanks ++ c :: rest) = c :: rest := by
  rw [skip_append blank, skip_cons solid]

theorem blank_lineBreak (depth : Nat) : Blank (lineBreak depth).toList := by
  intro c known
  rw [lineBreak, String.toList_append] at known
  rcases List.mem_append.mp known with first | indented
  · rw [List.mem_singleton.mp first]
    rfl
  · obtain ⟨blanks, copy, inside⟩ : ∃ blanks ∈ List.replicate depth "  ",
        c ∈ blanks.toList := by
      simpa [String.toList_join] using indented
    rw [List.eq_of_mem_replicate copy] at inside
    have blank : c = ' ' := by simpa using inside
    rw [blank]
    rfl

end Blanks

section Texts

theorem hexDigit?_hexDigit :
    ∀ n < 16, Yaml.hexDigit? (hexDigit n) = some n := by
  decide

private theorem unicode?_hexDigits {code : Nat} (low : code < 32) :
    unicode? ['0', '0', hexDigit (code / 16), hexDigit (code % 16)] =
      some (Char.ofNat code) := by
  have zero : Yaml.hexDigit? '0' = some 0 := rfl
  have high := hexDigit?_hexDigit (code / 16) (by omega)
  have last := hexDigit?_hexDigit (code % 16) (by omega)
  have whole : code / 16 * 16 + code % 16 = code := by omega
  have valid : code.isValidChar := .inl (by omega)
  simp [unicode?, zero, high, last, whole, valid]

private theorem readText_plain {c : Char} {rest : List Char} (quote : c ≠ '"')
    (backslash : c ≠ '\\') (high : ¬c.toNat < 32) :
    readText (c :: rest) = (readText rest).map fun (text, after) =>
      (c :: text, after) := by
  rw [readText, if_neg high]
  case x_1 => exact quote
  case x_2 =>
    intro _ _ _ _ _ same
    exact absurd same backslash
  case x_3 =>
    intro _ _ same
    exact absurd same backslash
  cases readText rest <;> rfl

/-- A character is read as it is or by its escape. -/
theorem readText_escapeChar (c : Char) (rest : List Char) :
    readText (escapeChar c ++ rest) =
      (readText rest).map fun (text, after) => (c :: text, after) := by
  unfold escapeChar
  split
  case h_8 _ quote backslash _ _ _ _ _ =>
    split
    case isTrue low =>
      have first := unicode?_hexDigits low
      rw [Char.ofNat_toNat] at first
      cases later : readText rest <;> simp [readText, first, later]
    case isFalse high => exact readText_plain quote backslash high
  all_goals
    cases later : readText rest <;> simp [readText, escaped?, later]

theorem readText_quoted (text rest : List Char) :
    readText (text.flatMap escapeChar ++ '"' :: rest) = some (text, rest) := by
  induction text with
  | nil => rfl
  | cons c text induction =>
      rw [List.flatMap_cons, List.append_assoc, readText_escapeChar, induction]
      rfl

end Texts

section Numbers

/-- Characters that do not go on with a digit. -/
def Ended (rest : List Char) : Prop :=
  ∀ c ∈ rest.head?, c.isDigit = false

theorem Ended.takeWhile {digits rest : List Char} (ended : Ended rest)
    (all : ∀ c ∈ digits, c.isDigit = true) :
    (digits ++ rest).takeWhile Char.isDigit = digits ∧
      (digits ++ rest).dropWhile Char.isDigit = rest := by
  rw [List.takeWhile_append_of_pos all, List.dropWhile_append_of_pos all]
  cases rest with
  | nil => simp
  | cons c rest =>
      have other : c.isDigit = false := ended c rfl
      simp [other]

/-- Only zero is written with a zero in front. -/
theorem eq_zero_of_leading_zero {n : Nat} {rest : List Char}
    (zero : Nat.toDigits 10 n = '0' :: rest) : n = 0 := by
  induction n using Nat.strongRecOn generalizing rest with
  | ind n induction =>
      by_cases small : n < 10
      · rw [Nat.toDigits_of_lt_base small] at zero
        have digit : n.digitChar = '0' := (List.cons.inj zero).1
        have apart : ∀ k < 10, k.digitChar = '0' → k = 0 := by decide
        exact apart n small digit
      · rw [Nat.toDigits_of_base_le (by decide) (by omega)] at zero
        cases front : Nat.toDigits 10 (n / 10) with
        | nil => exact absurd front Nat.toDigits_ne_nil
        | cons c more =>
            rw [front] at zero
            obtain rfl : c = '0' := (List.cons.inj zero).1
            have := induction (n / 10) (by omega) front
            omega

theorem readNatural_toString (n : Nat) {rest : List Char} (ended : Ended rest) :
    readNatural ((toString n).toList ++ rest) = some (n, rest) := by
  obtain ⟨taken, left⟩ := ended.takeWhile fun c => @isDigit_of_mem_digits n c
  have digits : (toString n).toList = Nat.toDigits 10 n := by
    rw [Nat.toString_eq_ofList_toDigits, String.toList_ofList]
  rw [readNatural, taken, left, digits]
  split
  case h_1 none => exact absurd none Nat.toDigits_ne_nil
  case h_2 c more zero =>
    rw [eq_zero_of_leading_zero zero, Nat.toDigits_zero] at zero
    cases zero
  case h_3 => rw [Nat.ofDigitChars_ten_toDigits]

/-- A whole number opens with its sign or with a digit. -/
theorem toString_opens (value : Int) :
    ∃ c rest, (toString value).toList = c :: rest ∧
      (c = '-' ∨ c.isDigit = true) := by
  cases value with
  | negSucc n => exact ⟨_, _, toString_negSucc n, .inl rfl⟩
  | ofNat n =>
      cases digits : (toString n).toList with
      | nil => exact absurd digits (digits_ne_nil n)
      | cons c rest =>
          have known : c ∈ (toString n).toList := digits ▸ List.mem_cons_self
          exact ⟨c, rest, digits, .inr (isDigit_of_mem_digits known)⟩

private theorem readNumber_unsigned {chars : List Char}
    (unsigned : '-' ∉ chars.head?) :
    readNumber chars = (readNatural chars).map fun (value, after) =>
      ((value : Int), after) := by
  rw [readNumber]
  intro rest signed
  rw [signed] at unsigned
  exact unsigned rfl

theorem readNumber_toString (value : Int) {rest : List Char}
    (ended : Ended rest) :
    readNumber ((toString value).toList ++ rest) = some (value, rest) := by
  cases value with
  | ofNat n =>
      have unsigned : '-' ∉ ((toString n).toList ++ rest).head? := by
        rw [List.head?_append,
          Option.or_of_isSome (List.isSome_head?.mpr (digits_ne_nil n))]
        intro sign
        exact absurd (isDigit_of_mem_digits (List.mem_of_mem_head? sign))
          (by decide)
      change readNumber ((toString n).toList ++ rest) = some (Int.ofNat n, rest)
      rw [readNumber_unsigned unsigned, readNatural_toString n ended]
      rfl
  | negSucc n =>
      rw [toString_negSucc, List.cons_append, readNumber,
        readNatural_toString _ ended]
      rfl

end Numbers

end DataBridge.Json
