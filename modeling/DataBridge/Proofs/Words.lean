import DataBridge.Proofs.Path
import Std.Data.String.ToNat

/-!
# Words of a text

The words of a text are its longest runs of letters, digits and underscores in
the sense of ASCII.  Two texts side by side keep their words when a character
of no word stands at the seam.
-/

namespace DataBridge.Text

/-- What holds of all characters of a list is checked on these alone. -/
instance (priority := high) decidableForallMem {holds : Char → Prop}
    [DecidablePred holds] (chars : List Char) :
    Decidable (∀ c ∈ chars, holds c) :=
  List.decidableBAll holds chars

/-- Whether a character may stand in a word. -/
def inWord (c : Char) : Bool :=
  c.isAlphanum || c == '_'

/-- The longest runs of word characters. -/
def runs (chars : List Char) : List (List Char) :=
  (chars.splitOnP fun c => !inWord c).filter fun run => !run.isEmpty

/-- The words of a text, in order. -/
def words (text : String) : List String :=
  (runs text.toList).map String.ofList

/-- Whether characters begin with one that is in no word. -/
def opens (chars : List Char) : Bool :=
  chars.head?.any fun c => !inWord c

/-- Whether characters end with one that is in no word. -/
def closes (chars : List Char) : Bool :=
  chars.getLast?.any fun c => !inWord c

theorem runs_append_cons {delimiter : Char} (apart : inWord delimiter = false)
    (first second : List Char) :
    runs (first ++ delimiter :: second) = runs first ++ runs second := by
  simp only [runs, ← List.filter_append]
  rw [List.splitOnP_append_cons first second (by simp [apart])]

theorem words_append_of_opens (first : String) {second : String}
    (apart : opens second.toList = true) :
    words (first ++ second) = words first ++ words second := by
  obtain ⟨delimiter, found, outside⟩ := (Option.any_eq_true _ _).mp apart
  obtain ⟨rest, text⟩ := List.head?_eq_some_iff.mp found
  have outside : inWord delimiter = false := by simpa using outside
  have alone := runs_append_cons outside [] rest
  have both := runs_append_cons outside first.toList rest
  simp only [List.nil_append] at alone
  simp only [words, String.toList_append, text, both, alone, List.map_append]
  rfl

theorem words_append_of_closes {first : String} (second : String)
    (apart : closes first.toList = true) :
    words (first ++ second) = words first ++ words second := by
  obtain ⟨delimiter, found, outside⟩ := (Option.any_eq_true _ _).mp apart
  obtain ⟨rest, text⟩ := List.getLast?_eq_some_iff.mp found
  have outside : inWord delimiter = false := by simpa using outside
  have alone := runs_append_cons outside rest []
  have both := runs_append_cons outside rest second.toList
  simp only [words, String.toList_append, text, List.append_assoc,
    List.singleton_append, both, alone, List.map_append]
  rfl

theorem opens_append {first : List Char} (second : List Char)
    (apart : opens first = true) : opens (first ++ second) = true := by
  obtain ⟨delimiter, found, outside⟩ := (Option.any_eq_true _ _).mp apart
  simp only [opens, List.head?_append, found]
  exact outside

theorem closes_append (first : List Char) {second : List Char}
    (apart : closes second = true) : closes (first ++ second) = true := by
  obtain ⟨delimiter, found, outside⟩ := (Option.any_eq_true _ _).mp apart
  simp only [closes, List.getLast?_append, found]
  exact outside

/-- A text of word characters is one word. -/
theorem words_eq_singleton {text : String}
    (inside : ∀ c ∈ text.toList, inWord c = true) (some : text ≠ "") :
    words text = [text] := by
  have whole : text.toList.splitOnP (fun c => !inWord c) = [text.toList] := by
    apply List.splitOnP_eq_singleton
    intro c known
    rw [inside c known]
    rfl
  simp [words, runs, whole, some]

theorem eq_of_mem_words_single {c : Char} {word : String}
    (known : word ∈ words c.toString) : word = c.toString := by
  by_cases inside : inWord c = true
  · rw [words_eq_singleton (by simp [inside]) (by simp)] at known
    exact List.mem_singleton.mp known
  · have none := runs_append_cons (Bool.eq_false_iff.mpr inside) [] []
    rw [List.nil_append] at none
    rw [words, show c.toString.toList = [c] by simp, none] at known
    cases known

end DataBridge.Text

namespace DataBridge

section Digits

theorem isDigit_of_mem_digits {number : Nat} {c : Char}
    (known : c ∈ (toString number).toList) : c.isDigit = true := by
  rw [Nat.toString_eq_ofList_toDigits, String.toList_ofList] at known
  exact Nat.isDigit_of_mem_toDigits (by decide) (by decide) known

theorem digits_ne_nil (number : Nat) : (toString number).toList ≠ [] := by
  rw [Nat.toString_eq_ofList_toDigits, String.toList_ofList]
  exact Nat.toDigits_ne_nil

theorem inWord_of_mem_digits {number : Nat} {c : Char}
    (known : c ∈ (toString number).toList) : Text.inWord c = true := by
  simp [Text.inWord, Char.isAlphanum, isDigit_of_mem_digits known]

theorem toString_negSucc (number : Nat) :
    (toString (Int.negSucc number)).toList =
      '-' :: (toString (number + 1)).toList := by
  rw [show toString (Int.negSucc number) = "-" ++ toString (number + 1) from
    rfl, String.toList_append]
  rfl

end Digits

end DataBridge
