import DataBridge.Program.Render
import DataBridge.Proofs.Naming.Script
import DataBridge.Proofs.Words

/-!
# Words that look like temporaries

A word is spelled like a temporary when it is one of the five fixed names or
`object` with decimal digits behind it.  The spelling fixes the native type.
Fixed text with a delimiter at the seam adds no temporaries to the names that it
surrounds.
-/

namespace DataBridge

/-- Whether characters are `object` with decimal digits behind it. -/
def spellSlot (chars : List Char) : Bool :=
  "object".toList.isPrefixOf chars && chars.length != 6 &&
    (chars.drop 6).all Char.isDigit

/-- The other temporaries with their native types. -/
def fixedTemporaries : List (List Char × String) :=
  [("property".toList, "napi_value"), ("arrayItem".toList, "napi_value"),
    ("_r".toList, "size_t"), ("_value".toList, "int32_t"),
    ("__value".toList, "double")]

/-- The native type of a temporary that is spelled with these characters. -/
def spelling? (chars : List Char) : Option String :=
  if spellSlot chars then some "napi_value" else fixedTemporaries.lookup chars

/-- The native type of a temporary of this name. -/
def temporaryType? (name : String) : Option String :=
  spelling? name.toList

/-- The words of a text that are spelled like temporaries, in order. -/
def temporaries (text : String) : List String :=
  (Text.words text).filter fun word => (temporaryType? word).isSome

theorem mem_temporaries_iff {text name : String} :
    name ∈ temporaries text ↔
      name ∈ Text.words text ∧ (temporaryType? name).isSome = true := by
  rw [temporaries, List.mem_filter]

namespace Temp

theorem identifier_injective : Function.Injective identifier := by
  intro first second same
  have chars := congrArg String.toList same
  cases first <;> cases second <;> simp [identifier] at chars ⊢
  case slot.slot first second =>
    apply Nat.repr_injective
    rw [Nat.repr_eq_ofList_toDigits, chars, Nat.repr_eq_ofList_toDigits]

theorem temporaryType?_identifier (temp : Temp) :
    temporaryType? temp.identifier = some temp.nativeType := by
  cases temp with
  | slot index =>
      have digits : ∀ c ∈ (toString index).toList, c.isDigit = true :=
        fun _ => isDigit_of_mem_digits
      have spelled : spellSlot (slot index).identifier.toList = true := by
        simpa [spellSlot, identifier] using digits
      simp [temporaryType?, spelling?, spelled, nativeType]
  | property | arrayItem | lengthScratch | intScratch | floatScratch => rfl

theorem inWord_of_mem_identifier {temp : Temp} {c : Char}
    (known : c ∈ temp.identifier.toList) : Text.inWord c = true := by
  have fixed : ∀ chars ∈ ["object", "property", "arrayItem", "_r", "_value",
      "__value"],
        chars.toList.all Text.inWord = true := by
    simp [Text.inWord]
  cases temp with
  | slot index =>
      rw [identifier, String.toList_append, List.mem_append] at known
      exact known.elim (List.all_eq_true.mp (fixed "object" (by simp)) c)
        inWord_of_mem_digits
  | property | arrayItem | lengthScratch | intScratch | floatScratch =>
      exact List.all_eq_true.mp (fixed _ (by simp [identifier])) c known

theorem words_identifier (temp : Temp) :
    Text.words temp.identifier = [temp.identifier] := by
  apply Text.words_eq_singleton
  · exact fun _ => inWord_of_mem_identifier
  · cases temp <;> simp [identifier]

@[simp]
theorem temporaries_identifier (temp : Temp) :
    temporaries temp.identifier = [temp.identifier] := by
  simp [temporaries, words_identifier, temporaryType?_identifier]

theorem before_iff {first second : Temp} : first.before second = true ↔
    first.rank < second.rank ∨ first.rank = second.rank ∧ first.number <
      second.number := by
  simp [before]

private theorem before_trans {first second third : Temp}
    (left : first.before second = true) (right : second.before third = true) :
    first.before third = true := by
  rw [before_iff] at left right ⊢
  omega

private theorem before_of_not_before {first second : Temp}
    (different : first ≠ second)
    (unordered : ¬first.before second = true) : second.before first = true := by
  rw [before_iff] at unordered ⊢
  cases first <;> cases second <;> simp [rank, number] at different unordered ⊢
  omega

private theorem insert_pairwise {temp : Temp} {temps : List Temp}
    (sorted : temps.Pairwise fun first second => first.before second = true) :
    (insert temp temps).Pairwise fun first second =>
      first.before second = true := by
  induction temps with
  | nil => simp [insert]
  | cons first rest induction =>
      obtain ⟨least, sortedRest⟩ := List.pairwise_cons.mp sorted
      rw [insert]
      split
      · exact sorted
      · rename_i different
        split
        · rename_i smaller
          apply List.Pairwise.cons _ sorted
          intro other known
          cases known with
          | head => exact smaller
          | tail _ later => exact before_trans smaller (least other later)
        · rename_i larger
          apply List.Pairwise.cons _ (induction sortedRest)
          intro other known
          cases mem_insert_iff.mp known with
          | inl same => exact same ▸ before_of_not_before different larger
          | inr later => exact least other later

private theorem ordered_pairwise (temps : List Temp) :
    (ordered temps).Pairwise fun first second =>
      first.before second = true := by
  induction temps with
  | nil => exact .nil
  | cons temp rest induction => exact insert_pairwise induction

theorem ordered_nodup (temps : List Temp) : (ordered temps).Nodup := by
  apply (ordered_pairwise temps).imp
  intro first second smaller same
  rw [same, before_iff] at smaller
  omega

end Temp

/-- Whether no word of some characters is spelled like a temporary. -/
def calm (chars : List Char) : Bool :=
  (Text.runs chars).all fun run => (spelling? run).isNone

section Fixed

variable {chars : List Char}

theorem temporaries_fixed (quiet : calm chars = true) :
    temporaries (String.ofList chars) = [] := by
  rw [calm, List.all_eq_true] at quiet
  rw [temporaries, Text.words, String.toList_ofList, List.filter_map,
    List.map_eq_nil_iff, List.filter_eq_nil_iff]
  intro run known spelled
  have none := quiet run known
  simp [temporaryType?] at spelled none
  simp [none] at spelled

theorem temporaries_start (rest : String) (ends : Text.closes chars = true)
    (quiet : calm chars = true) :
    temporaries (String.ofList chars ++ rest) = temporaries rest := by
  have none := temporaries_fixed quiet
  rw [temporaries] at none
  rw [← String.toList_ofList (l := chars)] at ends
  rw [temporaries, Text.words_append_of_closes rest ends, List.filter_append,
    none, List.nil_append, temporaries]

theorem temporaries_between (name rest : String)
    (begins : Text.opens chars = true) (ends : Text.closes chars = true)
    (quiet : calm chars = true) :
    temporaries (name ++ (String.ofList chars ++ rest)) =
      temporaries name ++ temporaries rest := by
  have seam : Text.opens (String.ofList chars ++ rest).toList = true := by
    rw [String.toList_append, String.toList_ofList]
    exact Text.opens_append _ begins
  rw [temporaries, Text.words_append_of_opens name seam, List.filter_append,
    ← temporaries, ← temporaries, temporaries_start rest ends quiet]

theorem temporaries_last (name : String) (begins : Text.opens chars = true)
    (quiet : calm chars = true) :
    temporaries (name ++ String.ofList chars) = temporaries name := by
  have none := temporaries_fixed quiet
  rw [temporaries] at none
  rw [← String.toList_ofList (l := chars)] at begins
  rw [temporaries, Text.words_append_of_opens name begins,
    List.filter_append, none, List.append_nil, temporaries]

end Fixed

/-- A spelling of a temporary has two characters or more and does not begin
with a digit. -/
theorem exists_of_temporaryType? {name : String}
    (spelled : (temporaryType? name).isSome = true) :
    ∃ first second rest, name.toList = first :: second :: rest ∧ first.isDigit =
      false := by
  by_cases slot : spellSlot name.toList = true
  · simp only [spellSlot, Bool.and_eq_true, List.isPrefixOf_iff_prefix] at slot
    obtain ⟨⟨⟨digits, whole⟩, -⟩, -⟩ := slot
    exact ⟨'o', 'b', _, whole.symm, by decide⟩
  · rw [temporaryType?, spelling?, if_neg slot] at spelled
    obtain ⟨pair, known, same⟩ := List.lookup_isSome_iff.mp spelled
    have fixed : ∀ pair ∈ fixedTemporaries, ∃ first second rest,
        pair.1 = first :: second :: rest ∧ first.isDigit = false := by
      simp [fixedTemporaries, Char.isDigit]
    exact eq_of_beq same ▸ fixed pair known

theorem temporaries_single (c : Char) : temporaries c.toString = [] := by
  rw [temporaries, List.filter_eq_nil_iff]
  intro word known spelled
  obtain ⟨first, second, rest, chars, -⟩ := exists_of_temporaryType? spelled
  rw [Text.eq_of_mem_words_single known] at chars
  simp at chars

theorem temporaries_digits (number : Nat) :
    temporaries (toString number) = [] := by
  have whole : Text.words (toString number) = [toString number] := by
    apply Text.words_eq_singleton
    · intro c known
      exact inWord_of_mem_digits known
    · intro empty
      exact digits_ne_nil number (by rw [empty]; rfl)
  rw [temporaries, whole, List.filter_eq_nil_iff]
  intro word known spelled
  rw [List.mem_singleton] at known
  obtain ⟨first, second, rest, chars, letter⟩ :=
    exists_of_temporaryType? spelled
  have digit : first.isDigit = true := by
    apply @isDigit_of_mem_digits number
    rw [← known, chars]
    exact List.mem_cons_self
  rw [letter] at digit
  cases digit

theorem words_indentation (depth : Nat) (rest : String) :
    Text.words (indentation depth ++ rest) = Text.words rest := by
  have none : Text.words "    " = [] := by decide
  induction depth with
  | zero => simp [indentation]
  | succ depth induction =>
      rw [indentation, List.replicate_succ, String.join_cons,
        String.append_assoc, Text.words_append_of_closes _ (by decide), none,
        List.nil_append]
      exact induction

theorem temporaries_indentation (depth : Nat) (rest : String) :
    temporaries (indentation depth ++ rest) = temporaries rest := by
  rw [temporaries, words_indentation, temporaries]

end DataBridge
