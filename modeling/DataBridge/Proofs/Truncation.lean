import DataBridge.Marshal.Leaf

/-!
# Truncated texts

A text that is too long for its buffer loses characters at its end, and only as
many as it must.  What is left of it fits, so that it passes the check of the
way back.
-/

namespace DataBridge

namespace Text

variable {text : String} {limit : Nat}

/-- The search stops at the greatest boundary within its reach. -/
theorem boundaryUpTo?_greatest {index : Nat} {boundary : text.Pos}
    (found : boundaryUpTo? text index = some boundary) :
    boundary.offset.byteIdx ≤ index ∧
      ∀ other : text.Pos, other.offset.byteIdx ≤ index → other ≤ boundary := by
  induction index with
  | zero =>
      have start : boundary.offset = 0 := pos?_eq_some_iff.mp found
      refine ⟨by rw [start]; exact Nat.le_refl 0, ?_⟩
      intro other within
      rw [String.Pos.le_iff, start]
      exact within
  | succ index induction =>
      rw [boundaryUpTo?] at found
      cases tested : text.pos? ⟨index + 1⟩ with
      | some here =>
          rw [tested] at found
          obtain rfl : here = boundary := Option.some.inj found
          have offset := pos?_eq_some_iff.mp tested
          refine ⟨Nat.le_of_eq (congrArg String.Pos.Raw.byteIdx offset), ?_⟩
          intro other within
          rw [String.Pos.le_iff, offset]
          exact within
      | none =>
          rw [tested] at found
          obtain ⟨below, greatest⟩ := induction found
          refine ⟨Nat.le_succ_of_le below, ?_⟩
          intro other within
          -- A boundary at the tested index would have been found.
          have apart : other.offset.byteIdx ≠ index + 1 := by
            intro same
            have hit : text.pos? ⟨index + 1⟩ = some other :=
              pos?_eq_some_iff.mpr (String.Pos.Raw.ext same)
            rw [tested] at hit
            cases hit
          exact greatest other (by omega)

theorem boundaryUpTo?_eq (text : String) (index : Nat) :
    boundaryUpTo? text index = some (boundaryUpTo text index) :=
  (Option.some_get _).symm

/-- What is left is the first part, up to a boundary. -/
theorem exists_splits_truncate (limit : Nat) (text : String) :
    ∃ (boundary : text.Pos) (rest : String),
      boundary.Splits (truncate limit text) rest ∧
      boundary.offset.byteIdx ≤ limit ∧
      ∀ other : text.Pos, other.offset.byteIdx ≤ limit → other ≤ boundary := by
  unfold truncate
  split
  case isTrue short =>
    refine ⟨text.endPos, "", text.splits_endPos, short, ?_⟩
    intro other _
    exact String.Pos.le_endPos other
  case isFalse _ =>
    exact ⟨_, _, (boundaryUpTo text limit).splits,
      boundaryUpTo?_greatest (boundaryUpTo?_eq text limit)⟩

private theorem truncate_append (limit : Nat) (text : String) :
    ∃ rest, truncate limit text ++ rest = text := by
  obtain ⟨_, rest, splits, _⟩ := exists_splits_truncate limit text
  exact ⟨rest, splits.eq_append.symm⟩

theorem utf8ByteSize_truncate_le (limit : Nat) (text : String) :
    (truncate limit text).utf8ByteSize ≤ limit := by
  obtain ⟨boundary, rest, splits, within, _⟩ :=
    exists_splits_truncate limit text
  rw [splits.offset_eq_rawEndPos] at within
  exact within

/-- A first part that fits is a first part of what is left. -/
theorem truncate_longest {first rest : String} (whole : first ++ rest = text)
    (fits : first.utf8ByteSize ≤ limit) :
    ∃ more, first ++ more = truncate limit text := by
  obtain ⟨boundary, _, splits, _, greatest⟩ := exists_splits_truncate limit text
  have other := String.Pos.splits_ofEqAppend whole.symm
  have before : String.Pos.ofEqAppend whole.symm ≤ boundary := by
    apply greatest
    rw [other.offset_eq_rawEndPos]
    exact fits
  obtain ⟨more, longer, _⟩ := (other.le_iff_exists_eq_append splits).mp before
  exact ⟨more, longer.symm⟩

private theorem truncate_truncate (limit : Nat) (text : String) :
    truncate limit (truncate limit text) = truncate limit text :=
  truncate_of_le (utf8ByteSize_truncate_le limit text)

end Text

namespace Leaf

variable {length : Nat}

theorem toWire_string_eq_ok_iff {value : Native} {source : Place}
    {wire : Wire} : (Leaf.string length).toWire value source = .ok wire ↔
      ∃ text, value = .string text ∧ wire =
        .string (Text.truncate length text) := by
  cases value <;> simp [toWire, eq_comm]

private theorem ofWire_string {text : String}
    (short : text.utf8ByteSize ≤ length)
    (target : Place) :
    (Leaf.string length).ofWire (.string text) target = .ok (.string text) := by
  simp [ofWire, Wire.text?, Nat.not_lt.mpr short]

end Leaf

open Text in
/-- A cut text is the longest first part of whole characters within the limit.
The search for the cut never steps below the first byte, a text within the limit
is left alone, and what a text leaf sends fits the same leaf on the way back. -/
theorem truncated_to_longest_fit (limit : Nat) (text : String) :
    (∀ index, ∃ boundary, boundaryUpTo? text index = some boundary ∧
      boundary.offset.byteIdx ≤ index) ∧
    (∃ rest, truncate limit text ++ rest = text) ∧
    (truncate limit text).utf8ByteSize ≤ limit ∧
    (∀ first rest, first ++ rest = text → first.utf8ByteSize ≤ limit →
      ∃ more, first ++ more = truncate limit text) ∧
    (text.utf8ByteSize ≤ limit → truncate limit text = text) ∧
    truncate limit (truncate limit text) = truncate limit text ∧
    (∀ source, (Leaf.string limit).toWire (.string text) source =
      .ok (.string (truncate limit text))) ∧
    ∀ value source wire, (Leaf.string limit).toWire value source = .ok wire →
      ∃ kept, wire = .string kept ∧
        ∀ target, (Leaf.string limit).ofWire wire target =
          .ok (.string kept) := by
  refine ⟨?search, truncate_append limit text,
    utf8ByteSize_truncate_le limit text, ?longest, truncate_of_le,
    truncate_truncate limit text, ?sent, ?accepted⟩
  case search =>
    intro index
    have found := boundaryUpTo?_eq text index
    exact ⟨_, found, (boundaryUpTo?_greatest found).1⟩
  case longest =>
    intro first rest whole fits
    exact truncate_longest whole fits
  case sent =>
    intro source
    exact Leaf.toWire_string_eq_ok_iff.mpr ⟨text, rfl, rfl⟩
  case accepted =>
    intro value source wire sent
    obtain ⟨original, _, rfl⟩ := Leaf.toWire_string_eq_ok_iff.mp sent
    refine ⟨_, rfl, ?_⟩
    intro target
    exact Leaf.ofWire_string (utf8ByteSize_truncate_le limit original) target

/-- The euro sign of a price does not fit in eight bytes, and a price with all
its bytes stays.  What is sent of the first comes back. -/
theorem price_cut_before_euro :
    (("Öl 5 " ++ "€" = "Öl 5 €" ∧ "Öl 5 ".utf8ByteSize ≤ 8) ∧
      ∃ more, "Öl 5 " ++ more = Text.truncate 8 "Öl 5 €") ∧
    ("Öl 5 €".utf8ByteSize ≤ 9 ∧ Text.truncate 9 "Öl 5 €" = "Öl 5 €") ∧
    (Leaf.string 8).toWire (.string "Öl 5 €") ⟨"price", []⟩ =
      .ok (.string "Öl 5 ") ∧
    (Leaf.string 8).ofWire (.string "Öl 5 ") ⟨"price", []⟩ =
      .ok (.string "Öl 5 ") := by
  have whole : "Öl 5 " ++ "€" = "Öl 5 €" := by decide
  have fits : "Öl 5 ".utf8ByteSize ≤ 8 := by decide
  have short : "Öl 5 €".utf8ByteSize ≤ 9 := by decide
  have cut : Text.truncate 8 "Öl 5 €" = "Öl 5 " := by decide
  obtain ⟨_, _, _, longest, _, _, sent, accepted⟩ :=
    truncated_to_longest_fit 8 "Öl 5 €"
  obtain ⟨_, _, _, _, unchanged, _⟩ := truncated_to_longest_fit 9 "Öl 5 €"
  obtain ⟨kept, same, taken⟩ := accepted _ ⟨"price", []⟩ _ (sent ⟨"price", []⟩)
  rw [cut] at sent same taken
  cases same
  exact ⟨⟨⟨whole, fits⟩, longest _ _ whole fits⟩, ⟨short, unchanged short⟩,
    sent _, taken _⟩

end DataBridge
