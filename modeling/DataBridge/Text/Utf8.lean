/-!
# Byte lengths

Cutting a text to a number of UTF-8 bytes without cutting a character.  Where
the limit falls inside a character, the cut steps back to its first byte.
-/

namespace DataBridge.Text

/-- The last boundary between characters that is not behind a byte index, found
by stepping back from the index byte by byte.  There is none if the search has
to step below the first byte. -/
def boundaryUpTo? (text : String) : Nat → Option text.Pos
  | 0 => text.pos? 0
  | index + 1 => text.pos? ⟨index + 1⟩ <|> boundaryUpTo? text index

theorem pos?_eq_some_iff {text : String} {index : String.Pos.Raw}
    {boundary : text.Pos} :
    text.pos? index = some boundary ↔ boundary.offset = index := by
  constructor
  · intro found
    unfold String.pos? String.Slice.pos? at found
    split at found
    · cases found
      rfl
    · cases found
  · rintro rfl
    have valid :=
      String.Pos.Raw.isValidForSlice_toSlice_iff.mpr boundary.isValid
    rw [String.pos?, String.Slice.pos?,
      dif_pos (String.Pos.Raw.isValidForSlice_eq_true_iff.mpr valid)]
    rfl

/-- The search finds the first byte at the latest. -/
theorem boundaryUpTo?_isSome (text : String) (index : Nat) :
    (boundaryUpTo? text index).isSome = true := by
  induction index with
  | zero =>
      have first : text.pos? 0 = some text.startPos := pos?_eq_some_iff.mpr rfl
      rw [boundaryUpTo?, first]
      rfl
  | succ index induction =>
      rw [boundaryUpTo?]
      cases text.pos? ⟨index + 1⟩ with
      | none => exact induction
      | some boundary => rfl

/-- The last boundary between characters that is not behind a byte index. -/
def boundaryUpTo (text : String) (index : Nat) : text.Pos :=
  (boundaryUpTo? text index).get (boundaryUpTo?_isSome text index)

/-- The longest first part of a text with at most `limit` bytes. -/
def truncate (limit : Nat) (text : String) : String :=
  if text.utf8ByteSize ≤ limit then text
  else (text.sliceTo (boundaryUpTo text limit)).copy

theorem truncate_of_le {limit : Nat} {text : String}
    (short : text.utf8ByteSize ≤ limit) : truncate limit text = text :=
  if_pos short

end DataBridge.Text
