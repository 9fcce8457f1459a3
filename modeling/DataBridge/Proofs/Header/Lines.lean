import DataBridge.Source
import DataBridge.Proofs.Casing
import DataBridge.Proofs.Path

/-!
# Lines of a text

A line break stands at the end of a line and nowhere in it, so the text of a
source splits into its lines again.  Neither case of a letter is a line break.
-/

namespace DataBridge

namespace Text

/-- The text is a part of one line. -/
def OneLine (text : String) : Prop :=
  '\n' ∉ text.toList

instance (text : String) : Decidable (OneLine text) :=
  inferInstanceAs (Decidable (_ ∉ _))

@[simp]
theorem oneLine_append {first second : String} :
    OneLine (first ++ second) ↔ OneLine first ∧ OneLine second := by
  simp [OneLine, not_or]

section Casing

/-- Every image under a run lies behind the control characters that break
lines. -/
def CaseRun.Above (run : CaseRun) : Prop :=
  ('\n'.toNat : Int) < run.first + run.offset

instance (run : CaseRun) : Decidable run.Above :=
  inferInstanceAs (Decidable (_ < _))

theorem mapCase_ne_newline {runs : List CaseRun}
    {sequences : List (Nat × List Nat)} {c : Char}
    (above : ∀ run ∈ runs, run.Above)
    (apart : ∀ entry ∈ sequences, '\n'.toNat ∉ entry.2) (other : c ≠ '\n') :
    '\n' ∉ mapCase runs sequences c :=
  not_mem_mapCase (by decide) above apart other

private theorem ascii_ne_newline : ∀ n < 128, n ≠ '\n'.toNat →
    (Char.ofNat n).toUpper ≠ '\n' ∧ (Char.ofNat n).toLower ≠ '\n' := by
  decide

theorem case_ne_newline {c : Char} (ascii : c.toNat < 128) (other : c ≠ '\n') :
    c.toUpper ≠ '\n' ∧ c.toLower ≠ '\n' := by
  have images := ascii_ne_newline c.toNat ascii fun same =>
    other (Char.toNat_inj.mp same)
  rwa [Char.ofNat_toNat] at images

private theorem upperChar_ne_newline {c : Char} (other : c ≠ '\n') :
    '\n' ∉ upperChar c := by
  unfold upperChar
  split
  · rename_i ascii
    rw [List.mem_singleton]
    exact (case_ne_newline ascii other).1.symm
  · apply mapCase_ne_newline _ _ other <;> decide +kernel

private theorem lowerChar_ne_newline {c : Char} (other : c ≠ '\n') :
    '\n' ∉ lowerChar c := by
  unfold lowerChar
  split
  · rename_i ascii
    rw [List.mem_singleton]
    exact (case_ne_newline ascii other).2.symm
  · apply mapCase_ne_newline _ _ other <;> decide +kernel

private theorem smallSigma_ne_newline (before after : List Char) :
    smallSigma before after ≠ '\n' := by
  unfold smallSigma
  split <;> decide

private theorem newline_not_mem_lowerFrom {before chars : List Char}
    (whole : '\n' ∉ chars) : '\n' ∉ lowerFrom before chars := by
  induction chars generalizing before with
  | nil => exact List.not_mem_nil
  | cons c rest induction =>
      obtain ⟨other, later⟩ := List.ne_and_not_mem_of_not_mem_cons whole
      rw [lowerFrom, List.mem_append, not_or]
      refine ⟨?_, induction later⟩
      split
      · rw [List.mem_singleton]
        exact (smallSigma_ne_newline before rest).symm
      · exact lowerChar_ne_newline (Ne.symm other)

theorem OneLine.lower {text : String} (whole : OneLine text) :
    OneLine (lower text) := by
  rw [OneLine, Text.lower, String.toList_ofList]
  exact newline_not_mem_lowerFrom whole

theorem OneLine.upper {text : String} (whole : OneLine text) :
    OneLine (upper text) := by
  rw [OneLine, Text.upper, String.toList_ofList, List.mem_flatMap]
  rintro ⟨c, inside, newline⟩
  apply upperChar_ne_newline _ newline
  rintro rfl
  exact whole inside

end Casing

end Text

open Text (OneLine)

private theorem oneLine_indentation (depth : Nat) :
    OneLine (indentation depth) := by
  induction depth with
  | zero => decide
  | succ depth induction =>
      rw [indentation, List.replicate_succ, String.join_cons]
      exact Text.oneLine_append.mpr ⟨by decide, induction⟩

namespace Line

def content : Line → String
  | .indented depth pieces =>
      indentation depth ++ String.join (pieces.map Piece.render)
  | .verbatim content => content

/-- The line is one line of text. -/
structure Whole (line : Line) : Prop where
  ends : line.render = line.content ++ "\n"
  within : OneLine line.content

@[simp]
theorem content_plain (depth : Nat) (text : String) :
    (plain depth text).content = indentation depth ++ text := by
  simp [plain, content, Piece.render]

theorem render_plain (depth : Nat) (text : String) :
    (plain depth text).render = indentation depth ++ text ++ "\n" := by
  simp [plain, render, Piece.render]

@[simp]
theorem content_blank : blank.content = "" := by
  decide

theorem Whole.plain {depth : Nat} {text : String} (within : OneLine text) :
    (plain depth text).Whole := by
  refine ⟨rfl, ?_⟩
  rw [content_plain, Text.oneLine_append]
  exact ⟨oneLine_indentation depth, within⟩

theorem Whole.blank : blank.Whole :=
  ⟨rfl, by decide⟩

end Line

/-- The text of a source splits into its lines, with nothing behind the last. -/
theorem Source.split_render {source : Source}
    (whole : ∀ line ∈ source, line.Whole) :
    Text.split '\n' source.render = source.map Line.content ++ [""] := by
  induction source with
  | nil => decide
  | cons line rest induction =>
      obtain ⟨first, later⟩ := List.forall_mem_cons.mp whole
      have cut : (render (line :: rest)).toList =
          line.content.toList ++ '\n' :: (render rest).toList := by
        rw [render, List.map_cons, String.join_cons, ← render, first.ends]
        simp
      rw [Text.split_cut cut, Text.split_of_not_mem first.within,
        induction later]
      rfl

end DataBridge
