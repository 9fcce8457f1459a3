import DataBridge.Text.Casing
import Mathlib.Data.List.Basic

/-!
# What a change of case leaves out

A character that no entry of a case table leads to is in no image under the
table.  So neither case of a letter is a control character, and no letter of a
text in lower case is an ASCII capital.
-/

namespace DataBridge.Text

variable {avoided c : Char}

theorem ofNat_ne_of_ne {n : Nat} (visible : avoided ≠ '\x00')
    (other : n ≠ avoided.toNat) : Char.ofNat n ≠ avoided := by
  by_cases valid : n.isValidChar
  · have code : (Char.ofNat n).toNat = n := by
      rw [Char.ofNat, dif_pos valid]
      rfl
    intro same
    rw [same] at code
    exact other code.symm
  · rw [Char.ofNat, dif_neg valid]
    exact visible.symm

/-- Every image under the runs lies above the character, and no sequence holds
it. -/
theorem not_mem_mapCase {runs : List CaseRun}
    {sequences : List (Nat × List Nat)} (visible : avoided ≠ '\x00')
    (above : ∀ run ∈ runs, (avoided.toNat : Int) < run.first + run.offset)
    (apart : ∀ entry ∈ sequences, avoided.toNat ∉ entry.2)
    (other : c ≠ avoided) : avoided ∉ mapCase runs sequences c := by
  unfold mapCase
  split
  · rename_i image found
    rw [List.mem_map]
    rintro ⟨n, inside, same⟩
    apply ofNat_ne_of_ne visible _ same
    rintro rfl
    obtain ⟨before, after, whole, _⟩ := List.lookup_eq_some_iff.mp found
    exact apart _ (whole ▸ List.mem_append_right _ List.mem_cons_self) inside
  · split
    · rename_i offset mapped
      obtain ⟨run, chosen, rfl⟩ := Option.map_eq_some_iff.mp mapped
      have larger := above run (List.mem_of_find?_eq_some chosen)
      have within := List.find?_some chosen
      simp only [Bool.and_eq_true, decide_eq_true_eq] at within
      rw [List.mem_singleton]
      apply (ofNat_ne_of_ne visible _).symm
      omega
    · rw [List.mem_singleton]
      exact other.symm

section Capital

private theorem isUpper_toLower_of_ascii :
    ∀ n < 128, (Char.ofNat n).toLower.isUpper = false := by
  decide

private theorem toNat_le_of_isUpper (capital : avoided.isUpper = true) :
    avoided.toNat ≤ 'Z'.toNat := by
  have bounds : avoided.val ≥ 'A'.val ∧ avoided.val ≤ 'Z'.val :=
    of_decide_eq_true capital
  exact UInt32.le_iff_toNat_le.mp bounds.2

private theorem capital_not_mem_lowerChar (capital : avoided.isUpper = true)
    (c : Char) : avoided ∉ lowerChar c := by
  have bound := toNat_le_of_isUpper capital
  unfold lowerChar
  split
  · rename_i ascii
    rw [List.mem_singleton]
    rintro rfl
    have small := isUpper_toLower_of_ascii c.toNat ascii
    rw [Char.ofNat_toNat, capital] at small
    cases small
  · rename_i foreign
    have runs : ∀ run ∈ lowerRuns, ('Z'.toNat : Int) < run.first + run.offset :=
      by decide +kernel
    have sequences : ∀ entry ∈ lowerSequences, ∀ n ∈ entry.2, 'Z'.toNat < n :=
      by decide +kernel
    have code : 'Z'.toNat < 128 := by decide
    apply not_mem_mapCase
    · rintro rfl
      cases capital
    · intro run inside
      have image := runs run inside
      omega
    · intro entry inside known
      have image := sequences entry inside _ known
      omega
    · rintro rfl
      omega

private theorem capital_not_mem_lowerFrom (capital : avoided.isUpper = true)
    (before chars : List Char) : avoided ∉ lowerFrom before chars := by
  induction chars generalizing before with
  | nil => exact List.not_mem_nil
  | cons c rest induction =>
      rw [lowerFrom, List.mem_append, not_or]
      refine ⟨?_, induction _⟩
      split
      · rw [List.mem_singleton, smallSigma]
        rintro rfl
        split at capital <;> cases capital
      · exact capital_not_mem_lowerChar capital c

/-- A text in lower case has no ASCII capitals. -/
theorem capital_not_mem_lower (capital : avoided.isUpper = true)
    (text : String) : avoided ∉ (lower text).toList := by
  rw [lower, String.toList_ofList]
  exact capital_not_mem_lowerFrom capital [] text.toList

end Capital

end DataBridge.Text
