import DataBridge.Text.CaseTable

/-!
# Lower and upper case

The full case mappings of a text.  A character may have several characters in
the other case, and a capital sigma at the end of a word has a small form of
its own.
-/

namespace DataBridge.Text

/-- The offset of a character in a table of runs. -/
def CaseRun.offset? (runs : List CaseRun) (n : Nat) : Option Int :=
  (runs.find? fun run =>
    run.first ≤ n && n ≤ run.last && (n - run.first) % run.step ==
      0).map (·.offset)

/-- The image of a character under a table of runs and one of sequences. -/
def mapCase (runs : List CaseRun) (sequences : List (Nat × List Nat))
    (c : Char) : List Char :=
  match sequences.lookup c.toNat with
  | some image => image.map Char.ofNat
  | none =>
      match CaseRun.offset? runs c.toNat with
      | some offset => [Char.ofNat (c.toNat + offset).toNat]
      | none => [c]

def upperChar (c : Char) : List Char :=
  if c.toNat < 128 then [c.toUpper] else mapCase upperRuns upperSequences c

def lowerChar (c : Char) : List Char :=
  if c.toNat < 128 then [c.toLower] else mapCase lowerRuns lowerSequences c

/-- Whether a character lies in one of the ranges. -/
def inRanges (ranges : List (Nat × Nat)) (c : Char) : Bool :=
  ranges.any fun range => range.1 ≤ c.toNat && c.toNat ≤ range.2

/-- Whether the first character that case does not ignore has case. -/
def startsCased : List Char → Bool
  | [] => false
  | c :: rest =>
      if inRanges caseIgnorableRanges c then startsCased rest
      else inRanges casedRanges c

/-- The small form of a capital sigma: the final one after a letter and in
front of none. -/
def smallSigma (before after : List Char) : Char :=
  if startsCased before && !startsCased after then 'ς' else 'σ'

/-- The lower-case form of characters; `before` holds those in front of them,
the nearest first. -/
def lowerFrom (before : List Char) : List Char → List Char
  | [] => []
  | c :: rest =>
      (if c = 'Σ' then [smallSigma before rest] else lowerChar c) ++
        lowerFrom (c :: before) rest

def lower (text : String) : String :=
  String.ofList (lowerFrom [] text.toList)

def upper (text : String) : String :=
  String.ofList (text.toList.flatMap upperChar)

end DataBridge.Text
