import DataBridge.Command.Report
import DataBridge.Proofs.Failure
import DataBridge.Proofs.Flatten.Nesting
import DataBridge.Proofs.Json.Printed

/-!
# Programs are read back from their documents

The document of a program determines the program: the kinds of statements, of
handles and of leaves stay apart, whatever names and texts a program carries.
-/

namespace DataBridge

section Names

@[simp] theorem Direction.ofTag?_tag (direction : Direction) :
    ofTag? direction.tag = some direction := by
  cases direction <;> rfl

@[simp] theorem IntegerType.ofTag?_tag (type : IntegerType) :
    ofTag? type.tag = some type := by
  cases type <;> rfl

@[simp] theorem FloatType.ofTag?_tag (type : FloatType) :
    ofTag? type.tag = some type := by
  cases type <;> rfl

@[simp] theorem DefaultValue.ofTag?_tag (value : DefaultValue) :
    ofTag? value.tag = some value := by
  cases value <;> rfl

end Names

namespace Json

variable {name other : String} {value : Json} {members : List (String × Json)}

@[simp] theorem text?_string (text : String) :
    (Json.string text).text? = some text :=
  rfl

@[simp] theorem nat?_number (value : Nat) :
    (Json.number value).nat? = some value :=
  rfl

@[simp] theorem char?_singleton (c : Char) :
    (Json.string (String.singleton c)).char? = some c := by
  simp [char?]

@[simp] theorem member?_first :
    (Json.object ((name, value) :: members)).member? name = some value :=
  List.lookup_cons_self

@[simp] theorem member?_later (apart : name ≠ other) :
    (Json.object ((other, value) :: members)).member? name =
      (Json.object members).member? name := by
  have passed : (name == other) = false := beq_eq_false_iff_ne.mpr apart
  simp only [member?, List.lookup_cons, passed]

end Json

@[simp] theorem Leaf.ofJson?_toJson (leaf : Leaf) :
    ofJson? leaf.toJson = some leaf := by
  cases leaf with
  | bool => rfl
  | integer type => simp [toJson, ofJson?]
  | float type => simp [toJson, ofJson?]
  | string length => simp [toJson, ofJson?]

@[simp] theorem Handle.ofJson?_toJson (handle : Handle) :
    ofJson? handle.toJson = some handle := by
  cases handle <;> rfl

@[simp] theorem Segment.ofJson?_toJson (segment : Segment) :
    ofJson? segment.toJson = some segment := by
  cases segment <;> simp [toJson, ofJson?]

@[simp] theorem Place.ofJson?_toJson (place : Place) :
    ofJson? place.toJson = some place := by
  have segments :
      (place.segments.map Segment.toJson).mapM Segment.ofJson? =
          some place.segments :=
    mapM_map_inverse fun segment _ => segment.ofJson?_toJson
  simp [toJson, ofJson?, segments]

namespace Stmt

/-- A statement that is no loop is read by its kind. -/
theorem ofJson?_plain {kind : String} (plain : kind ≠ "for-each")
    (shape : Json) :
    ofJson? (.object [(kind, shape)]) = ofMembers? kind shape := by
  rw [ofJson?]
  intro members loop
  exact absurd loop plain

mutual

/-- A statement is read from its document. -/
theorem ofJson?_toJson (statement : Stmt) :
    ofJson? statement.toJson = some statement := by
  cases statement
  case forEach iterator count body =>
    have read := listOfJson?_listToJson body
    simp [toJson, ofJson?, bodyOfMembers?, read, Json.memberChar?]
  -- The members of the other kinds are read by what they are: handles, texts,
  -- characters, leaves and places.
  all_goals
    rw [toJson, ofJson?_plain (by decide)]
    simp [ofMembers?, Json.handle?, Json.memberText?, Json.memberChar?]

theorem listOfJson?_listToJson (statements : List Stmt) :
    listOfJson? (listToJson statements) = some statements := by
  cases statements with
  | nil => rfl
  | cons first rest =>
      rw [listToJson, listOfJson?, first.ofJson?_toJson,
        listOfJson?_listToJson rest]
      rfl

end

end Stmt

theorem Emission.ofJson?_toJson (emission : Emission) :
    ofJson? emission.toJson = some emission := by
  obtain ⟨direction, body, maxSlot⟩ := emission
  have read := Stmt.listOfJson?_listToJson body
  cases maxSlot with
  | none => simp [toJson, ofJson?, Json.memberText?, read]
  | some slot => simp [toJson, ofJson?, Json.memberText?, read]

section Nesting

theorem Leaf.nesting_toJson (leaf : Leaf) : leaf.toJson.nesting ≤ 2 := by
  cases leaf <;> simp [toJson, Json.nesting, Json.nestingMembers,
    Json.nestingMember]

theorem Handle.nesting_toJson (handle : Handle) :
    handle.toJson.nesting ≤ 1 := by
  cases handle
    <;> simp [toJson, Json.nesting, Json.nestingMembers, Json.nestingMember]

theorem Segment.nesting_toJson (segment : Segment) :
    segment.toJson.nesting = 1 := by
  cases segment
    <;> simp [toJson, Json.nesting, Json.nestingMembers, Json.nestingMember]

theorem Json.nestingItems_le {items : List Json} {levels : Nat}
    (each : ∀ item ∈ items, item.nesting ≤ levels) :
    nestingItems items ≤ levels := by
  induction items with
  | nil => exact Nat.zero_le levels
  | cons first rest induction =>
      obtain ⟨here, later⟩ := List.forall_mem_cons.mp each
      exact Nat.max_le.mpr ⟨here, induction later⟩

theorem Place.nesting_toJson (place : Place) : place.toJson.nesting ≤ 3 := by
  have segments : Json.nestingItems (place.segments.map Segment.toJson) ≤
      1 := by
    apply Json.nestingItems_le
    intro item known
    obtain ⟨segment, _, rfl⟩ := List.mem_map.mp known
    exact Nat.le_of_eq segment.nesting_toJson
  simp only [toJson, Json.nesting, Json.nestingMembers, Json.nestingMember]
  omega

namespace Stmt

mutual

/-- The document of a statement takes three levels for each loop, and five for
what stands in the innermost one. -/
theorem nesting_toJson (statement : Stmt) :
    statement.toJson.nesting ≤ 3 * statement.loopDepth + 5 := by
  cases statement
  case forEach iterator count body =>
    have inner := nestingItems_listToJson body
    simp only [toJson, Json.nesting, Json.nestingMembers, Json.nestingMember,
      loopDepth]
    omega
  all_goals
    simp only [toJson, Json.nesting, Json.nestingMembers, Json.nestingMember,
      loopDepth]
    grind [Leaf.nesting_toJson, Handle.nesting_toJson, Place.nesting_toJson]

theorem nestingItems_listToJson (statements : List Stmt) :
    Json.nestingItems (listToJson statements) ≤
      3 * loopDepthList statements + 5 := by
  cases statements with
  | nil => exact Nat.zero_le _
  | cons first rest =>
      have here := first.nesting_toJson
      have later := nestingItems_listToJson rest
      rw [listToJson, Json.nestingItems, loopDepthList]
      omega

end

end Stmt

theorem Emission.nesting_toJson (emission : Emission) :
    emission.toJson.nesting ≤ 3 * emission.loopDepth + 7 := by
  have body := Stmt.nestingItems_listToJson emission.body
  have slot :
      ((emission.maxSlot.map fun slot => Json.number slot).getD .null).nesting =
      0 := by
    cases emission.maxSlot <;> rfl
  simp only [toJson, Json.nesting, Json.nestingMembers, Json.nestingMember,
    slot, loopDepth]
  omega

end Nesting

namespace Report

/-- The programs of datasets in a JSON text whose containers nest at most
`levels` deep. -/
def readListing? (levels : Nat) (text : String) :
    Option (List (String × Emission)) := do
  match ← Json.read? levels text with
  | .object members => members.mapM fun (name, document) =>
      (Emission.ofJson? document).map fun program => (name, program)
  | _ => none

variable {programs : List (String × Emission)} {levels : Nat}

private theorem nestingMembers_listed
    (fits : ∀ program ∈ programs, 3 * program.2.loopDepth + 7 ≤ levels) :
    Json.nestingMembers (programs.map fun (name, program) =>
      (name, program.toJson)) ≤ levels := by
  induction programs with
  | nil => exact Nat.zero_le levels
  | cons first rest induction =>
      obtain ⟨here, later⟩ := List.forall_mem_cons.mp fits
      rw [List.map_cons, Json.nestingMembers, Json.nestingMember]
      exact Nat.max_le.mpr ⟨Nat.le_trans first.2.nesting_toJson here,
        induction later⟩

/-- A listing takes one level more than the deepest of its programs. -/
theorem readListing?_jsonListing
    (fits : ∀ program ∈ programs, 3 * program.2.loopDepth + 7 ≤ levels) :
    readListing? (levels + 1) (jsonListing programs) = some programs := by
  have nests := Nat.succ_le_succ (nestingMembers_listed fits)
  rw [Nat.succ_eq_add_one, ← Json.nesting] at nests
  rw [readListing?, jsonListing, Json.read?_pretty nests]
  apply mapM_map_inverse
  intro (name, program) _
  simp [program.ofJson?_toJson]

/-- A program that is listed has no more loops in each other than there are
iterators. -/
theorem loopDepth_le_of_programs {direction : Direction} {datasets : List Field}
    (made : Report.programs direction datasets = .ok programs) :
    ∀ program ∈ programs, program.2.loopDepth ≤ 25 := by
  intro program known
  obtain ⟨dataset, _, result⟩ := exists_of_mem_mapM made known
  have none_open : ({} : Naming).openLoops ≤ 25 := Nat.zero_le 25
  have nests :=
    dataset.emission_nestsTo (Addon.nativePlace dataset)
      (Addon.valueHandle dataset)
    direction none_open
  simp only at result
  split at result
  · rename_i emission done
    cases result
    have fits := nests.succeeds_iff.mp ⟨emission, done⟩
    rw [nests.loopDepth emission done]
    exact Nat.le_trans (Nat.le_add_left _ _) fits
  · cases result

end Report

/-- Programs lose nothing in their documents.  A program is read back from its
document; from the printed document too, by a reader with levels enough; and a
listing of a datamodel's programs, which nest at most 83 levels deep, is read
back as these programs. -/
theorem exported_programs_read_back :
    (∀ emission : Emission, Emission.ofJson? emission.toJson = some emission) ∧
    (∀ (emission : Emission) levels, emission.toJson.nesting ≤ levels →
      (Json.read? levels emission.toJson.pretty).bind Emission.ofJson? =
        some emission) ∧
    ∀ direction datasets programs levels,
      Report.programs direction datasets = .ok programs →
      83 ≤ levels → Report.readListing? levels (Report.jsonListing programs) =
        some programs := by
  refine ⟨Emission.ofJson?_toJson, ?printed, ?listed⟩
  case printed =>
    intro emission levels fits
    rw [Json.read?_pretty fits]
    exact emission.ofJson?_toJson
  case listed =>
    intro direction datasets programs levels made enough
    obtain ⟨levels, rfl⟩ : ∃ fewer, levels = fewer + 1 := ⟨levels - 1, by omega⟩
    apply Report.readListing?_jsonListing
    intro program known
    have few := Report.loopDepth_le_of_programs made program known
    omega

/-- A program in which names and expressions are spelled like kinds. -/
def disguised : Emission where
  direction := .incoming
  body := [
    .getNamed (.external "property") "for-each" (.slot 0),
    .forEach 'i' 3 [
      .getElement (.slot 0) 'i' .arrayItem,
      .leafIn (.string 8) .arrayItem ⟨"null", [.field "index", .index 'i']⟩]]
  maxSlot := some 0

/-- The document of the disguised program nests ten levels deep.  The members of
the plant, one of them with loops in each other, are listed in either
direction. -/
theorem disguised_read_back :
    (disguised.toJson.nesting ≤ 10 ∧
      (Json.read? 10 disguised.toJson.pretty).bind Emission.ofJson? =
        some disguised) ∧
    ∀ direction, ∃ programs, Report.programs direction Resolver.plant.fields =
      .ok programs ∧
      programs.map (·.2.loopDepth) = [0, 2, 1] ∧
      Report.readListing? 83 (Report.jsonListing programs) = some programs := by
  obtain ⟨_, printed, listed⟩ := exported_programs_read_back
  have deep : disguised.toJson.nesting ≤ 10 := by decide
  refine ⟨⟨deep, printed disguised 10 deep⟩, ?_⟩
  intro direction
  obtain ⟨programs, made, depths⟩ :
      ∃ programs, Report.programs direction Resolver.plant.fields =
        .ok programs ∧
        programs.map (·.2.loopDepth) = [0, 2, 1] := by
    cases direction <;> exact ⟨_, rfl, rfl⟩
  exact ⟨programs, made, depths,
    listed direction _ programs 83 made (Nat.le_refl 83)⟩

end DataBridge
