import DataBridge.Proofs.Json.Reading

/-!
# Printed documents are read back

A document that is printed is read as the same document, by a reader whose
levels are as many as its containers nest deep.
-/

namespace DataBridge.Json

mutual

/-- How deep the containers of a document nest. -/
def nesting : Json → Nat
  | .array items => nestingItems items + 1
  | .object members => nestingMembers members + 1
  | .null | .bool _ | .number _ | .string _ => 0

/-- How deep the containers of some documents nest. -/
def nestingItems : List Json → Nat
  | [] => 0
  | first :: rest => max first.nesting (nestingItems rest)

/-- How deep the containers of a member nest. -/
def nestingMember : String × Json → Nat
  | (_, value) => value.nesting

/-- How deep the containers of some members nest. -/
def nestingMembers : List (String × Json) → Nat
  | [] => 0
  | first :: rest => max (nestingMember first) (nestingMembers rest)

end

section Parts

variable {α : Type} {part : Reader α} {text : α → List Char} {close : Char}
  {first : α} {values : List α} {inner behind rest : List Char}

/-- A text that a reader takes for a value, whatever may follow it.  It opens
with neither a blank nor a closing bracket. -/
structure Written (reader : Reader α) (text : List Char) (value : α) :
    Prop where
  opens : ∃ c rest, text = c :: rest ∧ isSpace c = false ∧ c ≠ ']' ∧ c ≠ '}'
  reads : ∀ rest, Ended rest → reader (text ++ rest) = some (value, rest)

/-- A bracket that closes a container. -/
def Closing (close : Char) : Prop :=
  close = ']' ∨ close = '}'

theorem Closing.solid (closing : Closing close) : isSpace close = false := by
  rcases closing with rfl | rfl <;> rfl

theorem Closing.other (closing : Closing close) : close.isDigit = false := by
  rcases closing with rfl | rfl <;> rfl

theorem Closing.ne_comma (closing : Closing close) : close ≠ ',' := by
  rcases closing with rfl | rfl <;> decide

theorem not_isDigit_of_isSpace {c : Char} (space : isSpace c = true) :
    c.isDigit = false := by
  have cases : c = ' ' ∨ c = '\n' ∨ c = '\r' ∨ c = '\t' := by
    simpa [isSpace, or_assoc] using space
  rcases cases with rfl | rfl | rfl | rfl <;> rfl

theorem ended_cons {c : Char} (other : c.isDigit = false) :
    Ended (c :: rest) := by
  rintro _ ⟨⟩
  exact other

theorem Closing.ended (closing : Closing close) (blank : Blank behind) :
    Ended (behind ++ close :: rest) := by
  cases behind with
  | nil => exact ended_cons closing.other
  | cons space behind =>
      exact ended_cons (not_isDigit_of_isSpace (blank space List.mem_cons_self))

/-- The parts of a container behind its first one. -/
def joined (inner : List Char) (text : α → List Char) : List α → List Char
  | [] => []
  | first :: rest => ',' :: (inner ++ (text first ++ joined inner text rest))

private theorem length_le_joined :
    values.length ≤ (joined inner text values).length := by
  induction values with
  | nil => exact Nat.le_refl 0
  | cons value values induction =>
      simp only [joined, List.length_cons, List.length_append]
      omega

theorem joined_ended (closing : Closing close) (blank : Blank behind) :
    Ended (joined inner text values ++ (behind ++ close :: rest)) := by
  cases values with
  | nil => exact closing.ended blank
  | cons value values => exact ended_cons rfl

theorem Written.skip {value : α} {chars : List Char}
    (written : Written part (text value) value) (indented : Blank inner) :
    skip (inner ++ (text value ++ chars)) = text value ++ chars := by
  obtain ⟨c, rest, opens, solid, _⟩ := written.opens
  rw [opens, List.cons_append, skip_append_cons indented solid]

private theorem readMore_comma {count : Nat} {after last : List Char}
    (read : part (skip rest) = some (first, after))
    (others : readMore close part count after = some (values, last)) :
    readMore close part (count + 1) (',' :: rest) =
      some (first :: values, last) := by
  have comma : isSpace ',' = false := rfl
  rw [readMore.eq_def, skip_cons comma]
  simp only [read, Option.bind_eq_bind, Option.bind_some, others]
  rfl

private theorem readMore_close {count : Nat} (closing : Closing close)
    (blank : Blank behind) :
    readMore close part count (behind ++ close :: rest) = some ([], rest) := by
  have other := closing.ne_comma
  rw [readMore.eq_def, skip_append_cons blank closing.solid]
  cases count <;> simp [other]

/-- The parts behind the first one are read one after the other. -/
theorem readMore_joined {count : Nat} (closing : Closing close)
    (each : ∀ value ∈ values, Written part (text value) value)
    (indented : Blank inner) (blank : Blank behind)
    (enough : values.length ≤ count) :
    readMore close part count
      (joined inner text values ++ (behind ++ close :: rest)) =
      some (values, rest) := by
  induction values generalizing count with
  | nil => exact readMore_close closing blank
  | cons value values induction =>
      obtain ⟨written, later⟩ := List.forall_mem_cons.mp each
      rw [List.length_cons] at enough
      obtain ⟨count, rfl⟩ : ∃ fewer, count = fewer + 1 := ⟨count - 1, by omega⟩
      have others := induction later (Nat.le_of_succ_le_succ enough)
      have ended :
          Ended (joined inner text values ++ (behind ++ close :: rest)) :=
        joined_ended closing blank
      rw [joined, List.cons_append, List.append_assoc, List.append_assoc]
      apply readMore_comma _ others
      rw [written.skip indented, written.reads _ ended]

theorem readParts_empty (closing : Closing close) :
    readParts close part (close :: rest) = some ([], rest) := by
  rw [readParts, skip_cons closing.solid]
  exact if_pos rfl

/-- The parts of a container are read as they were written. -/
theorem readParts_joined (closing : Closing close)
    (each : ∀ value ∈ first :: values, Written part (text value) value)
    (indented : Blank inner) (blank : Blank behind) :
    readParts close part
        (inner ++ (text first ++
          (joined inner text values ++ (behind ++ close :: rest)))) =
      some (first :: values, rest) := by
  obtain ⟨written, later⟩ := List.forall_mem_cons.mp each
  have ended : Ended (joined inner text values ++ (behind ++ close :: rest)) :=
    joined_ended closing blank
  have enough : values.length ≤
      (joined inner text values ++ (behind ++ close :: rest)).length := by
    rw [List.length_append]
    exact Nat.le_add_right_of_le length_le_joined
  have others :
      readMore close part _
        (joined inner text values ++ (behind ++ close :: rest)) =
      some (values, rest) :=
    readMore_joined closing later indented blank enough
  obtain ⟨c, more, opens, solid, bracket⟩ := written.opens
  have apart : c ≠ close := by
    rcases closing with rfl | rfl
    · exact bracket.1
    · exact bracket.2
  have read := written.reads _ ended
  rw [readParts, written.skip indented]
  rw [opens, List.cons_append] at read ⊢
  simp only [if_neg apart, read, Option.bind_eq_bind, Option.bind_some, others]
  rfl

end Parts

section Documents

variable {levels : Nat} {chars rest : List Char}

private theorem prettyItems_toList (depth : Nat) (items : List Json) :
    (prettyItems depth items).toList =
      joined (lineBreak depth).toList (fun item => (prettyAt depth item).toList)
        items := by
  induction items with
  | nil => rfl
  | cons item items induction =>
      change ("," ++ lineBreak depth ++ prettyAt depth item ++
        prettyItems depth items).toList = _
      simp only [String.toList_append, induction, joined, List.append_assoc]
      rfl

private theorem prettyMembers_toList (depth : Nat)
    (members : List (String × Json)) :
    (prettyMembers depth members).toList =
      joined (lineBreak depth).toList (fun member =>
        (prettyMember depth member).toList)
        members := by
  induction members with
  | nil => rfl
  | cons member members induction =>
      change ("," ++ lineBreak depth ++ prettyMember depth member ++
        prettyMembers depth members).toList = _
      simp only [String.toList_append, induction, joined, List.append_assoc]
      rfl

/-- What does not open with a bracket is no container. -/
theorem readWithin_simple (array : '[' ∉ chars.head?)
    (object : '{' ∉ chars.head?) :
    readWithin levels chars = readSimple chars := by
  cases levels with
  | zero => rfl
  | succ levels =>
      rw [readWithin]
      · intro rest same
        rw [same] at array
        exact array rfl
      · intro rest same
        rw [same] at object
        exact object rfl

theorem quote_toList (text : String) :
    (quote text).toList = '"' :: (text.toList.flatMap escapeChar ++ ['"']) := by
  rw [quote, String.toList_ofList]
  rfl

/-- A text that the reader of simple documents takes, and that opens with no
bracket, is taken at any level. -/
theorem written_of_simple {text : List Char} {document : Json}
    (opens : ∃ c rest, text = c :: rest ∧ isSpace c = false ∧
      c ∉ ['[', ']', '{', '}'])
    (reads : ∀ rest, Ended rest →
      readSimple (text ++ rest) = some (document, rest)) :
    Written (readWithin levels) text document := by
  obtain ⟨c, more, equal, solid, bracket⟩ := opens
  simp only [List.mem_cons, List.not_mem_nil, or_false, not_or] at bracket
  obtain ⟨array, closesArray, object, closesObject⟩ := bracket
  refine ⟨⟨c, more, equal, solid, closesArray, closesObject⟩, ?_⟩
  intro rest ended
  rw [← reads rest ended, equal]
  apply readWithin_simple
  · exact fun same => array (Option.some.inj same)
  · exact fun same => object (Option.some.inj same)

private theorem written_string (text : String) :
    Written (readWithin levels) (quote text).toList (.string text) := by
  rw [quote_toList]
  apply written_of_simple
  · exact ⟨_, _, rfl, rfl, by decide⟩
  · intro rest _
    simp only [List.cons_append, List.append_assoc, List.nil_append]
    rw [readSimple, readText_quoted]
    change some (Json.string (String.ofList text.toList), rest) = _
    rw [String.ofList_toList]

private theorem readSimple_number {c : Char}
    (head : c = '-' ∨ c.isDigit = true) :
    readSimple (c :: rest) =
      (readNumber (c :: rest)).map fun (value, after) =>
        (.number value, after) := by
  rw [readSimple]
  all_goals
    intro tail same
    cases same
    exact absurd head (by decide)

private theorem not_isSpace_of_head {c : Char}
    (head : c = '-' ∨ c.isDigit = true) :
    isSpace c = false := by
  rcases head with rfl | digit
  · rfl
  · rw [Bool.eq_false_iff]
    intro space
    rw [not_isDigit_of_isSpace space] at digit
    cases digit

private theorem written_number (value : Int) :
    Written (readWithin levels) (toString value).toList (.number value) := by
  obtain ⟨c, more, equal, head⟩ := toString_opens value
  apply written_of_simple
  · refine ⟨c, more, equal, not_isSpace_of_head head, ?_⟩
    intro bracket
    simp only [List.mem_cons, List.not_mem_nil, or_false] at bracket
    rcases bracket with rfl | rfl | rfl | rfl <;> exact absurd head (by decide)
  · intro rest ended
    have number := readNumber_toString value ended
    rw [equal, List.cons_append] at number ⊢
    rw [readSimple_number head, number]
    rfl

private theorem pretty_array (depth : Nat) (first : Json) (items : List Json) :
    (prettyAt depth (.array (first :: items))).toList =
      '[' :: ((lineBreak (depth + 1)).toList ++
        ((prettyAt (depth + 1) first).toList ++
          (joined (lineBreak (depth + 1)).toList (fun item =>
            (prettyAt (depth + 1) item).toList)
          items ++ ((lineBreak depth).toList ++ [']'])))) := by
  change ("[" ++ lineBreak (depth + 1) ++ prettyAt (depth + 1) first ++
    prettyItems (depth + 1) items ++ lineBreak depth ++ "]").toList = _
  simp only [String.toList_append, prettyItems_toList, List.append_assoc]
  rfl

private theorem pretty_object (depth : Nat) (first : String × Json)
    (members : List (String × Json)) :
    (prettyAt depth (.object (first :: members))).toList =
      '{' :: ((lineBreak (depth + 1)).toList ++
        ((prettyMember (depth + 1) first).toList ++
          (joined (lineBreak (depth + 1)).toList (fun member =>
            (prettyMember (depth + 1) member).toList) members ++
              ((lineBreak depth).toList ++ ['}'])))) := by
  change (r"{" ++ lineBreak (depth + 1) ++ prettyMember (depth + 1) first ++
    prettyMembers (depth + 1) members ++ lineBreak depth ++ r"}").toList = _
  simp only [String.toList_append, prettyMembers_toList, List.append_assoc]
  rfl

theorem readWithin_array {items : List Json}
    (parts : readParts ']' (readWithin levels) chars = some (items, rest)) :
    readWithin (levels + 1) ('[' :: chars) = some (.array items, rest) := by
  change (readParts ']' (readWithin levels) chars).map _ = _
  rw [parts]
  rfl

theorem readWithin_object {members : List (String × Json)}
    (parts : readParts '}' (readMember (readWithin levels)) chars =
      some (members, rest)) :
    readWithin (levels + 1) ('{' :: chars) = some (.object members, rest) := by
  change (readParts '}' (readMember (readWithin levels)) chars).map _ = _
  rw [parts]
  rfl

/-- An array is read when its elements are. -/
theorem written_array {items : List Json} {depth : Nat}
    (each : ∀ item ∈ items,
      Written (readWithin levels) (prettyAt (depth + 1) item).toList item) :
    Written (readWithin (levels + 1)) (prettyAt depth (.array items)).toList
      (.array items) := by
  cases items with
  | nil =>
      change Written _ "[]".toList _
      rw [show "[]".toList = ['[', ']'] from rfl]
      refine ⟨⟨'[', _, rfl, rfl, by decide, by decide⟩, ?_⟩
      intro rest _
      exact readWithin_array (readParts_empty (.inl rfl))
  | cons first items =>
      rw [pretty_array]
      refine ⟨⟨'[', _, rfl, rfl, by decide, by decide⟩, ?_⟩
      intro rest _
      have parts := @readParts_joined _ (readWithin levels)
        (fun item => (prettyAt (depth + 1) item).toList) ']' first items
          _ _ rest (.inl rfl) each
        (blank_lineBreak (depth + 1)) (blank_lineBreak depth)
      rw [List.cons_append]
      apply readWithin_array
      simpa only [List.append_assoc, List.cons_append, List.nil_append]
        using parts

/-- An object is read when its members are. -/
theorem written_object {members : List (String × Json)} {depth : Nat}
    (each : ∀ member ∈ members,
      Written (readMember (readWithin levels))
        (prettyMember (depth + 1) member).toList member) :
    Written (readWithin (levels + 1)) (prettyAt depth (.object members)).toList
      (.object members) := by
  cases members with
  | nil =>
      change Written _ "{}".toList _
      rw [show "{}".toList = ['{', '}'] from rfl]
      refine ⟨⟨'{', _, rfl, rfl, by decide, by decide⟩, ?_⟩
      intro rest _
      exact readWithin_object (readParts_empty (.inr rfl))
  | cons first members =>
      rw [pretty_object]
      refine ⟨⟨'{', _, rfl, rfl, by decide, by decide⟩, ?_⟩
      intro rest _
      have parts := @readParts_joined _ (readMember (readWithin levels))
        (fun member => (prettyMember (depth + 1) member).toList) '}'
          first members _ _ rest
        (.inr rfl) each (blank_lineBreak (depth + 1)) (blank_lineBreak depth)
      rw [List.cons_append]
      apply readWithin_object
      simpa only [List.append_assoc, List.cons_append, List.nil_append]
        using parts

private theorem written_member {name : String} {value : Json} {depth : Nat}
    (written : Written (readWithin levels) (prettyAt depth value).toList
      value) :
    Written (readMember (readWithin levels))
      (prettyMember depth (name, value)).toList (name, value) := by
  have text : (prettyMember depth (name, value)).toList =
      '"' :: (name.toList.flatMap escapeChar ++
        '"' :: ':' :: ' ' :: (prettyAt depth value).toList) := by
    simp only [prettyMember, String.toList_append, quote_toList,
      List.cons_append, List.append_assoc]
    rfl
  rw [text]
  refine ⟨⟨'"', _, rfl, rfl, by decide, by decide⟩, ?_⟩
  intro rest ended
  obtain ⟨c, more, opens, solid, _⟩ := written.opens
  have read := written.reads rest ended
  rw [opens, List.cons_append] at read
  have colon : isSpace ':' = false := rfl
  have gap : skip (' ' :: c :: (more ++ rest)) = c :: (more ++ rest) := by
    have blank : Blank [' '] := by
      intro _ known
      rw [List.mem_singleton.mp known]
      rfl
    exact skip_append_cons blank solid
  simp only [List.cons_append, List.append_assoc, opens]
  rw [readMember, readText_quoted]
  simp only [Option.bind_eq_bind, Option.bind_some, skip_cons colon, gap, read,
    String.ofList_toList]
  rfl

mutual

/-- What is printed is read with as many levels as its containers nest deep. -/
theorem written_prettyAt {levels : Nat} (document : Json) (depth : Nat)
    (fits : document.nesting ≤ levels) :
    Written (readWithin levels) (prettyAt depth document).toList document := by
  cases document with
  | null =>
      rw [prettyAt]
      exact written_of_simple ⟨'n', _, rfl, rfl, by decide⟩ fun _ _ => rfl
  | bool value =>
      cases value with
      | true =>
          rw [prettyAt]
          exact written_of_simple ⟨'t', _, rfl, rfl, by decide⟩ fun _ _ => rfl
      | false =>
          rw [prettyAt]
          exact written_of_simple ⟨'f', _, rfl, rfl, by decide⟩ fun _ _ => rfl
  | number value =>
      rw [prettyAt]
      exact written_number value
  | string text =>
      rw [prettyAt]
      exact written_string text
  | array items =>
      rw [nesting] at fits
      obtain ⟨levels, rfl⟩ : ∃ fewer, levels = fewer + 1 :=
        ⟨levels - 1, by omega⟩
      exact written_array
        (written_items items (depth + 1) (Nat.le_of_succ_le_succ fits))
  | object members =>
      rw [nesting] at fits
      obtain ⟨levels, rfl⟩ : ∃ fewer, levels = fewer + 1 :=
        ⟨levels - 1, by omega⟩
      exact written_object
        (written_members members (depth + 1) (Nat.le_of_succ_le_succ fits))

theorem written_items {levels : Nat} (items : List Json) (depth : Nat)
    (fits : nestingItems items ≤ levels) :
    ∀ item ∈ items,
      Written (readWithin levels) (prettyAt depth item).toList item := by
  cases items with
  | nil => exact nofun
  | cons first rest =>
      rw [nestingItems] at fits
      obtain ⟨here, later⟩ := Nat.max_le.mp fits
      rw [List.forall_mem_cons]
      exact ⟨written_prettyAt first depth here, written_items rest depth later⟩

theorem written_members {levels : Nat} (members : List (String × Json))
    (depth : Nat) (fits : nestingMembers members ≤ levels) : ∀ member ∈ members,
      Written (readMember (readWithin levels))
        (prettyMember depth member).toList member := by
  cases members with
  | nil => exact nofun
  | cons first rest =>
      rw [nestingMembers] at fits
      obtain ⟨here, later⟩ := Nat.max_le.mp fits
      obtain ⟨name, value⟩ := first
      rw [nestingMember] at here
      rw [List.forall_mem_cons]
      exact ⟨written_member (written_prettyAt value depth here),
        written_members rest depth later⟩

end

/-- Reading a printed document gives it back, with levels enough. -/
theorem read?_pretty {document : Json} (fits : document.nesting ≤ levels) :
    read? levels document.pretty = some document := by
  have written := written_prettyAt document 0 fits
  obtain ⟨c, more, opens, solid, _⟩ := written.opens
  have read := written.reads [] nofun
  rw [List.append_nil, opens] at read
  rw [read?, pretty, opens, skip_cons solid, read]
  rfl

end Documents

end DataBridge.Json
