import DataBridge.Path

/-!
# Pieces and parents of paths

A path that ends in a name has a parent whose pieces are those before the name,
but for pieces at the end that lead nowhere else.
-/

namespace DataBridge

namespace Text

private theorem splitChars_eq_splitOn (separator : Char) (text : List Char) :
    splitChars separator text = text.splitOn separator := by
  induction text with
  | nil => rfl
  | cons c rest induction =>
      rw [splitChars, List.splitOn_cons_eq_if_modifyHead, ← induction]
      by_cases same : c = separator
      · rw [if_pos same, if_pos (by simpa using same)]
      · rw [if_neg same, if_neg (by simpa using same)]
        cases parts : splitChars separator rest with
        | nil =>
            rw [induction] at parts
            exact (List.splitOn_ne_nil separator rest parts).elim
        | cons part others => rfl

theorem split_eq (separator : Char) (text : String) :
    split separator text =
      (text.toList.splitOn separator).map String.ofList := by
  rw [split, splitChars_eq_splitOn]

theorem split_ne_nil (separator : Char) (text : String) :
    split separator text ≠ [] := by
  rw [split_eq, ne_eq, List.map_eq_nil_iff]
  exact List.splitOn_ne_nil separator text.toList

/-- A text splits at every occurrence of the separator. -/
theorem split_cut {separator : Char} {text before after : String}
    (cut : text.toList = before.toList ++ separator :: after.toList) :
    split separator text = split separator before ++ split separator after := by
  rw [split_eq, cut, List.splitOn_append_cons_self, List.map_append, ← split_eq,
    ← split_eq]

theorem split_append (before after : String) :
    split '/' (before ++ "/" ++ after) = split '/' before ++ split '/' after :=
  split_cut (by simp)

theorem split_of_not_mem {separator : Char} {text : String}
    (absent : separator ∉ text.toList) : split separator text = [text] := by
  rw [split_eq, List.splitOn_eq_singleton absent, List.map_singleton,
    String.ofList_toList]

private theorem not_mem_of_mem_splitChars {separator : Char}
    {text part : List Char}
    (inside : part ∈ splitChars separator text) : separator ∉ part := by
  induction text generalizing part with
  | nil =>
      rw [List.mem_singleton.mp inside]
      exact List.not_mem_nil
  | cons c rest induction =>
      rw [splitChars] at inside
      split at inside
      · rcases List.mem_cons.mp inside with rfl | later
        · exact List.not_mem_nil
        · exact induction later
      · rename_i other
        split at inside
        · rw [List.mem_singleton.mp inside, List.mem_singleton]
          exact Ne.symm other
        · rename_i first parts split
          rw [split] at induction
          rcases List.mem_cons.mp inside with rfl | later
          · rw [List.mem_cons, not_or]
            exact ⟨Ne.symm other, induction List.mem_cons_self⟩
          · exact induction (List.mem_cons_of_mem _ later)

/-- The parts of a text do not hold the separator. -/
theorem not_mem_of_mem_split {separator : Char} {text part : String}
    (inside : part ∈ split separator text) : separator ∉ part.toList := by
  obtain ⟨chars, listed, rfl⟩ := List.mem_map.mp inside
  rw [String.toList_ofList]
  exact not_mem_of_mem_splitChars listed

theorem split_intercalate {pieces : List String} (nonempty : pieces ≠ [])
    (absent : ∀ piece ∈ pieces, '/' ∉ piece.toList) :
    split '/' ("/".intercalate pieces) = pieces := by
  have chars : (pieces.map String.toList).map String.ofList = pieces := by
    simp [List.map_map, Function.comp_def]
  rw [split_eq, String.toList_intercalate, show "/".toList = ['/'] from rfl,
    List.splitOn_intercalate '/' (by simpa using absent)
      (by simpa using nonempty), chars]

theorem split_empty : split '/' "" = [""] :=
  split_of_not_mem (by simp)

/-- A text is without the separator, or there is a last one. -/
theorem exists_last_part (separator : Char) (text : String) :
    separator ∉ text.toList ∨ ∃ before last : String,
      text.toList = before.toList ++ separator :: last.toList ∧
        separator ∉ last.toList := by
  by_cases inside : separator ∈ text.toList
  · right
    obtain ⟨last, before, split, absent⟩ :=
      List.eq_append_cons_of_mem (List.mem_reverse.mpr inside)
    refine ⟨String.ofList before.reverse, String.ofList last.reverse, ?_,
      by simpa using absent⟩
    rw [← List.reverse_reverse text.toList, split]
    simp
  · exact .inl inside

/-- A text is one piece, or the last of its pieces stands behind a slash. -/
theorem exists_last_piece (text : String) :
    '/' ∉ text.toList ∨ ∃ before name,
      text = before ++ "/" ++ name ∧ '/' ∉ name.toList := by
  rcases exists_last_part '/' text with plain | ⟨before, name, split, absent⟩
  · exact .inl plain
  · refine .inr ⟨before, name, ?_, absent⟩
    apply String.toList_injective
    simpa using split

end Text

namespace Path

/-- A piece that leads nowhere else. -/
def IsBlank (piece : String) : Prop :=
  piece = "" ∨ piece = "."

/-- A piece that leads to an entry of a directory. -/
structure IsName (piece : String) : Prop where
  nonempty : piece ≠ ""
  notHere : piece ≠ "."
  notUp : piece ≠ ".."

theorem isName_iff {piece : String} :
    IsName piece ↔ piece ≠ "" ∧ piece ≠ "." ∧ piece ≠ ".." :=
  ⟨fun name => ⟨name.nonempty, name.notHere, name.notUp⟩,
    fun ⟨nonempty, here, up⟩ => ⟨nonempty, here, up⟩⟩

theorem partOf_of_isName {first : Bool} {piece : String}
    (isName : IsName piece) : partOf first piece = some (.name piece) := by
  simp [partOf, isName.nonempty, isName.notHere, isName.notUp]

private theorem partOf_eq_none_iff {piece : String} :
    partOf false piece = none ↔ IsBlank piece := by
  unfold partOf IsBlank
  by_cases empty : piece = ""
  · simp [empty]
  · by_cases here : piece = "."
    · simp [here]
    · by_cases up : piece = ".."
      · simp [up]
      · simp [empty, here, up]

theorem partOf_ne_root (first : Bool) (piece : String) :
    partOf first piece ≠ some .root := by
  unfold partOf
  by_cases empty : piece = ""
  · simp [empty]
  · by_cases here : piece = "."
    · cases first <;> simp [here]
    · by_cases up : piece = ".."
      · simp [up]
      · simp [empty, here, up]

theorem isAbsolute_append {before : String} (nonempty : before ≠ "")
    (after : String) : isAbsolute (before ++ after) = isAbsolute before := by
  have chars : before.toList ≠ [] := by simpa using nonempty
  rw [isAbsolute, isAbsolute, String.toList_append, List.head?_append,
    List.head?_eq_some_head chars, Option.some_or]

private theorem dropEmptyEnd_of_head {reversed : List Char}
    (slash : reversed.head? ≠ some '/')
    (dot : ∀ rest, reversed ≠ '.' :: '/' :: rest) :
    dropEmptyEnd reversed = reversed := by
  unfold dropEmptyEnd
  split
  · exact (slash rfl).elim
  · exact (dot _ rfl).elim
  · rfl

private theorem head?_dropEmptyEnd (reversed : List Char) :
    (dropEmptyEnd reversed).head? ≠ some '/' := by
  fun_induction dropEmptyEnd reversed with
  | case1 rest induction => exact induction
  | case2 rest induction => exact induction
  | case3 reversed slash dot =>
      cases reversed with
      | nil => exact nofun
      | cons c rest =>
          rintro ⟨⟩
          exact slash rest rfl

private theorem dropEmptyEnd_suffix (reversed : List Char) :
    dropEmptyEnd reversed <:+ reversed := by
  fun_induction dropEmptyEnd reversed with
  | case1 rest induction => exact induction.trans (List.suffix_cons _ _)
  | case2 rest induction => exact induction.trans (List.suffix_cons _ _)
  | case3 reversed slash dot => exact List.suffix_rfl

/-- A text goes on behind another one, with blank pieces only. -/
def Trails (text kept : String) : Prop :=
  ∃ blanks, (∀ blank ∈ blanks, IsBlank blank) ∧
    Text.split '/' text = Text.split '/' kept ++ blanks

theorem Trails.refl (text : String) : Trails text text :=
  ⟨[], nofun, (List.append_nil _).symm⟩

theorem Trails.blank {text kept blank : String} (trails : Trails text kept)
    (isBlank : IsBlank blank) (absent : '/' ∉ blank.toList) :
    Trails (text ++ "/" ++ blank) kept := by
  obtain ⟨blanks, all, split⟩ := trails
  refine ⟨blanks ++ [blank], ?_, ?_⟩
  · intro other inside
    rcases List.mem_append.mp inside with before | last
    · exact all other before
    · exact List.mem_singleton.mp last ▸ isBlank
  · rw [Text.split_append, split, Text.split_of_not_mem absent,
      List.append_assoc]

/-- What is left out at the end leads nowhere else. -/
theorem trails_dropEmptyEnd (reversed : List Char) :
    Trails (String.ofList reversed.reverse)
      (String.ofList (dropEmptyEnd reversed).reverse) := by
  rw [dropEmptyEnd.eq_def]
  split
  · rename_i rest
    have whole : String.ofList ('/' :: rest).reverse =
        String.ofList rest.reverse ++ "/" ++ "" := by
      apply String.toList_injective
      simp
    rw [whole]
    exact (trails_dropEmptyEnd rest).blank (.inl rfl) (by simp)
  · rename_i rest
    have whole : String.ofList ('.' :: '/' :: rest).reverse =
        String.ofList rest.reverse ++ "/" ++ "." := by
      apply String.toList_injective
      simp
    rw [whole]
    exact (trails_dropEmptyEnd rest).blank (.inr rfl) (by simp)
  · exact .refl _
termination_by reversed.length

private theorem join_root {path : String} (relative : isAbsolute path = false) :
    join "/" path = "/" ++ path := by
  simp [join, relative]

private theorem join_of_last {base path : String}
    (relative : isAbsolute path = false)
    (nonempty : base ≠ "") (last : base.toList.getLast? ≠ some '/') :
    join base path = base ++ "/" ++ path := by
  simp [join, relative, nonempty, last]

theorem dropEmptyEnd_name {name : String} (isName : IsName name)
    (absent : '/' ∉ name.toList) (above : List Char)
    (behind : above.head? = none ∨ above.head? = some '/') :
    dropEmptyEnd (name.toList.reverse ++ above) =
      name.toList.reverse ++ above := by
  have absent : '/' ∉ name.toList.reverse := by simpa using absent
  have nonempty : name.toList.reverse ≠ [] := by simpa using isName.nonempty
  have notHere : name.toList.reverse ≠ ['.'] := by
    intro same
    apply isName.notHere
    apply String.toList_injective
    rw [← List.reverse_reverse name.toList, same]
    rfl
  generalize name.toList.reverse = chars at absent nonempty notHere
  cases chars with
  | nil => exact (nonempty rfl).elim
  | cons c rest =>
      apply dropEmptyEnd_of_head
      · rintro ⟨⟩
        exact absent List.mem_cons_self
      · intro others same
        cases rest with
        | nil =>
            cases same
            exact notHere rfl
        | cons d rest =>
            cases same
            exact absent (List.mem_cons_of_mem _ List.mem_cons_self)

theorem dropWhile_name {name : String} (absent : '/' ∉ name.toList)
    (above : List Char) :
    (name.toList.reverse ++ above).dropWhile (· != '/') =
      above.dropWhile (· != '/') := by
  apply List.dropWhile_append_of_pos
  intro c inside
  have other : c ≠ '/' := by
    rintro rfl
    exact absent (List.mem_reverse.mp inside)
  simpa using other

private theorem isAbsolute_iff_of_split {before : String} (name : String)
    {piece : String} {rest : List String}
    (split : Text.split '/' before = piece :: rest) :
    isAbsolute (before ++ "/" ++ name) = true ↔ piece = "" := by
  rw [Text.split_eq] at split
  simp only [isAbsolute, String.toList_append, List.append_assoc]
  cases chars : before.toList with
  | nil =>
      rw [chars] at split
      cases split
      simp
  | cons c others =>
      rw [chars, List.splitOn_cons_eq_if_modifyHead] at split
      by_cases slash : c = '/'
      · simp only [slash, BEq.rfl, if_true, List.map_cons] at split
        cases split
        simp [slash]
      · simp only [beq_iff_eq, slash, if_false] at split
        obtain ⟨part, parts, deeper⟩ :=
          List.exists_cons_of_ne_nil (List.splitOn_ne_nil '/' others)
        rw [deeper] at split
        cases split
        simp [slash]

theorem above_eq_root_iff {absolute : Bool} {piece : String}
    {rest : List String} :
    (if absolute = true then [PathPart.root] else (partOf true piece).toList) ++
        rest.filterMap (partOf false) = [.root] ↔
      absolute = true ∧ ∀ blank ∈ rest, IsBlank blank := by
  cases absolute with
  | true => simp [List.filterMap_eq_nil_iff, partOf_eq_none_iff]
  | false =>
      simp only [Bool.false_eq_true, if_false, false_and, iff_false]
      intro root
      have inside : PathPart.root ∈ (partOf true piece).toList ++
          rest.filterMap (partOf false) :=
        root ▸ List.mem_singleton_self _
      rcases List.mem_append.mp inside with here | later
      · exact partOf_ne_root true piece (Option.mem_toList.mp here)
      · obtain ⟨other, _, found⟩ := List.mem_filterMap.mp later
        exact partOf_ne_root false other found

/-- The parent of a path that ends in a name behind a slash. -/
theorem parent?_append {before name : String} (isName : IsName name)
    (absent : '/' ∉ name.toList) {piece : String} {rest : List String}
    (split : Text.split '/' before = piece :: rest) :
    parent? (before ++ "/" ++ name) = some (
      if (if isAbsolute (before ++ "/" ++ name) then [.root]
            else (partOf true piece).toList) ++
          rest.filterMap (partOf false) = [.root] then "/"
      else String.ofList (dropEmptyEnd before.toList.reverse).reverse) := by
  have parts : parts (before ++ "/" ++ name) =
      ((if isAbsolute (before ++ "/" ++ name) then [.root]
        else (partOf true piece).toList) ++ rest.filterMap (partOf
            false)) ++ [.name name] := by
    rw [Path.parts, Text.split_append, Text.split_of_not_mem absent, split]
    simp [partOf_of_isName isName]
  generalize (if isAbsolute (before ++ "/" ++ name) then [.root]
    else (partOf true piece).toList) ++ rest.filterMap (partOf false) =
      above at parts ⊢
  have chars : (before ++ "/" ++ name).toList.reverse =
      name.toList.reverse ++ '/' :: before.toList.reverse := by simp
  have dropped := dropWhile_name absent ('/' :: before.toList.reverse)
  rw [parent?, parts, List.reverse_append, chars,
    dropEmptyEnd_name isName absent _ (.inr rfl)]
  simp only [List.reverse_singleton, List.singleton_append, dropped,
    List.dropWhile_cons, bne_self_eq_false, Bool.false_eq_true, if_false]
  by_cases root : above = [.root]
  · simp [root]
  · have other : above.reverse ≠ [.root] := by
      simpa [List.reverse_eq_iff] using root
    simp [root, other, dropEmptyEnd]

/-- The parent of a name alone is the empty path. -/
theorem parent?_of_name {name : String} (isName : IsName name)
    (absent : '/' ∉ name.toList) : parent? name = some "" := by
  have relative : isAbsolute name = false := by
    rw [isAbsolute, beq_eq_false_iff_ne]
    exact fun slash => absent (List.mem_of_head? slash)
  have parts : parts name = [.name name] := by
    rw [Path.parts, Text.split_of_not_mem absent]
    simp [relative, partOf_of_isName isName]
  have dropped := dropWhile_name absent []
  have kept := dropEmptyEnd_name isName absent [] (.inl rfl)
  rw [List.append_nil] at kept dropped
  rw [parent?, parts, kept]
  simp [dropped, dropEmptyEnd]

/-- Without its empty end a text begins as before, unless it is all blank below
the root. -/
theorem base_dropEmptyEnd {before piece : String} {rest : List String}
    (first : Text.split '/' before = piece :: rest)
    (other : ¬ (piece = "" ∧ ∀ blank ∈ rest, IsBlank blank)) :
    String.ofList (dropEmptyEnd before.toList.reverse).reverse ≠ "" ∧
      (String.ofList
        (dropEmptyEnd before.toList.reverse).reverse).toList.getLast? ≠
        some '/' ∧
      (∃ ending, before =
        String.ofList (dropEmptyEnd before.toList.reverse).reverse ++ ending) ∧
      Trails before
        (String.ofList (dropEmptyEnd before.toList.reverse).reverse) := by
  have trails := trails_dropEmptyEnd before.toList.reverse
  have last := head?_dropEmptyEnd before.toList.reverse
  obtain ⟨dropped, ends⟩ := dropEmptyEnd_suffix before.toList.reverse
  generalize dropEmptyEnd before.toList.reverse = kept at trails last ends ⊢
  rw [List.reverse_reverse, String.ofList_toList] at trails
  refine ⟨?_, by simpa using last, ⟨String.ofList dropped.reverse, ?_⟩, trails⟩
  · intro empty
    obtain ⟨blanks, blank, whole⟩ := trails
    rw [empty, first, Text.split_empty] at whole
    cases whole
    exact other ⟨rfl, blank⟩
  · apply String.toList_injective
    rw [← List.reverse_reverse before.toList, ← ends]
    simp

/-- The pieces before the last name of a path are those of its parent, but for
blank ones at the end.  A relative path below the parent continues them. -/
theorem exists_parent {path imported name : String} {pieces : List String}
    (split : Text.split '/' path = pieces ++ [name]) (isName : IsName name)
    (relative : isAbsolute imported = false) (nonempty : imported ≠ "") :
    ∃ parent start blanks,
      parent? path = some parent ∧ pieces = start ++ blanks ∧
      (∀ blank ∈ blanks, IsBlank blank) ∧ join parent imported ≠ "" ∧
      isAbsolute (join parent imported) = isAbsolute path ∧
      Text.split '/' (join parent imported) =
        start ++ Text.split '/' imported := by
  rcases Text.exists_last_piece path with alone | ⟨before, last, rfl, absent⟩
  · rw [Text.split_of_not_mem alone] at split
    obtain ⟨rfl, same⟩ : pieces = [] ∧ [path] = [name] := by
      cases pieces with
      | nil => exact ⟨rfl, split⟩
      | cons piece rest => simp at split
    cases same
    have same : join "" imported = imported := by simp [join]
    refine ⟨"", [], [], parent?_of_name isName alone, rfl, nofun, ?_⟩
    rw [same]
    refine ⟨nonempty, ?_, rfl⟩
    rw [relative, eq_comm, isAbsolute, beq_eq_false_iff_ne]
    exact fun slash => alone (List.mem_of_head? slash)
  · rw [Text.split_append, Text.split_of_not_mem absent] at split
    obtain ⟨rfl, same⟩ := List.append_inj' split rfl
    cases same
    obtain ⟨piece, rest, first⟩ :=
      List.exists_cons_of_ne_nil (Text.split_ne_nil '/' before)
    have parent := parent?_append isName absent first
    have absolute := isAbsolute_iff_of_split name first
    by_cases root : isAbsolute (before ++ "/" ++ name) = true ∧ ∀ blank ∈ rest,
      IsBlank blank
    · rw [if_pos (above_eq_root_iff.mpr root)] at parent
      refine ⟨"/", [""], rest, parent, ?_, root.2, ?_⟩
      · rw [first, absolute.mp root.1, List.singleton_append]
      · rw [join_root relative, root.1, ← String.empty_append (s := "/"),
          Text.split_append]
        refine ⟨?_, ?_, ?_⟩
        · simp
        · simp [isAbsolute]
        · rw [Text.split_of_not_mem (by simp), List.singleton_append]
    · rw [if_neg (mt above_eq_root_iff.mp root)] at parent
      obtain ⟨nonempty, last, ⟨ending, begins⟩, blanks, blank, whole⟩ :=
        base_dropEmptyEnd first
        fun absolutely => root ⟨absolute.mpr absolutely.1, absolutely.2⟩
      generalize String.ofList (dropEmptyEnd before.toList.reverse).reverse =
        base at *
      have join := join_of_last relative nonempty last
      refine ⟨base, _, blanks, parent, whole, blank, ?_⟩
      rw [join]
      refine ⟨by simp, ?_, Text.split_append _ _⟩
      rw [begins, String.append_assoc, String.append_assoc, String.append_assoc,
        isAbsolute_append nonempty, isAbsolute_append nonempty]

end Path

end DataBridge
