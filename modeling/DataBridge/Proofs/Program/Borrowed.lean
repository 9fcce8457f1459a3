import DataBridge.Proofs.Program.Call

/-!
# Texts that a program takes over

Roots and members of places, property names and external expressions come from
outside a program and stand in its text as they are.  When none of them holds a
word that is spelled like a temporary, neither does a place or its path, and a
handle names its own variable alone.
-/

namespace DataBridge

/-- The text that a handle takes over. -/
def Handle.borrowed : Handle → List String
  | .external expression => [expression]
  | .slot _ | .property | .arrayItem => []

/-- The text that a step of a path takes over. -/
def Segment.borrowed : Segment → List String
  | .field name => [name]
  | .index _ => []

/-- The texts that a place takes over. -/
def Place.borrowed (place : Place) : List String :=
  place.root :: place.segments.flatMap Segment.borrowed

mutual

/-- The texts that a statement takes over. -/
def Stmt.borrowed : Stmt → List String
  | .setNamed object name value => name :: (object.borrowed ++ value.borrowed)
  | .getNamed object name target => name :: (object.borrowed ++ target.borrowed)
  | .leafOut _ source target => source.borrowed ++ target.borrowed
  | .leafIn _ source target => source.borrowed ++ target.borrowed
  | .forEach _ _ body => Stmt.borrowedList body
  | statement => statement.handles.flatMap Handle.borrowed

/-- The texts that a list of statements takes over. -/
def Stmt.borrowedList : List Stmt → List String
  | [] => []
  | first :: rest => first.borrowed ++ Stmt.borrowedList rest

end

/-- The texts that a program takes over. -/
def Emission.borrowed (emission : Emission) : List String :=
  Stmt.borrowedList emission.body

section Borrowed

def Quiet (texts : List String) : Prop :=
  ∀ text ∈ texts, temporaries text = []

@[simp]
theorem quiet_nil : Quiet [] := by
  simp [Quiet]

@[simp]
theorem quiet_cons {text : String} {texts : List String} :
    Quiet (text :: texts) ↔ temporaries text = [] ∧ Quiet texts := by
  simp [Quiet]

@[simp]
theorem quiet_append {first second : List String} :
    Quiet (first ++ second) ↔ Quiet first ∧ Quiet second := by
  simp [Quiet, or_imp, forall_and]

/-- The variable behind a handle, if there is one. -/
def Handle.temps (handle : Handle) : List Temp :=
  (Temp.ofHandle? handle).toList

theorem temporaries_handle {handle : Handle} (quiet : Quiet handle.borrowed) :
    temporaries handle.text = handle.temps.map Temp.identifier := by
  cases handle with
  | slot index => exact Temp.temporaries_identifier (.slot index)
  | property => exact Temp.temporaries_identifier .property
  | arrayItem => exact Temp.temporaries_identifier .arrayItem
  | external expression => exact quiet expression List.mem_cons_self

theorem text_of_mem_temps {handle : Handle} {temp : Temp}
    (known : temp ∈ handle.temps) :
    handle.text = temp.identifier ∧ temp.nativeType = "napi_value" := by
  cases handle <;> simp [Handle.temps, Temp.ofHandle?] at known <;> subst known
    <;> exact ⟨rfl, rfl⟩

theorem Argument.value {handle : Handle} (quiet : Quiet handle.borrowed) :
    Argument handle.text "napi_value" handle.temps where
  names := temporaries_handle quiet
  passes temp known := by
    obtain ⟨text, type⟩ := text_of_mem_temps known
    rw [text, ← type]
    exact .value

theorem Argument.address {handle : Handle} (quiet : Quiet handle.borrowed) :
    Argument ("&" ++ handle.text) "napi_value*" handle.temps where
  names := by
    rw [temporaries_start _ (by decide) (by decide), temporaries_handle quiet]
  passes temp known := by
    obtain ⟨text, type⟩ := text_of_mem_temps known
    rw [text, show "napi_value*" = temp.nativeType ++ "*" by rw [type]; rfl]
    exact .address

theorem temporaries_segment {segment : Segment} (before : String)
    (quiet : Quiet segment.borrowed) :
    temporaries (before ++ Place.segmentText segment) = temporaries before := by
  cases segment with
  | field name =>
      rw [Place.segmentText,
        temporaries_between _ _ (by decide) (by decide) (by decide),
        quiet name List.mem_cons_self, List.append_nil]
  | index iterator =>
      rw [Place.segmentText, Place.bracketed, String.append_assoc,
        temporaries_between _ _ (by decide) (by decide) (by decide),
        temporaries_last _ (by decide) (by decide), temporaries_single,
        List.append_nil]

theorem temporaries_place {place : Place} (quiet : Quiet place.borrowed) :
    temporaries place.text = [] := by
  have along : ∀ (segments : List Segment) (before : String),
      temporaries before = [] → Quiet (segments.flatMap Segment.borrowed) →
      temporaries (segments.foldl (fun before segment =>
        before ++ Place.segmentText segment) before) = [] := by
    intro segments
    induction segments with
    | nil => exact fun _ start _ => start
    | cons segment rest induction =>
        intro before start quiet
        rw [List.flatMap_cons, quiet_append] at quiet
        apply induction _ _ quiet.2
        rw [temporaries_segment before quiet.1, start]
  rw [Place.borrowed, quiet_cons] at quiet
  exact along _ _ quiet.1 quiet.2

theorem temporaries_path {place : Place} (quiet : Quiet place.borrowed) :
    temporaries place.path = [] := by
  have along : ∀ (segments : List Segment) (before : String),
      temporaries before = [] →
        Quiet (segments.flatMap Segment.borrowed) →
        temporaries (Place.pathFrom before segments) = [] := by
    intro segments
    induction segments with
    | nil => exact fun _ start _ => start
    | cons segment rest induction =>
        intro before start quiet
        rw [List.flatMap_cons, quiet_append] at quiet
        have step := temporaries_segment before quiet.1
        rw [start] at step
        cases segment with
        | field name =>
            rw [Place.pathFrom]
            apply induction _ _ quiet.2
            split
            · exact quiet.1 name List.mem_cons_self
            · rw [String.append_assoc]
              exact step
        | index iterator => exact induction _ step quiet.2
  rw [Place.borrowed, quiet_cons] at quiet
  exact along _ _ (temporaries_fixed (by decide)) quiet.2

end Borrowed


end DataBridge
