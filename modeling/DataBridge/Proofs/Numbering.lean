import DataBridge.Schema.Decl

/-!
# Numbers of enumerations

A variant without a number of its own counts on from the last one before it that
has one, and from zero if there is none, in signed 32-bit arithmetic.
-/

namespace DataBridge

private theorem wrapInt32_succ (n : Int) :
    wrapInt32 (wrapInt32 n + 1) = wrapInt32 (n + 1) :=
  Int.bmod_add_bmod

namespace EnumDecl

/-- The number of its own that a variant has. -/
def own? (decl : EnumDecl) (i : Nat) : Option Int :=
  decl.variants[i]?.bind Variant.value

/-- The number that a variant gets. -/
def number? (decl : EnumDecl) (i : Nat) : Option Int :=
  decl.numbered[i]?.map Prod.snd

/-- The variants from one position to another have no numbers of their own. -/
def CountsOn (decl : EnumDecl) (first last : Nat) : Prop :=
  ∀ i, i ≤ last → first ≤ i → decl.variants[i]?.map Variant.value = some none

instance (decl : EnumDecl) (first last : Nat) :
    Decidable (decl.CountsOn first last) :=
  inferInstanceAs (Decidable (∀ i, i ≤ last → first ≤ i → _))

/-- The enumeration with further variants at its end. -/
def extend (decl : EnumDecl) (more : List Variant) : EnumDecl :=
  { decl with variants := decl.variants ++ more }

/-- The enumeration with a number written out at one of its variants. -/
def withNumber (decl : EnumDecl) (i : Nat) (value : Int) : EnumDecl :=
  { decl with
    variants := decl.variants.modify i fun variant =>
      { variant with value := some value } }

private theorem map_fst_numberFrom (next : Int) (variants : List Variant) :
    (numberFrom next variants).map Prod.fst = variants.map Variant.name := by
  induction variants generalizing next with
  | nil => rfl
  | cons variant rest induction =>
      rw [numberFrom, List.map_cons, List.map_cons, induction]

theorem map_fst_numbered (decl : EnumDecl) :
    decl.numbered.map Prod.fst = decl.variants.map Variant.name :=
  map_fst_numberFrom 0 decl.variants

section Lists

variable {next value : Int} {variants : List Variant} {i : Nat}

theorem numberFrom_own (own : variants[i]?.bind Variant.value = some value) :
    (numberFrom next variants)[i]?.map Prod.snd = some value := by
  induction variants generalizing next i with
  | nil => cases own
  | cons variant rest induction =>
      cases i with
      | zero =>
          have given : variant.value = some value := own
          rw [numberFrom, given]
          rfl
      | succ i => exact induction own

theorem numberFrom_first
    (counted : variants[0]?.map Variant.value = some none) :
    (numberFrom next variants)[0]?.map Prod.snd = some next := by
  cases variants with
  | nil => cases counted
  | cons variant rest =>
      have absent : variant.value = none := Option.some.inj counted
      rw [numberFrom, absent]
      rfl

/-- One step of the count. -/
theorem numberFrom_succ
    (counted : variants[i + 1]?.map Variant.value = some none)
    (before : (numberFrom next variants)[i]?.map Prod.snd = some value) :
    (numberFrom next variants)[i + 1]?.map Prod.snd =
      some (wrapInt32 (value + 1)) := by
  induction variants generalizing next i with
  | nil => cases counted
  | cons variant rest induction =>
      cases i with
      | zero =>
          obtain rfl : variant.value.getD next = value := Option.some.inj before
          exact numberFrom_first counted
      | succ i => exact induction counted before

private theorem numberFrom_prefix (next : Int) (variants more : List Variant) :
    numberFrom next variants <+: numberFrom next (variants ++ more) := by
  induction variants generalizing next with
  | nil => exact List.nil_prefix
  | cons variant rest induction =>
      rw [List.cons_append, numberFrom, numberFrom, List.cons_prefix_cons]
      exact ⟨rfl, induction _⟩

private theorem numberFrom_modify
    (same : (numberFrom next variants)[i]?.map Prod.snd = some value) :
    numberFrom next
        (variants.modify i fun variant =>
          { variant with value := some value }) =
      numberFrom next variants := by
  induction variants generalizing next i with
  | nil => cases same
  | cons variant rest induction =>
      cases i with
      | zero =>
          obtain rfl : variant.value.getD next = value := Option.some.inj same
          rfl
      | succ i =>
          rw [List.modify_succ_cons, numberFrom, numberFrom, induction same]

end Lists

/-- A run of variants without numbers of their own counts up by one each. -/
theorem number?_run {decl : EnumDecl} {start : Int} {j : Nat}
    (first : decl.number? j = some (wrapInt32 start)) (distance : Nat)
    (counted : decl.CountsOn (j + 1) (j + distance)) :
    decl.number? (j + distance) = some (wrapInt32 (start + distance)) := by
  induction distance with
  | zero => simpa using first
  | succ distance induction =>
      have before := induction fun i below =>
        counted i (Nat.le_succ_of_le below)
      have step :=
        numberFrom_succ (counted (j + distance + 1) (Nat.le_refl _) (by omega))
          before
      rw [wrapInt32_succ] at step
      have sum : start + ((distance + 1 : Nat) : Int) = start + distance + 1 :=
        by omega
      rw [sum]
      exact step

private theorem number?_after {decl : EnumDecl} {value : Int} {j i : Nat}
    (own : decl.own? j = some value) (behind : j < i)
    (counted : decl.CountsOn (j + 1) i) :
    decl.number? i = some (wrapInt32 (value + (i - j : Nat))) := by
  obtain ⟨distance, rfl⟩ : ∃ distance, i = j + 1 + distance :=
    ⟨i - (j + 1), by omega⟩
  have next : decl.number? (j + 1) = some (wrapInt32 (value + 1)) :=
    numberFrom_succ (counted (j + 1) (by omega) (Nat.le_refl _))
      (numberFrom_own own)
  have run := number?_run next distance fun k below above =>
    counted k below (by omega)
  have sum : value + 1 + distance = value + (j + 1 + distance - j : Nat) :=
    by omega
  rw [run, sum]

private theorem number?_from_zero {decl : EnumDecl} {i : Nat}
    (counted : decl.CountsOn 0 i) : decl.number? i = some (wrapInt32 i) := by
  have first : decl.number? 0 = some (wrapInt32 0) :=
    numberFrom_first (counted 0 (Nat.zero_le i) (Nat.le_refl 0))
  have run := number?_run first i fun k below _ =>
    counted k (by omega) (Nat.zero_le k)
  rwa [Nat.zero_add, Int.zero_add] at run

/-- The numbering of an enumeration in closed form.  Names and numbers of their
own stay; another variant counts from the last number before it, or from zero.
More variants at the end change no number before them, and a number that is
written out changes none at all. -/
theorem numbered_by_last_own (decl : EnumDecl) :
    decl.numbered.map Prod.fst = decl.variants.map Variant.name ∧
    (∀ i value, decl.own? i = some value → decl.number? i = some value) ∧
    (∀ i j value, decl.own? j = some value → j < i → decl.CountsOn (j + 1) i →
      decl.number? i = some (wrapInt32 (value + (i - j : Nat)))) ∧
    (∀ i, decl.CountsOn 0 i → decl.number? i = some (wrapInt32 i)) ∧
    (∀ more, decl.numbered <+: (decl.extend more).numbered) ∧
    ∀ i value, decl.number? i = some value →
      (decl.withNumber i value).numbered = decl.numbered := by
  refine ⟨decl.map_fst_numbered, ?own, ?after, ?start,
    numberFrom_prefix 0 decl.variants, ?written⟩
  case own =>
    intro i value own
    exact numberFrom_own own
  case after =>
    intro i j value own behind counted
    exact number?_after own behind counted
  case start =>
    intro i counted
    exact number?_from_zero counted
  case written =>
    intro i value same
    exact numberFrom_modify same

/-- A count that passes the largest number, and one that starts again. -/
def alarms : EnumDecl where
  variants :=
    [⟨"Idle", none⟩, ⟨"Warm", none⟩, ⟨"Hot", some 2147483647⟩, ⟨"Trip", none⟩,
      ⟨"Lost", none⟩, ⟨"Reset", some (-5)⟩, ⟨"Ready", none⟩]

theorem alarms_numbered :
    alarms.numbered =
      [("Idle", 0), ("Warm", 1), ("Hot", 2147483647), ("Trip", -2147483648),
        ("Lost", -2147483647), ("Reset", -5), ("Ready", -4)] ∧
    (alarms.own? 5 = some (-5) ∧ alarms.number? 5 = some (-5)) ∧
    (alarms.own? 2 = some 2147483647 ∧ alarms.CountsOn 3 4 ∧
      alarms.number? 4 = some (wrapInt32 (2147483647 + 2))) ∧
    (alarms.CountsOn 0 1 ∧ alarms.number? 1 = some (wrapInt32 1)) ∧
    (alarms.number? 3 = some (-2147483648) ∧
      (alarms.withNumber 3 (-2147483648)).numbered = alarms.numbered) := by
  obtain ⟨_, own, after, start, _, written⟩ := alarms.numbered_by_last_own
  have reset : alarms.own? 5 = some (-5) := by decide
  have hot : alarms.own? 2 = some 2147483647 := by decide
  have counted : alarms.CountsOn 3 4 := by decide
  have begun : alarms.CountsOn 0 1 := by decide
  have trip : alarms.number? 3 = some (-2147483648) := by decide
  exact ⟨by decide, ⟨reset, own 5 _ reset⟩,
    ⟨hot, counted, after 4 2 _ hot (by decide) counted⟩, ⟨begun, start 1 begun⟩,
    ⟨trip, written 3 _ trip⟩⟩

end EnumDecl

end DataBridge
