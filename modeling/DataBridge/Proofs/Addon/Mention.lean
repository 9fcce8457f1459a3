import DataBridge.Proofs.Addon.Identifiers
import DataBridge.Proofs.Header.Lines
import DataBridge.Proofs.Words

/-!
# Words in a line of a module

A line of generated source is read word by word, string literals left out.  A
word in front of a parenthesis is a call, one behind an ampersand or in front of
a dot stands for an object, and one behind an ampersand or in front of an
equality sign is written to.  A scope says what a line may do in this way.
-/

namespace DataBridge

open Text (inWord)

/-- A text that can stand as a name. -/
def Text.IsWord (text : String) : Prop :=
  text ≠ "" ∧ ∀ c ∈ text.toList, inWord c = true

instance (text : String) : Decidable (Text.IsWord text) :=
  have := List.decidableBAll (fun c => inWord c = true) text.toList
  inferInstanceAs (Decidable (_ ∧ _))

open Text (IsWord)

/-- A word of a line with the character in front of it, if there is one, and the
characters behind it. -/
structure Mention where
  before : Option Char
  word : String
  behind : List Char

/-- How far a line is read: whether within a string literal, the last character
that is in no word, and the characters of a word behind it. -/
structure LineReader where
  quoted : Bool := false
  before : Option Char := none
  word : List Char := []
deriving DecidableEq

namespace LineReader

/-- The reader behind one more character.  Blanks at the beginning of a line are
passed over. -/
def step (reader : LineReader) (c : Char) : LineReader :=
  if reader.quoted then if c = '"' then { before := some '"' } else reader
  else if inWord c then { reader with word := reader.word ++ [c] }
  else if c = ' ' ∧ reader.before = none ∧ reader.word = [] then reader
  else { quoted := c = '"', before := some c }

def after (reader : LineReader) (chars : List Char) : LineReader :=
  chars.foldl step reader

/-- The word that ends in front of some characters. -/
def found (reader : LineReader) (behind : List Char) : List Mention :=
  if reader.quoted ∨ reader.word = [] then []
  else [⟨reader.before, String.ofList reader.word, behind⟩]

/-- The words that end within some characters or at their end. -/
def mentions (reader : LineReader) : List Char → List Mention
  | [] => reader.found []
  | c :: rest =>
      (if inWord c then [] else reader.found (c :: rest)) ++
        (reader.step c).mentions rest

end LineReader

/-- The words of a line outside of string literals. -/
def mentions (line : String) : List Mention :=
  LineReader.mentions {} line.toList

/-- The argument of a call at a position. -/
def argumentFrom : Nat → List Char → List Char
  | 0, chars => chars.takeWhile fun c => c ≠ ',' && c ≠ ')'
  | index + 1, chars =>
      match chars.dropWhile fun c => c ≠ ',' && c ≠ ')' with
      | ',' :: rest => argumentFrom index rest
      | _ => []

namespace Mention

/-- The name that stands as an argument of the word, where the word is
called. -/
def argument? (mention : Mention) (index : Nat) : Option String :=
  match mention.behind with
  | '(' :: rest =>
      let argument :=
        String.ofList ((argumentFrom index rest).dropWhile (· = ' '))
      if IsWord argument then some argument else none
  | _ => none

/-- The address of the word is taken, or one of its members is named. -/
def Accessed (mention : Mention) : Prop :=
  mention.before ≠ some '.' ∧
    (mention.before = some '&' ∨ mention.behind.head? = some '.')

/-- The word is handed over to be written, or stands on the left of an
assignment. -/
def Assigned (mention : Mention) : Prop :=
  (mention.before = some '&' ∧ mention.behind.head? ≠ some '.') ∨
    (mention.before = none ∧ [' ', '=', ' '] <+: mention.behind)

end Mention

namespace Addon

/-- The functions that take a function of the module, each with the position of
the argument. -/
def callees (model : Datamodel) : List (String × Nat) :=
  [("napi_create_function", 3), ("init_napi_onchange", 3),
    ("napi_add_env_cleanup_hook", 1), ("exos_dataset_connect", 2),
    ("exos_datamodel_connect_" ++ Text.lower model.name, 1),
    ("uv_idle_start", 1), ("NAPI_MODULE", 1)]

/-- The name of an object that belongs to a dataset. -/
def IsObjectName (name : String) : Prop :=
  ∃ dataset, name = dataset ++ "_handle" ∨ name = dataset ++ "_dataset"

/-- The names that lines may rely on: functions above them, the objects of a
datamodel and, where this is restricted, local values. -/
structure Scope where
  model : Datamodel
  functions : String → Prop
  locals : Option (String → Prop) := none

/-- What a scope asks of a word. -/
structure Scope.Allows (scope : Scope) (mention : Mention) : Prop where
  functions : ∀ callee ∈ callees scope.model, mention.word = callee.1 →
    ∀ name, mention.argument? callee.2 = some name → scope.functions name
  objects : mention.Accessed → IsObjectName mention.word →
    mention.word ∈ identifiers scope.model
  locals : ∀ names, scope.locals = some names → mention.Assigned →
    names mention.word ∨ mention.word ∈ identifiers scope.model

/-- A word of a text that is allowed wherever it is not called. -/
structure Scope.Knows (scope : Scope) (name : String) : Prop where
  word : IsWord name
  objects : IsObjectName name → name ∈ identifiers scope.model
  locals : ∀ names, scope.locals = some names → names name ∨
    name ∈ identifiers scope.model

/-- A reader meets allowed words only up to the end of the line. -/
structure Passes (scope : Scope) (reader : LineReader) (chars : List Char) :
    Prop where
  allows : ∀ mention ∈ reader.mentions chars, scope.Allows mention
  oneLine : '\n' ∉ chars

/-- A reader meets allowed words only in these texts up to the end of the
line. -/
def Reads (scope : Scope) (reader : LineReader) (texts : List String) : Prop :=
  Passes scope reader (texts.flatMap String.toList)

end Addon

namespace LineReader

variable {reader : LineReader} {before : Option Char} {word : List Char}

theorem found_nil (quoted : Bool) (before : Option Char) (behind : List Char) :
    found ⟨quoted, before, []⟩ behind = [] :=
  if_pos (.inr rfl)

private theorem mentions_of_inWord {c : Char} (inside : inWord c = true)
    (rest : List Char) : mentions ⟨false, before, word⟩ (c :: rest) =
      mentions ⟨false, before, word ++ [c]⟩ rest := by
  rw [mentions, if_pos inside, step, if_neg Bool.false_ne_true, if_pos inside]
  rfl

theorem mentions_of_word {name : List Char}
    (inside : ∀ c ∈ name, inWord c = true) (rest : List Char) :
    mentions ⟨false, before, word⟩ (name ++ rest) =
      mentions ⟨false, before, word ++ name⟩ rest := by
  induction name generalizing word with
  | nil => rw [List.nil_append, List.append_nil]
  | cons c others induction =>
      obtain ⟨first, later⟩ := List.forall_mem_cons.mp inside
      rw [List.cons_append, mentions_of_inWord first, induction later,
        List.append_assoc]
      rfl

theorem step_of_apart {c : Char} (apart : inWord c = false)
    (placed : before ≠ none ∨ word ≠ []) :
    step ⟨false, before, word⟩ c = ⟨c = '"', some c, []⟩ := by
  have between : ¬ (c = ' ' ∧ before = none ∧ word = []) := by
    rintro ⟨_, start, empty⟩
    exact placed.elim (· start) (· empty)
  rw [step, if_neg Bool.false_ne_true, if_neg (by simp [apart]), if_neg between]

/-- Behind a word that has been dealt with. -/
def gap : LineReader :=
  { before := some ' ' }

private theorem mentions_of_apart {c : Char} (apart : inWord c = false)
    (nonempty : word ≠ []) (rest : List Char) :
    mentions ⟨false, before, word⟩ (c :: rest) =
      ⟨before, String.ofList word, c :: rest⟩ :: gap.mentions (c :: rest) := by
  have outside : ¬ inWord c = true := by simp [apart]
  have closed : found ⟨false, before, word⟩ (c :: rest) =
      [⟨before, String.ofList word, c :: rest⟩] :=
    if_neg (by simp [nonempty])
  rw [mentions, if_neg outside, closed, step_of_apart apart (.inr nonempty),
    mentions, if_neg outside, gap, found_nil,
    step_of_apart apart (.inl (by simp))]
  rfl

private theorem mentions_of_quoted {text : List Char} (unquoted : '"' ∉ text)
    (rest : List Char) :
    mentions ⟨true, before, []⟩ (text ++ rest) =
      mentions ⟨true, before, []⟩ rest := by
  induction text with
  | nil => rfl
  | cons c others induction =>
      obtain ⟨other, later⟩ := List.ne_and_not_mem_of_not_mem_cons unquoted
      have stays : step ⟨true, before, []⟩ c = ⟨true, before, []⟩ := by
        rw [step, if_pos rfl, if_neg (Ne.symm other)]
      rw [List.cons_append, mentions, found_nil, ite_self,
        List.nil_append, stays, induction later]

/-- The beginnings of the names of functions that take a function. -/
def calleeBeginnings : List (List Char) :=
  [['n', 'a', 'p', 'i', '_', 'c', 'r', 'e', 'a', 't', 'e', '_', 'f'],
    ['i', 'n', 'i', 't', '_', 'n'],
    ['n', 'a', 'p', 'i', '_', 'a', 'd', 'd'],
    ['e', 'x', 'o', 's', '_', 'd', 'a', 't', 'a', 's', 'e', 't', '_', 'c'],
    ['e', 'x', 'o', 's', '_', 'd', 'a', 't', 'a', 'm', 'o', 'd', 'e', 'l', '_',
      'c', 'o', 'n'],
    ['u', 'v', '_', 'i', 'd', 'l', 'e', '_', 's', 't', 'a', 'r'],
    ['N', 'A', 'P', 'I', '_']]

/-- The endings of the names of objects that belong to a dataset. -/
def objectEndings : List (List Char) :=
  [['_', 'h', 'a', 'n', 'd', 'l', 'e'],
    ['_', 'd', 'a', 't', 'a', 's', 'e', 't']]

def fixedObjects : List (List Char) :=
  [['l', 'o', 'g', 'g', 'e', 'r'], ['c', 'y', 'c', 'l', 'i', 'c', '_', 'h']]

section Quiet

variable (reader : LineReader) (strict : Bool) (c : Char) (rest : List Char)

/-- The word that `c` ends is not a call that takes a function. -/
def Uncalled : Prop :=
  c = '(' → ∀ chars ∈ calleeBeginnings, ¬ chars <+: reader.word

/-- The word that `c` ends is not used as an object of a dataset. -/
def Unaccessed : Prop :=
  reader.before ≠ some '.' → reader.before = some '&' ∨ c = '.' →
    ∀ chars ∈ objectEndings, ¬ chars <:+ reader.word

/-- The word that `c` ends is not written to, unless every module has it. -/
def Unassigned : Prop :=
  reader.word ∉ fixedObjects → (reader.before = some '&' → c = '.') ∧
    (reader.before = none → ¬ [' ', '=', ' '] <+: c :: rest ∧
      ¬ c :: rest <+: [' ', '=', ' '])

instance : Decidable (reader.Uncalled c) :=
  inferInstanceAs (Decidable (_ → _))

instance : Decidable (reader.Unaccessed c) :=
  inferInstanceAs (Decidable (_ → _))

instance : Decidable (reader.Unassigned c rest) :=
  inferInstanceAs (Decidable (_ → _))

/-- Whether the word that `c` ends is allowed by every scope, or at least by
those that do not restrict local values. -/
def quiet : Bool :=
  reader.Uncalled c && reader.Unaccessed c &&
    (!strict || reader.Unassigned c rest)

end Quiet

/-- Whether all words that end within some characters are allowed. -/
def harmless (strict : Bool) (reader : LineReader) : List Char → Bool
  | [] => true
  | c :: rest =>
      c ≠ '\n' && (reader.quoted || inWord c || reader.word.isEmpty ||
        reader.quiet strict c rest) &&
        (reader.step c).harmless strict rest

/-- Whether a word at the end of a line is allowed. -/
def settled (reader : LineReader) : Bool :=
  reader.quoted || reader.word.isEmpty || reader.before != some '&'

end LineReader

namespace Addon

variable {scope : Scope} {reader : LineReader} {name : String}
  {texts : List String} {chars : List Char}

private theorem callee_beginning {model : Datamodel} :
    ∀ callee ∈ callees model, ∃ chars ∈ LineReader.calleeBeginnings,
      chars <+: callee.1.toList := by
  have fixed : ∀ name : String, (LineReader.calleeBeginnings.any fun chars =>
      chars.isPrefixOf name.toList) = true →
      ∃ chars ∈ LineReader.calleeBeginnings, chars <+: name.toList := by
    intro name begins
    obtain ⟨chars, known, found⟩ := List.any_eq_true.mp begins
    exact ⟨chars, known, List.isPrefixOf_iff_prefix.mp found⟩
  have connect : ∃ chars ∈ LineReader.calleeBeginnings,
      chars <+:
          ("exos_datamodel_connect_" ++ Text.lower model.name).toList := by
    obtain ⟨chars, known, begins⟩ := fixed "exos_datamodel_connect_" (by decide)
    refine ⟨chars, known, ?_⟩
    rw [String.toList_append]
    exact begins.trans (List.prefix_append _ _)
  simp only [callees, List.forall_mem_cons]
  exact ⟨fixed _ (by decide), fixed _ (by decide), fixed _ (by decide),
    fixed _ (by decide), connect, fixed _ (by decide),
    fixed _ (by decide), nofun⟩

theorem ending_of_isObjectName (objectName : IsObjectName name) :
    ∃ chars ∈ LineReader.objectEndings, chars <:+ name.toList := by
  have spelled : ∀ dataset ending : String,
      ending.toList <:+ (dataset ++ ending).toList := by
    intro dataset ending
    rw [String.toList_append]
    exact List.suffix_append _ _
  obtain ⟨dataset, rfl | rfl⟩ := objectName
  · exact ⟨_, List.mem_cons_self, spelled dataset "_handle"⟩
  · exact ⟨_, .tail _ List.mem_cons_self, spelled dataset "_dataset"⟩

private theorem fixedObject_mem_identifiers {model : Datamodel} :
    ∀ chars ∈ LineReader.fixedObjects,
      String.ofList chars ∈ identifiers model := by
  have fixed : ∀ chars ∈ LineReader.fixedObjects,
      String.ofList chars ∈ fixedNames := by decide
  intro chars known
  rw [identifiers_eq]
  exact .tail _ (.tail _ (List.mem_append_left _ (fixed chars known)))

theorem argument?_eq_none {mention : Mention}
    (uncalled : mention.behind.head? ≠ some '(') (index : Nat) :
    mention.argument? index = none := by
  unfold Mention.argument?
  split
  · rename_i called
    rw [called] at uncalled
    exact (uncalled rfl).elim
  · rfl

theorem Scope.allows_of_quiet {strict : Bool}
    (fits : strict = true ∨ scope.locals = none) {before : Option Char}
    {word rest : List Char} {c : Char}
    (quiet : LineReader.quiet ⟨false, before, word⟩ strict c rest = true)
    (more : List Char) :
    scope.Allows ⟨before, String.ofList word, c :: (rest ++ more)⟩ := by
  simp only [LineReader.quiet, Bool.and_eq_true, Bool.or_eq_true,
    Bool.not_eq_true', decide_eq_true_eq] at quiet
  obtain ⟨⟨uncalled, plain⟩, unassigned⟩ := quiet
  constructor
  · intro callee known same argument found
    by_cases called : c = '('
    · obtain ⟨chars, listed, begins⟩ := callee_beginning callee known
      rw [← same, String.toList_ofList] at begins
      exact (uncalled called chars listed begins).elim
    · rw [argument?_eq_none (by simpa using called)] at found
      cases found
  · rintro ⟨apart, reached⟩ objectName
    obtain ⟨chars, listed, ends⟩ := ending_of_isObjectName objectName
    rw [String.toList_ofList] at ends
    exact (plain apart (reached.imp_right (Option.some.inj ·)) chars listed
      ends).elim
  · intro names restricted assigned
    rcases fits with rfl | free
    · refine .inr (fixedObject_mem_identifiers word ?_)
      by_contra other
      obtain ⟨untaken, unequal⟩ := unassigned.resolve_left nofun other
      rcases assigned with ⟨taken, away⟩ | ⟨start, equality⟩
      · exact away (congrArg some (untaken taken))
      · obtain ⟨within, beyond⟩ := unequal start
        have front : c :: rest <+: c :: (rest ++ more) := List.prefix_append _ _
        exact (List.prefix_or_prefix_of_prefix equality front).elim
          within beyond
    · rw [free] at restricted
      cases restricted

namespace Passes

variable {before : Option Char} {rest : List Char}

theorem nil (settled : reader.settled = true) : Passes scope reader [] := by
  refine ⟨?_, List.not_mem_nil⟩
  intro mention known
  rw [LineReader.mentions, LineReader.found] at known
  split at known
  · cases known
  · rename_i visible
    obtain ⟨unquoted, nonempty⟩ := not_or.mp visible
    cases List.mem_singleton.mp known
    have apart : reader.before ≠ some '&' := by
      simpa [LineReader.settled, unquoted, nonempty] using settled
    constructor
    · intro callee _ _ name found
      rw [argument?_eq_none (by simp)] at found
      cases found
    · rintro ⟨_, taken | reached⟩
      · exact (apart taken).elim
      · cases reached
    · rintro names _ (⟨taken, _⟩ | ⟨_, equality⟩)
      · exact (apart taken).elim
      · simp at equality

theorem literal {strict : Bool} (fits : strict = true ∨ scope.locals = none)
    (harmless : reader.harmless strict chars = true)
    (later : Passes scope (reader.after chars) rest) :
    Passes scope reader (chars ++ rest) := by
  induction chars generalizing reader with
  | nil => exact later
  | cons c others induction =>
      simp only [LineReader.harmless, Bool.and_eq_true, decide_eq_true_eq]
        at harmless
      obtain ⟨⟨visible, quiet⟩, harmless⟩ := harmless
      obtain ⟨allows, oneLine⟩ := induction harmless later
      constructor
      · rw [List.cons_append, LineReader.mentions, List.forall_mem_append]
        refine ⟨?_, allows⟩
        split
        · exact nofun
        · rename_i outside
          rw [LineReader.found]
          split
          · exact nofun
          · rename_i present
            obtain ⟨quoted, before, word⟩ := reader
            obtain ⟨unquoted, nonempty⟩ := not_or.mp present
            rw [Bool.not_eq_true] at unquoted
            subst unquoted
            simp only [outside, nonempty, List.isEmpty_iff, Bool.false_eq_true,
              Bool.or_eq_true, or_self, false_or] at quiet
            rw [List.forall_mem_singleton]
            exact scope.allows_of_quiet fits quiet rest
      · rw [List.cons_append, List.mem_cons, not_or]
        exact ⟨Ne.symm visible, oneLine⟩

theorem word (isWord : IsWord name) {c : Char} (apart : inWord c = false)
    (allows : scope.Allows ⟨before, name, c :: rest⟩)
    (later : Passes scope LineReader.gap (c :: rest)) :
    Passes scope ⟨false, before, []⟩ (name.toList ++ c :: rest) := by
  obtain ⟨nonempty, inside⟩ := isWord
  have found :
      LineReader.mentions ⟨false, before, []⟩ (name.toList ++ c :: rest) =
        ⟨before, name, c :: rest⟩ :: LineReader.gap.mentions (c :: rest) := by
    rw [LineReader.mentions_of_word inside, List.nil_append,
      LineReader.mentions_of_apart apart (by simpa using nonempty),
      String.ofList_toList]
  constructor
  · rw [found]
    exact List.forall_mem_cons.mpr ⟨allows, later.allows⟩
  · rw [List.mem_append, not_or]
    refine ⟨?_, later.oneLine⟩
    intro newline
    exact absurd (inside _ newline) (by decide)

theorem quoted {text : List Char} (unquoted : '"' ∉ text)
    (oneLine : '\n' ∉ text) (later : Passes scope ⟨true, before, []⟩ rest) :
    Passes scope ⟨true, before, []⟩ (text ++ rest) := by
  constructor
  · rw [LineReader.mentions_of_quoted unquoted]
    exact later.allows
  · rw [List.mem_append, not_or]
    exact ⟨oneLine, later.oneLine⟩

end Passes

/-- The texts go on with a character that is in no word, and with none of some
others. -/
def Opens (others : List Char) (texts : List String) : Prop :=
  ∃ c rest, texts.flatMap String.toList = c :: rest ∧ inWord c = false ∧
    c ∉ others

namespace Opens

variable {others : List Char}

theorem lit {c : Char} (apart : inWord c = false) (other : c ∉ others) :
    Opens others (String.ofList (c :: chars) :: texts) :=
  ⟨c, chars ++ texts.flatMap String.toList, by simp, apart, other⟩

theorem split {first second : String}
    (opens : Opens others (first :: second :: texts)) :
    Opens others ((first ++ second) :: texts) := by
  obtain ⟨c, rest, same, apart⟩ := opens
  exact ⟨c, rest, by simpa using same, apart⟩

end Opens

namespace Scope

theorem Knows.allows (knows : scope.Knows name) (before : Option Char)
    {c : Char} {rest : List Char} (uncalled : c ≠ '(') :
    scope.Allows ⟨before, name, c :: rest⟩ where
  functions callee _ _ function found := by
    rw [argument?_eq_none (by simpa using uncalled)] at found
    cases found
  objects _ := knows.objects
  locals names restricted _ := knows.locals names restricted

end Scope

namespace Reads

variable {before : Option Char}

theorem nil (settled : reader.settled = true) : Reads scope reader [] :=
  Passes.nil settled

theorem split {first second : String}
    (reads : Reads scope reader (first :: second :: texts)) :
    Reads scope reader ((first ++ second) :: texts) := by
  simpa [Reads] using reads

/-- A literal that every scope allows. -/
theorem lit (harmless : reader.harmless true chars = true)
    (later : Reads scope (reader.after chars) texts) :
    Reads scope reader (String.ofList chars :: texts) := by
  rw [Reads, List.flatMap_cons, String.toList_ofList]
  exact Passes.literal (.inl rfl) harmless later

/-- A long literal, with the reader behind it written out. -/
theorem long (next : LineReader) (harmless : reader.harmless true chars = true)
    (same : reader.after chars = next) (later : Reads scope next texts) :
    Reads scope reader (String.ofList chars :: texts) :=
  lit harmless (same ▸ later)

/-- A literal that those scopes allow that do not restrict local values. -/
theorem loose (free : scope.locals = none)
    (harmless : reader.harmless false chars = true)
    (later : Reads scope (reader.after chars) texts) :
    Reads scope reader (String.ofList chars :: texts) := by
  rw [Reads, List.flatMap_cons, String.toList_ofList]
  exact Passes.literal (.inr free) harmless later

theorem known (knows : scope.Knows name) (opens : Opens ['('] texts)
    (later : Reads scope LineReader.gap texts) :
    Reads scope ⟨false, before, []⟩ (name :: texts) := by
  obtain ⟨c, rest, same, apart, other⟩ := opens
  rw [Reads, same] at later
  rw [Reads, List.flatMap_cons, same]
  have uncalled : c ≠ '(' := by simpa using other
  exact Passes.word knows.word apart (knows.allows before uncalled) later

/-- A word that is only mentioned. -/
theorem plain (isWord : IsWord name) (untaken : before ≠ some '&')
    (placed : before ≠ none ∨ scope.locals = none)
    (opens : Opens ['(', '.'] texts)
    (later : Reads scope LineReader.gap texts) :
    Reads scope ⟨false, before, []⟩ (name :: texts) := by
  obtain ⟨c, rest, same, apart, other⟩ := opens
  rw [Reads, same] at later
  rw [Reads, List.flatMap_cons, same]
  simp only [List.mem_cons, List.not_mem_nil, or_false, not_or] at other
  refine Passes.word isWord apart ?_ later
  constructor
  · intro callee _ _ function found
    rw [argument?_eq_none (by simpa using other.1)] at found
    cases found
  · rintro ⟨_, taken | reached⟩
    · exact (untaken taken).elim
    · exact (other.2 (Option.some.inj reached)).elim
  · rintro names restricted (⟨taken, _⟩ | ⟨start, _⟩)
    · exact (untaken taken).elim
    · rw [restricted] at placed
      exact placed.elim (fun away => (away start).elim) nofun

theorem member (isWord : IsWord name) (opens : Opens ['('] texts)
    (later : Reads scope LineReader.gap texts) :
    Reads scope ⟨false, some '.', []⟩ (name :: texts) := by
  obtain ⟨c, rest, same, apart, other⟩ := opens
  rw [Reads, same] at later
  rw [Reads, List.flatMap_cons, same]
  refine Passes.word isWord apart ?_ later
  constructor
  · intro callee _ _ function found
    rw [argument?_eq_none (by simpa using other)] at found
    cases found
  · rintro ⟨away, _⟩
    exact (away rfl).elim
  · rintro names _ (⟨taken, _⟩ | ⟨start, _⟩)
    · cases taken
    · cases start

/-- A word at the end of a line. -/
theorem last (isWord : IsWord name) (untaken : before ≠ some '&') :
    Reads scope ⟨false, before, []⟩ [name] := by
  have settled : LineReader.settled ⟨false, before, name.toList⟩ = true := by
    simp [LineReader.settled, untaken]
  obtain ⟨allows, _⟩ := @Passes.nil scope _ settled
  have chars : [name].flatMap String.toList = name.toList := by simp
  rw [Reads, chars]
  constructor
  · have same := @LineReader.mentions_of_word before [] _ isWord.2 []
    rw [List.append_nil, List.nil_append] at same
    rw [same]
    exact allows
  · intro newline
    exact absurd (isWord.2 _ newline) (by decide)

/-- A text within a string literal. -/
theorem quoted {text : String} (unquoted : '"' ∉ text.toList)
    (oneLine : '\n' ∉ text.toList)
    (later : Reads scope ⟨true, before, []⟩ texts) :
    Reads scope ⟨true, before, []⟩ (text :: texts) :=
  Passes.quoted unquoted oneLine later

end Reads

end Addon

end DataBridge
