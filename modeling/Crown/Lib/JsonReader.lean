import Crown.Lib.JsonGrammar

/-! A reader of JSON texts that takes one character after the other and keeps a stack of the
arrays and objects it is in. It accepts the texts of the grammar and no others. -/
namespace Lib.JsonText

inductive Frame where
  | array
  | object
  deriving DecidableEq

/-- What is still to come of `true`, `false` or `null`. -/
inductive Word where
  | rue
  | ue
  | e
  | alse
  | lse
  | se
  | ull
  | ll
  | l
  deriving DecidableEq

def Word.letter : Word → Char
  | rue => 'r'
  | ue | ull => 'u'
  | e => 'e'
  | alse => 'a'
  | lse | ll | l => 'l'
  | se => 's'

def Word.next : Word → Option Word
  | rue => some ue
  | ue | se => some e
  | alse => some lse
  | lse => some se
  | ull => some ll
  | ll => some l
  | e | l => none

/-- `firstElement` and `firstKey` are right behind the opening bracket, which is not on the stack
yet; a string may be the key of a member. -/
inductive Mode where
  | value
  | firstElement
  | firstKey
  | key
  | colon
  | after
  | string (isKey : Bool)
  | escape (isKey : Bool)
  | unit (due : Nat) (isKey : Bool)
  | word (left : Word)
  | minus
  | zero
  | integer
  | point
  | fraction
  | exponent
  | sign
  | power
  deriving DecidableEq

/-- The modes in which a value may be whole. -/
def Mode.whole : Mode → Bool
  | .after | .zero | .integer | .fraction | .power => true
  | _ => false

structure State where
  mode : Mode
  stack : List Frame
  deriving DecidableEq

namespace State

def start : State := ⟨.value, []⟩

/-- Behind a whole value. -/
def afterValue (stack : List Frame) (c : Char) : Option State :=
  if isBlank c then some ⟨.after, stack⟩
  else
    match stack with
    | [] => none
    | .array :: outer =>
      if c = ',' then some ⟨.value, stack⟩ else if c = ']' then some ⟨.after, outer⟩ else none
    | .object :: outer =>
      if c = ',' then some ⟨.key, stack⟩ else if c = '\x7d' then some ⟨.after, outer⟩ else none

/-- The first character of a value. -/
def beginValue (stack : List Frame) (c : Char) : Option State :=
  if c = '\x7b' then some ⟨.firstKey, stack⟩
  else if c = '[' then some ⟨.firstElement, stack⟩
  else if c = '"' then some ⟨.string false, stack⟩
  else if c = 't' then some ⟨.word .rue, stack⟩
  else if c = 'f' then some ⟨.word .alse, stack⟩
  else if c = 'n' then some ⟨.word .ull, stack⟩
  else if c = '-' then some ⟨.minus, stack⟩
  else if c = '0' then some ⟨.zero, stack⟩
  else if c.isDigit then some ⟨.integer, stack⟩
  else none

/-- Behind the digits of a fraction. -/
def afterFraction (stack : List Frame) (c : Char) : Option State :=
  if c = 'e' ∨ c = 'E' then some ⟨.exponent, stack⟩ else afterValue stack c

/-- Behind the digits in front of a fraction. -/
def afterInteger (stack : List Frame) (c : Char) : Option State :=
  if c = '.' then some ⟨.point, stack⟩ else afterFraction stack c

/-- One more digit, or else what may follow the digits. -/
def digitOr (mode : Mode) (stack : List Frame) (other : List Frame → Char → Option State)
    (c : Char) : Option State :=
  if c.isDigit then some ⟨mode, stack⟩ else other stack c

/-- Behind a string. -/
def closed (isKey : Bool) : Mode := if isKey then .colon else .after

def step : State → Char → Option State
  | ⟨.value, stack⟩, c => if isBlank c then some ⟨.value, stack⟩ else beginValue stack c
  | ⟨.firstElement, stack⟩, c =>
    if isBlank c then some ⟨.firstElement, stack⟩
    else if c = ']' then some ⟨.after, stack⟩
    else beginValue (.array :: stack) c
  | ⟨.firstKey, stack⟩, c =>
    if isBlank c then some ⟨.firstKey, stack⟩
    else if c = '\x7d' then some ⟨.after, stack⟩
    else if c = '"' then some ⟨.string true, .object :: stack⟩
    else none
  | ⟨.key, stack⟩, c =>
    if isBlank c then some ⟨.key, stack⟩ else if c = '"' then some ⟨.string true, stack⟩ else none
  | ⟨.colon, stack⟩, c =>
    if isBlank c then some ⟨.colon, stack⟩ else if c = ':' then some ⟨.value, stack⟩ else none
  | ⟨.after, stack⟩, c => afterValue stack c
  | ⟨.string isKey, stack⟩, c =>
    if c = '"' then some ⟨closed isKey, stack⟩
    else if c = '\\' then some ⟨.escape isKey, stack⟩
    else if isPlain c then some ⟨.string isKey, stack⟩
    else none
  | ⟨.escape isKey, stack⟩, c =>
    if c = 'u' then some ⟨.unit 3 isKey, stack⟩
    else if c ∈ escapable then some ⟨.string isKey, stack⟩
    else none
  | ⟨.unit 0 isKey, stack⟩, c => if Text.isHex c then some ⟨.string isKey, stack⟩ else none
  | ⟨.unit (due + 1) isKey, stack⟩, c =>
    if Text.isHex c then some ⟨.unit due isKey, stack⟩ else none
  | ⟨.word left, stack⟩, c =>
    if c = left.letter then some ⟨left.next.elim .after .word, stack⟩ else none
  | ⟨.minus, stack⟩, c =>
    if c = '0' then some ⟨.zero, stack⟩ else digitOr .integer stack (fun _ _ => none) c
  | ⟨.zero, stack⟩, c => afterInteger stack c
  | ⟨.integer, stack⟩, c => digitOr .integer stack afterInteger c
  | ⟨.point, stack⟩, c => digitOr .fraction stack (fun _ _ => none) c
  | ⟨.fraction, stack⟩, c => digitOr .fraction stack afterFraction c
  | ⟨.exponent, stack⟩, c =>
    if c = '+' ∨ c = '-' then some ⟨.sign, stack⟩ else digitOr .power stack (fun _ _ => none) c
  | ⟨.sign, stack⟩, c => digitOr .power stack (fun _ _ => none) c
  | ⟨.power, stack⟩, c => digitOr .power stack afterValue c

section

variable {stack : List Frame} {isKey : Bool}

/-! One lemma for each mode. -/

@[simp] theorem step_value : step ⟨.value, stack⟩ c =
    if isBlank c then some ⟨.value, stack⟩ else beginValue stack c := rfl

@[simp] theorem step_firstElement : step ⟨.firstElement, stack⟩ c =
    if isBlank c then some ⟨.firstElement, stack⟩
    else if c = ']' then some ⟨.after, stack⟩
    else beginValue (.array :: stack) c := rfl

@[simp] theorem step_firstKey : step ⟨.firstKey, stack⟩ c =
    if isBlank c then some ⟨.firstKey, stack⟩
    else if c = '\x7d' then some ⟨.after, stack⟩
    else if c = '"' then some ⟨.string true, .object :: stack⟩
    else none := rfl

@[simp] theorem step_key : step ⟨.key, stack⟩ c =
    if isBlank c then some ⟨.key, stack⟩ else if c = '"' then some ⟨.string true, stack⟩
    else none := rfl

@[simp] theorem step_colon : step ⟨.colon, stack⟩ c =
    if isBlank c then some ⟨.colon, stack⟩ else if c = ':' then some ⟨.value, stack⟩
    else none := rfl

@[simp] theorem step_after : step ⟨.after, stack⟩ c = afterValue stack c := rfl

@[simp] theorem step_string : step ⟨.string isKey, stack⟩ c =
    if c = '"' then some ⟨closed isKey, stack⟩
    else if c = '\\' then some ⟨.escape isKey, stack⟩
    else if isPlain c then some ⟨.string isKey, stack⟩
    else none := rfl

@[simp] theorem step_escape : step ⟨.escape isKey, stack⟩ c =
    if c = 'u' then some ⟨.unit 3 isKey, stack⟩
    else if c ∈ escapable then some ⟨.string isKey, stack⟩
    else none := rfl

@[simp] theorem step_lastUnit : step ⟨.unit 0 isKey, stack⟩ c =
    if Text.isHex c then some ⟨.string isKey, stack⟩ else none := rfl

@[simp] theorem step_unit : step ⟨.unit (due + 1) isKey, stack⟩ c =
    if Text.isHex c then some ⟨.unit due isKey, stack⟩ else none := rfl

@[simp] theorem step_word : step ⟨.word left, stack⟩ c =
    if c = left.letter then some ⟨left.next.elim .after .word, stack⟩ else none := rfl

@[simp] theorem step_minus : step ⟨.minus, stack⟩ c =
    if c = '0' then some ⟨.zero, stack⟩ else digitOr .integer stack (fun _ _ => none) c := rfl

@[simp] theorem step_zero : step ⟨.zero, stack⟩ c = afterInteger stack c := rfl

@[simp] theorem step_integer :
    step ⟨.integer, stack⟩ c = digitOr .integer stack afterInteger c := rfl

@[simp] theorem step_point :
    step ⟨.point, stack⟩ c = digitOr .fraction stack (fun _ _ => none) c := rfl

@[simp] theorem step_fraction :
    step ⟨.fraction, stack⟩ c = digitOr .fraction stack afterFraction c := rfl

@[simp] theorem step_exponent : step ⟨.exponent, stack⟩ c =
    if c = '+' ∨ c = '-' then some ⟨.sign, stack⟩
    else digitOr .power stack (fun _ _ => none) c := rfl

@[simp] theorem step_sign :
    step ⟨.sign, stack⟩ c = digitOr .power stack (fun _ _ => none) c := rfl

@[simp] theorem step_power : step ⟨.power, stack⟩ c = digitOr .power stack afterValue c := rfl

end

def run (s : State) (text : Text) : Option State := text.foldlM step s

def Accepts (s : State) (text : Text) : Prop :=
  ∃ last, s.run text = some last ∧ last.mode.whole = true ∧ last.stack = []

theorem accepts_nil (s : State) : s.Accepts [] ↔ s.mode.whole = true ∧ s.stack = [] := by
  simp [Accepts, run]

theorem accepts_cons (s : State) (c : Char) (text : Text) :
    s.Accepts (c :: text) ↔ ∃ next, s.step c = some next ∧ next.Accepts text := by
  cases stepped : s.step c <;> simp [Accepts, run, stepped]

theorem accepts_append (s : State) (first later : Text) :
    s.Accepts (first ++ later) ↔ ∃ next, s.run first = some next ∧ next.Accepts later := by
  cases ran : s.run first <;> simp_all [Accepts, run, List.foldlM_append]

end State

def Word.rest : Word → Text
  | rue => ['r', 'u', 'e']
  | ue => ['u', 'e']
  | e => ['e']
  | alse => ['a', 'l', 's', 'e']
  | lse => ['l', 's', 'e']
  | se => ['s', 'e']
  | ull => ['u', 'l', 'l']
  | ll => ['l', 'l']
  | l => ['l']

/-- Behind a key come a colon and the value; any other string is the value. -/
def Follows : (isKey : Bool) → Text → Text → Prop
  | true, s, r => ∃ t u, Blanks s (':' :: t) ∧ Blanks t u ∧ Derives .value u r
  | false, s, r => s = r

/-- What the reader still takes of a value. -/
def Mode.Reads : Mode → Text → Text → Prop
  | .value, s, r => ∃ t, Blanks s t ∧ Derives .value t r
  | .firstElement, s, r => Blanks s (']' :: r) ∨ Derives .elements s (']' :: r)
  | .firstKey, s, r => Blanks s ('\x7d' :: r) ∨ Derives .members s ('\x7d' :: r)
  | .key, s, r => ∃ t u, Blanks s ('"' :: t) ∧ Chars t u ∧ Follows true u r
  | .colon, s, r => Follows true s r
  | .after, s, r => s = r
  | .string isKey, s, r => ∃ t, Chars s t ∧ Follows isKey t r
  | .escape isKey, s, r => ∃ t, Chars ('\\' :: s) t ∧ Follows isKey t r
  | .unit due isKey, s, r => ∃ units t u, s = units ++ t ∧ units.length = due + 1 ∧
      (∀ c ∈ units, Text.isHex c = true) ∧ Chars t u ∧ Follows isKey u r
  | .word left, s, r => s = left.rest ++ r
  | .minus, s, r => Unsigned s r
  | .zero, s, r => Fraction s r
  | .integer, s, r => ∃ t, Digits s t ∧ Fraction t r
  | .point, s, r => ∃ t, SomeDigits s t ∧ Exponent t r
  | .fraction, s, r => ∃ t, Digits s t ∧ Exponent t r
  | .exponent, s, r =>
    SomeDigits s r ∨ ∃ c t, s = c :: t ∧ (c = '+' ∨ c = '-') ∧ SomeDigits t r
  | .sign, s, r => SomeDigits s r
  | .power, s, r => Digits s r

/-- What may follow a value inside the arrays and objects. -/
def Closes : List Frame → Text → Prop
  | [], s => Blanks s []
  | .array :: outer, s => (∃ r, Blanks s (']' :: r) ∧ Closes outer r) ∨
      ∃ t r, Blanks s (',' :: t) ∧ Derives .elements t (']' :: r) ∧ Closes outer r
  | .object :: outer, s => (∃ r, Blanks s ('\x7d' :: r) ∧ Closes outer r) ∨
      ∃ t r, Blanks s (',' :: t) ∧ Derives .members t ('\x7d' :: r) ∧ Closes outer r

/-- The texts of the grammar that may follow in a state. -/
def State.Expects (s : State) (text : Text) : Prop :=
  ∃ r, s.mode.Reads text r ∧ Closes s.stack r

theorem closes_blank (blank : isBlank c = true) {stack : List Frame} (closes : Closes stack s) :
    Closes stack (c :: s) := by
  cases stack with
  | nil => exact .more blank closes
  | cons frame outer =>
    cases frame
    all_goals
      rcases closes with ⟨r, blanks, later⟩ | ⟨t, r, blanks, more, later⟩
      · exact .inl ⟨r, .more blank blanks, later⟩
      · exact .inr ⟨t, r, .more blank blanks, more, later⟩

theorem Derives.blank_elements (elements : Derives .elements s r) (blank : isBlank c = true) :
    Derives .elements (c :: s) r := by
  cases elements with
  | lastElement last =>
    cases last with
    | element before value behind => exact .lastElement (.element (.more blank before) value behind)
  | moreElements first rest =>
    cases first with
    | element before value behind =>
      exact .moreElements (.element (.more blank before) value behind) rest

theorem Derives.blank_members (members : Derives .members s r) (blank : isBlank c = true) :
    Derives .members (c :: s) r := by
  cases members with
  | lastMember last =>
    cases last with
    | member before key behind value =>
      exact .lastMember (.member (.more blank before) key behind value)
  | moreMembers first rest =>
    cases first with
    | member before key behind value =>
      exact .moreMembers (.member (.more blank before) key behind value) rest

/-- A value in an array is the first of the elements that follow. -/
theorem elements_of_closes (blanks : Blanks s t) (value : Derives .value t u)
    (closes : Closes (.array :: outer) u) :
    ∃ r, Derives .elements s (']' :: r) ∧ Closes outer r := by
  rcases closes with ⟨r, behind, later⟩ | ⟨v, r, behind, more, later⟩
  · exact ⟨r, .lastElement (.element blanks value behind), later⟩
  · exact ⟨r, .moreElements (.element blanks value behind) more, later⟩

theorem members_of_closes (blanks : Blanks s ('"' :: t)) (key : Chars t u)
    (follows : Follows true u v) (closes : Closes (.object :: outer) v) :
    ∃ r, Derives .members s ('\x7d' :: r) ∧ Closes outer r := by
  obtain ⟨w, x, colon, before, value⟩ := follows
  rcases closes with ⟨r, behind, later⟩ | ⟨y, r, behind, more, later⟩
  · exact ⟨r, .lastMember (.member blanks key colon (.element before value behind)), later⟩
  · exact ⟨r, .moreMembers (.member blanks key colon (.element before value behind)) more, later⟩

namespace State

theorem afterValue_sound {stack : List Frame} (stepped : afterValue stack c = some next)
    (expects : next.Expects s) : Closes stack (c :: s) := by
  unfold afterValue at stepped
  split at stepped
  · rename_i blank
    cases stepped
    obtain ⟨_, rfl, closes⟩ := expects
    exact closes_blank blank closes
  · split at stepped
    · cases stepped
    · split at stepped
      · rename_i comma
        cases stepped
        subst comma
        obtain ⟨r, ⟨t, blanks, value⟩, closes⟩ := expects
        obtain ⟨u, elements, later⟩ := elements_of_closes blanks value closes
        exact .inr ⟨s, u, .none, elements, later⟩
      · split at stepped
        · rename_i bracket
          cases stepped
          subst bracket
          obtain ⟨_, rfl, later⟩ := expects
          exact .inl ⟨s, .none, later⟩
        · cases stepped
    · split at stepped
      · rename_i comma
        cases stepped
        subst comma
        obtain ⟨r, ⟨t, u, blanks, key, follows⟩, closes⟩ := expects
        obtain ⟨u, members, later⟩ := members_of_closes blanks key follows closes
        exact .inr ⟨s, u, .none, members, later⟩
      · split at stepped
        · rename_i brace
          cases stepped
          subst brace
          obtain ⟨_, rfl, later⟩ := expects
          exact .inl ⟨s, .none, later⟩
        · cases stepped

theorem beginValue_sound {stack : List Frame} (stepped : beginValue stack c = some next)
    (expects : next.Expects s) : ∃ r, Derives .value (c :: s) r ∧ Closes stack r := by
  unfold beginValue at stepped
  split at stepped
  · rename_i brace
    cases stepped
    subst brace
    obtain ⟨r, blanks | members, closes⟩ := expects
    · exact ⟨r, .emptyObject blanks, closes⟩
    · exact ⟨r, .object members, closes⟩
  split at stepped
  · rename_i bracket
    cases stepped
    subst bracket
    obtain ⟨r, blanks | elements, closes⟩ := expects
    · exact ⟨r, .emptyArray blanks, closes⟩
    · exact ⟨r, .array elements, closes⟩
  split at stepped
  · rename_i quote
    cases stepped
    subst quote
    obtain ⟨r, ⟨t, chars, rfl⟩, closes⟩ := expects
    exact ⟨t, .string chars, closes⟩
  split at stepped
  · rename_i letter
    cases stepped
    subst letter
    obtain ⟨r, rfl, closes⟩ := expects
    exact ⟨r, .trueWord, closes⟩
  split at stepped
  · rename_i letter
    cases stepped
    subst letter
    obtain ⟨r, rfl, closes⟩ := expects
    exact ⟨r, .falseWord, closes⟩
  split at stepped
  · rename_i letter
    cases stepped
    subst letter
    obtain ⟨r, rfl, closes⟩ := expects
    exact ⟨r, .nullWord, closes⟩
  split at stepped
  · rename_i minus
    cases stepped
    subst minus
    obtain ⟨r, rest, closes⟩ := expects
    exact ⟨r, .number (.negative rest), closes⟩
  split at stepped
  · rename_i zero
    cases stepped
    subst zero
    obtain ⟨r, rest, closes⟩ := expects
    exact ⟨r, .number (.positive (.zero rest)), closes⟩
  split at stepped
  · rename_i nonzero digit
    cases stepped
    obtain ⟨r, ⟨t, digits, rest⟩, closes⟩ := expects
    exact ⟨r, .number (.positive (.integer digit nonzero digits rest)), closes⟩
  · cases stepped

theorem afterFraction_sound {stack : List Frame} (stepped : afterFraction stack c = some next)
    (expects : next.Expects s) : ∃ r, Exponent (c :: s) r ∧ Closes stack r := by
  unfold afterFraction at stepped
  split at stepped
  · rename_i letter
    cases stepped
    obtain ⟨r, digits | ⟨sign, t, rfl, known, digits⟩, closes⟩ := expects
    · exact ⟨r, .unsigned letter digits, closes⟩
    · exact ⟨r, .signed letter known digits, closes⟩
  · exact ⟨c :: s, .none, afterValue_sound stepped expects⟩

theorem afterInteger_sound {stack : List Frame} (stepped : afterInteger stack c = some next)
    (expects : next.Expects s) : ∃ r, Fraction (c :: s) r ∧ Closes stack r := by
  unfold afterInteger at stepped
  split at stepped
  · rename_i dot
    cases stepped
    subst dot
    obtain ⟨r, ⟨t, digits, rest⟩, closes⟩ := expects
    exact ⟨r, .some digits rest, closes⟩
  · obtain ⟨r, rest, closes⟩ := afterFraction_sound stepped expects
    exact ⟨r, .none rest, closes⟩

theorem digitOr_eq_some {digits : Mode} {stack : List Frame}
    (stepped : digitOr digits stack other c = some next) :
    c.isDigit = true ∧ next = ⟨digits, stack⟩ ∨ other stack c = some next := by
  unfold digitOr at stepped
  split at stepped
  · rename_i digit
    exact .inl ⟨digit, (Option.some.inj stepped).symm⟩
  · exact .inr stepped

section

variable {stack : List Frame} {c : Char} {next : State} {text : Text}

theorem value_sound (stepped : step ⟨.value, stack⟩ c = some next) (expects : next.Expects text) :
    Expects ⟨.value, stack⟩ (c :: text) := by
  rw [step_value] at stepped
  split at stepped
  · rename_i blank
    cases stepped
    obtain ⟨r, ⟨t, blanks, value⟩, closes⟩ := expects
    exact ⟨r, ⟨t, .more blank blanks, value⟩, closes⟩
  · obtain ⟨r, value, closes⟩ := beginValue_sound stepped expects
    exact ⟨r, ⟨c :: text, .none, value⟩, closes⟩

theorem firstElement_sound (stepped : step ⟨.firstElement, stack⟩ c = some next)
    (expects : next.Expects text) : Expects ⟨.firstElement, stack⟩ (c :: text) := by
  rw [step_firstElement] at stepped
  split at stepped
  · rename_i blank
    cases stepped
    obtain ⟨r, blanks | elements, closes⟩ := expects
    · exact ⟨r, .inl (.more blank blanks), closes⟩
    · exact ⟨r, .inr (elements.blank_elements blank), closes⟩
  split at stepped
  · rename_i bracket
    cases stepped
    subst bracket
    obtain ⟨r, rfl, closes⟩ := expects
    exact ⟨text, .inl .none, closes⟩
  · obtain ⟨r, value, closes⟩ := beginValue_sound stepped expects
    obtain ⟨u, elements, later⟩ := elements_of_closes .none value closes
    exact ⟨u, .inr elements, later⟩

theorem firstKey_sound (stepped : step ⟨.firstKey, stack⟩ c = some next)
    (expects : next.Expects text) : Expects ⟨.firstKey, stack⟩ (c :: text) := by
  rw [step_firstKey] at stepped
  split at stepped
  · rename_i blank
    cases stepped
    obtain ⟨r, blanks | members, closes⟩ := expects
    · exact ⟨r, .inl (.more blank blanks), closes⟩
    · exact ⟨r, .inr (members.blank_members blank), closes⟩
  split at stepped
  · rename_i brace
    cases stepped
    subst brace
    obtain ⟨r, rfl, closes⟩ := expects
    exact ⟨text, .inl .none, closes⟩
  split at stepped
  · rename_i quote
    cases stepped
    subst quote
    obtain ⟨r, ⟨t, key, follows⟩, closes⟩ := expects
    obtain ⟨u, members, later⟩ := members_of_closes .none key follows closes
    exact ⟨u, .inr members, later⟩
  · cases stepped

theorem key_sound (stepped : step ⟨.key, stack⟩ c = some next) (expects : next.Expects text) :
    Expects ⟨.key, stack⟩ (c :: text) := by
  rw [step_key] at stepped
  split at stepped
  · rename_i blank
    cases stepped
    obtain ⟨r, ⟨t, u, blanks, key, follows⟩, closes⟩ := expects
    exact ⟨r, ⟨t, u, .more blank blanks, key, follows⟩, closes⟩
  split at stepped
  · rename_i quote
    cases stepped
    subst quote
    obtain ⟨r, ⟨t, key, follows⟩, closes⟩ := expects
    exact ⟨r, ⟨text, t, .none, key, follows⟩, closes⟩
  · cases stepped

theorem colon_sound (stepped : step ⟨.colon, stack⟩ c = some next) (expects : next.Expects text) :
    Expects ⟨.colon, stack⟩ (c :: text) := by
  rw [step_colon] at stepped
  split at stepped
  · rename_i blank
    cases stepped
    obtain ⟨r, ⟨t, u, blanks, before, value⟩, closes⟩ := expects
    exact ⟨r, ⟨t, u, .more blank blanks, before, value⟩, closes⟩
  split at stepped
  · rename_i colon
    cases stepped
    subst colon
    obtain ⟨r, ⟨t, before, value⟩, closes⟩ := expects
    exact ⟨r, ⟨text, t, .none, before, value⟩, closes⟩
  · cases stepped

theorem string_sound (stepped : step ⟨.string isKey, stack⟩ c = some next)
    (expects : next.Expects text) : Expects ⟨.string isKey, stack⟩ (c :: text) := by
  rw [step_string] at stepped
  split at stepped
  · rename_i quote
    cases stepped
    subst quote
    obtain ⟨r, follows, closes⟩ := expects
    refine ⟨r, ⟨text, .closed, ?_⟩, closes⟩
    cases isKey <;> exact follows
  split at stepped
  · rename_i backslash
    cases stepped
    subst backslash
    exact expects
  split at stepped
  · rename_i stands
    cases stepped
    obtain ⟨r, ⟨t, chars, follows⟩, closes⟩ := expects
    exact ⟨r, ⟨t, .plain stands chars, follows⟩, closes⟩
  · cases stepped

theorem escape_sound (stepped : step ⟨.escape isKey, stack⟩ c = some next)
    (expects : next.Expects text) : Expects ⟨.escape isKey, stack⟩ (c :: text) := by
  rw [step_escape] at stepped
  split at stepped
  · rename_i letter
    cases stepped
    subst letter
    obtain ⟨r, ⟨units, t, u, rfl, four, hex, chars, follows⟩, closes⟩ := expects
    match units with
    | [a, b, c, d] =>
      simp only [List.forall_mem_cons, List.not_mem_nil, false_implies, implies_true,
        and_true] at hex
      exact ⟨r, ⟨u, .unit hex.1 hex.2.1 hex.2.2.1 hex.2.2.2 chars, follows⟩, closes⟩
  split at stepped
  · rename_i known
    cases stepped
    obtain ⟨r, ⟨t, chars, follows⟩, closes⟩ := expects
    exact ⟨r, ⟨t, .escape known chars, follows⟩, closes⟩
  · cases stepped

theorem unit_sound (stepped : step ⟨.unit due isKey, stack⟩ c = some next)
    (expects : next.Expects text) : Expects ⟨.unit due isKey, stack⟩ (c :: text) := by
  cases due with
  | zero =>
    rw [step_lastUnit] at stepped
    split at stepped
    · rename_i hex
      cases stepped
      obtain ⟨r, ⟨t, chars, follows⟩, closes⟩ := expects
      exact ⟨r, ⟨[c], text, t, rfl, rfl, List.forall_mem_singleton.mpr hex, chars, follows⟩,
        closes⟩
    · cases stepped
  | succ due =>
    rw [step_unit] at stepped
    split at stepped
    · rename_i hex
      cases stepped
      obtain ⟨r, ⟨units, t, u, rfl, length, all, chars, follows⟩, closes⟩ := expects
      exact ⟨r, ⟨c :: units, t, u, rfl, congrArg Nat.succ length,
        List.forall_mem_cons.mpr ⟨hex, all⟩, chars, follows⟩, closes⟩
    · cases stepped

theorem word_sound (stepped : step ⟨.word left, stack⟩ c = some next)
    (expects : next.Expects text) : Expects ⟨.word left, stack⟩ (c :: text) := by
  rw [step_word] at stepped
  split at stepped
  · rename_i letter
    cases stepped
    subst letter
    obtain ⟨r, reads, closes⟩ := expects
    refine ⟨r, ?_, closes⟩
    cases left <;> exact congrArg _ reads
  · cases stepped

theorem minus_sound (stepped : step ⟨.minus, stack⟩ c = some next) (expects : next.Expects text) :
    Expects ⟨.minus, stack⟩ (c :: text) := by
  rw [step_minus] at stepped
  split at stepped
  · rename_i zero
    cases stepped
    subst zero
    obtain ⟨r, rest, closes⟩ := expects
    exact ⟨r, .zero rest, closes⟩
  · rename_i nonzero
    obtain ⟨digit, rfl⟩ | wrong := digitOr_eq_some stepped
    · obtain ⟨r, ⟨t, digits, rest⟩, closes⟩ := expects
      exact ⟨r, .integer digit nonzero digits rest, closes⟩
    · cases wrong

theorem integer_sound (stepped : step ⟨.integer, stack⟩ c = some next)
    (expects : next.Expects text) : Expects ⟨.integer, stack⟩ (c :: text) := by
  obtain ⟨digit, rfl⟩ | other := digitOr_eq_some stepped
  · obtain ⟨r, ⟨t, digits, rest⟩, closes⟩ := expects
    exact ⟨r, ⟨t, .more digit digits, rest⟩, closes⟩
  · obtain ⟨r, rest, closes⟩ := afterInteger_sound other expects
    exact ⟨r, ⟨c :: text, .none, rest⟩, closes⟩

theorem point_sound (stepped : step ⟨.point, stack⟩ c = some next) (expects : next.Expects text) :
    Expects ⟨.point, stack⟩ (c :: text) := by
  rw [step_point] at stepped
  obtain ⟨digit, rfl⟩ | wrong := digitOr_eq_some stepped
  · obtain ⟨r, ⟨t, digits, rest⟩, closes⟩ := expects
    exact ⟨r, ⟨t, .some digit digits, rest⟩, closes⟩
  · cases wrong

theorem fraction_sound (stepped : step ⟨.fraction, stack⟩ c = some next)
    (expects : next.Expects text) : Expects ⟨.fraction, stack⟩ (c :: text) := by
  obtain ⟨digit, rfl⟩ | other := digitOr_eq_some stepped
  · obtain ⟨r, ⟨t, digits, rest⟩, closes⟩ := expects
    exact ⟨r, ⟨t, .more digit digits, rest⟩, closes⟩
  · obtain ⟨r, rest, closes⟩ := afterFraction_sound other expects
    exact ⟨r, ⟨c :: text, .none, rest⟩, closes⟩

theorem exponent_sound (stepped : step ⟨.exponent, stack⟩ c = some next)
    (expects : next.Expects text) : Expects ⟨.exponent, stack⟩ (c :: text) := by
  rw [step_exponent] at stepped
  split at stepped
  · rename_i sign
    cases stepped
    obtain ⟨r, digits, closes⟩ := expects
    exact ⟨r, .inr ⟨c, text, rfl, sign, digits⟩, closes⟩
  · obtain ⟨digit, rfl⟩ | wrong := digitOr_eq_some stepped
    · obtain ⟨r, digits, closes⟩ := expects
      exact ⟨r, .inl (.some digit digits), closes⟩
    · cases wrong

theorem sign_sound (stepped : step ⟨.sign, stack⟩ c = some next) (expects : next.Expects text) :
    Expects ⟨.sign, stack⟩ (c :: text) := by
  rw [step_sign] at stepped
  obtain ⟨digit, rfl⟩ | wrong := digitOr_eq_some stepped
  · obtain ⟨r, digits, closes⟩ := expects
    exact ⟨r, .some digit digits, closes⟩
  · cases wrong

theorem power_sound (stepped : step ⟨.power, stack⟩ c = some next) (expects : next.Expects text) :
    Expects ⟨.power, stack⟩ (c :: text) := by
  obtain ⟨digit, rfl⟩ | other := digitOr_eq_some stepped
  · obtain ⟨r, digits, closes⟩ := expects
    exact ⟨r, .more digit digits, closes⟩
  · exact ⟨c :: text, .none, afterValue_sound other expects⟩

end

/-- What the reader does with a character was right if what it does with the others is. -/
theorem step_sound (s : State) (stepped : s.step c = some next) (expects : next.Expects text) :
    s.Expects (c :: text) := by
  obtain ⟨mode, stack⟩ := s
  cases mode with
  | value => exact value_sound stepped expects
  | firstElement => exact firstElement_sound stepped expects
  | firstKey => exact firstKey_sound stepped expects
  | key => exact key_sound stepped expects
  | colon => exact colon_sound stepped expects
  | after => exact ⟨c :: text, rfl, afterValue_sound stepped expects⟩
  | string isKey => exact string_sound stepped expects
  | escape isKey => exact escape_sound stepped expects
  | unit due isKey => exact unit_sound stepped expects
  | word left => exact word_sound stepped expects
  | minus => exact minus_sound stepped expects
  | zero => exact afterInteger_sound stepped expects
  | integer => exact integer_sound stepped expects
  | point => exact point_sound stepped expects
  | fraction => exact fraction_sound stepped expects
  | exponent => exact exponent_sound stepped expects
  | sign => exact sign_sound stepped expects
  | power => exact power_sound stepped expects

theorem accepts_sound (s : State) (accepts : s.Accepts text) : s.Expects text := by
  induction text generalizing s with
  | nil =>
    obtain ⟨mode, stack⟩ := s
    obtain ⟨whole, rfl⟩ := (accepts_nil _).mp accepts
    refine ⟨[], ?_, .none⟩
    cases mode with
    | after => rfl
    | zero => exact .none .none
    | integer => exact ⟨[], .none, .none .none⟩
    | fraction => exact ⟨[], .none, .none⟩
    | power => exact .none
    | _ => cases whole
  | cons c text ih =>
    obtain ⟨next, stepped, later⟩ := (accepts_cons s c text).mp accepts
    exact step_sound s stepped (ih next later)

end State
end Lib.JsonText
