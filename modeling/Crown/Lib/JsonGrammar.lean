import Crown.Lib.Utf8

/-! The grammar of JSON texts. Each part of it relates a text that begins with the part to what is
left behind it. -/
namespace Lib.JsonText

def isBlank (c : Char) : Bool := c = ' ' || c = '\t' || c = '\n' || c = '\r'

inductive Blanks : Text → Text → Prop where
  | none : Blanks r r
  | more (blank : isBlank c = true) (rest : Blanks s r) : Blanks (c :: s) r

/-- What stands for itself in a string. -/
def isPlain (c : Char) : Bool := 0x20 ≤ c.toNat && c ≠ '"' && c ≠ '\\'

/-- What may follow a backslash, besides the four digits of a code unit. -/
def escapable : List Char := ['"', '\\', '/', 'b', 'f', 'n', 'r', 't']

/-- The rest of a string and its closing quotation mark. -/
inductive Chars : Text → Text → Prop where
  | closed : Chars ('"' :: r) r
  | plain (stands : isPlain c = true) (more : Chars s r) : Chars (c :: s) r
  | escape (known : c ∈ escapable) (more : Chars s r) : Chars ('\\' :: c :: s) r
  | unit (first : Text.isHex a = true) (second : Text.isHex b = true) (third : Text.isHex c = true)
      (fourth : Text.isHex d = true) (more : Chars s r) :
      Chars ('\\' :: 'u' :: a :: b :: c :: d :: s) r

inductive Digits : Text → Text → Prop where
  | none : Digits r r
  | more (digit : c.isDigit = true) (rest : Digits s r) : Digits (c :: s) r

inductive SomeDigits : Text → Text → Prop where
  | some (digit : c.isDigit = true) (rest : Digits s r) : SomeDigits (c :: s) r

inductive Exponent : Text → Text → Prop where
  | none : Exponent r r
  | unsigned (letter : e = 'e' ∨ e = 'E') (digits : SomeDigits s r) : Exponent (e :: s) r
  | signed (letter : e = 'e' ∨ e = 'E') (sign : c = '+' ∨ c = '-') (digits : SomeDigits s r) :
      Exponent (e :: c :: s) r

inductive Fraction : Text → Text → Prop where
  | none (rest : Exponent s r) : Fraction s r
  | some (digits : SomeDigits s t) (rest : Exponent t r) : Fraction ('.' :: s) r

/-- No digit follows a leading zero. -/
inductive Unsigned : Text → Text → Prop where
  | zero (rest : Fraction s r) : Unsigned ('0' :: s) r
  | integer (digit : c.isDigit = true) (nonzero : c ≠ '0') (digits : Digits s t)
      (rest : Fraction t r) : Unsigned (c :: s) r

inductive Number : Text → Text → Prop where
  | positive (rest : Unsigned s r) : Number s r
  | negative (rest : Unsigned s r) : Number ('-' :: s) r

inductive Part where
  | value
  | element
  | elements
  | member
  | members

/-- An element is a value with blanks around it. -/
inductive Derives : Part → Text → Text → Prop where
  | nullWord : Derives .value ('n' :: 'u' :: 'l' :: 'l' :: r) r
  | trueWord : Derives .value ('t' :: 'r' :: 'u' :: 'e' :: r) r
  | falseWord : Derives .value ('f' :: 'a' :: 'l' :: 's' :: 'e' :: r) r
  | number (rest : Number s r) : Derives .value s r
  | string (chars : Chars s r) : Derives .value ('"' :: s) r
  | emptyArray (blanks : Blanks s (']' :: r)) : Derives .value ('[' :: s) r
  | array (items : Derives .elements s (']' :: r)) : Derives .value ('[' :: s) r
  | emptyObject (blanks : Blanks s ('\x7d' :: r)) : Derives .value ('\x7b' :: s) r
  | object (items : Derives .members s ('\x7d' :: r)) : Derives .value ('\x7b' :: s) r
  | element (before : Blanks s t) (value : Derives .value t u) (behind : Blanks u r) :
      Derives .element s r
  | lastElement (last : Derives .element s r) : Derives .elements s r
  | moreElements (first : Derives .element s (',' :: t)) (rest : Derives .elements t r) :
      Derives .elements s r
  | member (before : Blanks s ('"' :: t)) (key : Chars t u) (behind : Blanks u (':' :: v))
      (value : Derives .element v r) : Derives .member s r
  | lastMember (last : Derives .member s r) : Derives .members s r
  | moreMembers (first : Derives .member s (',' :: t)) (rest : Derives .members t r) :
      Derives .members s r

/-- A text in UTF-8 that is one element and nothing else. -/
def Document (s : Text) : Prop := Utf8 s ∧ Derives .element s []

/-- Digits may be put in front of digits. -/
theorem Digits.append {digits : Text} (all : ∀ c ∈ digits, c.isDigit = true) (rest : Digits s r) :
    Digits (digits ++ s) r := by
  induction digits with
  | nil => exact rest
  | cons c digits ih =>
    exact more (all c List.mem_cons_self) (ih fun d member => all d (List.mem_cons_of_mem c member))

theorem SomeDigits.append {digits : Text} (all : ∀ c ∈ digits, c.isDigit = true)
    (nonempty : digits ≠ []) (rest : Digits s r) : SomeDigits (digits ++ s) r := by
  cases digits with
  | nil => exact absurd rfl nonempty
  | cons c digits =>
    obtain ⟨first, more⟩ := List.forall_mem_cons.mp all
    exact .some first (rest.append more)

theorem Unsigned.append {c : Char} {digits : Text} (all : ∀ d ∈ c :: digits, d.isDigit = true)
    (nonzero : c ≠ '0') (rest : Fraction s r) : Unsigned (c :: digits ++ s) r := by
  obtain ⟨first, more⟩ := List.forall_mem_cons.mp all
  exact .integer first nonzero (Digits.append more .none) rest

/-- A number without leading zeros. -/
theorem toDigits_leading (n : Nat) (positive : 0 < n) :
    ∃ c rest, Nat.toDigits 10 n = c :: rest ∧ c ≠ '0' := by
  induction n using Nat.strong_induction_on with
  | _ n ih =>
    rcases Nat.lt_or_ge n 10 with single | more
    · refine ⟨n.digitChar, [], Nat.toDigits_of_lt_base single, ?_⟩
      interval_cases n <;> decide
    · obtain ⟨c, rest, digits, nonzero⟩ := ih (n / 10) (by omega) (by omega)
      refine ⟨c, rest ++ [Nat.digitChar (n % 10)], ?_, nonzero⟩
      rw [Nat.toDigits_of_base_le (by decide) more, digits, List.cons_append]

theorem toDigits_number (n : Nat) (r : Text) : Unsigned (Nat.toDigits 10 n ++ r) r := by
  rcases Nat.eq_zero_or_pos n with rfl | positive
  · exact .zero (.none .none)
  · obtain ⟨c, rest, digits, nonzero⟩ := toDigits_leading n positive
    have all : ∀ d ∈ c :: rest, d.isDigit = true := fun d member =>
      Nat.isDigit_of_mem_toDigits (by decide) (by decide) (digits ▸ member)
    rw [digits]
    exact .append all nonzero (.none .none)

theorem decimal_number (n : Int) (r : Text) : Number (Text.decimal n ++ r) r := by
  cases n with
  | ofNat n => exact .positive (toDigits_number n r)
  | negSucc n => exact .negative (toDigits_number (n + 1) r)

/-- A value alone is an element. -/
theorem Derives.alone (value : Derives .value s r) : Derives .element s r :=
  element .none value .none

/-! Numbers are ASCII. -/

theorem digit_ascii {c : Char} (known : c.isDigit = true) : c.toNat < 0x80 := by
  simp only [Char.isDigit, Bool.and_eq_true, decide_eq_true_eq] at known
  have bound : c.toNat ≤ 57 := UInt32.le_iff_toNat_le.mp known.2
  omega

theorem Digits.utf8 (digits : Digits s r) (rest : Utf8 r) : Utf8 s := by
  induction digits with
  | none => exact rest
  | more known more ih => exact .one (digit_ascii known) (ih rest)

theorem SomeDigits.utf8 (digits : SomeDigits s r) (rest : Utf8 r) : Utf8 s := by
  cases digits with
  | some known more => exact .one (digit_ascii known) (more.utf8 rest)

theorem Exponent.utf8 (exponent : Exponent s r) (rest : Utf8 r) : Utf8 s := by
  cases exponent with
  | none => exact rest
  | unsigned letter digits =>
    refine .one ?_ (digits.utf8 rest)
    rcases letter with rfl | rfl <;> decide
  | signed letter sign digits =>
    refine .one ?_ (.one ?_ (digits.utf8 rest))
    · rcases letter with rfl | rfl <;> decide
    · rcases sign with rfl | rfl <;> decide

theorem Fraction.utf8 (fraction : Fraction s r) (rest : Utf8 r) : Utf8 s := by
  cases fraction with
  | none exponent => exact exponent.utf8 rest
  | some digits exponent => exact .one (by decide) (digits.utf8 (exponent.utf8 rest))

theorem Unsigned.utf8 (number : Unsigned s r) (rest : Utf8 r) : Utf8 s := by
  cases number with
  | zero fraction => exact .one (by decide) (fraction.utf8 rest)
  | integer known nonzero digits fraction =>
    exact .one (digit_ascii known) (digits.utf8 (fraction.utf8 rest))

theorem Number.utf8 (number : Number s r) (rest : Utf8 r) : Utf8 s := by
  cases number with
  | positive unsigned => exact unsigned.utf8 rest
  | negative unsigned => exact .one (by decide) (unsigned.utf8 rest)

end Lib.JsonText
