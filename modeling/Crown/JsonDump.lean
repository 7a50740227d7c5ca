import Crown.JsonStrings

/-! `dump` of the vendored `libs/json.hpp`: a value whose strings are UTF-8 is written as a value of
the grammar. -/
namespace Crown

open Lib Lib.JsonText

namespace Serializer

/-- What `grisu2` makes of a positive double: some decimal digits without a leading zero, and the
power of ten that they are multiplied by. -/
structure FloatDigits where
  digits : Rat → Text
  exponent : Rat → Int
  digits_isDigit : ∀ x, ∀ c ∈ digits x, c.isDigit = true
  digits_leading : ∀ x, 0 < x → ∃ c rest, digits x = c :: rest ∧ c ≠ '0'
  exponent_bounded : ∀ x, 0 < x → ((digits x).length + exponent x - 1).natAbs < 1000

def digit (n : Nat) : Char := Char.ofNat ('0'.toNat + n)

def appendExponent (e : Int) : Text :=
  let k := e.natAbs
  (if e < 0 then '-' else '+') ::
    if k < 10 then ['0', digit k]
    else if k < 100 then [digit (k / 10), digit (k % 10)]
    else [digit (k / 100), digit (k % 100 / 10), digit (k % 10)]

def minExp : Int := -4

def maxExp : Int := 15

def formatBuffer (digits : Text) (exponent : Int) : Text :=
  let k : Int := digits.length
  let n := k + exponent
  if k ≤ n ∧ n ≤ maxExp then digits ++ List.replicate (n - k).toNat '0' ++ ['.', '0']
  else if 0 < n ∧ n ≤ maxExp then digits.take n.toNat ++ '.' :: digits.drop n.toNat
  else if minExp < n ∧ n ≤ 0 then '0' :: '.' :: (List.replicate (-n).toNat '0' ++ digits)
  else if k = 1 then digits ++ 'e' :: appendExponent (n - 1)
  else digits.take 1 ++ '.' :: (digits.drop 1 ++ 'e' :: appendExponent (n - 1))

def toChars (floats : FloatDigits) (x : Rat) : Text :=
  let value := if x < 0 then -x else x
  (if x < 0 then ['-'] else []) ++
    if value = 0 then ['0', '.', '0']
    else formatBuffer (floats.digits value) (floats.exponent value)

theorem digit_isDigit (small : n < 10) : (digit n).isDigit = true := by
  revert n
  decide

/-- A sign and two or three digits. -/
theorem appendExponent_exponent (e : Int) (bounded : e.natAbs < 1000) (r : Text) :
    Exponent ('e' :: (appendExponent e ++ r)) r := by
  have sign : (if e < 0 then '-' else '+') = '+' ∨ (if e < 0 then '-' else '+') = '-' := by
    split
    · exact .inr rfl
    · exact .inl rfl
  refine .signed (.inl rfl) sign ?_
  split
  · rename_i short
    exact .append (by simp [digit_isDigit short]) (by simp) .none
  split
  · rename_i short
    have first : (digit (e.natAbs / 10)).isDigit = true := digit_isDigit (by omega)
    have last : (digit (e.natAbs % 10)).isDigit = true := digit_isDigit (by omega)
    exact .append (by simp [first, last]) (by simp) .none
  · have first : (digit (e.natAbs / 100)).isDigit = true := digit_isDigit (by omega)
    have second : (digit (e.natAbs % 100 / 10)).isDigit = true := digit_isDigit (by omega)
    have last : (digit (e.natAbs % 10)).isDigit = true := digit_isDigit (by omega)
    exact .append (by simp [first, second, last]) (by simp) .none

theorem formatBuffer_unsigned {c : Char} {rest : Text} {exponent : Int}
    (all : ∀ d ∈ c :: rest, d.isDigit = true) (nonzero : c ≠ '0')
    (bounded : ((c :: rest).length + exponent - 1 : Int).natAbs < 1000) (r : Text) :
    Unsigned (formatBuffer (c :: rest) exponent ++ r) r := by
  have zeros : ∀ n, ∀ d ∈ List.replicate n '0', d.isDigit = true := by
    intro n d member
    rw [List.eq_of_mem_replicate member]
    rfl
  have pointZero : Fraction ('.' :: '0' :: r) r := .some (.some rfl .none) .none
  obtain ⟨first, more⟩ := List.forall_mem_cons.mp all
  unfold formatBuffer
  simp only
  split
  · have padded : ∀ n, ∀ d ∈ c :: (rest ++ List.replicate n '0'), d.isDigit = true := by
      simp only [List.mem_cons, List.mem_append]
      rintro n d (rfl | member | member)
      · exact first
      · exact more d member
      · exact zeros n d member
    simpa using Unsigned.append (padded _) nonzero pointZero
  split
  · rename_i fixed point
    simp only [List.length_cons] at fixed point ⊢
    obtain ⟨m, position⟩ : ∃ m, ((rest.length + 1 : Nat) + exponent : Int).toNat = m + 1 :=
      ⟨((rest.length + 1 : Nat) + exponent : Int).toNat - 1, by omega⟩
    have behind : rest.drop m ≠ [] := by
      rw [ne_eq, List.drop_eq_nil_iff]
      omega
    have front : ∀ d ∈ c :: rest.take m, d.isDigit = true :=
      List.forall_mem_cons.mpr ⟨first, fun d member => more d (List.mem_of_mem_take member)⟩
    have fraction : Fraction ('.' :: (rest.drop m ++ r)) r :=
      .some (SomeDigits.append (fun d member => more d (List.mem_of_mem_drop member)) behind .none)
        .none
    rw [position, List.take_succ_cons, List.drop_succ_cons]
    simpa using Unsigned.append front nonzero fraction
  split
  · have digits : ∀ n, ∀ d ∈ List.replicate n '0' ++ c :: rest, d.isDigit = true := by
      simp only [List.mem_append]
      rintro n d (member | member)
      · exact zeros n d member
      · exact all d member
    have fraction (n : Nat) : Fraction ('.' :: (List.replicate n '0' ++ c :: rest ++ r)) r :=
      .some (.append (digits n) (by simp) .none) .none
    simpa using Unsigned.zero (fraction _)
  have exponential := appendExponent_exponent _ bounded r
  split
  · rename_i single
    have alone : rest = [] := by simpa using single
    subst alone
    exact .integer first nonzero .none (.none exponential)
  · rename_i several
    have nonempty : rest ≠ [] := by
      rintro rfl
      exact several rfl
    have fraction := Fraction.some (SomeDigits.append more nonempty .none) exponential
    simpa using Unsigned.integer first nonzero .none fraction

theorem toChars_number (floats : FloatDigits) (x : Rat) (r : Text) :
    Number (toChars floats x ++ r) r := by
  have unsigned : ∀ value : Rat, 0 ≤ value → Unsigned ((if value = 0 then ['0', '.', '0']
      else formatBuffer (floats.digits value) (floats.exponent value)) ++ r) r := by
    intro value sign
    split
    · exact .zero (.some (.some rfl .none) .none)
    · rename_i nonzero
      have positive : 0 < value := lt_of_le_of_ne sign (Ne.symm nonzero)
      obtain ⟨c, rest, digits, leading⟩ := floats.digits_leading value positive
      have all := floats.digits_isDigit value
      have bounded := floats.exponent_bounded value positive
      rw [digits] at all bounded ⊢
      exact formatBuffer_unsigned all leading bounded r
  unfold toChars
  split
  · rename_i negative
    exact .negative (unsigned (-x) (neg_nonneg.mpr negative.le))
  · rename_i sign
    exact .positive (unsigned x (not_lt.mp sign))

end Serializer

namespace Json

open Serializer

mutual

def dump (floats : FloatDigits) : Json → Except Exception Text
  | .null => return ['n', 'u', 'l', 'l']
  | .boolean true => return ['t', 'r', 'u', 'e']
  | .boolean false => return ['f', 'a', 'l', 's', 'e']
  | .integer n => return Text.decimal n
  | .float x => return toChars floats x
  | .string s => do
    let chars ← dumpEscaped s
    return '"' :: (chars ++ ['"'])
  | .array items => do
    let text ← dumpItems floats items
    return '[' :: (text ++ [']'])
  | .object members => do
    let text ← dumpMembers floats members
    return '\x7b' :: (text ++ ['\x7d'])

def dumpItems (floats : FloatDigits) : List Json → Except Exception Text
  | [] => return []
  | [last] => dump floats last
  | item :: next :: rest => do
    let first ← dump floats item
    let more ← dumpItems floats (next :: rest)
    return first ++ ',' :: more

def dumpMembers (floats : FloatDigits) : List (Text × Json) → Except Exception Text
  | [] => return []
  | [(key, value)] => do
    let chars ← dumpEscaped key
    let text ← dump floats value
    return '"' :: (chars ++ '"' :: ':' :: text)
  | (key, value) :: next :: rest => do
    let chars ← dumpEscaped key
    let text ← dump floats value
    let more ← dumpMembers floats (next :: rest)
    return '"' :: (chars ++ '"' :: ':' :: (text ++ ',' :: more))

end

mutual

/-- All strings of a value are UTF-8. -/
def Encoded : Json → Prop
  | .null | .boolean _ | .integer _ | .float _ => True
  | .string s => Utf8 s
  | .array items => EncodedItems items
  | .object members => EncodedMembers members

def EncodedItems : List Json → Prop
  | [] => True
  | item :: rest => item.Encoded ∧ EncodedItems rest

def EncodedMembers : List (Text × Json) → Prop
  | [] => True
  | (key, value) :: rest => (Utf8 key ∧ value.Encoded) ∧ EncodedMembers rest

end

/-- A text in UTF-8 that is a part of the grammar wherever it stands. -/
def Shape (part : Part) (text : Text) : Prop := Utf8 text ∧ ∀ r, Derives part (text ++ r) r

theorem number_shape {text : Text} (number : ∀ r, Number (text ++ r) r) : Shape .value text := by
  constructor
  · exact (List.append_nil text ▸ number []).utf8 .nil
  · exact fun r => .number (number r)

theorem string_shape (shape : Utf8 chars ∧ Inner chars) :
    Shape .value ('"' :: (chars ++ ['"'])) := by
  constructor
  · exact .one (by decide) (shape.1.append (.one (by decide) .nil))
  · exact fun r => by simpa using Derives.string (shape.2 r)

theorem member_shape {text : Text} (key : Utf8 chars ∧ Inner chars) (value : Shape .value text) :
    Shape .member ('"' :: (chars ++ '"' :: ':' :: text)) := by
  constructor
  · exact .one (by decide) (key.1.append (.one (by decide) (.one (by decide) value.1)))
  · intro r
    simpa using Derives.member .none (key.2 (':' :: (text ++ r))) .none (.alone (value.2 r))

mutual

theorem dump_writes (floats : FloatDigits) :
    ∀ j : Json, Writes j.Encoded (Shape .value) (j.dump floats)
  | .null => by
    simp only [dump, Encoded]
    exact ⟨trivial, .of_ascii (by simp), fun r => .nullWord⟩
  | .boolean true => by
    simp only [dump, Encoded]
    exact ⟨trivial, .of_ascii (by simp), fun r => .trueWord⟩
  | .boolean false => by
    simp only [dump, Encoded]
    exact ⟨trivial, .of_ascii (by simp), fun r => .falseWord⟩
  | .integer n => by
    simp only [dump, Encoded]
    exact ⟨trivial, number_shape (decimal_number n)⟩
  | .float x => by
    simp only [dump, Encoded]
    exact ⟨trivial, number_shape (toChars_number floats x)⟩
  | .string s => by
    simp only [dump, Encoded]
    exact (dumpEscaped_writes s).map fun chars => string_shape
  | .array [] => by
    simp only [dump, dumpItems, Encoded, EncodedItems]
    exact ⟨trivial, .of_ascii (by simp), fun r => .emptyArray .none⟩
  | .array (item :: rest) => by
    simp only [dump, Encoded]
    refine (dumpItems_writes floats (item :: rest) (List.cons_ne_nil _ _)).map fun text shape => ?_
    refine ⟨.one (by decide) (shape.1.append (.one (by decide) .nil)), fun r => ?_⟩
    simpa using Derives.array (shape.2 (']' :: r))
  | .object [] => by
    simp only [dump, dumpMembers, Encoded, EncodedMembers]
    exact ⟨trivial, .of_ascii (by simp), fun r => .emptyObject .none⟩
  | .object (member :: rest) => by
    simp only [dump, Encoded]
    refine (dumpMembers_writes floats (member :: rest) (List.cons_ne_nil _ _)).map
      fun text shape => ?_
    refine ⟨.one (by decide) (shape.1.append (.one (by decide) .nil)), fun r => ?_⟩
    simpa using Derives.object (shape.2 ('\x7d' :: r))

theorem dumpItems_writes (floats : FloatDigits) : ∀ items : List Json, items ≠ [] →
    Writes (EncodedItems items) (Shape .elements) (dumpItems floats items)
  | [], nonempty => absurd rfl nonempty
  | [last], _ => by
    simp only [dumpItems, EncodedItems, and_true]
    exact (dump_writes floats last).mono fun text shape =>
      ⟨shape.1, fun r => .lastElement (.alone (shape.2 r))⟩
  | item :: next :: rest, _ => by
    simp only [dumpItems, EncodedItems]
    refine (dump_writes floats item).bind fun first shape => ?_
    refine (dumpItems_writes floats (next :: rest) (List.cons_ne_nil _ _)).map fun more later => ?_
    refine ⟨shape.1.append (.one (by decide) later.1), fun r => ?_⟩
    simpa using Derives.moreElements (.alone (shape.2 _)) (later.2 r)

theorem dumpMembers_writes (floats : FloatDigits) : ∀ members : List (Text × Json), members ≠ [] →
    Writes (EncodedMembers members) (Shape .members) (dumpMembers floats members)
  | [], nonempty => absurd rfl nonempty
  | [(key, value)], _ => by
    simp only [dumpMembers, EncodedMembers, and_true]
    refine (dumpEscaped_writes key).bind fun chars written => ?_
    refine (dump_writes floats value).map fun text shape => ?_
    obtain ⟨encoded, member⟩ := member_shape written shape
    exact ⟨encoded, fun r => .lastMember (member r)⟩
  | (key, value) :: next :: rest, _ => by
    rw [dumpMembers, EncodedMembers, and_assoc]
    refine (dumpEscaped_writes key).bind fun chars written => ?_
    refine (dump_writes floats value).bind fun text shape => ?_
    refine (dumpMembers_writes floats (next :: rest) (List.cons_ne_nil _ _)).map
      fun more later => ?_
    obtain ⟨encoded, member⟩ := member_shape written shape
    refine ⟨?_, fun r => ?_⟩
    · simpa using encoded.append (.one (c := ',') (by decide) later.1)
    · simpa using Derives.moreMembers (member (',' :: (more ++ r))) (later.2 r)

end

end Json
end Crown