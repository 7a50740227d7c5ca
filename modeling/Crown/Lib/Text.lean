import Mathlib

/-! Byte strings and the percent encoding of URLs. A byte is written as the
character with that code, so that literals read as they do in a program text;
results about all lists of characters cover all lists of bytes. -/
namespace Lib

abbrev Text := List Char

/-- The UTF-8 bytes of a literal. Kept opaque to elaboration: closed facts about
literals are evaluated by the kernel. -/
@[irreducible] def lit (s : String) : Text :=
  s.toByteArray.data.toList.map fun byte => Char.ofNat byte.toNat

instance : LawfulBEq Text := inferInstance

instance : LawfulBEq (Text × Text) := inferInstance

theorem ofNat_byte_inj {a b : UInt8} (same : Char.ofNat a.toNat = Char.ofNat b.toNat) : a = b := by
  have code : ∀ byte : UInt8, (Char.ofNat byte.toNat).toNat = byte.toNat := by
    intro byte
    have small := byte.toNat_lt
    have valid : byte.toNat.isValidChar := .inl (by omega)
    rw [Char.ofNat, dif_pos valid]
    rfl
  have numbers := congrArg Char.toNat same
  rw [code, code] at numbers
  exact UInt8.toNat_inj.mp numbers

/-- Literals are told apart by their spelling. -/
@[simp] theorem lit_inj {s t : String} : lit s = lit t ↔ s = t := by
  constructor
  · intro same
    unfold lit at same
    have bytes := List.map_injective_iff.mpr (fun a b => ofNat_byte_inj) same
    exact String.toByteArray_inj.mp (ByteArray.ext (Array.toList_inj.mp bytes))
  · exact congrArg lit

theorem lit_append (s t : String) : lit (s ++ t) = lit s ++ lit t := by
  unfold lit
  rw [String.toByteArray_append, ByteArray.data_append, Array.toList_append, List.map_append]

/-- A text that opens with a bracket. -/
theorem lit_bracket (s : String) : lit ("[" ++ s) = '[' :: lit s := by
  have bracket : lit "[" = ['['] := by with_unfolding_all decide
  rw [lit_append, bracket]
  rfl

section

variable {α : Type} [DecidableEq α] {c : α} {front : List α}

/-! Up to the first occurrence of a mark that is not in the front part. -/

theorem takeWhile_ne_append (apart : c ∉ front) (rest : List α) :
    (front ++ rest).takeWhile (· ≠ c) = front ++ rest.takeWhile (· ≠ c) :=
  List.takeWhile_append_of_pos fun _ member =>
    decide_eq_true fun same => apart (same ▸ member)

theorem dropWhile_ne_append (apart : c ∉ front) (rest : List α) :
    (front ++ rest).dropWhile (· ≠ c) = rest.dropWhile (· ≠ c) :=
  List.dropWhile_append_of_pos fun _ member =>
    decide_eq_true fun same => apart (same ▸ member)

end

namespace Text

/-- `find(needle) != npos`. -/
def contains (hay needle : Text) : Bool := decide (needle <:+: hay)

/-- What follows the first occurrence of a text. -/
def afterFirst (needle : Text) : Text → Option Text
  | [] => if needle = [] then some [] else none
  | c :: rest =>
    if needle <+: c :: rest then some ((c :: rest).drop needle.length) else afterFirst needle rest

/-- A property of every character of a closed text is evaluated along the text. -/
theorem forall_of_all {good : Char → Prop} [DecidablePred good] {s : Text}
    (all : s.all (fun c => decide (good c)) = true) : ∀ c ∈ s, good c :=
  fun c member => of_decide_eq_true (List.all_eq_true.mp all c member)

theorem suffix_of_afterFirst (found : afterFirst needle hay = some rest) : rest <:+ hay := by
  induction hay with
  | nil =>
    unfold afterFirst at found
    split at found <;> simp_all
  | cons c hay ih =>
    unfold afterFirst at found
    split at found
    · cases found
      exact List.drop_suffix _ _
    · exact (ih found).trans (List.suffix_cons _ _)

/-- ASCII lower-casing, byte by byte. -/
def lower (s : Text) : Text := s.map Char.toLower

/-- The decimal rendering of an integer. -/
def decimal : Int → Text
  | .ofNat n => Nat.toDigits 10 n
  | .negSucc n => '-' :: Nat.toDigits 10 (n + 1)

theorem digit_or_sign (n : Int) : ∀ c ∈ decimal n, c.isDigit = true ∨ c = '-' := by
  intro c member
  cases n with
  | ofNat n => exact .inl (Nat.isDigit_of_mem_toDigits (by decide) (by decide) member)
  | negSucc n =>
    rcases List.mem_cons.mp member with rfl | digit
    · exact .inr rfl
    · exact .inl (Nat.isDigit_of_mem_toDigits (by decide) (by decide) digit)

theorem not_mem_decimal (n : Int) (other : c.isDigit = false) (sign : c ≠ '-') : c ∉ decimal n := by
  intro member
  rcases digit_or_sign n c member with digit | rfl
  · exact Bool.false_ne_true (other.symm.trans digit)
  · exact sign rfl

theorem toDigits_inj {m n : Nat} (same : Nat.toDigits 10 m = Nat.toDigits 10 n) : m = n := by
  have read := congrArg (Nat.ofDigitChars 10 · 0) same
  simpa only [Nat.ofDigitChars_ten_toDigits] using read

theorem decimal_inj {m n : Int} (same : decimal m = decimal n) : m = n := by
  have unsigned (a : Nat) (rest : Text) : Nat.toDigits 10 a ≠ '-' :: rest := by
    intro sign
    have digit := Nat.isDigit_of_mem_toDigits (b := 10) (n := a) (c := '-') (by decide) (by decide)
      (sign ▸ List.mem_cons_self ..)
    exact absurd digit (by decide)
  cases m with
  | ofNat a =>
    cases n with
    | ofNat b => exact congrArg Int.ofNat (toDigits_inj same)
    | negSucc b => exact absurd same (unsigned a _)
  | negSucc a =>
    cases n with
    | ofNat b => exact absurd same.symm (unsigned b _)
    | negSucc b =>
      have digits := toDigits_inj (List.cons.inj same).2
      exact congrArg Int.negSucc (Nat.succ.inj digits)

/-- What stands before the first occurrence of `c`, all of it when there is none. -/
def before (c : Char) (s : Text) : Text := s.takeWhile (· ≠ c)

/-- What follows the first occurrence of `c`, nothing when there is none. -/
def after (c : Char) (s : Text) : Text := (s.dropWhile (· ≠ c)).drop 1

theorem before_append (plain : c ∉ s) (rest : Text) :
    before c (s ++ rest) = s ++ before c rest := takeWhile_ne_append plain rest

@[simp] theorem before_cons_self (c : Char) (s : Text) : before c (c :: s) = [] := by
  simp [before]

theorem before_eq_self (plain : c ∉ s) : before c s = s := by
  simpa [before] using before_append plain []

theorem after_append (plain : c ∉ s) (rest : Text) :
    after c (s ++ c :: rest) = rest := by
  rw [after, dropWhile_ne_append plain]
  simp

/-- The last of several fields with a separator between them. -/
theorem last_field_inj {front front' last last' : Text} (plain : c ∉ last) (plain' : c ∉ last')
    (same : front ++ c :: last = front' ++ c :: last') : front = front' ∧ last = last' := by
  have turned : last.reverse ++ c :: front.reverse = last'.reverse ++ c :: front'.reverse := by
    simpa using congrArg List.reverse same
  have plain : c ∉ last.reverse := by simpa using plain
  have plain' : c ∉ last'.reverse := by simpa using plain'
  have lasts := congrArg (before c) turned
  have fronts := congrArg (after c) turned
  rw [before_append plain, before_append plain', before_cons_self, before_cons_self] at lasts
  rw [after_append plain, after_append plain'] at fronts
  simp only [List.append_nil] at lasts
  exact ⟨List.reverse_injective fronts, List.reverse_injective lasts⟩

theorem not_mem_before (c : Char) (s : Text) : c ∉ before c s := by
  intro member
  have := List.mem_takeWhile_imp member
  simp at this

theorem before_cons_after (member : c ∈ s) : s = before c s ++ c :: after c s := by
  obtain ⟨first, rest, rfl, plain⟩ := List.eq_append_cons_of_mem member
  rw [before_append plain, before_cons_self, after_append plain, List.append_nil]

def isHex (c : Char) : Bool :=
  ('0' ≤ c && c ≤ '9') || ('a' ≤ c && c ≤ 'f') || ('A' ≤ c && c ≤ 'F')

def hexValue (c : Char) : Nat :=
  if c ≤ '9' then c.toNat - 48 else if c ≤ 'F' then c.toNat - 55 else c.toNat - 87

/-- Percent decoding: an escape is a percent sign and two hexadecimal digits,
every other character stands for itself. -/
def percentDecode : Text → Text
  | a :: b :: c :: rest =>
    if a = '%' ∧ isHex b ∧ isHex c then
      Char.ofNat (16 * hexValue b + hexValue c) :: percentDecode rest
    else a :: percentDecode (b :: c :: rest)
  | s => s

/-- Some percent sign is followed by two hexadecimal digits. -/
def hasEscape : Text → Bool
  | a :: b :: c :: rest => (a = '%' && isHex b && isHex c) || hasEscape (b :: c :: rest)
  | _ => false

theorem mem_of_hasEscape (escape : hasEscape s = true) : '%' ∈ s := by
  fun_induction hasEscape s with
  | case1 a b c rest ih =>
    simp only [Bool.or_eq_true, Bool.and_eq_true, decide_eq_true_eq] at escape
    rcases escape with here | later
    · simp [here.1.1]
    · exact List.mem_cons_of_mem _ (ih later)
  | case2 => simp at escape

theorem percentDecode_escape (escape : a = '%' ∧ isHex b ∧ isHex c) (rest : Text) :
    percentDecode (a :: b :: c :: rest) =
      Char.ofNat (16 * hexValue b + hexValue c) :: percentDecode rest :=
  if_pos escape

/-- A character that starts no escape is copied. -/
theorem percentDecode_cons (plain : ∀ b c rest, s = b :: c :: rest → ¬(a = '%' ∧ isHex b ∧ isHex c)) :
    percentDecode (a :: s) = a :: percentDecode s := by
  match s with
  | [] => rfl
  | [b] => rfl
  | b :: c :: rest => exact if_neg (plain b c rest rfl)

theorem percentDecode_length_le (s : Text) : (percentDecode s).length ≤ s.length := by
  fun_induction percentDecode s with
  | case1 a b c rest hex ih => simp only [List.length_cons]; omega
  | case2 a b c rest other ih => simpa using ih
  | case3 => exact Nat.le_refl _

theorem percentDecode_ne_nil (nonempty : s ≠ []) : percentDecode s ≠ [] := by
  rcases s with _ | ⟨a, _ | ⟨b, _ | ⟨c, rest⟩⟩⟩
  · exact absurd rfl nonempty
  · exact List.cons_ne_nil a []
  · exact List.cons_ne_nil a [b]
  · by_cases escape : a = '%' ∧ isHex b ∧ isHex c
    · rw [percentDecode_escape escape]
      exact List.cons_ne_nil _ _
    · rw [percentDecode_cons (by rintro _ _ _ ⟨⟩; exact escape)]
      exact List.cons_ne_nil _ _

theorem percentDecode_eq_self (plain : hasEscape s = false) : percentDecode s = s := by
  fun_induction hasEscape s with
  | case1 a b c rest ih =>
    simp only [Bool.or_eq_false_iff, Bool.and_eq_false_iff, decide_eq_false_iff_not] at plain
    rw [percentDecode_cons, ih plain.2]
    rintro _ _ _ ⟨⟩ ⟨percent, first, second⟩
    simp [percent, first, second] at plain
  | case2 s short =>
    rcases s with _ | ⟨a, _ | ⟨b, _ | ⟨c, rest⟩⟩⟩
    · rfl
    · rfl
    · rfl
    · exact absurd rfl (short a b c rest)

theorem percentDecode_shorter (escape : hasEscape s = true) :
    (percentDecode s).length < s.length := by
  fun_induction hasEscape s with
  | case1 a b c rest ih =>
    by_cases here : a = '%' ∧ isHex b ∧ isHex c
    · have := percentDecode_length_le rest
      rw [percentDecode_escape here]
      simp only [List.length_cons]
      omega
    · have later : hasEscape (b :: c :: rest) = true := by
        simp only [Bool.or_eq_true, Bool.and_eq_true, decide_eq_true_eq, and_assoc] at escape
        exact escape.resolve_left here
      rw [percentDecode_cons (by rintro _ _ _ ⟨⟩; exact here)]
      exact Nat.succ_lt_succ (ih later)
  | case2 => cases escape

/-- Decoding leaves a text alone exactly when it contains no escape. -/
theorem percentDecode_eq_self_iff : percentDecode s = s ↔ hasEscape s = false := by
  constructor
  · intro same
    by_contra escape
    have shorter := percentDecode_shorter (by simpa using escape)
    rw [same] at shorter
    exact Nat.lt_irrefl _ shorter
  · exact percentDecode_eq_self

/-- No escape reaches across a character that is neither a percent sign nor a
hexadecimal digit. -/
theorem percentDecode_append_cons (percent : x ≠ '%') (digit : isHex x = false) (s t : Text) :
    percentDecode (s ++ x :: t) = percentDecode s ++ x :: percentDecode t := by
  have start : percentDecode (x :: t) = x :: percentDecode t :=
    percentDecode_cons (fun _ _ _ _ escape => percent escape.1)
  fun_induction percentDecode s with
  | case1 a b c rest hex ih =>
    simp only [List.cons_append]
    rw [percentDecode_escape hex, ih]
  | case2 a b c rest other ih =>
    simp only [List.cons_append] at ih ⊢
    rw [percentDecode_cons (by rintro _ _ _ ⟨⟩; exact other), ih]
  | case3 s short =>
    match s with
    | [] => exact start
    | [a] =>
      simp only [List.cons_append, List.nil_append]
      rw [percentDecode_cons, start]
      rintro b c rest equal ⟨_, hex, _⟩
      cases equal
      simp [digit] at hex
    | [a, b] =>
      simp only [List.cons_append, List.nil_append]
      rw [percentDecode_cons, percentDecode_cons, start]
      · rintro _ _ _ equal ⟨_, hex, _⟩
        cases equal
        simp [digit] at hex
      · rintro _ _ _ equal ⟨_, _, hex⟩
        cases equal
        simp [digit] at hex
    | a :: b :: c :: rest => exact absurd rfl (short a b c rest)

/-- A text never is its own decoding with more text behind it, when that text
begins with a character no escape can contain: each decoding would again be of
this form, and shorter. -/
theorem percentDecode_extended_ne (percent : x ≠ '%') (digit : isHex x = false) (s t : Text) :
    percentDecode s ++ x :: t ≠ s := by
  induction size : s.length using Nat.strong_induction_on generalizing s t with
  | _ n ih =>
    intro same
    have descends := congrArg percentDecode same
    rw [percentDecode_append_cons percent digit] at descends
    have shorter : (percentDecode s).length < n := by
      have lengths := congrArg List.length same
      simp only [List.length_append, List.length_cons] at lengths
      omega
    exact ih _ shorter (percentDecode s) (percentDecode t) rfl descends

end Text
end Lib
