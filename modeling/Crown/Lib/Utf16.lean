import Crown.Lib.Text

/-! Strings of UTF-16 code units, as JavaScript has them, and their encoding in UTF-8. A
surrogate without its other half is encoded as U+FFFD. -/
namespace Lib

abbrev JsString := List UInt16

/-- A literal of ASCII characters. -/
@[irreducible] def js (s : String) : JsString := s.toList.map fun c => UInt16.ofNat c.toNat

namespace JsString

def isHigh (u : UInt16) : Bool := 0xD800 ≤ u.toNat && u.toNat < 0xDC00
def isLow (u : UInt16) : Bool := 0xDC00 ≤ u.toNat && u.toNat < 0xE000

/-- The code point of a unit that stands alone. -/
def alone (u : UInt16) : Nat := if isHigh u || isLow u then 0xFFFD else u.toNat

def paired (high low : UInt16) : Nat :=
  0x10000 + (high.toNat - 0xD800) * 0x400 + (low.toNat - 0xDC00)

def codePoints : JsString → List Nat
  | [] => []
  | [u] => [alone u]
  | u :: v :: rest =>
    if isHigh u && isLow v then paired u v :: codePoints rest else alone u :: codePoints (v :: rest)

theorem codePoints_pair {u v : UInt16} (pair : (isHigh u && isLow v) = true) (rest : JsString) :
    codePoints (u :: v :: rest) = paired u v :: codePoints rest := if_pos pair

theorem codePoints_alone {u v : UInt16} (apart : ¬(isHigh u && isLow v) = true)
    (rest : JsString) : codePoints (u :: v :: rest) = alone u :: codePoints (v :: rest) :=
  if_neg apart

def utf8Bytes (point : Nat) : List Nat :=
  if point < 0x80 then [point]
  else if point < 0x800 then [0xC0 + point / 0x40, 0x80 + point % 0x40]
  else if point < 0x10000 then
    [0xE0 + point / 0x1000, 0x80 + point / 0x40 % 0x40, 0x80 + point % 0x40]
  else
    [0xF0 + point / 0x40000, 0x80 + point / 0x1000 % 0x40, 0x80 + point / 0x40 % 0x40,
      0x80 + point % 0x40]

/-- The bytes sent for a string. -/
def utf8 (s : JsString) : Text := s.codePoints.flatMap fun point => (utf8Bytes point).map Char.ofNat

/-- How many bytes are sent. -/
def utf8Size (s : JsString) : Nat := (s.codePoints.map fun point => (utf8Bytes point).length).sum

theorem utf8_length (s : JsString) : s.utf8.length = s.utf8Size := by
  simp [utf8, utf8Size, List.length_flatMap]

theorem utf8Bytes_pos (point : Nat) : 0 < (utf8Bytes point).length := by
  unfold utf8Bytes
  split
  · exact Nat.one_pos
  · split
    · exact Nat.two_pos
    · split <;> simp

theorem utf8Bytes_paired (high low : UInt16) : (utf8Bytes (paired high low)).length = 4 := by
  have large : 0x10000 ≤ paired high low := by
    unfold paired
    omega
  rw [utf8Bytes, if_neg (by omega), if_neg (by omega), if_neg (by omega)]
  rfl

@[simp] theorem utf8Size_nil : utf8Size [] = 0 := rfl

theorem utf8Size_single (u : UInt16) : utf8Size [u] = (utf8Bytes (alone u)).length :=
  List.sum_singleton

theorem utf8Size_pair {u v : UInt16} (pair : (isHigh u && isLow v) = true) (rest : JsString) :
    utf8Size (u :: v :: rest) = 4 + utf8Size rest := by
  rw [utf8Size, codePoints_pair pair, List.map_cons, List.sum_cons, utf8Bytes_paired, utf8Size]

theorem utf8Size_alone {u v : UInt16} (apart : ¬(isHigh u && isLow v) = true) (rest : JsString) :
    utf8Size (u :: v :: rest) = (utf8Bytes (alone u)).length + utf8Size (v :: rest) := by
  rw [utf8Size, codePoints_alone apart, List.map_cons, List.sum_cons, utf8Size]

/-- No string gets shorter. -/
theorem length_le_utf8Size (s : JsString) : s.length ≤ s.utf8Size := by
  induction s using codePoints.induct with
  | case1 => exact Nat.le_refl _
  | case2 u =>
    rw [utf8Size_single]
    exact utf8Bytes_pos _
  | case3 u v rest pair ih =>
    rw [utf8Size_pair pair]
    simp only [List.length_cons]
    omega
  | case4 u v rest apart ih =>
    have some := utf8Bytes_pos (alone u)
    rw [utf8Size_alone apart]
    simp only [List.length_cons] at ih ⊢
    omega

theorem utf8_ne_nil {s : JsString} (nonempty : s ≠ []) : s.utf8 ≠ [] := by
  have longer := s.length_le_utf8Size
  rw [← utf8_length] at longer
  have some := List.length_pos_of_ne_nil nonempty
  exact List.ne_nil_of_length_pos (by omega)

/-- A string of ASCII characters has a byte for each. -/
theorem utf8Size_ascii {s : JsString} (ascii : ∀ u ∈ s, u.toNat < 0x80) : s.utf8Size = s.length := by
  have single : ∀ u : UInt16, u.toNat < 0x80 → (utf8Bytes (alone u)).length = 1 := by
    intro u small
    have whole : alone u = u.toNat := by
      simp only [alone, isHigh, isLow, Bool.or_eq_true, Bool.and_eq_true, decide_eq_true_eq]
      rw [if_neg (by omega)]
    rw [whole, utf8Bytes, if_pos small, List.length_singleton]
  induction s using codePoints.induct with
  | case1 => rfl
  | case2 u =>
    rw [utf8Size_single, single u (ascii u List.mem_cons_self)]
    rfl
  | case3 u v rest pair ih =>
    have small := ascii u List.mem_cons_self
    simp only [isHigh, Bool.and_eq_true, decide_eq_true_eq] at pair
    omega
  | case4 u v rest apart ih =>
    have rest := ih fun w member => ascii w (List.mem_cons_of_mem _ member)
    rw [utf8Size_alone apart, single u (ascii u List.mem_cons_self), rest]
    simp only [List.length_cons]
    omega

theorem alone_le (u : UInt16) : alone u ≤ 0xFFFF := by
  have small := u.toNat_lt
  unfold alone
  split <;> omega

theorem paired_lt {high low : UInt16} (pair : (isHigh high && isLow low) = true) :
    paired high low < 0x110000 := by
  simp only [isHigh, isLow, Bool.and_eq_true, decide_eq_true_eq] at pair
  unfold paired
  omega

theorem alone_ascii {u : UInt16} (ascii : alone u < 0x80) : alone u = u.toNat := by
  unfold alone at ascii ⊢
  split at ascii
  · omega
  · split <;> simp_all

theorem toNat_ofNat {n : Nat} (small : n < 0xD800) : (Char.ofNat n).toNat = n := by
  rw [Char.toNat_ofNat, if_pos (Or.inl small)]

/-- An ASCII byte is a whole character. -/
theorem utf8Bytes_head {point : Nat} {c : Char} {more rest : Text} (valid : point < 0x110000)
    (starts : (utf8Bytes point).map Char.ofNat ++ more = c :: rest) (ascii : c.toNat < 0x80) :
    point = c.toNat ∧ more = rest := by
  have large : ∀ n, 0x80 ≤ n → n < 0x100 → Char.ofNat n ≠ c := by
    rintro n low high rfl
    rw [toNat_ofNat (by omega)] at ascii
    omega
  unfold utf8Bytes at starts
  split at starts
  · obtain ⟨rfl, rfl⟩ := List.cons.inj starts
    exact ⟨(toNat_ofNat (by omega)).symm, rfl⟩
  · split at starts
    · exact absurd (List.cons.inj starts).1 (large _ (by omega) (by omega))
    · split at starts
      · exact absurd (List.cons.inj starts).1 (large _ (by omega) (by omega))
      · exact absurd (List.cons.inj starts).1 (large _ (by omega) (by omega))

theorem utf8_head {s : JsString} {c : Char} {rest : Text} (starts : s.utf8 = c :: rest)
    (ascii : c.toNat < 0x80) :
    ∃ u others, s = u :: others ∧ u.toNat = c.toNat ∧ utf8 others = rest := by
  match s with
  | [] => cases starts
  | [u] =>
    have first : (utf8Bytes (alone u)).map Char.ofNat ++ [] = c :: rest := by
      simpa [utf8, codePoints] using starts
    obtain ⟨same, rfl⟩ :=
      utf8Bytes_head (Nat.lt_of_le_of_lt (alone_le u) (by omega)) first ascii
    exact ⟨u, [], rfl, (alone_ascii (by omega)).symm.trans same, rfl⟩
  | u :: v :: others =>
    by_cases pair : (isHigh u && isLow v) = true
    · have first := starts
      rw [utf8, codePoints_pair pair, List.flatMap_cons] at first
      obtain ⟨same, -⟩ := utf8Bytes_head (paired_lt pair) first ascii
      have large : 0x10000 ≤ paired u v := by
        unfold paired
        omega
      omega
    · have first := starts
      rw [utf8, codePoints_alone pair, List.flatMap_cons] at first
      obtain ⟨same, remain⟩ :=
        utf8Bytes_head (Nat.lt_of_le_of_lt (alone_le u) (by omega)) first ascii
      exact ⟨u, v :: others, rfl, (alone_ascii (by omega)).symm.trans same, remain⟩

/-- ASCII bytes in front are the units in front. -/
theorem utf8_prefix {s : JsString} {front rest : Text} (starts : s.utf8 = front ++ rest)
    (ascii : ∀ c ∈ front, c.toNat < 0x80) :
    ∃ others, s = (front.map fun c => UInt16.ofNat c.toNat) ++ others := by
  induction front generalizing s with
  | nil => exact ⟨s, rfl⟩
  | cons c front ih =>
    obtain ⟨u, remain, rfl, same, later⟩ := utf8_head starts (ascii c List.mem_cons_self)
    obtain ⟨others, rfl⟩ := ih later fun d member => ascii d (List.mem_cons_of_mem _ member)
    refine ⟨others, ?_⟩
    rw [List.map_cons, List.cons_append, ← same, UInt16.ofNat_toNat]

/-- The units of a code point. -/
def units (point : Nat) : JsString :=
  if point < 0x10000 then [UInt16.ofNat point]
  else [UInt16.ofNat (0xD800 + (point - 0x10000) / 0x400),
    UInt16.ofNat (0xDC00 + (point - 0x10000) % 0x400)]

/-- A code point of which `due` bytes are still to come, the next of them between two bounds. -/
structure Begun where
  point : Nat
  due : Nat
  low : Nat
  high : Nat

def lead (byte : Nat) : JsString × Option Begun :=
  if byte < 0x80 then ([UInt16.ofNat byte], none)
  else if 0xC2 ≤ byte ∧ byte ≤ 0xDF then ([], some ⟨byte - 0xC0, 1, 0x80, 0xBF⟩)
  else if 0xE0 ≤ byte ∧ byte ≤ 0xEF then
    ([], some ⟨byte - 0xE0, 2, if byte = 0xE0 then 0xA0 else 0x80,
      if byte = 0xED then 0x9F else 0xBF⟩)
  else if 0xF0 ≤ byte ∧ byte ≤ 0xF4 then
    ([], some ⟨byte - 0xF0, 3, if byte = 0xF0 then 0x90 else 0x80,
      if byte = 0xF4 then 0x8F else 0xBF⟩)
  else ([0xFFFD], none)

/-- What a decoder gives for bytes. A code point that is broken off leaves U+FFFD, and the byte
that broke it off is read anew. -/
def decode : Option Begun → Text → JsString
  | none, [] => []
  | some _, [] => [0xFFFD]
  | none, c :: rest => (lead c.toNat).1 ++ decode (lead c.toNat).2 rest
  | some begun, c :: rest =>
    if begun.low ≤ c.toNat ∧ c.toNat ≤ begun.high then
      let point := begun.point * 0x40 + (c.toNat - 0x80)
      if begun.due = 1 then units point ++ decode none rest
      else decode (some ⟨point, begun.due - 1, 0x80, 0xBF⟩) rest
    else 0xFFFD :: ((lead c.toNat).1 ++ decode (lead c.toNat).2 rest)

def ofUtf8 (bytes : Text) : JsString := decode none bytes

example : ofUtf8 (utf8 [0x41, 0xE9, 0x20AC, 0xD83D, 0xDE00]) =
    [0x41, 0xE9, 0x20AC, 0xD83D, 0xDE00] := by
  decide +kernel

/-- The code points that can still come out are valid, and none of them is ASCII. -/
structure Begun.Sound (begun : Begun) : Prop where
  due : 0 < begun.due
  least : 0x80 ≤ begun.point * 0x40 ^ begun.due + (begun.low - 0x80) * 0x40 ^ (begun.due - 1)
  most : begun.point * 0x40 ^ begun.due + (begun.high - 0x7F) * 0x40 ^ (begun.due - 1) ≤ 0x110000
  low : 0x80 ≤ begun.low
  high : begun.high ≤ 0xBF

theorem units_large {point : Nat} (least : 0x80 ≤ point) (valid : point < 0x110000) :
    ∃ u rest, units point = u :: rest ∧ 0x80 ≤ u.toNat := by
  unfold units
  split
  · refine ⟨_, _, rfl, ?_⟩
    rw [UInt16.toNat_ofNat']
    omega
  · refine ⟨_, _, rfl, ?_⟩
    rw [UInt16.toNat_ofNat']
    omega

theorem Begun.Sound.next {begun : Begun} {byte : Nat} (sound : begun.Sound)
    (low : begun.low ≤ byte) (high : byte ≤ begun.high) (more : begun.due ≠ 1) :
    Begun.Sound ⟨begun.point * 0x40 + (byte - 0x80), begun.due - 1, 0x80, 0xBF⟩ := by
  obtain ⟨due, least, most, above, below⟩ := sound
  obtain ⟨d, two⟩ : ∃ d, begun.due = d + 2 := ⟨begun.due - 2, by omega⟩
  have left : (begun.low - 0x80) * 0x40 ^ (d + 1) ≤ (byte - 0x80) * 0x40 ^ (d + 1) :=
    Nat.mul_le_mul_right _ (by omega)
  have right : (byte - 0x80 + 1) * 0x40 ^ (d + 1) ≤ (begun.high - 0x7F) * 0x40 ^ (d + 1) :=
    Nat.mul_le_mul_right _ (by omega)
  simp only [two, Nat.add_one_sub_one] at least most
  refine ⟨by simp only [two]; omega, ?_, ?_, Nat.le_refl _, Nat.le_refl _⟩
  · simp only [two, Nat.add_succ_sub_one]
    calc 0x80 ≤ _ := least
      _ ≤ begun.point * 0x40 ^ (d + 2) + (byte - 0x80) * 0x40 ^ (d + 1) := Nat.add_le_add_left left _
      _ = (begun.point * 0x40 + (byte - 0x80)) * 0x40 ^ (d + 1) + (0x80 - 0x80) * 0x40 ^ d := by ring
  · simp only [two, Nat.add_succ_sub_one]
    calc (begun.point * 0x40 + (byte - 0x80)) * 0x40 ^ (d + 1) + (0xBF - 0x7F) * 0x40 ^ d
      _ = begun.point * 0x40 ^ (d + 2) + (byte - 0x80 + 1) * 0x40 ^ (d + 1) := by ring
      _ ≤ _ := Nat.add_le_add_left right _
      _ ≤ 0x110000 := most

theorem Begun.Sound.last {begun : Begun} {byte : Nat} (sound : begun.Sound)
    (low : begun.low ≤ byte) (high : byte ≤ begun.high) (one : begun.due = 1) :
    0x80 ≤ begun.point * 0x40 + (byte - 0x80) ∧
      begun.point * 0x40 + (byte - 0x80) < 0x110000 := by
  obtain ⟨due, least, most, above, below⟩ := sound
  simp only [one, Nat.pow_one, Nat.sub_self, Nat.pow_zero, Nat.mul_one] at least most
  omega

theorem decode_begun {begun : Begun} (sound : begun.Sound) (bytes : Text) :
    ∃ u rest, decode (some begun) bytes = u :: rest ∧ 0x80 ≤ u.toNat := by
  induction bytes generalizing begun with
  | nil => exact ⟨_, _, rfl, by decide⟩
  | cons c bytes ih =>
    unfold decode
    split
    · rename_i within
      dsimp only
      split
      · rename_i one
        obtain ⟨least, valid⟩ := sound.last within.1 within.2 one
        obtain ⟨u, rest, first, large⟩ := units_large least valid
        exact ⟨u, rest ++ decode none bytes, by rw [first, List.cons_append], large⟩
      · rename_i more
        exact ih (sound.next within.1 within.2 more)
    · exact ⟨_, _, rfl, by decide⟩

theorem lead_large {byte : Nat} (large : 0x80 ≤ byte) : lead byte = ([0xFFFD], none) ∨
    ∃ begun : Begun, lead byte = ([], some begun) ∧ begun.Sound := by
  unfold lead
  rw [if_neg (by omega)]
  split
  · exact .inr ⟨_, rfl, by constructor <;> dsimp only <;> omega⟩
  · split
    · refine .inr ⟨_, rfl, ?_⟩
      refine ⟨Nat.two_pos, ?_, ?_, ?_, ?_⟩ <;> dsimp only <;> split <;> omega
    · split
      · refine .inr ⟨_, rfl, ?_⟩
        refine ⟨Nat.succ_pos 2, ?_, ?_, ?_, ?_⟩ <;> dsimp only <;> split <;> omega
      · exact .inl rfl

theorem ofUtf8_cons {c : Char} (ascii : c.toNat < 0x80) (rest : Text) :
    ofUtf8 (c :: rest) = UInt16.ofNat c.toNat :: ofUtf8 rest := by
  rw [ofUtf8, decode, lead, if_pos ascii]
  rfl

/-- An ASCII unit comes from the byte of that value. -/
theorem ofUtf8_head {bytes : Text} {u : UInt16} {more : JsString} (starts : ofUtf8 bytes = u :: more)
    (ascii : u.toNat < 0x80) : ∃ c rest, bytes = c :: rest ∧ c.toNat < 0x80 ∧
      u = UInt16.ofNat c.toNat ∧ more = ofUtf8 rest := by
  cases bytes with
  | nil => cases starts
  | cons c rest =>
    by_cases small : c.toNat < 0x80
    · rw [ofUtf8_cons small] at starts
      obtain ⟨rfl, rfl⟩ := List.cons.inj starts
      exact ⟨c, rest, rfl, small, rfl, rfl⟩
    · have large : ∃ v others, ofUtf8 (c :: rest) = v :: others ∧ 0x80 ≤ v.toNat := by
        rw [ofUtf8, decode]
        rcases lead_large (Nat.le_of_not_lt small) with broken | ⟨begun, first, sound⟩
        · exact ⟨_, _, by rw [broken]; rfl, by decide⟩
        · rw [first]
          exact decode_begun sound rest
      obtain ⟨v, others, first, large⟩ := large
      rw [starts] at first
      obtain ⟨rfl, -⟩ := List.cons.inj first
      omega

end JsString
end Lib
