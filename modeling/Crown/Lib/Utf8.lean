import Crown.Lib.Text

/-! The byte strings that are encoded in UTF-8: each character is one byte below 0x80, or a first
byte and the one to three bytes that it announces. -/
namespace Lib

/-- A byte that goes on with a character. -/
def Tail (c : Char) : Prop := 0x80 ≤ c.toNat ∧ c.toNat ≤ 0xBF

/-- The first two bytes of three: nothing that fits in two bytes, and no surrogate. -/
def OfThree (a b : Char) : Prop :=
  a.toNat = 0xE0 ∧ 0xA0 ≤ b.toNat ∧ b.toNat ≤ 0xBF ∨
    (0xE1 ≤ a.toNat ∧ a.toNat ≤ 0xEC ∨ 0xEE ≤ a.toNat ∧ a.toNat ≤ 0xEF) ∧ Tail b ∨
    a.toNat = 0xED ∧ 0x80 ≤ b.toNat ∧ b.toNat ≤ 0x9F

/-- The first two bytes of four: nothing that fits in three bytes, and nothing behind the last
code point. -/
def OfFour (a b : Char) : Prop :=
  a.toNat = 0xF0 ∧ 0x90 ≤ b.toNat ∧ b.toNat ≤ 0xBF ∨
    (0xF1 ≤ a.toNat ∧ a.toNat ≤ 0xF3) ∧ Tail b ∨
    a.toNat = 0xF4 ∧ 0x80 ≤ b.toNat ∧ b.toNat ≤ 0x8F

inductive Utf8 : Text → Prop where
  | nil : Utf8 []
  | one (ascii : c.toNat < 0x80) (more : Utf8 s) : Utf8 (c :: s)
  | two (first : 0xC2 ≤ a.toNat ∧ a.toNat ≤ 0xDF) (second : Tail b) (more : Utf8 s) :
      Utf8 (a :: b :: s)
  | three (first : OfThree a b) (third : Tail c) (more : Utf8 s) : Utf8 (a :: b :: c :: s)
  | four (first : OfFour a b) (third : Tail c) (fourth : Tail d) (more : Utf8 s) :
      Utf8 (a :: b :: c :: d :: s)

/-- A byte in the range, as many more bytes of its character, and whole characters. -/
def Due (low high : Nat) : Nat → Text → Prop
  | 0, s => ∃ c t, s = c :: t ∧ (low ≤ c.toNat ∧ c.toNat ≤ high) ∧ Utf8 t
  | more + 1, s => ∃ c t, s = c :: t ∧ (low ≤ c.toNat ∧ c.toNat ≤ high) ∧ Due 0x80 0xBF more t

theorem OfThree.high (first : OfThree a b) : 0x80 ≤ a.toNat ∧ 0x80 ≤ b.toNat := by
  unfold OfThree Tail at first
  omega

theorem OfFour.high (first : OfFour a b) : 0x80 ≤ a.toNat ∧ 0x80 ≤ b.toNat := by
  unfold OfFour Tail at first
  omega

namespace Utf8

theorem of_ascii {s : Text} (ascii : ∀ c ∈ s, c.toNat < 0x80) : Utf8 s := by
  induction s with
  | nil => exact nil
  | cons c s ih =>
    obtain ⟨first, rest⟩ := List.forall_mem_cons.mp ascii
    exact one first (ih rest)

theorem append (first : Utf8 s) (later : Utf8 t) : Utf8 (s ++ t) := by
  induction first with
  | nil => exact later
  | one ascii more ih => exact one ascii ih
  | two first second more ih => exact two first second ih
  | three first third more ih => exact three first third ih
  | four first third fourth more ih => exact four first third fourth ih

/-- No character reaches across a byte below 0x80. -/
theorem split {s t : Text} (whole : Utf8 (s ++ c :: t)) (ascii : c.toNat < 0x80) :
    Utf8 s ∧ Utf8 t := by
  generalize glued : s ++ c :: t = all at whole
  induction whole generalizing s with
  | nil => simp at glued
  | one small more ih =>
    match s with
    | [] =>
      cases glued
      exact ⟨nil, more⟩
    | _ :: s =>
      cases glued
      exact (ih rfl).imp_left (one small)
  | two first second more ih =>
    match s with
    | [] =>
      cases glued
      exact absurd first.1 (by omega)
    | [_] =>
      cases glued
      exact absurd second.1 (by omega)
    | _ :: _ :: s =>
      cases glued
      exact (ih rfl).imp_left (two first second)
  | three first third more ih =>
    match s with
    | [] =>
      cases glued
      exact absurd first.high.1 (by omega)
    | [_] =>
      cases glued
      exact absurd first.high.2 (by omega)
    | [_, _] =>
      cases glued
      exact absurd third.1 (by omega)
    | _ :: _ :: _ :: s =>
      cases glued
      exact (ih rfl).imp_left (three first third)
  | four first third fourth more ih =>
    match s with
    | [] =>
      cases glued
      exact absurd first.high.1 (by omega)
    | [_] =>
      cases glued
      exact absurd first.high.2 (by omega)
    | [_, _] =>
      cases glued
      exact absurd third.1 (by omega)
    | [_, _, _] =>
      cases glued
      exact absurd fourth.1 (by omega)
    | _ :: _ :: _ :: _ :: s =>
      cases glued
      exact (ih rfl).imp_left (four first third fourth)

/-- What the first byte of a character announces. -/
theorem cons_iff : Utf8 (c :: s) ↔
    c.toNat < 0x80 ∧ Utf8 s ∨
    (0xC2 ≤ c.toNat ∧ c.toNat ≤ 0xDF) ∧ Due 0x80 0xBF 0 s ∨
    c.toNat = 0xE0 ∧ Due 0xA0 0xBF 1 s ∨
    (0xE1 ≤ c.toNat ∧ c.toNat ≤ 0xEC ∨ 0xEE ≤ c.toNat ∧ c.toNat ≤ 0xEF) ∧ Due 0x80 0xBF 1 s ∨
    c.toNat = 0xED ∧ Due 0x80 0x9F 1 s ∨
    c.toNat = 0xF0 ∧ Due 0x90 0xBF 2 s ∨
    (0xF1 ≤ c.toNat ∧ c.toNat ≤ 0xF3) ∧ Due 0x80 0xBF 2 s ∨
    c.toNat = 0xF4 ∧ Due 0x80 0x8F 2 s := by
  constructor
  · intro encoded
    cases encoded with
    | one ascii more => exact .inl ⟨ascii, more⟩
    | two first second more => exact .inr (.inl ⟨first, _, _, rfl, second, more⟩)
    | three first third more =>
      rcases first with ⟨lead, second⟩ | ⟨lead, second⟩ | ⟨lead, second⟩
      · exact .inr (.inr (.inl ⟨lead, _, _, rfl, second, _, _, rfl, third, more⟩))
      · exact .inr (.inr (.inr (.inl ⟨lead, _, _, rfl, second, _, _, rfl, third, more⟩)))
      · exact .inr (.inr (.inr (.inr (.inl ⟨lead, _, _, rfl, second, _, _, rfl, third, more⟩))))
    | four first third fourth more =>
      have rest : Due 0x80 0xBF 1 (_ :: _ :: _) :=
        ⟨_, _, rfl, third, _, _, rfl, fourth, more⟩
      rcases first with ⟨lead, second⟩ | ⟨lead, second⟩ | ⟨lead, second⟩
      · exact .inr (.inr (.inr (.inr (.inr (.inl ⟨lead, _, _, rfl, second, rest⟩)))))
      · exact .inr (.inr (.inr (.inr (.inr (.inr (.inl ⟨lead, _, _, rfl, second, rest⟩))))))
      · exact .inr (.inr (.inr (.inr (.inr (.inr (.inr ⟨lead, _, _, rfl, second, rest⟩))))))
  · rintro (⟨ascii, more⟩ | ⟨lead, b, t, rfl, second, more⟩ |
      ⟨lead, b, _, rfl, second, c, t, rfl, third, more⟩ |
      ⟨lead, b, _, rfl, second, c, t, rfl, third, more⟩ |
      ⟨lead, b, _, rfl, second, c, t, rfl, third, more⟩ |
      ⟨lead, b, _, rfl, second, c, _, rfl, third, d, t, rfl, fourth, more⟩ |
      ⟨lead, b, _, rfl, second, c, _, rfl, third, d, t, rfl, fourth, more⟩ |
      ⟨lead, b, _, rfl, second, c, _, rfl, third, d, t, rfl, fourth, more⟩)
    · exact .one ascii more
    · exact .two lead second more
    · exact .three (.inl ⟨lead, second⟩) third more
    · exact .three (.inr (.inl ⟨lead, second⟩)) third more
    · exact .three (.inr (.inr ⟨lead, second⟩)) third more
    · exact .four (.inl ⟨lead, second⟩) third fourth more
    · exact .four (.inr (.inl ⟨lead, second⟩)) third fourth more
    · exact .four (.inr (.inr ⟨lead, second⟩)) third fourth more

theorem append_cons_iff (ascii : c.toNat < 0x80) : Utf8 (s ++ c :: t) ↔ Utf8 s ∧ Utf8 t := by
  constructor
  · exact fun whole => split whole ascii
  · exact fun ⟨first, later⟩ => first.append (one ascii later)

theorem ascii_append_iff {front : Text} (ascii : ∀ c ∈ front, c.toNat < 0x80) :
    Utf8 (front ++ s) ↔ Utf8 s := by
  induction front with
  | nil => exact Iff.rfl
  | cons c front ih =>
    obtain ⟨first, rest⟩ := List.forall_mem_cons.mp ascii
    rw [List.cons_append, ← List.nil_append (c :: _), append_cons_iff first, and_iff_right nil]
    exact ih rest

/-- A text between ASCII texts is encoded exactly when all of it is. -/
theorem between_iff {front s back : Text} (before : ∀ c ∈ front, c.toNat < 0x80)
    (behind : ∀ c ∈ d :: back, c.toNat < 0x80) : Utf8 (front ++ (s ++ d :: back)) ↔ Utf8 s := by
  obtain ⟨first, rest⟩ := List.forall_mem_cons.mp behind
  rw [ascii_append_iff before, append_cons_iff first, and_iff_left (of_ascii rest)]

end Utf8
end Lib
