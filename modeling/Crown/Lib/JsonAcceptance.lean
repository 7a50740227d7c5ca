import Crown.Lib.JsonReader

/-! The reader accepts every text of the grammar. A number is whole only in front of what may
stand behind a value, so parts of the grammar are followed to such a place. -/
namespace Lib.JsonText

/-- What may stand behind a value. -/
def Delimited (r : Text) : Prop :=
  ∀ c ∈ r.head?, isBlank c = true ∨ c = ',' ∨ c = ']' ∨ c = '\x7d'

theorem delimited_cons (known : isBlank c = true ∨ c = ',' ∨ c = ']' ∨ c = '\x7d') (r : Text) :
    Delimited (c :: r) := by
  simpa [Delimited] using known

theorem Blanks.delimited (blanks : Blanks s r) (delimited : Delimited r) : Delimited s := by
  cases blanks with
  | none => exact delimited
  | more blank rest => exact delimited_cons (.inl blank) _

theorem delimiter_apart (known : isBlank c = true ∨ c = ',' ∨ c = ']' ∨ c = '\x7d') :
    c ≠ '.' ∧ ¬(c = 'e' ∨ c = 'E') ∧ c.isDigit = false := by
  simp only [isBlank, Bool.or_eq_true, decide_eq_true_eq] at known
  rcases known with (((rfl | rfl) | rfl) | rfl) | rfl | rfl | rfl <;> decide

theorem escapable_apart (known : c ∈ escapable) : c ≠ 'u' := by
  rintro rfl
  exact absurd known (by decide)

theorem digit_apart (digit : c.isDigit = true) : ¬(c = '+' ∨ c = '-') := by
  rintro (rfl | rfl) <;> cases digit

namespace State

variable {stack : List Frame} {s r : Text}

theorem accepts_of_step {s next : State} (stepped : s.step c = some next)
    (accepts : next.Accepts text) : s.Accepts (c :: text) :=
  (accepts_cons s c text).mpr ⟨next, stepped, accepts⟩

theorem accepts_blanks {mode : Mode}
    (passes : ∀ c, isBlank c = true → step ⟨mode, stack⟩ c = some ⟨mode, stack⟩)
    (blanks : Blanks s r) (accepts : Accepts ⟨mode, stack⟩ r) : Accepts ⟨mode, stack⟩ s := by
  induction blanks with
  | none => exact accepts
  | more blank rest ih => exact accepts_of_step (passes _ blank) (ih accepts)

theorem accepts_digits {mode : Mode}
    (passes : ∀ c, c.isDigit = true → step ⟨mode, stack⟩ c = some ⟨mode, stack⟩)
    (digits : Digits s r) (accepts : Accepts ⟨mode, stack⟩ r) : Accepts ⟨mode, stack⟩ s := by
  induction digits with
  | none => exact accepts
  | more digit rest ih => exact accepts_of_step (passes _ digit) (ih accepts)

/-- Where a number may be whole, it is whole in front of a delimiter. -/
theorem accepts_whole {mode : Mode} (number : mode ∈ [.zero, .integer, .fraction, .power])
    (delimited : Delimited r) (accepts : Accepts ⟨.after, stack⟩ r) : Accepts ⟨mode, stack⟩ r := by
  cases r with
  | nil =>
    obtain ⟨-, empty⟩ := (accepts_nil _).mp accepts
    refine (accepts_nil _).mpr ⟨?_, empty⟩
    simp only [List.mem_cons, List.not_mem_nil, or_false] at number
    rcases number with rfl | rfl | rfl | rfl <;> rfl
  | cons c r =>
    obtain ⟨dot, letter, digit⟩ := delimiter_apart (delimited c rfl)
    obtain ⟨next, stepped, later⟩ := (accepts_cons _ c r).mp accepts
    refine accepts_of_step ?_ later
    rw [← stepped]
    simp only [List.mem_cons, List.not_mem_nil, or_false] at number
    rcases number with rfl | rfl | rfl | rfl <;>
      simp [digitOr, afterInteger, afterFraction, dot, letter, digit]

theorem accepts_exponent {mode : Mode} (number : mode ∈ [.zero, .integer, .fraction])
    (exponent : Exponent s r) (delimited : Delimited r) (accepts : Accepts ⟨.after, stack⟩ r) :
    Accepts ⟨mode, stack⟩ s := by
  have begun : ∀ {e}, e = 'e' ∨ e = 'E' → step ⟨mode, stack⟩ e = some ⟨.exponent, stack⟩ := by
    simp only [List.mem_cons, List.not_mem_nil, or_false] at number
    rintro e (rfl | rfl) <;> rcases number with rfl | rfl | rfl <;> rfl
  have powers : ∀ {t}, SomeDigits t r →
      Accepts ⟨.exponent, stack⟩ t ∧ Accepts ⟨.sign, stack⟩ t := by
    rintro _ ⟨digit, rest⟩
    have later : Accepts ⟨.power, stack⟩ _ :=
      accepts_digits (fun c digit => by simp [digitOr, digit]) rest
        (accepts_whole (by simp) delimited accepts)
    constructor
    · exact accepts_of_step (by simp [digitOr, digit, digit_apart digit]) later
    · exact accepts_of_step (by simp [digitOr, digit]) later
  cases exponent with
  | none =>
    refine accepts_whole ?_ delimited accepts
    simp only [List.mem_cons, List.not_mem_nil, or_false] at number ⊢
    tauto
  | unsigned letter digits => exact accepts_of_step (begun letter) (powers digits).1
  | signed letter sign digits =>
    exact accepts_of_step (begun letter) (accepts_of_step (if_pos sign) (powers digits).2)

theorem accepts_fraction {mode : Mode} (number : mode ∈ [.zero, .integer])
    (fraction : Fraction s r) (delimited : Delimited r) (accepts : Accepts ⟨.after, stack⟩ r) :
    Accepts ⟨mode, stack⟩ s := by
  simp only [List.mem_cons, List.not_mem_nil, or_false] at number
  cases fraction with
  | none rest =>
    exact accepts_exponent (by rcases number with rfl | rfl <;> simp) rest delimited accepts
  | some digits rest =>
    obtain ⟨digit, more⟩ := digits
    have pointed : step ⟨mode, stack⟩ '.' = some ⟨.point, stack⟩ := by
      rcases number with rfl | rfl <;> rfl
    have later : Accepts ⟨.fraction, stack⟩ _ :=
      accepts_digits (fun c digit => by simp [digitOr, digit]) more
        (accepts_exponent (by simp) rest delimited accepts)
    exact accepts_of_step pointed (accepts_of_step (by simp [digitOr, digit]) later)

theorem value_digit (digit : c.isDigit = true) (nonzero : c ≠ '0') :
    step ⟨.value, stack⟩ c = some ⟨.integer, stack⟩ := by
  have apart : ∀ d : Char, d.isDigit = false → c ≠ d := fun d other same =>
    Bool.false_ne_true (other.symm.trans (same ▸ digit))
  have solid : isBlank c = false := by
    simp [isBlank, apart ' ' rfl, apart '\t' rfl, apart '\n' rfl, apart '\r' rfl]
  simp [solid, beginValue, apart '\x7b' rfl, apart '[' rfl, apart '"' rfl, apart 't' rfl,
    apart 'f' rfl, apart 'n' rfl, apart '-' rfl, nonzero, digit]

theorem accepts_unsigned {mode : Mode} (begins : mode = .value ∨ mode = .minus)
    (number : Unsigned s r) (delimited : Delimited r) (accepts : Accepts ⟨.after, stack⟩ r) :
    Accepts ⟨mode, stack⟩ s := by
  cases number with
  | zero rest =>
    have zero : step ⟨mode, stack⟩ '0' = some ⟨.zero, stack⟩ := by
      rcases begins with rfl | rfl <;> rfl
    exact accepts_of_step zero (accepts_fraction (by simp) rest delimited accepts)
  | integer digit nonzero digits rest =>
    have later : Accepts ⟨.integer, stack⟩ _ :=
      accepts_digits (fun c digit => by simp [digitOr, digit]) digits
        (accepts_fraction (by simp) rest delimited accepts)
    refine accepts_of_step ?_ later
    rcases begins with rfl | rfl
    · exact value_digit digit nonzero
    · simp [digitOr, digit, nonzero]

theorem accepts_chars {isKey : Bool} (chars : Chars s r)
    (accepts : Accepts ⟨closed isKey, stack⟩ r) : Accepts ⟨.string isKey, stack⟩ s := by
  induction chars with
  | closed => exact accepts_of_step rfl accepts
  | plain stands more ih =>
    refine accepts_of_step ?_ (ih accepts)
    have apart := stands
    simp only [isPlain, Bool.and_eq_true, decide_eq_true_eq, ne_eq] at apart
    simp [apart.1.2, apart.2, stands]
  | escape known more ih =>
    refine accepts_of_step rfl (accepts_of_step ?_ (ih accepts))
    simp [escapable_apart known, known]
  | unit first second third fourth more ih =>
    refine accepts_of_step rfl (accepts_of_step rfl (accepts_of_step (if_pos first)
      (accepts_of_step (if_pos second) (accepts_of_step (if_pos third)
        (accepts_of_step (if_pos fourth) (ih accepts))))))

/-- Behind the bracket the first element may come as any other. -/
theorem accepts_firstElement (accepts : Accepts ⟨.value, .array :: stack⟩ s) :
    Accepts ⟨.firstElement, stack⟩ s := by
  induction s with
  | nil => cases ((accepts_nil _).mp accepts).1
  | cons c s ih =>
    obtain ⟨next, stepped, later⟩ := (accepts_cons _ c s).mp accepts
    rw [step_value] at stepped
    split at stepped
    · rename_i blank
      cases stepped
      exact accepts_of_step (if_pos blank) (ih later)
    · rename_i solid
      have unclosed : c ≠ ']' := by
        rintro rfl
        cases stepped
      refine accepts_of_step ?_ later
      simp [solid, unclosed, stepped]

theorem accepts_firstKey (accepts : Accepts ⟨.key, .object :: stack⟩ s) :
    Accepts ⟨.firstKey, stack⟩ s := by
  induction s with
  | nil => cases ((accepts_nil _).mp accepts).1
  | cons c s ih =>
    obtain ⟨next, stepped, later⟩ := (accepts_cons _ c s).mp accepts
    rw [step_key] at stepped
    split at stepped
    · rename_i blank
      cases stepped
      exact accepts_of_step (if_pos blank) (ih later)
    split at stepped
    · rename_i quote
      cases stepped
      subst quote
      exact accepts_of_step rfl later
    · cases stepped

end State

/-- The reader takes a part of the grammar where it expects one. -/
def Part.Taken : Part → Text → Text → Prop
  | .value, s, r | .element, s, r => ∀ stack, Delimited r →
      State.Accepts ⟨.after, stack⟩ r → State.Accepts ⟨.value, stack⟩ s
  | .elements, s, r => ∀ outer, Delimited r →
      State.Accepts ⟨.after, .array :: outer⟩ r → State.Accepts ⟨.value, .array :: outer⟩ s
  | .member, s, r | .members, s, r => ∀ outer, Delimited r →
      State.Accepts ⟨.after, .object :: outer⟩ r → State.Accepts ⟨.key, .object :: outer⟩ s

open State

theorem Derives.taken (derives : Derives part s r) : part.Taken s r := by
  induction derives with
  -- A word is read letter by letter, by computation.
  | nullWord | trueWord | falseWord => exact fun stack _ accepts => accepts
  | number rest =>
    intro stack delimited accepts
    cases rest with
    | positive rest => exact accepts_unsigned (.inl rfl) rest delimited accepts
    | negative rest =>
      exact accepts_of_step rfl (accepts_unsigned (.inr rfl) rest delimited accepts)
  | string chars =>
    intro stack _ accepts
    have inside : Accepts ⟨.string false, stack⟩ _ := accepts_chars chars accepts
    exact accepts_of_step rfl inside
  | emptyArray blanks =>
    intro stack _ accepts
    have inside : Accepts ⟨.firstElement, stack⟩ _ :=
      accepts_blanks (fun c blank => if_pos blank) blanks (accepts_of_step rfl accepts)
    exact accepts_of_step rfl inside
  | array items ih =>
    intro stack _ accepts
    have inside := ih stack (delimited_cons (by simp) _) (accepts_of_step rfl accepts)
    exact accepts_of_step rfl (accepts_firstElement inside)
  | emptyObject blanks =>
    intro stack _ accepts
    have inside : Accepts ⟨.firstKey, stack⟩ _ :=
      accepts_blanks (fun c blank => if_pos blank) blanks (accepts_of_step rfl accepts)
    exact accepts_of_step rfl inside
  | object items ih =>
    intro stack _ accepts
    have inside := ih stack (delimited_cons (by simp) _) (accepts_of_step rfl accepts)
    exact accepts_of_step rfl (accepts_firstKey inside)
  | element before value behind ih =>
    intro stack delimited accepts
    have later : Accepts ⟨.after, stack⟩ _ :=
      accepts_blanks (fun c blank => if_pos blank) behind accepts
    exact accepts_blanks (fun c blank => if_pos blank) before
      (ih stack (behind.delimited delimited) later)
  | lastElement last ih => exact fun outer => ih (.array :: outer)
  | moreElements first rest first_ih rest_ih =>
    intro outer delimited accepts
    exact first_ih _ (delimited_cons (by simp) _)
      (accepts_of_step rfl (rest_ih outer delimited accepts))
  | member before key behind value ih =>
    intro outer delimited accepts
    have colon : Accepts ⟨.colon, .object :: outer⟩ _ :=
      accepts_blanks (fun c blank => if_pos blank) behind
        (accepts_of_step rfl (ih _ delimited accepts))
    have inside : Accepts ⟨.string true, .object :: outer⟩ _ := accepts_chars key colon
    exact accepts_blanks (fun c blank => if_pos blank) before (accepts_of_step rfl inside)
  | lastMember last ih => exact ih
  | moreMembers first rest first_ih rest_ih =>
    intro outer delimited accepts
    exact first_ih outer (delimited_cons (by simp) _)
      (accepts_of_step rfl (rest_ih outer delimited accepts))

/-- The reader accepts the elements of the grammar. -/
theorem start_accepts_iff (text : Text) : start.Accepts text ↔ Derives .element text [] := by
  constructor
  · intro accepts
    obtain ⟨r, ⟨t, before, value⟩, behind⟩ := accepts_sound start accepts
    exact .element before value behind
  · intro element
    refine element.taken [] ?_ ?_
    · exact fun c member => by cases member
    · exact (accepts_nil _).mpr ⟨rfl, rfl⟩

end Lib.JsonText
