import Crown.Lib.Utf16

/-! Strings in which no surrogate stands alone: what is encoded of them is decoded to the same
string. -/
namespace Lib.JsString

/-- Every surrogate has its other half. -/
def WellFormed : JsString → Prop
  | [] => True
  | [u] => ¬(isHigh u || isLow u) = true
  | u :: v :: rest =>
    if (isHigh u && isLow v) = true then WellFormed rest
    else ¬(isHigh u || isLow u) = true ∧ WellFormed (v :: rest)

theorem wellFormed_pair {u v : UInt16} (pair : (isHigh u && isLow v) = true) (rest : JsString) :
    WellFormed (u :: v :: rest) ↔ WellFormed rest := by
  rw [WellFormed, if_pos pair]

theorem wellFormed_alone {u v : UInt16} (apart : ¬(isHigh u && isLow v) = true) (rest : JsString) :
    WellFormed (u :: v :: rest) ↔ ¬(isHigh u || isLow u) = true ∧ WellFormed (v :: rest) := by
  rw [WellFormed, if_neg apart]

instance decideWellFormed : (s : JsString) → Decidable (WellFormed s)
  | [] => .isTrue trivial
  | [u] => inferInstanceAs (Decidable (¬(isHigh u || isLow u) = true))
  | u :: v :: rest =>
    have := decideWellFormed rest
    have := decideWellFormed (v :: rest)
    if pair : (isHigh u && isLow v) = true then decidable_of_iff _ (wellFormed_pair pair rest).symm
    else decidable_of_iff _ (wellFormed_alone pair rest).symm

/-- The numbers of the characters: all code points but the surrogates. -/
def Scalar (point : Nat) : Prop := point < 0xD800 ∨ 0xE000 ≤ point ∧ point < 0x110000

theorem alone_wellFormed {u : UInt16} (single : ¬(isHigh u || isLow u) = true) :
    Scalar (alone u) ∧ units (alone u) = [u] := by
  have small := u.toNat_lt
  have same : alone u = u.toNat := by
    unfold alone
    exact if_neg single
  constructor
  · rw [same]
    simp only [isHigh, isLow, Bool.or_eq_true, Bool.and_eq_true, decide_eq_true_eq] at single
    unfold Scalar
    omega
  · rw [same, units, if_pos (by omega), UInt16.ofNat_toNat]

theorem paired_wellFormed {u v : UInt16} (pair : (isHigh u && isLow v) = true) :
    Scalar (paired u v) ∧ units (paired u v) = [u, v] := by
  have valid := paired_lt pair
  have large : 0x10000 ≤ paired u v := by
    unfold paired
    omega
  refine ⟨.inr ⟨by omega, valid⟩, ?_⟩
  rw [units, if_neg (by omega)]
  simp only [isHigh, isLow, Bool.and_eq_true, decide_eq_true_eq] at pair
  have high : 0xD800 + (paired u v - 0x10000) / 0x400 = u.toNat := by
    unfold paired
    omega
  have low : 0xDC00 + (paired u v - 0x10000) % 0x400 = v.toNat := by
    unfold paired
    omega
  rw [high, low, UInt16.ofNat_toNat, UInt16.ofNat_toNat]

/-- What holds of no units, and is kept when the units of a character are put in front, holds of
a well-formed string. -/
theorem WellFormed.induction {P : JsString → Prop} (empty : P [])
    (more : ∀ point rest, Scalar point →
      codePoints (units point ++ rest) = point :: codePoints rest → P rest →
        P (units point ++ rest)) {s : JsString} (formed : WellFormed s) : P s := by
  induction s using codePoints.induct with
  | case1 => exact empty
  | case2 u =>
    obtain ⟨scalar, same⟩ := alone_wellFormed formed
    have first := more (alone u) [] scalar (by rw [same]; rfl) empty
    rwa [same] at first
  | case3 u v rest pair ih =>
    obtain ⟨scalar, same⟩ := paired_wellFormed pair
    rw [wellFormed_pair pair] at formed
    have first := more (paired u v) rest scalar (by rw [same]; exact if_pos pair) (ih formed)
    rwa [same] at first
  | case4 u v rest apart ih =>
    rw [wellFormed_alone apart] at formed
    obtain ⟨scalar, same⟩ := alone_wellFormed formed.1
    have first := more (alone u) (v :: rest) scalar (by rw [same]; exact if_neg apart) (ih formed.2)
    rwa [same] at first

theorem utf8_cons {s rest : JsString} {point : Nat} (points : codePoints s = point :: codePoints rest) :
    utf8 s = (utf8Bytes point).map Char.ofNat ++ utf8 rest := by
  rw [utf8, points, List.flatMap_cons, utf8]

/-- The bytes that are still due complete a code point. -/
inductive Completes : Begun → List Nat → Nat → Prop where
  | last {point low high byte value : Nat} (within : low ≤ byte ∧ byte ≤ high)
      (small : byte < 0x100) (whole : point * 0x40 + (byte - 0x80) = value) :
      Completes ⟨point, 1, low, high⟩ [byte] value
  | later {point due low high byte value : Nat} {bytes : List Nat}
      (within : low ≤ byte ∧ byte ≤ high) (small : byte < 0x100)
      (more : Completes ⟨point * 0x40 + (byte - 0x80), due + 1, 0x80, 0xBF⟩ bytes value) :
      Completes ⟨point, due + 2, low, high⟩ (byte :: bytes) value

/-- The first byte of a character that is not ASCII begins it, and the others complete it. -/
theorem utf8Bytes_completes {point : Nat} (scalar : Scalar point) (large : ¬point < 0x80) :
    ∃ byte begun bytes, utf8Bytes point = byte :: bytes ∧ byte < 0x100 ∧
      lead byte = ([], some begun) ∧ Completes begun bytes point := by
  unfold Scalar at scalar
  unfold utf8Bytes
  rw [if_neg large]
  split
  · have first : lead (0xC0 + point / 0x40) = ([], some ⟨point / 0x40, 1, 0x80, 0xBF⟩) := by
      rw [lead, if_neg (by omega), if_pos (by omega), Nat.add_sub_cancel_left]
    exact ⟨_, _, _, rfl, by omega, first, .last (by omega) (by omega) (by omega)⟩
  · split
    · have first : lead (0xE0 + point / 0x1000) = ([], some ⟨point / 0x1000, 2,
          if 0xE0 + point / 0x1000 = 0xE0 then 0xA0 else 0x80,
          if 0xE0 + point / 0x1000 = 0xED then 0x9F else 0xBF⟩) := by
        rw [lead, if_neg (by omega), if_neg (by omega), if_pos (by omega), Nat.add_sub_cancel_left]
      refine ⟨_, _, _, rfl, by omega, first, ?_⟩
      refine .later ⟨by split <;> omega, by split <;> omega⟩ (by omega) ?_
      exact .last (by omega) (by omega) (by omega)
    · have first : lead (0xF0 + point / 0x40000) = ([], some ⟨point / 0x40000, 3,
          if 0xF0 + point / 0x40000 = 0xF0 then 0x90 else 0x80,
          if 0xF0 + point / 0x40000 = 0xF4 then 0x8F else 0xBF⟩) := by
        rw [lead, if_neg (by omega), if_neg (by omega), if_neg (by omega), if_pos (by omega),
          Nat.add_sub_cancel_left]
      refine ⟨_, _, _, rfl, by omega, first, ?_⟩
      refine .later ⟨by split <;> omega, by split <;> omega⟩ (by omega) ?_
      refine .later (by omega) (by omega) ?_
      exact .last (by omega) (by omega) (by omega)

theorem decode_byte {byte : Nat} (small : byte < 0x100) (rest : Text) :
    decode none (Char.ofNat byte :: rest) = (lead byte).1 ++ decode (lead byte).2 rest := by
  rw [decode, toNat_ofNat (by omega)]

theorem Completes.decode {begun : Begun} {bytes : List Nat} {point : Nat}
    (completes : Completes begun bytes point) (rest : Text) :
    decode (some begun) (bytes.map Char.ofNat ++ rest) = units point ++ decode none rest := by
  induction completes with
  | last within small whole =>
    rw [List.map_singleton, List.singleton_append, JsString.decode, toNat_ofNat (by omega),
      if_pos within, ← whole]
    rfl
  | later within small more ih =>
    rw [List.map_cons, List.cons_append, JsString.decode, toNat_ofNat (by omega), if_pos within, ← ih]
    exact if_neg (by simp)

/-- The bytes of a character are decoded to it. -/
theorem decode_point {point : Nat} (scalar : Scalar point) (rest : Text) :
    decode none ((utf8Bytes point).map Char.ofNat ++ rest) = units point ++ decode none rest := by
  by_cases ascii : point < 0x80
  · rw [utf8Bytes, if_pos ascii, List.map_singleton, List.singleton_append, decode_byte (by omega),
      lead, if_pos ascii, units, if_pos (by omega)]
  · obtain ⟨byte, begun, bytes, parts, small, first, completes⟩ :=
      utf8Bytes_completes scalar ascii
    rw [parts, List.map_cons, List.cons_append, decode_byte small, first]
    exact completes.decode rest

/-- A well-formed string comes back. -/
theorem ofUtf8_utf8 {s : JsString} (formed : WellFormed s) : ofUtf8 (utf8 s) = s := by
  refine WellFormed.induction (P := fun s => ofUtf8 (utf8 s) = s) rfl ?_ formed
  intro point rest scalar points ih
  rw [utf8_cons points, ofUtf8, decode_point scalar]
  exact congrArg _ ih

theorem utf8Bytes_lt {point byte : Nat} (valid : point < 0x110000) (member : byte ∈ utf8Bytes point) :
    byte < 0x100 := by
  unfold utf8Bytes at member
  split at member
  · simp only [List.mem_singleton] at member
    omega
  · split at member
    · simp only [List.mem_cons, List.not_mem_nil, or_false] at member
      omega
    · split at member <;> simp only [List.mem_cons, List.not_mem_nil, or_false] at member <;> omega

theorem codePoints_lt (s : JsString) : ∀ point ∈ codePoints s, point < 0x110000 := by
  induction s using codePoints.induct with
  | case1 => exact fun _ member => (List.not_mem_nil member).elim
  | case2 u =>
    have small := alone_le u
    exact List.forall_mem_singleton.mpr (by omega)
  | case3 u v rest pair ih =>
    rw [codePoints_pair pair]
    exact List.forall_mem_cons.mpr ⟨paired_lt pair, ih⟩
  | case4 u v rest apart ih =>
    have small := alone_le u
    rw [codePoints_alone apart]
    exact List.forall_mem_cons.mpr ⟨by omega, ih⟩

/-- What is sent are bytes. -/
theorem utf8_lt (s : JsString) : ∀ c ∈ utf8 s, c.toNat < 0x100 := by
  intro c member
  obtain ⟨point, present, made⟩ := List.mem_flatMap.mp member
  obtain ⟨byte, chosen, rfl⟩ := List.mem_map.mp made
  have small := utf8Bytes_lt (codePoints_lt s point present) chosen
  rwa [toNat_ofNat (by omega)]

theorem length_units_le (point : Nat) : (units point).length ≤ 2 := by
  unfold units
  split
  · exact Nat.le_succ 1
  · exact Nat.le_refl 2

theorem lead_cases (byte : Nat) :
    (∃ u, lead byte = ([u], none)) ∨ ∃ begun, lead byte = ([], some begun) := by
  unfold lead
  split
  · exact .inl ⟨_, rfl⟩
  · split
    · exact .inr ⟨_, rfl⟩
    · split
      · exact .inr ⟨_, rfl⟩
      · split
        · exact .inr ⟨_, rfl⟩
        · exact .inl ⟨_, rfl⟩

/-- There is no more than a unit for each byte. -/
theorem length_decode_le (bytes : Text) : (decode none bytes).length ≤ bytes.length ∧
    ∀ begun, (decode (some begun) bytes).length ≤ bytes.length + 1 := by
  induction bytes with
  | nil => exact ⟨Nat.le_refl 0, fun begun => Nat.le_refl 1⟩
  | cons c rest ih =>
    obtain ⟨whole, part⟩ := ih
    have anew : ((lead c.toNat).1 ++ decode (lead c.toNat).2 rest).length ≤ rest.length + 1 := by
      rcases lead_cases c.toNat with ⟨u, first⟩ | ⟨begun, first⟩
      · rw [first]
        exact Nat.succ_le_succ whole
      · rw [first]
        exact part begun
    refine ⟨by rwa [decode], fun begun => ?_⟩
    rw [decode]
    split
    · dsimp only
      split
      · have two := length_units_le (begun.point * 0x40 + (c.toNat - 0x80))
        rw [List.length_append, List.length_cons]
        omega
      · exact (part _).trans (Nat.le_succ _)
    · exact Nat.succ_le_succ anew

theorem lead_begun {byte : Nat} {begun : Begun} (first : lead byte = ([], some begun)) :
    (0xC2 ≤ byte ∧ byte ≤ 0xF4) ∧ (begun.due = 1 → begun.point < 0x20) ∧ begun.high ≤ 0xBF := by
  unfold lead at first
  split at first
  · cases first
  · split at first
    · obtain rfl := Option.some.inj (Prod.mk.inj first).2
      exact ⟨by omega, fun _ => by dsimp only; omega, Nat.le_refl _⟩
    · split at first
      · obtain rfl := Option.some.inj (Prod.mk.inj first).2
        exact ⟨by omega, fun one => (by cases one), by dsimp only; split <;> omega⟩
      · split at first
        · obtain rfl := Option.some.inj (Prod.mk.inj first).2
          exact ⟨by omega, fun one => (by cases one), by dsimp only; split <;> omega⟩
        · cases first

/-- A code point that is begun is broken off, or takes more bytes than it has units. -/
theorem decode_lead {byte : Nat} {begun : Begun} (first : lead byte = ([], some begun))
    (bytes : Text) : (decode (some begun) bytes).head? = some 0xFFFD ∨
      (decode (some begun) bytes).length ≤ bytes.length := by
  obtain ⟨-, short, high⟩ := lead_begun first
  cases bytes with
  | nil => exact .inl rfl
  | cons c rest =>
    obtain ⟨whole, part⟩ := length_decode_le rest
    rw [decode]
    split
    · refine .inr ?_
      dsimp only
      split
      · rename_i one
        have small := short one
        rw [units, if_pos (by omega), List.length_append, List.length_singleton, List.length_cons]
        omega
      · exact part _
    · exact .inl rfl

end Lib.JsString
