import Crown.CryptBaby
import Crown.Lib.Rejection

/-! The ids of `generateSecId`. Every byte below 248 gives a letter, each letter comes from four of
these bytes, and so no id is made by more random bytes than another. -/
namespace Crown.CryptBaby

open Lib Rejection

/-- What one random byte adds to the id. -/
def letter (b : UInt8) : Option Char :=
  if 248 ≤ b then none else some (secIdAlphabet.getD (b % 62).toNat '0')

theorem alphabet_distinct : secIdAlphabet.Nodup := by with_unfolding_all decide

theorem alphabet_length : secIdAlphabet.length = 62 := by with_unfolding_all decide

/-- The bytes that give one letter: 248 is four times 62. -/
def fourBytes (i : Fin 62) : {b : UInt8 // b.toNat < 248 ∧ b.toNat % 62 = i} ≃ Fin 4 where
  toFun b := ⟨b.1.toNat / 62, by omega⟩
  invFun k := ⟨UInt8.ofNat (62 * k + i), by
    have small : 62 * k.val + i.val < 2 ^ 8 := by omega
    rw [UInt8.toNat_ofNat', Nat.mod_eq_of_lt small]
    omega⟩
  left_inv b := by
    have whole : 62 * (b.1.toNat / 62) + b.1.toNat % 62 = b.1.toNat := Nat.div_add_mod _ _
    apply Subtype.ext
    simp only [← b.2.2, whole, UInt8.ofNat_toNat]
  right_inv k := by
    have small : 62 * k.val + i.val < 2 ^ 8 := by omega
    apply Fin.ext
    simp only [UInt8.toNat_ofNat', Nat.mod_eq_of_lt small]
    omega

theorem letter_eq_some_iff (b : UInt8) (i : Fin secIdAlphabet.length) :
    letter b = some (secIdAlphabet.get i) ↔ b.toNat < 248 ∧ b.toNat % 62 = i := by
  have inside : b.toNat % 62 < secIdAlphabet.length := by
    rw [alphabet_length]
    omega
  have given : letter b = if 248 ≤ b.toNat then none else some secIdAlphabet[b.toNat % 62] := by
    simp only [letter, UInt8.le_iff_toNat_le, UInt8.toNat_mod, UInt8.toNat_ofNat]
    rw [List.getD_eq_getElem _ _ inside]
  rw [given]
  split
  · rename_i passed
    simp
    omega
  · rename_i taken
    simp only [List.get_eq_getElem, Option.some.injEq, alphabet_distinct.getElem_inj_iff]
    omega

theorem giving_letter (member : c ∈ secIdAlphabet) : giving letter (some c) = 4 := by
  obtain ⟨i, rfl⟩ := List.mem_iff_get.mp member
  calc giving letter (some (secIdAlphabet.get i))
    _ = Fintype.card {b : UInt8 // b.toNat < 248 ∧ b.toNat % 62 = i} :=
        Fintype.card_congr (Equiv.subtypeEquivRight fun b => letter_eq_some_iff b i)
    _ = Fintype.card (Fin 4) := Fintype.card_congr (fourBytes (i.cast alphabet_length))
    _ = 4 := Fintype.card_fin 4

theorem giving_none : giving letter none = 8 := by decide +kernel

/-- The loop stops when the last of the bytes is consumed, and not before. -/
def Stops (bytes : List UInt8) (secId : Text) : Prop :=
  generateSecId bytes = some secId ∧
    ∀ fewer < bytes.length, generateSecId (bytes.take fewer) = none

instance (secId : Text) : DecidablePred (Stops · secId) :=
  fun bytes => inferInstanceAs (Decidable (_ = _ ∧ ∀ fewer < bytes.length, _))

theorem generateSecIdFrom_cons {start : Text} (short : start.length < secIdLength) (b : UInt8)
    (bytes : List UInt8) : generateSecIdFrom start (b :: bytes) =
      generateSecIdFrom (start ++ (letter b).toList) bytes := by
  rw [generateSecIdFrom, if_pos short, letter]
  split <;> simp

theorem generateSecIdFrom_short {start : Text} (short : start.length < secIdLength) :
    generateSecIdFrom start [] = none := if_pos short

theorem generateSecIdFrom_full {start : Text} (full : ¬start.length < secIdLength)
    (bytes : List UInt8) : generateSecIdFrom start bytes = some start := by
  cases bytes <;> rw [generateSecIdFrom, if_neg full]

theorem letter_mem (given : letter b = some c) : c ∈ secIdAlphabet := by
  unfold letter at given
  split at given
  · cases given
  · have inside : (b % 62).toNat < secIdAlphabet.length := by
      rw [alphabet_length, UInt8.toNat_mod]
      exact Nat.mod_lt _ (by decide)
    rw [List.getD_eq_getElem _ _ inside] at given
    exact Option.some.inj given ▸ List.getElem_mem inside

/-- The loop only adds letters. -/
theorem generateSecIdFrom_adds {start : Text}
    (generated : generateSecIdFrom start bytes = some secId) :
    ∃ added, secId = start ++ added ∧ ∀ c ∈ added, c ∈ secIdAlphabet := by
  induction bytes generalizing start with
  | nil =>
    by_cases short : start.length < secIdLength
    · rw [generateSecIdFrom_short short] at generated
      cases generated
    · rw [generateSecIdFrom_full short] at generated
      cases generated
      exact ⟨[], by simp⟩
  | cons b bytes ih =>
    by_cases short : start.length < secIdLength
    · rw [generateSecIdFrom_cons short] at generated
      obtain ⟨added, rfl, letters⟩ := ih generated
      refine ⟨(letter b).toList ++ added, by simp, fun c member => ?_⟩
      rcases List.mem_append.mp member with first | later
      · exact letter_mem (Option.mem_toList.mp first)
      · exact letters c later
    · rw [generateSecIdFrom_full short] at generated
      cases generated
      exact ⟨[], by simp⟩

/-- From any beginning of an id, the bytes the loop needs are the draws the rest is made of. -/
theorem stopsFrom_iff {start rest : Text} (length : start.length + rest.length = secIdLength)
    (bytes : List UInt8) :
    (generateSecIdFrom start bytes = some (start ++ rest) ∧
      ∀ fewer < bytes.length, generateSecIdFrom start (bytes.take fewer) = none) ↔
      Spends letter bytes rest := by
  induction bytes generalizing start rest with
  | nil =>
    rw [spends_nil_iff]
    cases rest with
    | nil =>
      rw [generateSecIdFrom_full (by simpa using length.ge)]
      simp
    | cons c rest =>
      rw [generateSecIdFrom_short (by simp only [List.length_cons] at length; omega)]
      simp
  | cons b bytes ih =>
    cases rest with
    | nil =>
      refine iff_of_false ?_ (not_spends_nil b bytes)
      rintro ⟨_, needed⟩
      have none := needed 0 (Nat.succ_pos _)
      rw [List.take_zero, generateSecIdFrom_full (by simpa using length.ge)] at none
      cases none
    | cons c rest =>
      have short : start.length < secIdLength := by
        simp only [List.length_cons] at length
        omega
      have needed : (∀ fewer < (b :: bytes).length,
          generateSecIdFrom start ((b :: bytes).take fewer) = none) ↔
          ∀ fewer < bytes.length,
            generateSecIdFrom (start ++ (letter b).toList) (bytes.take fewer) = none := by
        simp only [List.length_cons, Nat.forall_lt_succ_left, List.take_zero, List.take_succ_cons,
          generateSecIdFrom_short short, generateSecIdFrom_cons short, true_and]
      rw [needed, generateSecIdFrom_cons short, spends_cons_iff]
      cases given : letter b with
      | none => simpa using ih length
      | some d =>
        simp only [Option.some.injEq, reduceCtorEq, false_and, or_false, Option.toList_some]
        by_cases same : d = c
        · subst same
          have rest_length : (start ++ [d]).length + rest.length = secIdLength := by
            simp only [List.length_append, List.length_cons, List.length_nil] at length ⊢
            omega
          simpa using ih rest_length
        · refine iff_of_false (fun stopped => same ?_) (fun spent => same spent.1)
          obtain ⟨added, extended, _⟩ := generateSecIdFrom_adds stopped.1
          rw [List.append_assoc, List.append_cancel_left_eq] at extended
          exact (List.cons.inj extended).1.symm

theorem stops_iff {secId : Text} (length : secId.length = secIdLength) (bytes : List UInt8) :
    Stops bytes secId ↔ Spends letter bytes secId := by
  have whole : ([] : Text).length + secId.length = secIdLength := by simpa using length
  exact stopsFrom_iff whole bytes

/-- An id: 27 letters of the alphabet. -/
structure SecId where
  text : Text
  length : text.length = secIdLength
  letters : ∀ c ∈ text, c ∈ secIdAlphabet

/-- Of the bytes before the last, 26 give letters, wherever they stand. -/
theorem words_stops (length : Nat) (secId : SecId) :
    words (length + 1) (Stops · secId.text) = length.choose 26 * 4 ^ 27 * 8 ^ (length - 26) := by
  rw [words_congr (stops_iff secId.length)]
  obtain ⟨text, whole, letters⟩ := secId
  cases text with
  | nil => cases whole
  | cons c rest =>
    have left : rest.length = 26 := Nat.succ.inj whole
    rw [words_spends length c rest fun d member => giving_letter (letters d member), left,
      giving_none]

/-- As many byte sequences of a length end at one id as at any other. -/
theorem generateSecId_uniform :
    (∀ (length : Nat) (secId other : SecId),
      words length (Stops · secId.text) = words length (Stops · other.text)) ∧
    ∀ bytes secId, generateSecId bytes = some secId →
      secId.length = 27 ∧ ∀ c ∈ secId, c ∈ secIdAlphabet := by
  refine ⟨fun length secId other => ?_, fun bytes secId generated => ?_⟩
  · rw [words_congr (stops_iff secId.length), words_congr (stops_iff other.length)]
    exact words_spends_eq length (secId.length.trans other.length.symm)
      (fun c member => giving_letter (secId.letters c member))
      (fun c member => giving_letter (other.letters c member))
  · obtain ⟨added, rfl, letters⟩ := generateSecIdFrom_adds generated
    exact ⟨generateSecIdFrom_length (Nat.zero_le _) generated, by simpa using letters⟩

/-- The id of one letter only. -/
def SecId.repeated (c : Char) (known : c ∈ secIdAlphabet) : SecId where
  text := List.replicate secIdLength c
  length := List.length_replicate
  letters _ member := List.eq_of_mem_replicate member ▸ known

def zeros : SecId := .repeated '0' (by with_unfolding_all decide)

def ones : SecId := .repeated '1' (by with_unfolding_all decide)

theorem zeros_ones : words 40 (Stops · zeros.text) = words 40 (Stops · ones.text) ∧
    (List.replicate 27 '0').length = 27 ∧ ∀ c ∈ List.replicate 27 '0', c ∈ secIdAlphabet :=
  ⟨generateSecId_uniform.1 40 zeros ones,
    generateSecId_uniform.2 (List.replicate 27 0) _ (by decide +kernel)⟩

end Crown.CryptBaby
