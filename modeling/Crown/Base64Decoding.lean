import Crown.CryptBaby
import Crown.Lib.Base64Encoding

/-! The decoder of `crypto/cryptbaby.cpp` undoes the encoding. It shifts its symbols through 32
bits, of which it ever reads the last fourteen, and passes over what is no symbol. -/
namespace Crown.CryptBaby

open Lib Lib.Base64

/-- The table as it is written. -/
def lookupTable : List Nat :=
  List.replicate 43 64 ++ [62, 64, 64, 64, 63, 52, 53, 54, 55, 56, 57, 58, 59, 60, 61, 64, 64, 64, 64,
    64, 64, 64, 0, 1, 2, 3, 4, 5, 6, 7, 8, 9, 10, 11, 12, 13, 14, 15, 16, 17, 18, 19, 20, 21, 22, 23,
    24, 25, 64, 64, 64, 64, 64, 64, 26, 27, 28, 29, 30, 31, 32, 33, 34, 35, 36, 37, 38, 39, 40, 41, 42,
    43, 44, 45, 46, 47, 48, 49, 50, 51] ++ List.replicate 133 64

/-- The table has an entry for each byte, and `lookup` reads it. -/
theorem lookup_table : lookupTable.length = 256 ∧
    ∀ byte < 256, lookupTable.getD byte 64 = (lookup (Char.ofNat byte)).getD 64 := by
  decide +kernel

theorem lookup_standard (small : n < 64) : lookup (standard n) = some n := by
  have all : ∀ n < 64, lookup (standard n) = some n := by decide
  exact all n small

/-- A symbol has an entry that is its place in the alphabet. -/
theorem standard_of_lookup (found : lookup c = some n) : n < 64 ∧ standard n = c := by
  have code : Char.ofNat c.toNat = c := Char.ofNat_toNat c
  unfold lookup at found
  unfold standard symbol
  split at found
  · rename_i upper
    have first : 65 ≤ c.toNat := upper.1
    have last : c.toNat ≤ 90 := upper.2
    cases found
    have place : c.toNat - 65 + 65 = c.toNat := by omega
    rw [if_pos (by omega), place]
    exact ⟨by omega, code⟩
  split at found
  · rename_i lower
    have first : 97 ≤ c.toNat := lower.1
    have last : c.toNat ≤ 122 := lower.2
    cases found
    have place : c.toNat - 71 + 71 = c.toNat := by omega
    rw [if_neg (by omega), if_pos (by omega), place]
    exact ⟨by omega, code⟩
  split at found
  · rename_i digit
    have first : 48 ≤ c.toNat := digit.1
    have last : c.toNat ≤ 57 := digit.2
    cases found
    have place : c.toNat + 4 - 4 = c.toNat := by omega
    rw [if_neg (by omega), if_neg (by omega), if_pos (by omega), place]
    exact ⟨by omega, code⟩
  split at found
  · rename_i plus
    cases found
    exact ⟨by decide, plus.symm⟩
  split at found
  · rename_i slash
    cases found
    exact ⟨by decide, slash.symm⟩
  · cases found

theorem lookup_foreign (foreign : Foreign standard c) : lookup c = none := by
  cases found : lookup c with
  | none => rfl
  | some n =>
    obtain ⟨small, same⟩ := standard_of_lookup found
    exact absurd same (foreign n small)

/-- The symbol that completes no byte is taken in. -/
theorem decodeFrom_first (small : n < 64) (val : Nat) (input : Text) :
    decodeFrom val (-8) (standard n :: input) = decodeFrom ((val * 64 + n) % 2 ^ 32) (-2) input := by
  rw [decodeFrom, lookup_standard small]
  rfl

/-- A later symbol completes a byte and leaves `pending` bits. -/
theorem decodeFrom_completed (small : n < 64) (pending val : Nat) (input : Text) :
    decodeFrom val (pending - 6) (standard n :: input) =
      Char.ofNat ((val * 64 + n) % 2 ^ 32 / 2 ^ pending % 256) ::
        decodeFrom ((val * 64 + n) % 2 ^ 32) (pending - 8) input := by
  have complete : (pending : Int) - 6 + 6 = pending := Int.sub_add_cancel _ _
  rw [decodeFrom, lookup_standard small]
  simp only [complete]
  rw [if_pos (Int.natCast_nonneg _), Int.toNat_natCast]

theorem decodeFrom_second (small : n < 64) (val : Nat) (input : Text) :
    decodeFrom val (-2) (standard n :: input) =
      Char.ofNat ((val * 64 + n) % 2 ^ 32 / 2 ^ 4 % 256) ::
        decodeFrom ((val * 64 + n) % 2 ^ 32) (-4) input :=
  decodeFrom_completed small 4 val input

theorem decodeFrom_third (small : n < 64) (val : Nat) (input : Text) :
    decodeFrom val (-4) (standard n :: input) =
      Char.ofNat ((val * 64 + n) % 2 ^ 32 / 2 ^ 2 % 256) ::
        decodeFrom ((val * 64 + n) % 2 ^ 32) (-6) input :=
  decodeFrom_completed small 2 val input

theorem decodeFrom_fourth (small : n < 64) (val : Nat) (input : Text) :
    decodeFrom val (-6) (standard n :: input) =
      Char.ofNat ((val * 64 + n) % 2 ^ 32 % 256) ::
        decodeFrom ((val * 64 + n) % 2 ^ 32) (-8) input := by
  have completed := decodeFrom_completed small 0 val input
  rw [pow_zero, Nat.div_one] at completed
  exact completed

/-- Noise changes nothing, wherever the loop meets it. -/
theorem decodeFrom_noisy (noisy : Noisy (Foreign standard) clean input) (val : Nat) (bits : Int) :
    decodeFrom val bits input = decodeFrom val bits clean := by
  induction noisy generalizing val bits with
  | nil => rfl
  | keep c _ ih =>
    simp only [decodeFrom, ih]
  | insert foreign _ ih =>
    rw [decodeFrom, lookup_foreign foreign]
    exact ih val bits

/-- From whatever value, the loop turns the symbols of bytes into the bytes. -/
theorem decodeFrom_encodeWith (val : Nat) (bytes : List UInt8) :
    decodeFrom val (-8) (encodeWith standard bytes) = Text.ofBytes bytes := by
  have small := sextets_lt bytes
  unfold encodeWith
  fun_induction sextets bytes generalizing val with
  | case1 a b c rest word ih =>
    have first := a.toNat_lt
    have second := b.toNat_lt
    have third := c.toNat_lt
    simp only [List.forall_mem_cons] at small
    obtain ⟨one, two, three, four, later⟩ := small
    simp only [List.map_cons, decodeFrom_first one, decodeFrom_second two, decodeFrom_third three,
      decodeFrom_fourth four]
    set taken := (val * 64 + word / 2 ^ 18) % 2 ^ 32
    set high := (taken * 64 + word / 2 ^ 12 % 64) % 2 ^ 32
    set middle := (high * 64 + word / 2 ^ 6 % 64) % 2 ^ 32
    set low := (middle * 64 + word % 64) % 2 ^ 32
    have decoded : high / 2 ^ 4 % 256 = a.toNat ∧ middle / 2 ^ 2 % 256 = b.toNat ∧
        low % 256 = c.toNat := by omega
    rw [decoded.1, decoded.2.1, decoded.2.2, ih low later]
    rfl
  | case2 a b word =>
    have first := a.toNat_lt
    have second := b.toNat_lt
    simp only [List.forall_mem_cons] at small
    obtain ⟨one, two, three, -⟩ := small
    simp only [List.map_cons, List.map_nil, decodeFrom_first one, decodeFrom_second two,
      decodeFrom_third three]
    set taken := (val * 64 + word / 2 ^ 12) % 2 ^ 32
    set high := (taken * 64 + word / 2 ^ 6 % 64) % 2 ^ 32
    set middle := (high * 64 + word % 64) % 2 ^ 32
    have decoded : high / 2 ^ 4 % 256 = a.toNat ∧ middle / 2 ^ 2 % 256 = b.toNat := by omega
    rw [decoded.1, decoded.2]
    rfl
  | case3 a word =>
    have first := a.toNat_lt
    simp only [List.forall_mem_cons] at small
    obtain ⟨one, two, -⟩ := small
    simp only [List.map_cons, List.map_nil, decodeFrom_first one, decodeFrom_second two]
    set taken := (val * 64 + word / 2 ^ 6) % 2 ^ 32
    have decoded : (taken * 64 + word % 64) % 2 ^ 32 / 2 ^ 4 % 256 = a.toNat := by omega
    rw [decoded]
    rfl
  | case4 => rfl

/-- Decoding undoes encoding, padded or not, whatever else is inserted. -/
theorem base64Decode_noisy {bytes : List UInt8} {clean input : Text}
    (encoded : clean = encode bytes ∨ clean = encodeWith standard bytes)
    (noisy : Noisy (Foreign standard) clean input) : base64Decode input = Text.ofBytes bytes := by
  unfold base64Decode
  rw [decodeFrom_noisy noisy]
  rcases encoded with rfl | rfl
  · rw [encode, decodeFrom_noisy (.append _ (padding_foreign bytes))]
    exact decodeFrom_encodeWith 0 bytes
  · exact decodeFrom_encodeWith 0 bytes

/-- A letter, encoded and broken over two lines. -/
theorem brokenLetter_decoded :
    base64Decode ['Y', ' ', 'Q', '=', '\n', '='] = Text.ofBytes [97] := by
  have encoded : ['Y', 'Q', '=', '='] = encode [97] := by decide
  have blank : Foreign standard ' ' := by decide
  have line : Foreign standard '\n' := by decide
  exact base64Decode_noisy (.inl encoded)
    (.keep 'Y' (.insert blank (.keep 'Q' (.keep '=' (.insert line (.keep '=' .nil))))))

end Crown.CryptBaby
