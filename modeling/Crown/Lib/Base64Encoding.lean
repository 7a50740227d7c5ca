import Crown.Lib.Base64

/-! The base64 encoding over an alphabet: three bytes are four symbols, and one or two bytes at
the end are two or three of them. -/
namespace Lib

/-- Each byte as the character with that code. -/
def Text.ofBytes (bytes : List UInt8) : Text := bytes.map fun byte => Char.ofNat byte.toNat

/-- The second list is the first with noise inserted anywhere. -/
inductive Noisy {α : Type} (noise : α → Prop) : List α → List α → Prop where
  | nil : Noisy noise [] []
  | keep (a : α) : Noisy noise l l' → Noisy noise (a :: l) (a :: l')
  | insert : noise a → Noisy noise l l' → Noisy noise l (a :: l')

/-- Noise may stand at the end. -/
theorem Noisy.append {α : Type} {noise : α → Prop} (l : List α) {tail : List α}
    (ends : ∀ a ∈ tail, noise a) : Noisy noise l (l ++ tail) := by
  induction l with
  | nil =>
    induction tail with
    | nil => exact .nil
    | cons a tail ih =>
      obtain ⟨first, rest⟩ := List.forall_mem_cons.mp ends
      exact .insert first (ih rest)
  | cons a l ih => exact .keep a ih

namespace Base64

/-- Letters, digits and two more symbols. -/
def symbol (plus slash : Char) (n : Nat) : Char :=
  if n < 26 then Char.ofNat (n + 65)
  else if n < 52 then Char.ofNat (n + 71)
  else if n < 62 then Char.ofNat (n - 4)
  else if n = 62 then plus
  else slash

def standard : Nat → Char := symbol '+' '/'

def urlSafe : Nat → Char := symbol '-' '_'

/-- The groups of six bits; zero bits are added at the end. -/
def sextets : List UInt8 → List Nat
  | a :: b :: c :: rest =>
    let word := (a.toNat * 256 + b.toNat) * 256 + c.toNat
    word / 2 ^ 18 :: word / 2 ^ 12 % 64 :: word / 2 ^ 6 % 64 :: word % 64 :: sextets rest
  | [a, b] =>
    let word := (a.toNat * 256 + b.toNat) * 2 ^ 2
    [word / 2 ^ 12, word / 2 ^ 6 % 64, word % 64]
  | [a] =>
    let word := a.toNat * 2 ^ 4
    [word / 2 ^ 6, word % 64]
  | [] => []

/-- The encoding without padding. -/
def encodeWith (alphabet : Nat → Char) (bytes : List UInt8) : Text := (sextets bytes).map alphabet

/-- The padding that fills the last group of four symbols. -/
def padding (bytes : List UInt8) : Text := List.replicate ((3 - bytes.length % 3) % 3) '='

/-- The standard encoding. -/
def encode (bytes : List UInt8) : Text := encodeWith standard bytes ++ padding bytes

variable {alphabet alphabet' : Nat → Char} {bytes : List UInt8}

theorem length_sextets (bytes : List UInt8) : (sextets bytes).length = (4 * bytes.length + 2) / 3 := by
  fun_induction sextets bytes with
  | case1 a b c rest word ih =>
    simp only [List.length_cons, ih]
    omega
  | case2 => simp
  | case3 => simp
  | case4 => rfl

theorem sextets_lt (bytes : List UInt8) : ∀ n ∈ sextets bytes, n < 64 := by
  fun_induction sextets bytes with
  | case1 a b c rest word ih =>
    have first := a.toNat_lt
    have second := b.toNat_lt
    have third := c.toNat_lt
    simp only [List.forall_mem_cons]
    exact ⟨by omega, by omega, by omega, by omega, ih⟩
  | case2 a b word =>
    have first := a.toNat_lt
    have second := b.toNat_lt
    simp only [List.forall_mem_cons]
    exact ⟨by omega, by omega, by omega, List.forall_mem_nil _⟩
  | case3 a word =>
    have first := a.toNat_lt
    simp only [List.forall_mem_cons]
    exact ⟨by omega, by omega, List.forall_mem_nil _⟩
  | case4 => exact List.forall_mem_nil _

@[simp] theorem length_encodeWith (alphabet : Nat → Char) (bytes : List UInt8) :
    (encodeWith alphabet bytes).length = (4 * bytes.length + 2) / 3 := by
  rw [encodeWith, List.length_map, length_sextets]

theorem mem_encodeWith (member : c ∈ encodeWith alphabet bytes) : ∃ n < 64, c = alphabet n := by
  obtain ⟨n, sextet, rfl⟩ := List.mem_map.mp member
  exact ⟨n, sextets_lt bytes n sextet, rfl⟩

/-- An encoding is translated to another alphabet symbol by symbol. -/
theorem map_encodeWith {translate : Char → Char} (bytes : List UInt8)
    (translates : ∀ n < 64, translate (alphabet n) = alphabet' n) :
    (encodeWith alphabet bytes).map translate = encodeWith alphabet' bytes := by
  rw [encodeWith, List.map_map]
  exact List.map_congr_left fun n sextet => translates n (sextets_lt bytes n sextet)

/-- What the alphabet has no symbol for. -/
def Foreign (alphabet : Nat → Char) (c : Char) : Prop := ∀ n < 64, alphabet n ≠ c

instance (c : Char) : Decidable (Foreign alphabet c) :=
  inferInstanceAs (Decidable (∀ n < 64, alphabet n ≠ c))

theorem padding_foreign (bytes : List UInt8) : ∀ c ∈ padding bytes, Foreign standard c := by
  intro c member
  rw [List.eq_of_mem_replicate member]
  decide

theorem sextet_standard (small : n < 64) : sextet (standard n) = n := by
  have all : ∀ n < 64, sextet (standard n) = n := by decide
  exact all n small

/-- A group of three bytes needs no padding. -/
theorem padding_group (a b c : UInt8) (rest : List UInt8) :
    padding (a :: b :: c :: rest) = padding rest := by
  have length : (a :: b :: c :: rest).length % 3 = rest.length % 3 :=
    Nat.add_mod_right rest.length 3
  rw [padding, length, padding]

theorem sextet_padding : sextet '=' = 0 := by decide

/-- A block decoder undoes the padded encoding, with zero bytes where the padding stands. -/
theorem decodeBlock_encode (bytes : List UInt8) :
    decodeBlock (encode bytes) =
      Text.ofBytes bytes ++ List.replicate (padding bytes).length '\x00' := by
  have small := sextets_lt bytes
  unfold encode encodeWith
  fun_induction sextets bytes with
  | case1 a b c rest word ih =>
    have first := a.toNat_lt
    have second := b.toNat_lt
    have third := c.toNat_lt
    simp only [List.forall_mem_cons] at small
    obtain ⟨one, two, three, four, later⟩ := small
    have high : (((word / 2 ^ 18 * 64 + word / 2 ^ 12 % 64) * 64 + word / 2 ^ 6 % 64) * 64 +
        word % 64) = word := by omega
    have bytes : word / 65536 = a.toNat ∧ word / 256 % 256 = b.toNat ∧ word % 256 = c.toNat := by
      omega
    simp only [List.map_cons, List.cons_append, decodeBlock, sextet_standard one,
      sextet_standard two, sextet_standard three, sextet_standard four, high, bytes, padding_group,
      ih later, Text.ofBytes]
  | case2 a b word =>
    have first := a.toNat_lt
    have second := b.toNat_lt
    simp only [List.forall_mem_cons] at small
    obtain ⟨one, two, three, -⟩ := small
    have high : (((word / 2 ^ 12 * 64 + word / 2 ^ 6 % 64) * 64 + word % 64) * 64) =
        word * 64 := by omega
    have bytes : word * 64 / 65536 = a.toNat ∧ word * 64 / 256 % 256 = b.toNat ∧
        word * 64 % 256 = 0 := by
      omega
    have pad : padding [a, b] = ['='] := rfl
    simp only [List.map_cons, List.map_nil, List.cons_append, List.nil_append, pad, decodeBlock,
      sextet_standard one, sextet_standard two, sextet_standard three, sextet_padding, Nat.add_zero,
      high, bytes, Text.ofBytes]
    rfl
  | case3 a word =>
    have first := a.toNat_lt
    simp only [List.forall_mem_cons] at small
    obtain ⟨one, two, -⟩ := small
    have high : ((word / 2 ^ 6 * 64 + word % 64) * 64) * 64 = word * 4096 := by omega
    have bytes : word * 4096 / 65536 = a.toNat ∧ word * 4096 / 256 % 256 = 0 ∧
        word * 4096 % 256 = 0 := by
      omega
    have pad : padding [a] = ['=', '='] := rfl
    simp only [List.map_cons, List.map_nil, List.cons_append, List.nil_append, pad, decodeBlock,
      sextet_standard one, sextet_standard two, sextet_padding, Nat.add_zero, high, bytes,
      Text.ofBytes]
    rfl
  | case4 => rfl

end Base64
end Lib
