import Crown.Lib.Text

/-! The base64 decoder and the ids of `crypto/cryptbaby.cpp`. -/
namespace Crown

open Lib

namespace CryptBaby

/-- The entries of the lookup table that are not 64. -/
def lookup (c : Char) : Option Nat :=
  if 'A' ≤ c ∧ c ≤ 'Z' then some (c.toNat - 65)
  else if 'a' ≤ c ∧ c ≤ 'z' then some (c.toNat - 71)
  else if '0' ≤ c ∧ c ≤ '9' then some (c.toNat + 4)
  else if c = '+' then some 62
  else if c = '/' then some 63
  else none

/-- The loop over the input; `val` is an `unsigned int`. -/
def decodeFrom (val : Nat) (bits : Int) : Text → Text
  | [] => []
  | c :: input =>
    match lookup c with
    | none => decodeFrom val bits input
    | some index =>
      let val := (val * 64 + index) % 2 ^ 32
      let bits := bits + 6
      if 0 ≤ bits then
        Char.ofNat (val / 2 ^ bits.toNat % 256) :: decodeFrom val (bits - 8) input
      else decodeFrom val bits input

def base64Decode (input : Text) : Text := decodeFrom 0 (-8) input

def secIdAlphabet : Text := lit "0123456789ABCDEFGHIJKLMNOPQRSTUVWXYZabcdefghijklmnopqrstuvwxyz"

def secIdLength : Nat := 27

/-- The loop of `generateSecId` over the random bytes; nothing where it needs more of them. -/
def generateSecIdFrom (id : Text) : List UInt8 → Option Text
  | [] => if id.length < secIdLength then none else some id
  | b :: bytes =>
    if id.length < secIdLength then
      if 248 ≤ b then generateSecIdFrom id bytes
      else generateSecIdFrom (id ++ [secIdAlphabet.getD (b % 62).toNat '0']) bytes
    else some id

def generateSecId (bytes : List UInt8) : Option Text := generateSecIdFrom [] bytes

theorem generateSecIdFrom_length {id : Text} (short : id.length ≤ secIdLength)
    (generated : generateSecIdFrom id bytes = some secId) : secId.length = secIdLength := by
  induction bytes generalizing id with
  | nil =>
    unfold generateSecIdFrom at generated
    split at generated
    · cases generated
    · cases generated
      omega
  | cons b bytes ih =>
    unfold generateSecIdFrom at generated
    split at generated
    · rename_i more
      split at generated
      · exact ih short generated
      · exact ih (by rw [List.length_append, List.length_singleton]; omega) generated
    · cases generated
      omega

/-- No id is empty. -/
theorem generateSecId_ne_nil (generated : generateSecId bytes = some secId) : secId ≠ [] := by
  have length := generateSecIdFrom_length (Nat.zero_le _) generated
  rintro rfl
  cases length

example : base64Decode (lit "Y3 Jv\nd24=") = lit "crown" := by with_unfolding_all decide

end CryptBaby
end Crown
