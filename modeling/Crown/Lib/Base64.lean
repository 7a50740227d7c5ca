import Crown.Lib.Text

/-! Base64 blocks: four characters of the standard alphabet are three bytes. -/
namespace Lib.Base64

/-- The padding character counts as zero. -/
def sextet (c : Char) : Nat :=
  if 'A' ≤ c ∧ c ≤ 'Z' then c.toNat - 65
  else if 'a' ≤ c ∧ c ≤ 'z' then c.toNat - 71
  else if '0' ≤ c ∧ c ≤ '9' then c.toNat + 4
  else if c = '+' then 62
  else if c = '/' then 63
  else 0

def decodeBlock : Text → Text
  | a :: b :: c :: d :: rest =>
    let word := ((sextet a * 64 + sextet b) * 64 + sextet c) * 64 + sextet d
    Char.ofNat (word / 65536) :: Char.ofNat (word / 256 % 256) :: Char.ofNat (word % 256) ::
      decodeBlock rest
  | _ => []

end Lib.Base64
