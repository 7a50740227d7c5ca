import Crown.ClientSanitize
import Crown.Lib.WellFormed

/-! `encodeURIComponent` and `decodeURIComponent`, with which the client writes and reads the
values of cookies. -/
namespace Crown.Client

open Lib
open JsString (Begun Completes Scalar WellFormed)

/-- What a built-in function throws for a string that is not well-formed, or not well encoded. -/
inductive UriError where
  | malformed
  deriving DecidableEq

/-- The units that are left as they are: letters, digits and `-_.!~*'()`. -/
def isUnreserved (u : UInt16) : Bool := isWord u || (js "-.!~*'()").contains u

/-- An upper-case hexadecimal digit. -/
def hexUnit (value : Nat) : UInt16 :=
  if value < 10 then unit '0' + UInt16.ofNat value else unit 'A' + UInt16.ofNat (value - 10)

def percent (byte : Nat) : JsString := [unit '%', hexUnit (byte / 0x10), hexUnit (byte % 0x10)]

def encodePoint (point : Nat) : JsString :=
  if point < 0x80 ∧ isUnreserved (UInt16.ofNat point) = true then [UInt16.ofNat point]
  else (JsString.utf8Bytes point).flatMap percent

def encodeURIComponent (uriComponent : JsString) : Except UriError JsString :=
  if WellFormed uriComponent then .ok (uriComponent.codePoints.flatMap encodePoint)
  else .error .malformed

/-- What a byte gives, and the code point of which bytes are still due. -/
def octet : Option Begun → Nat → Except UriError (JsString × Option Begun)
  | none, byte =>
    if byte < 0x80 then .ok ([UInt16.ofNat byte], none)
    else
      match (JsString.lead byte).2 with
      | some begun => .ok ([], some begun)
      | none => .error .malformed
  | some begun, byte =>
    if begun.low ≤ byte ∧ byte ≤ begun.high then
      let point := begun.point * 0x40 + (byte - 0x80)
      if begun.due = 1 then .ok (JsString.units point, none)
      else .ok ([], some ⟨point, begun.due - 1, 0x80, 0xBF⟩)
    else .error .malformed

def hexByte (high low : UInt16) : Option Nat := do
  let high ← hexDigit high
  let low ← hexDigit low
  return high.toNat * 0x10 + low.toNat

/-- Reads escapes as bytes, and every other unit as itself; no code point may be broken off. -/
def decodeUnits : Option Begun → JsString → Except UriError JsString
  | none, [] => .ok []
  | some _, [] => .error .malformed
  | begun, u :: rest =>
    if u = unit '%' then
      match rest with
      | high :: low :: more =>
        match hexByte high low with
        | some byte => do
          let (units, begun) ← octet begun byte
          return units ++ (← decodeUnits begun more)
        | none => .error .malformed
      | _ => .error .malformed
    else
      match begun with
      | none => do return u :: (← decodeUnits none rest)
      | some _ => .error .malformed

def decodeURIComponent (encodedURIComponent : JsString) : Except UriError JsString :=
  decodeUnits none encodedURIComponent

example : encodeURIComponent [0x3B, 0x61, 0xD83D, 0xDE00] = .ok (js "%3Ba%F0%9F%98%80") := by
  decide +kernel

theorem hexDigit_hexUnit {value : Nat} (small : value < 0x10) :
    hexDigit (hexUnit value) = some (UInt16.ofNat value) := by
  have table : ∀ n < 0x10, hexDigit (hexUnit n) = some (UInt16.ofNat n) := by decide
  exact table value small

theorem hexByte_percent {byte : Nat} (small : byte < 0x100) :
    hexByte (hexUnit (byte / 0x10)) (hexUnit (byte % 0x10)) = some byte := by
  have high : (UInt16.ofNat (byte / 0x10)).toNat = byte / 0x10 := by
    rw [UInt16.toNat_ofNat']
    omega
  have low : (UInt16.ofNat (byte % 0x10)).toNat = byte % 0x10 := by
    rw [UInt16.toNat_ofNat']
    omega
  rw [hexByte, hexDigit_hexUnit (by omega), hexDigit_hexUnit (by omega)]
  simp only [Option.bind_eq_bind, Option.bind_some, Option.pure_def, high, low]
  exact congrArg some (by omega)

section

variable {begun : Begun} {point byte : Nat} {u : UInt16} {rest units more : JsString}

theorem decodeUnits_percent {begun next : Option Begun} (small : byte < 0x100)
    (octet : octet begun byte = .ok (units, next)) (read : decodeUnits next rest = .ok more) :
    decodeUnits begun (percent byte ++ rest) = .ok (units ++ more) := by
  rw [percent, List.cons_append, List.cons_append, List.cons_append, List.nil_append]
  cases begun with
  | none =>
    rw [decodeUnits, if_pos rfl]
    simp only [hexByte_percent small, octet]
    exact congrArg (· >>= fun tail => pure (units ++ tail)) read
  | some begun =>
    rw [decodeUnits, if_pos rfl]
    simp only [hexByte_percent small, octet]
    exact congrArg (· >>= fun tail => pure (units ++ tail)) read

/-- A byte after which others are due gives nothing yet. -/
theorem decodeUnits_due {begun next : Option Begun} (small : byte < 0x100)
    (octet : octet begun byte = .ok ([], next)) (read : decodeUnits next rest = .ok more) :
    decodeUnits begun (percent byte ++ rest) = .ok more :=
  decodeUnits_percent small octet read

theorem decodeUnits_unit (plain : u ≠ unit '%') (read : decodeUnits none rest = .ok more) :
    decodeUnits none (u :: rest) = .ok (u :: more) := by
  rw [decodeUnits.eq_def]
  simp only [if_neg plain]
  exact congrArg (· >>= fun tail => pure (u :: tail)) read

/-- The escapes of the bytes that are due are read as the code point. -/
theorem decodeUnits_completes {bytes : List Nat} (completes : Completes begun bytes point)
    (read : decodeUnits none rest = .ok more) :
    decodeUnits (some begun) (bytes.flatMap percent ++ rest) = .ok (JsString.units point ++ more) := by
  induction completes with
  | last within small whole =>
    rw [List.flatMap_singleton]
    refine decodeUnits_percent small ?_ read
    rw [octet, if_pos within, ← whole]
    rfl
  | later within small _ ih =>
    rw [List.flatMap_cons, List.append_assoc]
    refine decodeUnits_due small ?_ ih
    rw [octet, if_pos within]
    exact if_neg (by simp)

/-- A character is read as it was written. -/
theorem decodeUnits_point (scalar : Scalar point) (read : decodeUnits none rest = .ok more) :
    decodeUnits none (encodePoint point ++ rest) = .ok (JsString.units point ++ more) := by
  unfold encodePoint
  split
  · rename_i unreserved
    have plain : UInt16.ofNat point ≠ unit '%' := by
      intro same
      rw [same] at unreserved
      exact absurd unreserved.2 (by with_unfolding_all decide)
    rw [JsString.units, if_pos (by omega)]
    exact decodeUnits_unit plain read
  · by_cases ascii : point < 0x80
    · rw [JsString.utf8Bytes, if_pos ascii, List.flatMap_singleton, JsString.units,
        if_pos (by omega)]
      refine decodeUnits_percent (by omega) ?_ read
      rw [octet, if_pos ascii]
    · obtain ⟨byte, begun, bytes, parts, small, first, completes⟩ :=
        JsString.utf8Bytes_completes scalar ascii
      rw [parts, List.flatMap_cons, List.append_assoc]
      refine decodeUnits_due small ?_ (decodeUnits_completes completes read)
      have large : ¬byte < 0x80 := by
        have bounds := (JsString.lead_begun first).1
        omega
      rw [octet, if_neg large, first]

end

/-- What is encoded is decoded to the same string. -/
theorem decodeURIComponent_encode {s : JsString} (formed : WellFormed s) :
    decodeURIComponent (s.codePoints.flatMap encodePoint) = .ok s := by
  refine WellFormed.induction
    (P := fun s => decodeURIComponent (s.codePoints.flatMap encodePoint) = .ok s) rfl ?_ formed
  intro point rest scalar points read
  rw [points, List.flatMap_cons]
  exact decodeUnits_point scalar read

/-- The units that an encoded string is made of. -/
def Safe (u : UInt16) : Prop := isUnreserved u = true ∨ u = unit '%'

theorem hexUnit_safe {value : Nat} (small : value < 0x10) : Safe (hexUnit value) := by
  have table : ∀ n < 0x10, isUnreserved (hexUnit n) = true := by decide
  exact .inl (table value small)

theorem encodePoint_safe {point : Nat} (valid : point < 0x110000) :
    ∀ u ∈ encodePoint point, Safe u := by
  unfold encodePoint
  split
  · rename_i unreserved
    exact List.forall_mem_singleton.mpr (.inl unreserved.2)
  · intro u member
    obtain ⟨byte, chosen, written⟩ := List.mem_flatMap.mp member
    have small := JsString.utf8Bytes_lt valid chosen
    simp only [percent, List.mem_cons, List.not_mem_nil, or_false] at written
    rcases written with rfl | rfl | rfl
    · exact .inr rfl
    · exact hexUnit_safe (by omega)
    · exact hexUnit_safe (by omega)

theorem encoded_safe (s : JsString) : ∀ u ∈ s.codePoints.flatMap encodePoint, Safe u := by
  intro u member
  obtain ⟨point, present, written⟩ := List.mem_flatMap.mp member
  exact encodePoint_safe (JsString.codePoints_lt s point present) u written

theorem encoded_ne_nil {s : JsString} (filled : s ≠ []) : s.codePoints.flatMap encodePoint ≠ [] := by
  have first : ∀ point, encodePoint point ≠ [] := by
    intro point
    unfold encodePoint
    split
    · exact List.cons_ne_nil _ _
    · intro empty
      have bytes := JsString.utf8Bytes_pos point
      have none := List.flatMap_eq_nil_iff.mp empty
      exact absurd (none _ (List.get_mem _ ⟨0, bytes⟩)) (List.cons_ne_nil _ _)
  have points : s.codePoints ≠ [] := by
    rintro empty
    have bytes := JsString.utf8_ne_nil filled
    rw [JsString.utf8, empty] at bytes
    exact bytes rfl
  obtain ⟨point, rest, parts⟩ := List.exists_cons_of_ne_nil points
  rw [parts, List.flatMap_cons]
  exact List.append_ne_nil_of_left_ne_nil (first point) _

end Crown.Client
