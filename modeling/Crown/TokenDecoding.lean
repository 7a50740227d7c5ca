import Crown.JwtAcceptance
import Crown.Lib.Base64Encoding

/-! What `base64urlDecode` makes of each segment of a token. It cuts its buffer down by the
padding before it has the decoder fill it, and the decoder fills whole blocks. -/
namespace Crown.JwtValidator

open Lib Lib.Base64

/-- `s[s.size() - back]`, where that is a character of `s`. -/
def backChar (s : Text) (back : Nat) : Option Char :=
  if back ≤ s.length then s[s.length - back]? else none

/-- One adjustment of `out_len`. -/
def adjusted (s : Text) (least back outLen : Nat) : Option Nat :=
  if least ≤ s.length then
    match backChar s back with
    | none => none
    | some c => if c = '=' then outLen.ppred else some outLen
  else some outLen

/-- `out_len`, or nothing where an index or a subtraction leaves its range. -/
def checkedLength (s : Text) : Option Nat :=
  (adjusted s 2 1 (s.length / 4 * 3)).bind (adjusted s 1 2)

/-- The padding among the last two characters. -/
def trailing (s : Text) : Nat := (s.drop (s.length - 2)).count '='

variable {s input : Text}

theorem exists_lastTwo (long : 2 ≤ s.length) : ∃ front c d, s = front ++ [c, d] := by
  have two : (s.drop (s.length - 2)).length = 2 := by
    rw [List.length_drop]
    omega
  obtain ⟨c, d, same⟩ := List.length_eq_two.mp two
  exact ⟨s.take (s.length - 2), c, d, by rw [← same, List.take_append_drop]⟩

theorem trailing_append (front : Text) (c d : Char) :
    trailing (front ++ [c, d]) = (if c = '=' then 1 else 0) + if d = '=' then 1 else 0 := by
  have cut : (front ++ [c, d]).drop ((front ++ [c, d]).length - 2) = [c, d] := List.drop_left' (by simp)
  rw [trailing, cut]
  simp only [List.count_cons, List.count_nil, beq_iff_eq]
  omega

theorem trailing_le (s : Text) : trailing s ≤ 2 ∧ trailing s ≤ s.length := by
  have counted := List.count_le_length (a := '=') (l := s.drop (s.length - 2))
  rw [List.length_drop] at counted
  unfold trailing
  constructor <;> omega

/-- Of whole blocks every index and subtraction is in range, and one byte is left out for each
padding character at the end. -/
theorem checkedLength_whole (whole : 4 ∣ s.length) :
    checkedLength s = some (decodedLength s) ∧
      decodedLength s = s.length / 4 * 3 - trailing s := by
  rcases Nat.eq_zero_or_pos s.length with empty | filled
  · rw [List.length_eq_zero_iff.mp empty]
    decide
  have long : 4 ≤ s.length := Nat.le_of_dvd filled whole
  obtain ⟨front, c, d, rfl⟩ := exists_lastTwo (s := s) (by omega)
  have length : (front ++ [c, d]).length = front.length + 2 := List.length_append
  have last : (front ++ [c, d])[front.length + 2 - 1]? = some d := by simp
  have second : (front ++ [c, d])[front.length + 2 - 2]? = some c := by simp
  have first : 2 ≤ front.length + 2 := Nat.le_add_left ..
  have one : 1 ≤ front.length + 2 := by omega
  rw [length] at long
  obtain ⟨outLen, buffer⟩ : ∃ outLen, (front.length + 2) / 4 * 3 = outLen + 3 :=
    ⟨(front.length + 2) / 4 * 3 - 3, by omega⟩
  rw [trailing_append]
  unfold checkedLength adjusted decodedLength backChar
  simp only [length, last, second, first, one, buffer, if_true, true_and, Option.some.injEq]
  by_cases padded : c = '=' <;> by_cases ends : d = '=' <;>
    simp [padded, ends]

/-- The text the decoder is given. -/
def translated (input : Text) : Text := padded (input.map standardAlphabet)

theorem length_translated (input : Text) :
    (translated input).length = (input.length + 3) / 4 * 4 := by
  rw [translated, padded, List.length_append, List.length_replicate, List.length_map]
  omega

theorem translated_whole (input : Text) : 4 ∣ (translated input).length := by
  rw [length_translated]
  exact Nat.dvd_mul_left ..

/-- What `EVP_DecodeBlock` can decode: blocks of four symbols or padding characters, whose number
of characters is an `int`. -/
def Decodable (s : Text) : Prop :=
  4 ∣ s.length ∧ s.length < 2 ^ 31 ∧ ∀ c ∈ s, c = '=' ∨ ¬Foreign standard c

instance (s : Text) : Decidable (Decodable s) :=
  inferInstanceAs (Decidable (_ ∧ _ ∧ ∀ c ∈ s, _))

/-- How many bytes `EVP_DecodeBlock` writes: three for every block it decodes, and it decodes all
blocks where it can. -/
structure BlockWrites (written : Text → Nat) : Prop where
  decodable : ∀ s, Decodable s → written s = s.length / 4 * 3
  blocks : ∀ s, 3 ∣ written s
  refused : ∀ s, 4 ∣ s.length → ¬Decodable s → written s < s.length / 4 * 3

/-- The indices and subtractions are in range, and the buffer takes all bytes written. -/
def InBounds (written : Text → Nat) (input : Text) : Prop :=
  ∃ outLen, checkedLength (translated input) = some outLen ∧ written (translated input) ≤ outLen

/-- The input has a character of neither alphabet, or too many characters. -/
def Refused (input : Text) : Prop :=
  (∃ c ∈ input, c ≠ '=' ∧ Foreign standard (standardAlphabet c)) ∨ 2 ^ 31 - 4 < input.length

theorem standardAlphabet_eq_padding (c : Char) : standardAlphabet c = '=' ↔ c = '=' := by
  unfold standardAlphabet
  split
  · rename_i minus
    subst minus
    decide
  · split
    · rename_i underscore
      subst underscore
      decide
    · exact Iff.rfl

theorem decodable_translated (input : Text) : Decodable (translated input) ↔ ¬Refused input := by
  have symbols : (∀ c ∈ translated input, c = '=' ∨ ¬Foreign standard c) ↔
      ∀ c ∈ input, c = '=' ∨ ¬Foreign standard (standardAlphabet c) := by
    constructor
    · intro symbols c member
      rw [← standardAlphabet_eq_padding c]
      exact symbols _ (List.mem_append_left _ (List.mem_map_of_mem member))
    · intro symbols c member
      rcases List.mem_append.mp member with own | added
      · obtain ⟨old, present, rfl⟩ := List.mem_map.mp own
        exact (symbols old present).imp_left (standardAlphabet_eq_padding old).mpr
      · exact .inl (List.eq_of_mem_replicate added)
  have few : (translated input).length < 2 ^ 31 ↔ ¬2 ^ 31 - 4 < input.length := by
    rw [length_translated]
    omega
  rw [Decodable, symbols, few, Refused, not_or]
  push Not
  constructor
  · rintro ⟨-, small, symbols⟩
    exact ⟨fun c member other => (symbols c member).resolve_left other, small⟩
  · rintro ⟨symbols, small⟩
    exact ⟨translated_whole input, small, fun c member => or_iff_not_imp_left.mpr (symbols c member)⟩

/-- Nothing is left out just when the input has whole blocks with no padding at their end. -/
theorem trailing_translated (input : Text) :
    trailing (translated input) = 0 ↔ 4 ∣ input.length ∧ '=' ∉ input.drop (input.length - 2) := by
  unfold trailing
  rw [List.count_eq_zero]
  by_cases whole : 4 ∣ input.length
  · have none : (4 - input.length % 4) % 4 = 0 := by omega
    have same : translated input = input.map standardAlphabet := by
      rw [translated, padded, List.length_map, none, List.replicate_zero, List.append_nil]
    rw [same, List.length_map, ← List.map_drop, List.mem_map]
    simp only [standardAlphabet_eq_padding, exists_eq_right, whole, true_and]
  · refine iff_of_false (not_not_intro ?_) fun both => whole both.1
    obtain ⟨added, more⟩ : ∃ added, (4 - input.length % 4) % 4 = added + 1 :=
      ⟨(4 - input.length % 4) % 4 - 1, by omega⟩
    have ends : translated input = (input.map standardAlphabet ++ List.replicate added '=') ++ ['='] := by
      rw [translated, padded, List.length_map, more, List.replicate_succ', List.append_assoc]
    have early : (input.map standardAlphabet ++ List.replicate added '=' ++ ['=']).length - 2 ≤
        (input.map standardAlphabet ++ List.replicate added '=').length := by
      rw [List.length_append, List.length_singleton]
      omega
    rw [ends, List.drop_append_of_le_length early]
    exact List.mem_append_right _ (List.mem_singleton_self _)

/-- Decoding stays within the buffer if and only if the decoder refuses the input, or the input
comes in whole blocks without padding. -/
theorem inBounds_iff {written : Text → Nat} (writes : BlockWrites written) (input : Text) :
    InBounds written input ↔
      Refused input ∨ 4 ∣ input.length ∧ '=' ∉ input.drop (input.length - 2) := by
  have whole := translated_whole input
  obtain ⟨checked, decoded⟩ := checkedLength_whole whole
  obtain ⟨few, fewer⟩ := trailing_le (translated input)
  rw [← trailing_translated]
  have bound : InBounds written input ↔ written (translated input) ≤
      (translated input).length / 4 * 3 - trailing (translated input) := by
    rw [InBounds, checked, ← decoded]
    simp
  rw [bound]
  by_cases refused : Refused input
  · refine iff_of_true ?_ (.inl refused)
    have blocks := writes.blocks (translated input)
    have less := writes.refused _ whole (mt (decodable_translated input).mp (not_not_intro refused))
    omega
  · have all := writes.decodable _ ((decodable_translated input).mpr refused)
    rw [all]
    simp only [refused, false_or]
    omega

/-- A decoder that writes all blocks or nothing. -/
def allBlocks (s : Text) : Nat := if Decodable s then s.length / 4 * 3 else 0

theorem allBlocks_writes : BlockWrites allBlocks where
  decodable s decodable := if_pos decodable
  blocks s := by
    unfold allBlocks
    split <;> omega
  refused s whole refused := by
    have filled : s ≠ [] := by
      rintro rfl
      exact refused ⟨whole, by norm_num, List.forall_mem_nil _⟩
    have positive := List.length_pos_iff.mpr filled
    rw [allBlocks, if_neg refused]
    omega

theorem wholeBlock_inBounds : InBounds allBlocks ['A', 'A', 'A', 'A'] :=
  (inBounds_iff allBlocks_writes _).mpr (.inr (by decide))

/-- The encoding of one byte overruns its buffer by two. -/
theorem oneByte_overruns : ¬InBounds allBlocks ['A', 'A'] := by
  rintro ⟨outLen, checked, fits⟩
  have buffer : checkedLength (translated ['A', 'A']) = some 1 := by decide
  have few : ¬Refused ['A', 'A'] := by
    rintro (⟨c, member, -, foreign⟩ | many)
    · have letter : c = 'A' := by simpa using member
      subst letter
      exact foreign 0 (by decide) (by decide)
    · norm_num at many
  have writes : allBlocks (translated ['A', 'A']) = 3 := if_pos ((decodable_translated _).mpr few)
  rw [buffer] at checked
  cases checked
  rw [writes] at fits
  omega

section

variable {lib : Libraries}

theorem length_mod_three (bytes : List UInt8) :
    bytes.length % 3 = 0 ∨ bytes.length % 3 = 1 ∨ bytes.length % 3 = 2 := by omega

theorem translated_encodeWith (bytes : List UInt8) :
    translated (encodeWith urlSafe bytes) = encode bytes := by
  have letters : ∀ n < 64, standardAlphabet (urlSafe n) = standard n := by decide
  have lacking : (4 - (4 * bytes.length + 2) / 3 % 4) % 4 = (3 - bytes.length % 3) % 3 := by
    rcases length_mod_three bytes with last | last | last <;> omega
  rw [translated, map_encodeWith bytes letters, padded, length_encodeWith, lacking, encode, padding]

theorem trailing_encode (bytes : List UInt8) : trailing (encode bytes) = (padding bytes).length := by
  have few : (padding bytes).length ≤ 2 := by
    rw [padding, List.length_replicate]
    omega
  have symbols : '=' ∉ encodeWith standard bytes := by
    intro member
    obtain ⟨n, small, same⟩ := mem_encodeWith member
    have foreign : Foreign standard '=' := by decide
    exact foreign n small same.symm
  have long : (encode bytes).length - 2 ≤ (encodeWith standard bytes).length := by
    rw [encode, List.length_append]
    omega
  have none : ((encodeWith standard bytes).drop ((encode bytes).length - 2)).count '=' = 0 :=
    List.count_eq_zero.mpr fun member => symbols (List.mem_of_mem_drop member)
  have all : (padding bytes).count '=' = (padding bytes).length := by
    rw [padding, List.count_replicate_self, List.length_replicate]
  have cut : (encode bytes).drop ((encode bytes).length - 2) =
      (encodeWith standard bytes).drop ((encode bytes).length - 2) ++ padding bytes :=
    List.drop_append_of_le_length long
  rw [trailing, cut, List.count_append, none, all, Nat.zero_add]

theorem decodedLength_encode (bytes : List UInt8) : decodedLength (encode bytes) = bytes.length := by
  have whole : 4 ∣ (encode bytes).length := translated_encodeWith bytes ▸ translated_whole _
  rw [(checkedLength_whole whole).2, trailing_encode]
  simp only [encode, padding, List.length_append, length_encodeWith, List.length_replicate]
  rcases length_mod_three bytes with last | last | last <;> omega

theorem base64urlDecode_encodeWith
    (decodes : ∀ bytes, lib.decodeBlock (encode bytes) =
      Text.ofBytes bytes ++ List.replicate (padding bytes).length '\x00') (bytes : List UInt8) :
    base64urlDecode lib (encodeWith urlSafe bytes) = Text.ofBytes bytes := by
  have text : padded ((encodeWith urlSafe bytes).map standardAlphabet) = encode bytes :=
    translated_encodeWith bytes
  have length : (Text.ofBytes bytes).length = bytes.length := List.length_map _
  unfold base64urlDecode
  dsimp only
  rw [text, decodes, decodedLength_encode, List.append_assoc, ← length, List.take_left]

theorem splitJwt_encodeWith (header payload signature : List UInt8) :
    splitJwt (encodeWith urlSafe header ++ '.' ::
      (encodeWith urlSafe payload ++ '.' :: encodeWith urlSafe signature)) =
        some (encodeWith urlSafe header, encodeWith urlSafe payload, encodeWith urlSafe signature) := by
  have dotless : ∀ bytes, '.' ∉ encodeWith urlSafe bytes := by
    intro bytes member
    obtain ⟨n, small, same⟩ := mem_encodeWith member
    have foreign : Foreign urlSafe '.' := by decide
    exact foreign n small same.symm
  exact splitJwt_eq_some.mpr ⟨rfl, dotless header, dotless payload⟩

/-- A token is cut into the encodings it was joined from, and each is decoded to its bytes. -/
theorem segments_decoded
    (decodes : ∀ bytes, lib.decodeBlock (encode bytes) =
      Text.ofBytes bytes ++ List.replicate (padding bytes).length '\x00') :
    (∀ bytes, base64urlDecode lib (encodeWith urlSafe bytes) = Text.ofBytes bytes) ∧
    ∀ header payload signature, splitJwt (encodeWith urlSafe header ++ '.' ::
      (encodeWith urlSafe payload ++ '.' :: encodeWith urlSafe signature)) =
        some (encodeWith urlSafe header, encodeWith urlSafe payload, encodeWith urlSafe signature) :=
  ⟨base64urlDecode_encodeWith decodes, splitJwt_encodeWith⟩

theorem decoded_byBlocks : base64urlDecode tokenLibraries (encodeWith urlSafe [255, 239]) =
    Text.ofBytes [255, 239] := by
  have decodes : ∀ bytes, tokenLibraries.decodeBlock (encode bytes) =
      Text.ofBytes bytes ++ List.replicate (padding bytes).length '\x00' := decodeBlock_encode
  exact (segments_decoded decodes).1 [255, 239]

end

end Crown.JwtValidator
