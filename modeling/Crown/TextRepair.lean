import Crown.DecodedUrls
import Crown.Lib.WellFormed

/-! Titles and contents as `decodePost` shows them: `utf8` of `composables/useSocialClient.ts`
takes each text for bytes that were read as Latin-1 and decodes them. -/
namespace Crown.Client

open Lib
open JsString (WellFormed)

/-- Bytes read as Latin-1. -/
def latin1 (bytes : Text) : JsString := bytes.map unit

/-- The text was not made of the UTF-8 bytes of a string. -/
def Foreign (text : JsString) : Prop :=
  (∃ u ∈ text, 0xFF < u.toNat) ∨ ¬∃ s, WellFormed s ∧ text = latin1 s.utf8

/-- What was read as Latin-1 comes back, and every other text is shown unchanged. -/
def Repaired (text : JsString) : Prop :=
  (∀ s, WellFormed s → s.head? ≠ some 0xFEFF → text = latin1 s.utf8 → utf8 text = s) ∧
    (Foreign text → utf8 text = text)

/-- An ASCII character, or the replacement character. -/
def Plain (u : UInt16) : Prop := u.toNat < 0x80 ∨ u = 0xFFFD

/-- What a unit leaves in a `Uint8Array`. -/
def byte (u : UInt16) : Char := Char.ofNat (u.toNat % 0x100)

theorem toNat_byte (u : UInt16) : (byte u).toNat = u.toNat % 0x100 :=
  JsString.toNat_ofNat (by omega)

theorem bytes_latin1 {bytes : Text} (small : ∀ c ∈ bytes, c.toNat < 0x100) :
    (latin1 bytes).map byte = bytes := by
  rw [latin1, List.map_map]
  refine (List.map_congr_left fun c member => ?_).trans (List.map_id bytes)
  have least := small c member
  have value : (unit c).toNat % 0x100 = c.toNat := by
    rw [unit, UInt16.toNat_ofNat']
    omega
  rw [Function.comp_apply, byte, value, Char.ofNat_toNat, id]

theorem utf8_eq (text : JsString) : utf8 text = textDecoder (text.map byte) := rfl

theorem textDecoder_marked {bytes : Text} {rest : JsString}
    (read : JsString.ofUtf8 bytes = 0xFEFF :: rest) : textDecoder bytes = rest := by
  unfold textDecoder
  split
  · rename_i marked
    exact (List.cons.inj (marked.symm.trans read)).2
  · rename_i unmarked
    exact (unmarked rest read).elim

theorem textDecoder_unmarked {bytes : Text}
    (read : (JsString.ofUtf8 bytes).head? ≠ some 0xFEFF) :
    textDecoder bytes = JsString.ofUtf8 bytes := by
  unfold textDecoder
  split
  · rename_i marked
    exact absurd (by rw [marked]; rfl) read
  · rfl

/-- The string is read again of which the text was made. -/
theorem ofUtf8_latin1 {s : JsString} (formed : WellFormed s) :
    JsString.ofUtf8 ((latin1 s.utf8).map byte) = s := by
  rw [bytes_latin1 s.utf8_lt, JsString.ofUtf8_utf8 formed]

/-- A plain text is its own repair. -/
theorem ofUtf8_plain {text : JsString} (plain : ∀ u ∈ text, Plain u) :
    JsString.ofUtf8 (text.map byte) = text := by
  induction text with
  | nil => rfl
  | cons u text ih =>
    obtain ⟨first, plain⟩ := List.forall_mem_cons.mp plain
    rw [List.map_cons, JsString.ofUtf8, JsString.decode, toNat_byte]
    rcases first with ascii | replaced
    · rw [JsString.lead, Nat.mod_eq_of_lt (by omega), if_pos ascii, UInt16.ofNat_toNat]
      exact congrArg _ (ih plain)
    · rw [replaced]
      exact congrArg _ (ih plain)

/-- Only a plain text is decoded to itself: every other byte leaves another unit, or is one of
several that leave fewer. -/
theorem plain_of_ofUtf8 {text : JsString} (same : JsString.ofUtf8 (text.map byte) = text) :
    ∀ u ∈ text, Plain u := by
  induction text with
  | nil => exact fun _ member => (List.not_mem_nil member).elim
  | cons u text ih =>
    rw [List.map_cons, JsString.ofUtf8, JsString.decode, toNat_byte] at same
    by_cases ascii : u.toNat % 0x100 < 0x80
    · rw [JsString.lead, if_pos ascii] at same
      obtain ⟨first, rest⟩ := List.cons.inj same
      refine List.forall_mem_cons.mpr ⟨.inl ?_, ih rest⟩
      rw [← first, UInt16.toNat_ofNat']
      omega
    · rcases JsString.lead_large (Nat.le_of_not_lt ascii) with broken | ⟨begun, first, -⟩
      · rw [broken] at same
        obtain ⟨rfl, rest⟩ := List.cons.inj same
        exact List.forall_mem_cons.mpr ⟨.inr rfl, ih rest⟩
      · rw [first, List.nil_append] at same
        rcases JsString.decode_lead first (text.map byte) with replaced | fewer
        · rw [same] at replaced
          obtain rfl := Option.some.inj replaced
          have bounds := (JsString.lead_begun first).1
          exact absurd bounds.2 (by decide)
        · rw [same, List.length_map, List.length_cons] at fewer
          omega

/-- The texts that are shown unchanged. -/
theorem utf8_eq_self_iff (text : JsString) : utf8 text = text ↔ ∀ u ∈ text, Plain u := by
  have shorter := (JsString.length_decode_le (text.map byte)).1
  rw [List.length_map] at shorter
  rw [utf8_eq]
  constructor
  · intro same
    refine plain_of_ofUtf8 ((textDecoder_unmarked ?_).symm.trans same)
    intro marked
    obtain ⟨rest, first⟩ := List.head?_eq_some_iff.mp marked
    have lengths := congrArg List.length ((textDecoder_marked first).symm.trans same)
    rw [← JsString.ofUtf8, first, List.length_cons] at shorter
    omega
  · intro plain
    have read := ofUtf8_plain plain
    refine (textDecoder_unmarked ?_).trans read
    rw [read]
    intro marked
    rcases plain _ (List.mem_of_mem_head? marked) with ascii | replaced
    · exact absurd ascii (by decide)
    · exact absurd replaced (by decide)

/-- A text is repaired exactly when it was made of UTF-8 bytes or is plain; of bytes behind a
byte order mark the mark is dropped. -/
theorem repaired_iff (text : JsString) :
    (Repaired text ↔ ¬Foreign text ∨ ∀ u ∈ text, Plain u) ∧
      ∀ s, WellFormed s → text = latin1 (JsString.utf8 (0xFEFF :: s)) → utf8 text = s := by
  refine ⟨⟨fun ⟨_, kept⟩ => ?_, fun known => ⟨?_, ?_⟩⟩, ?_⟩
  · by_cases foreign : Foreign text
    · exact .inr ((utf8_eq_self_iff text).mp (kept foreign))
    · exact .inl foreign
  · rintro s formed unmarked rfl
    have read := ofUtf8_latin1 formed
    rw [utf8_eq, textDecoder_unmarked (by rwa [read]), read]
  · intro foreign
    rcases known with made | plain
    · exact absurd foreign made
    · exact (utf8_eq_self_iff text).mpr plain
  · rintro s formed rfl
    have marked : WellFormed (0xFEFF :: s) := by
      cases s with
      | nil => exact (by decide : ¬(JsString.isHigh 0xFEFF || JsString.isLow 0xFEFF) = true)
      | cons v s =>
        rw [WellFormed, if_neg (by simp [show JsString.isHigh 0xFEFF = false by decide])]
        exact ⟨by decide, formed⟩
    exact textDecoder_marked (ofUtf8_latin1 marked)

/-- A euro sign is above Latin-1. -/
theorem euro_replaced : ¬∀ text, Repaired text := by
  intro repaired
  have kept := (repaired [0x20AC]).2 (.inl ⟨_, List.mem_cons_self, by decide⟩)
  revert kept
  decide

end Crown.Client
