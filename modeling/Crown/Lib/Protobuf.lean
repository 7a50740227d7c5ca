import Crown.Lib.Wire
import Crown.Lib.WellFormed

/-! The wire format of protocol buffers: base-128 varints, tags, lengths, and texts in UTF-8. -/
namespace Lib.Protobuf

open Wire

/-- Why a buffer is not read, or a value not written. -/
inductive Refusal where
  | prematureEof
  | invalidVarint
  | illegalTag
  | cannotSkip
  | invalidUtf8
  | invalidUint32

/-- What reads from the front of the bytes that are left, and returns the rest. -/
abbrev Parser (α : Type) := Text → Except Refusal (α × Text)

variable {α β : Type}

/-- A parser at a place in a buffer. -/
def reader (parse : Parser α) : Reader Refusal α := fun buf pos =>
  if buf.length < pos then .error .prematureEof
  else (parse (buf.drop pos)).map fun (a, rest) => (a, buf.length - rest.length)

/-- What is read is a front part, and is read from it whatever follows. -/
def Prefixed (parse : Parser α) : Prop :=
  ∀ ⦃s a rest⦄, parse s = .ok (a, rest) → ∃ data, s = data ++ rest ∧
    ∀ after, parse (data ++ after) = .ok (a, after)

theorem reader_spells {parse : Parser α} {data : Text}
    (parsed : ∀ after, parse (data ++ after) = .ok (a, after)) : Spells (reader parse) data a := by
  intro before after
  have inside : ¬(before ++ data ++ after).length < before.length := by
    simp only [List.length_append]
    omega
  have left : (before ++ data ++ after).drop before.length = data ++ after := by
    rw [List.append_assoc, List.drop_left]
  unfold reader
  rw [if_neg inside, left, parsed]
  simp only [Except.map, List.length_append, Nat.add_sub_cancel]

theorem reader_ok {parse : Parser α} {buf : Text} {pos pos' : Nat}
    (done : reader parse buf pos = .ok (a, pos')) : ∃ rest, pos ≤ buf.length ∧
      parse (buf.drop pos) = .ok (a, rest) ∧ pos' = buf.length - rest.length := by
  unfold reader at done
  split at done
  · cases done
  · rename_i inside
    obtain ⟨⟨b, rest⟩, parsed, same⟩ := except_map_ok done
    cases same
    exact ⟨rest, Nat.le_of_not_lt inside, parsed, rfl⟩

/-- A parser of front parts goes on by what it has read. -/
theorem Prefixed.reader_ok {parse : Parser α} (prefixed : Prefixed parse) {buf : Text}
    {pos pos' : Nat} (done : reader parse buf pos = .ok (a, pos')) :
    ∃ data, pos' = pos + data.length ∧ ∀ after, parse (data ++ after) = .ok (a, after) := by
  obtain ⟨rest, inside, parsed, rfl⟩ := Protobuf.reader_ok done
  obtain ⟨data, split, again⟩ := prefixed parsed
  refine ⟨data, ?_, again⟩
  have total := congrArg List.length split
  rw [List.length_drop, List.length_append] at total
  omega

theorem Prefixed.forward {parse : Parser α} (prefixed : Prefixed parse) :
    Forward (reader parse) := by
  intro buf pos a pos' done
  obtain ⟨data, rfl, -⟩ := prefixed.reader_ok done
  exact Nat.le_add_right _ _

/-- A parser, and a parser of what it has left. -/
def andThen (first : Parser α) (next : α → Parser β) : Parser β := fun s =>
  (first s).bind fun (a, rest) => next a rest

theorem andThen_ok {first : Parser α} {next : α → Parser β}
    (done : andThen first next s = .ok (b, rest)) :
    ∃ a mid, first s = .ok (a, mid) ∧ next a mid = .ok (b, rest) := by
  unfold andThen at done
  cases here : first s with
  | error e =>
    rw [here] at done
    cases done
  | ok result =>
    rw [here] at done
    exact ⟨result.1, result.2, rfl, done⟩

theorem Prefixed.andThen {first : Parser α} {next : α → Parser β} (front : Prefixed first)
    (back : ∀ a, Prefixed (next a)) : Prefixed (andThen first next) := by
  intro s b rest done
  obtain ⟨a, mid, here, there⟩ := andThen_ok done
  obtain ⟨x, rfl, again⟩ := front here
  obtain ⟨y, rfl, again'⟩ := back a there
  refine ⟨x ++ y, by rw [List.append_assoc], fun after => ?_⟩
  unfold Protobuf.andThen
  rw [List.append_assoc, again]
  exact again' after

/-- The next bytes, so many as are asked for. -/
def take (n : Nat) : Parser Text := fun s =>
  if n ≤ s.length then .ok (s.take n, s.drop n) else .error .prematureEof

/-- Seven bits a byte, the lowest first; the eighth says that another byte follows. -/
def varint : Nat → Parser Nat
  | 0, _ => .error .invalidVarint
  | _ + 1, [] => .error .prematureEof
  | most + 1, c :: rest =>
    if c.toNat < 0x80 then .ok (c.toNat, rest)
    else (varint most rest).map fun (high, rest) => (c.toNat % 0x80 + 0x80 * high, rest)

/-- The lower 32 bits of at most ten bytes. -/
def uint32 : Parser Nat := fun s => (varint 10 s).map fun (n, rest) => (n % 2 ^ 32, rest)

def bool : Parser Bool := fun s => (varint 10 s).map fun (n, rest) => (n % 2 ^ 64 != 0, rest)

/-- Bytes of which none is out of place. -/
def textOf (bytes : Text) : Except Refusal JsString :=
  let s := JsString.ofUtf8 bytes
  if s.utf8 = bytes ∧ s.WellFormed then .ok s else .error .invalidUtf8

def bytes : Parser Text := andThen uint32 take

def string : Parser JsString := andThen bytes fun bytes rest => (textOf bytes).map (·, rest)

def wireTypeOf : Nat → Option WireType
  | 0 => some .varint
  | 1 => some .bit64
  | 2 => some .lengthDelimited
  | 3 => some .startGroup
  | 4 => some .endGroup
  | 5 => some .bit32
  | _ => none

def code : WireType → Nat
  | .varint => 0
  | .bit64 => 1
  | .lengthDelimited => 2
  | .startGroup => 3
  | .endGroup => 4
  | .bit32 => 5

def tagOf (n : Nat) : Except Refusal (Nat × WireType) :=
  match wireTypeOf (n % 8) with
  | none => .error .illegalTag
  | some wireType => if n / 8 = 0 then .error .illegalTag else .ok (n / 8, wireType)

def tag : Parser (Nat × WireType) := andThen uint32 fun n rest => (tagOf n).map (·, rest)

/-- What is passed over for a wire type, or, where none is given, up to the end of a group. -/
def pass : Nat → Option WireType → Parser Unit
  | 0, _, _ => .error .cannotSkip
  | _ + 1, some .varint, [] => .error .prematureEof
  | fuel + 1, some .varint, c :: rest =>
    if c.toNat < 0x80 then .ok ((), rest) else pass fuel (some .varint) rest
  | _ + 1, some .bit64, s => (take 8 s).map fun (_, rest) => ((), rest)
  | _ + 1, some .bit32, s => (take 4 s).map fun (_, rest) => ((), rest)
  | _ + 1, some .lengthDelimited, s => (bytes s).map fun (_, rest) => ((), rest)
  | fuel + 1, some .startGroup, s => pass fuel none s
  | _ + 1, some .endGroup, _ => .error .cannotSkip
  | fuel + 1, none, s => andThen tag (fun (_, wireType) rest =>
      if wireType = .endGroup then .ok ((), rest)
      else andThen (pass fuel (some wireType)) (fun _ => pass fuel none) rest) s

/-- Every step but the first into a group takes a byte, so that the fuel is enough. -/
def skip (wireType : WireType) : Parser Text := fun s =>
  (pass (2 * s.length + 2) (some wireType) s).map fun (_, rest) =>
    (s.take (s.length - rest.length), rest)

theorem Prefixed.map {parse : Parser α} (prefixed : Prefixed parse) (f : α → β) :
    Prefixed fun s => (parse s).map fun (a, rest) => (f a, rest) := by
  intro s b rest done
  obtain ⟨⟨a, left⟩, parsed, same⟩ := except_map_ok done
  cases same
  obtain ⟨data, split, again⟩ := prefixed parsed
  refine ⟨data, split, fun after => ?_⟩
  dsimp only
  rw [again]
  rfl

theorem take_prefixed (n : Nat) : Prefixed (take n) := by
  intro s data rest done
  unfold take at done
  split at done
  · rename_i enough
    cases done
    refine ⟨s.take n, (List.take_append_drop n s).symm, fun after => ?_⟩
    have size : (s.take n).length = n := by simpa using enough
    unfold take
    rw [if_pos (by rw [List.length_append]; omega), List.take_left' size, List.drop_left' size]
  · cases done

theorem take_length (data after : Text) : take data.length (data ++ after) = .ok (data, after) := by
  unfold take
  rw [if_pos (by rw [List.length_append]; omega), List.take_left, List.drop_left]

theorem varint_prefixed (most : Nat) : Prefixed (varint most) := by
  induction most with
  | zero => exact nofun
  | succ most ih =>
    intro s n rest done
    cases s with
    | nil => cases done
    | cons c s =>
      rw [varint] at done
      split at done
      · rename_i last
        cases done
        exact ⟨[c], rfl, fun after => by rw [List.singleton_append, varint, if_pos last]⟩
      · rename_i more
        obtain ⟨⟨high, left⟩, parsed, same⟩ := except_map_ok done
        cases same
        obtain ⟨data, rfl, again⟩ := ih parsed
        refine ⟨c :: data, rfl, fun after => ?_⟩
        rw [List.cons_append, varint, if_neg more, again]
        rfl

theorem uint32_prefixed : Prefixed uint32 := (varint_prefixed 10).map (· % 2 ^ 32)

theorem bool_prefixed : Prefixed bool := (varint_prefixed 10).map (· % 2 ^ 64 != 0)

/-- A test of what was read. -/
theorem Prefixed.test (answer : α → Except Refusal β) (a : α) :
    Prefixed fun rest => (answer a).map fun b => (b, rest) := by
  intro s b rest done
  obtain ⟨c, answered, same⟩ := except_map_ok done
  cases same
  refine ⟨[], rfl, fun after => ?_⟩
  dsimp only
  rw [answered]
  rfl

theorem bytes_prefixed : Prefixed bytes := uint32_prefixed.andThen take_prefixed

theorem string_prefixed : Prefixed string :=
  bytes_prefixed.andThen fun bytes => .test textOf bytes

theorem tag_prefixed : Prefixed tag := uint32_prefixed.andThen fun n => .test tagOf n

/-- A front part that is read is not empty. -/
theorem tag_nonempty {data : Text} (parsed : ∀ after, tag (data ++ after) = .ok (answer, after)) :
    0 < data.length := by
  refine List.length_pos_iff.mpr fun empty => ?_
  subst empty
  cases parsed []

/-- The fuel that a front part of a length needs. -/
def needed (n : Nat) : Option WireType → Nat
  | some _ => 2 * n + 2
  | none => 2 * n + 1

/-- A goal that is met by one parser, whatever the fuel. -/
theorem pass_whole {goal : WireType} {parse : Parser α} (prefixed : Prefixed parse)
    (same : ∀ fuel s, pass (fuel + 1) (some goal) s = (parse s).map fun (_, rest) => ((), rest))
    (done : pass (fuel + 1) (some goal) s = .ok ((), rest)) : ∃ data, s = data ++ rest ∧
      ∀ fuel' after, needed data.length (some goal) ≤ fuel' →
        pass fuel' (some goal) (data ++ after) = .ok ((), after) := by
  rw [same] at done
  obtain ⟨data, split, again⟩ := prefixed.map (fun _ => ()) done
  refine ⟨data, split, fun fuel' after enough => ?_⟩
  obtain ⟨fuel', rfl⟩ : ∃ n, fuel' = n + 1 :=
    Nat.exists_eq_succ_of_ne_zero (by simp only [needed] at enough; omega)
  rw [same]
  exact again after

theorem pass_prefixed (fuel : Nat) (goal : Option WireType) {s rest : Text}
    (done : pass fuel goal s = .ok ((), rest)) : ∃ data, s = data ++ rest ∧
      ∀ fuel' after, needed data.length goal ≤ fuel' →
        pass fuel' goal (data ++ after) = .ok ((), after) := by
  induction fuel generalizing goal s rest with
  | zero => cases done
  | succ fuel ih =>
    cases goal with
    | none =>
      rw [pass] at done
      obtain ⟨⟨no, wireType⟩, mid, tagged, later⟩ := andThen_ok done
      obtain ⟨x, rfl, again⟩ := tag_prefixed tagged
      have nonempty := tag_nonempty again
      dsimp only at later
      split at later
      · rename_i ends
        cases later
        refine ⟨x, rfl, fun fuel' after enough => ?_⟩
        obtain ⟨fuel', rfl⟩ : ∃ n, fuel' = n + 1 :=
          Nat.exists_eq_succ_of_ne_zero (by simp only [needed] at enough; omega)
        rw [pass, andThen, again]
        exact if_pos ends
      · rename_i inside
        obtain ⟨_, left, first, others⟩ := andThen_ok later
        obtain ⟨y, rfl, passed⟩ := ih (some wireType) first
        obtain ⟨z, rfl, passed'⟩ := ih none others
        refine ⟨x ++ (y ++ z), by simp, fun fuel' after enough => ?_⟩
        simp only [needed] at enough
        simp only [List.length_append] at enough
        obtain ⟨fuel', rfl⟩ : ∃ n, fuel' = n + 1 := Nat.exists_eq_succ_of_ne_zero (by omega)
        rw [pass, andThen, List.append_assoc, again]
        change (if wireType = .endGroup then _ else _) = _
        rw [if_neg inside, andThen, List.append_assoc,
          passed fuel' (z ++ after) (by simp only [needed]; omega)]
        exact passed' fuel' after (by simp only [needed]; omega)
    | some wireType =>
      cases wireType with
      | endGroup => cases done
      | bit64 => exact pass_whole (take_prefixed 8) (fun _ _ => by rw [pass]) done
      | bit32 => exact pass_whole (take_prefixed 4) (fun _ _ => by rw [pass]) done
      | lengthDelimited => exact pass_whole bytes_prefixed (fun _ _ => by rw [pass]) done
      | startGroup =>
        rw [pass] at done
        obtain ⟨data, split, passed⟩ := ih none done
        refine ⟨data, split, fun fuel' after enough => ?_⟩
        simp only [needed] at enough
        obtain ⟨fuel', rfl⟩ : ∃ n, fuel' = n + 1 := Nat.exists_eq_succ_of_ne_zero (by omega)
        rw [pass]
        exact passed fuel' after (by simp only [needed]; omega)
      | varint =>
        cases s with
        | nil => cases done
        | cons c s =>
          rw [pass] at done
          split at done
          · rename_i last
            cases done
            refine ⟨[c], rfl, fun fuel' after enough => ?_⟩
            obtain ⟨fuel', rfl⟩ : ∃ n, fuel' = n + 1 :=
              Nat.exists_eq_succ_of_ne_zero (by simp only [needed] at enough; omega)
            rw [List.singleton_append, pass, if_pos last]
          · rename_i more
            obtain ⟨data, rfl, passed⟩ := ih (some .varint) done
            refine ⟨c :: data, rfl, fun fuel' after enough => ?_⟩
            simp only [needed] at enough
            rw [List.length_cons] at enough
            obtain ⟨fuel', rfl⟩ : ∃ n, fuel' = n + 1 := Nat.exists_eq_succ_of_ne_zero (by omega)
            rw [List.cons_append, pass, if_neg more]
            exact passed fuel' after (by simp only [needed]; omega)

theorem skip_prefixed (wireType : WireType) {s data rest : Text}
    (done : skip wireType s = .ok (data, rest)) : s = data ++ rest ∧
      ∀ after, skip wireType (data ++ after) = .ok (data, after) := by
  obtain ⟨⟨_, left⟩, passed, same⟩ := except_map_ok done
  obtain ⟨front, rfl, again⟩ := pass_prefixed _ _ passed
  have size : (front ++ left).length - left.length = front.length := by
    rw [List.length_append, Nat.add_sub_cancel]
  dsimp only at same
  rw [size, List.take_left] at same
  cases same
  refine ⟨rfl, fun after => ?_⟩
  have enough : needed data.length (some wireType) ≤ 2 * (data ++ after).length + 2 := by
    simp only [needed, List.length_append]
    omega
  unfold skip
  rw [again _ after enough]
  change Except.ok ((data ++ after).take ((data ++ after).length - after.length), after) = _
  rw [List.length_append, Nat.add_sub_cancel, List.take_left]

/-! What is written, and that it is read back. -/

/-- The bytes of a number below `2 ^ 35`. -/
def varintBytes : Nat → Nat → Text
  | 0, n => [Char.ofNat n]
  | more + 1, n =>
    if n < 0x80 then [Char.ofNat n]
    else Char.ofNat (n % 0x80 + 0x80) :: varintBytes more (n / 0x80)

theorem toNat_ofNat_small {n : Nat} (small : n < 0x100) : (Char.ofNat n).toNat = n :=
  JsString.toNat_ofNat (by omega)

theorem varint_varintBytes {more n : Nat} (small : n < 0x80 ^ (more + 1)) (spare : Nat)
    (after : Text) : varint (more + 1 + spare) (varintBytes more n ++ after) = .ok (n, after) := by
  induction more generalizing n with
  | zero =>
    have low : n < 0x80 := by simpa using small
    have code := toNat_ofNat_small (n := n) (by omega)
    rw [varintBytes, List.singleton_append, Nat.zero_add, Nat.add_comm, varint, code, if_pos low]
  | succ more ih =>
    have turn : more + 1 + 1 + spare = more + 1 + spare + 1 := by omega
    rw [varintBytes, turn]
    split
    · rename_i low
      have code := toNat_ofNat_small (n := n) (by omega)
      rw [List.singleton_append, varint, code, if_pos low]
    · rename_i high
      have code := toNat_ofNat_small (n := n % 0x80 + 0x80) (by omega)
      have rest : n / 0x80 < 0x80 ^ (more + 1) := by
        rw [Nat.div_lt_iff_lt_mul (by decide), ← Nat.pow_succ]
        exact small
      rw [List.cons_append, varint, code, if_neg (by omega), ih rest]
      have low : (n % 0x80 + 0x80) % 0x80 = n % 0x80 := by omega
      simp only [Except.map, low, Nat.mod_add_div]

/-- The writer refuses what is not an unsigned number of 32 bits. -/
def writeUint32 (n : Nat) : Except Refusal Text :=
  if n < 2 ^ 32 then .ok (varintBytes 4 n) else .error .invalidUint32

def writeBool (b : Bool) : Except Refusal Text := .ok [if b then Char.ofNat 1 else Char.ofNat 0]

def writeString (s : JsString) : Except Refusal Text :=
  (writeUint32 s.utf8.length).map (· ++ s.utf8)

def tagBytes (no : Nat) (wireType : WireType) : Text := varintBytes 4 (no * 8 + code wireType)

theorem uint32_varintBytes {n : Nat} (small : n < 2 ^ 32) (after : Text) :
    uint32 (varintBytes 4 n ++ after) = .ok (n, after) := by
  have fits : n < 0x80 ^ (4 + 1) := by omega
  have read := varint_varintBytes fits 5 after
  unfold uint32
  rw [show 10 = 4 + 1 + 5 from rfl, read]
  simp only [Except.map, Nat.mod_eq_of_lt small]

theorem writeUint32_ok (written : writeUint32 n = .ok data) :
    n < 2 ^ 32 ∧ data = varintBytes 4 n := by
  unfold writeUint32 at written
  split at written
  · rename_i small
    cases written
    exact ⟨small, rfl⟩
  · cases written

theorem wireTypeOf_code (wireType : WireType) : wireTypeOf (code wireType) = some wireType := by
  cases wireType <;> rfl

theorem code_lt (wireType : WireType) : code wireType < 8 := by
  cases wireType <;> decide

theorem tag_tagBytes {no : Nat} (number : FieldNumber no) (wireType : WireType) (after : Text) :
    tag (tagBytes no wireType ++ after) = .ok ((no, wireType), after) := by
  obtain ⟨positive, small⟩ := number
  have under := code_lt wireType
  have low : (no * 8 + code wireType) % 8 = code wireType := by omega
  have high : (no * 8 + code wireType) / 8 = no := by omega
  have fits : no * 8 + code wireType < 2 ^ 32 := by omega
  unfold tag andThen tagBytes
  rw [uint32_varintBytes fits]
  change (tagOf (no * 8 + code wireType)).map (·, after) = _
  unfold tagOf
  rw [low, high, wireTypeOf_code]
  simp only [if_neg (Nat.ne_of_gt positive), Except.map]

theorem tag_numbered (done : tag s = .ok (answer, rest)) : FieldNumber answer.1 := by
  obtain ⟨n, mid, read, later⟩ := andThen_ok done
  obtain ⟨⟨v, mid⟩, -, same⟩ := except_map_ok read
  cases same
  obtain ⟨found, tagged, same⟩ := except_map_ok later
  cases same
  unfold tagOf at tagged
  split at tagged
  · cases tagged
  · split at tagged
    · cases tagged
    · rename_i number
      cases tagged
      exact ⟨Nat.pos_of_ne_zero number, by dsimp only; omega⟩

theorem bytes_written (written : writeUint32 data.length = .ok length) (after : Text) :
    bytes (length ++ data ++ after) = .ok (data, after) := by
  obtain ⟨small, rfl⟩ := writeUint32_ok written
  unfold bytes andThen
  rw [List.append_assoc, uint32_varintBytes small]
  exact take_length data after

theorem string_written {s : JsString} (formed : s.WellFormed) (written : writeString s = .ok data)
    (after : Text) : string (data ++ after) = .ok (s, after) := by
  obtain ⟨length, announced, rfl⟩ := except_map_ok written
  unfold string andThen
  rw [bytes_written announced]
  change (textOf s.utf8).map (·, after) = _
  unfold textOf
  rw [JsString.ofUtf8_utf8 formed]
  simp only [formed, and_self, if_true, Except.map]

theorem string_formed (done : string s = .ok (text, rest)) : text.WellFormed := by
  obtain ⟨data, mid, -, later⟩ := andThen_ok done
  obtain ⟨found, formed, same⟩ := except_map_ok later
  cases same
  unfold textOf at formed
  dsimp only at formed
  split at formed
  · rename_i valid
    cases formed
    exact valid.2
  · cases formed

theorem bool_written (written : writeBool b = .ok data) (after : Text) :
    bool (data ++ after) = .ok (b, after) := by
  cases written
  cases b <;> rfl

/-- A number that is not unsigned or has more than 32 bits is not written at all. -/
def uint32Scalar : Scalar Refusal Nat 0 where
  wireType := .varint
  write := writeUint32
  read := reader uint32
  Valid _ := True
  valid_zero := trivial
  spells _ written := by
    obtain ⟨small, rfl⟩ := writeUint32_ok written
    exact reader_spells (uint32_varintBytes small)
  valid_read _ _ _ _ _ := trivial
  forward := uint32_prefixed.forward

def boolScalar : Scalar Refusal Bool false where
  wireType := .varint
  write := writeBool
  read := reader bool
  Valid _ := True
  valid_zero := trivial
  spells _ written := reader_spells (bool_written written)
  valid_read _ _ _ _ _ := trivial
  forward := bool_prefixed.forward

def stringScalar : Scalar Refusal JsString [] where
  wireType := .lengthDelimited
  write := writeString
  read := reader string
  Valid := JsString.WellFormed
  valid_zero := trivial
  spells formed written := reader_spells (string_written formed written)
  valid_read _ _ _ _ done := by
    obtain ⟨rest, -, parsed, -⟩ := reader_ok done
    exact string_formed parsed
  forward := string_prefixed.forward

def runtime : Runtime Refusal where
  tag := tagBytes
  readTag := reader tag
  uint32 := uint32Scalar
  skip wireType := reader (skip wireType)
  tag_spells number wireType := reader_spells (tag_tagBytes number wireType)
  tag_number _ _ _ _ done := by
    obtain ⟨rest, -, parsed, -⟩ := reader_ok done
    exact tag_numbered parsed
  tag_advances _ _ _ _ done := by
    obtain ⟨data, rfl, again⟩ := tag_prefixed.reader_ok done
    exact Nat.lt_add_of_pos_right (tag_nonempty again)
  skip_again _ _ _ _ _ done := by
    obtain ⟨rest, -, parsed, -⟩ := reader_ok done
    exact reader_spells (skip_prefixed _ parsed).2
  skip_forward wireType := by
    have prefixed : Prefixed (skip wireType) := fun s data rest done =>
      ⟨data, skip_prefixed wireType done⟩
    exact prefixed.forward
  uint32_valid _ := trivial

end Lib.Protobuf
