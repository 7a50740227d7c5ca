import Crown.Lib.Text

/-! Messages of numbered fields as bytes: what a reader of tags, lengths and scalar values must
grant for a message that was written to be read back, next to whatever else it is put. -/
namespace Lib.Wire

/-- What reads on from a place in a buffer. -/
abbrev Reader (ε : Type) := ReaderT Text (StateT Nat (Except ε))

variable {ε α β : Type}

/-- Wherever the bytes stand, the value is read from them, and nothing beyond them is read. -/
def Spells (read : Reader ε α) (bytes : Text) (value : α) : Prop :=
  ∀ before after : Text, read (before ++ bytes ++ after) before.length =
    .ok (value, before.length + bytes.length)

/-- A reader does not go back. -/
def Forward (read : Reader ε α) : Prop :=
  ∀ ⦃buf pos a pos'⦄, read buf pos = .ok (a, pos') → pos ≤ pos'

theorem except_bind_ok {first : Except ε α} {next : α → Except ε β} {b : β}
    (done : first >>= next = .ok b) : ∃ a, first = .ok a ∧ next a = .ok b := by
  cases first with
  | error e => cases done
  | ok a => exact ⟨a, rfl, done⟩

theorem except_map_ok {first : Except ε α} {f : α → β} {b : β} (done : first.map f = .ok b) :
    ∃ a, first = .ok a ∧ f a = b := by
  cases first with
  | error e => cases done
  | ok a => exact ⟨a, rfl, Except.ok.inj done⟩

theorem pure_run (a : α) (buf : Text) (pos : Nat) : (pure a : Reader ε α) buf pos = .ok (a, pos) :=
  rfl

theorem bind_run (read : Reader ε α) (next : α → Reader ε β) (buf : Text) (pos : Nat) :
    (read >>= next) buf pos = (read buf pos).bind fun (a, pos') => next a buf pos' := by
  change (StateT.bind (read buf) fun a => next a buf) pos = _
  unfold StateT.bind
  cases read buf pos <;> rfl

theorem bind_ok {read : Reader ε α} {next : α → Reader ε β} {buf : Text} {pos last : Nat} {b : β}
    (done : (read >>= next) buf pos = .ok (b, last)) :
    ∃ a pos', read buf pos = .ok (a, pos') ∧ next a buf pos' = .ok (b, last) := by
  rw [bind_run] at done
  cases first : read buf pos with
  | error e =>
    rw [first] at done
    cases done
  | ok result =>
    rw [first] at done
    exact ⟨result.1, result.2, rfl, done⟩

theorem Spells.pure (a : α) : Spells (pure a : Reader ε α) [] a := fun _ _ => rfl

/-- What is read one after the other stands one behind the other. -/
theorem Spells.bind {read : Reader ε α} {next : α → Reader ε β} {x y : Text} {a : α} {b : β}
    (first : Spells read x a) (rest : Spells (next a) y b) : Spells (read >>= next) (x ++ y) b := by
  intro before after
  have here := first before (y ++ after)
  have there := rest (before ++ x) after
  rw [List.length_append] at there
  rw [bind_run, ← List.append_assoc before, List.append_assoc (before ++ x), here]
  change next a (before ++ x ++ (y ++ after)) (before.length + x.length) = _
  rw [← List.append_assoc (before ++ x), there, List.length_append, Nat.add_assoc]

theorem Spells.map {read : Reader ε α} {x : Text} {a : α} (first : Spells read x a) (f : α → β) :
    Spells (do return f (← read)) x (f a) := by
  have both : Spells (do return f (← read)) (x ++ []) (f a) := first.bind (Spells.pure (f a))
  rwa [List.append_nil] at both

theorem Forward.pure (a : α) : Forward (pure a : Reader ε α) := by
  intro buf pos b pos' done
  cases done
  exact le_rfl

theorem Forward.bind {read : Reader ε α} {next : α → Reader ε β} (first : Forward read)
    (rest : ∀ a, Forward (next a)) : Forward (read >>= next) := by
  intro buf pos b last done
  obtain ⟨a, pos', here, there⟩ := bind_ok done
  exact (first here).trans (rest a there)

/-- `while (reader.pos < end)`, where a turn reads on: as many turns as there are bytes up to
the end are enough. -/
def readUntil {M : Type} (turn : M → Reader ε M) : (fuel stop : Nat) → M → Reader ε M
  | 0, _, m => pure m
  | fuel + 1, stop, m => do
    if (← get) < stop then
      readUntil turn fuel stop (← turn m)
    else
      return m

/-- A loop over the bytes that a length announces. -/
def readMessage {M : Type} (turn : M → Reader ε M) (length : Nat) (target : M) : Reader ε M := do
  readUntil turn length ((← get) + length) target

section

variable {M : Type} {turn : M → Reader ε M}

/-- Every turn reads something. -/
def Advances (turn : M → Reader ε M) : Prop :=
  ∀ ⦃m buf pos m' pos'⦄, turn m buf pos = .ok (m', pos') → pos < pos'

theorem readUntil_run (turn : M → Reader ε M) (fuel stop : Nat) (m : M) (buf : Text) (pos : Nat) :
    readUntil turn (fuel + 1) stop m buf pos = if pos < stop then
      (turn m buf pos).bind fun (m', pos') => readUntil turn fuel stop m' buf pos'
    else .ok (m, pos) := by
  change (if pos < stop then turn m >>= readUntil turn fuel stop else pure m) buf pos = _
  split
  · exact bind_run _ _ buf pos
  · rfl

/-- More turns than there are bytes change nothing. -/
theorem readUntil_fuel (advances : Advances turn) {fuel fuel' stop pos : Nat} {m : M} {buf : Text}
    (enough : stop - pos ≤ fuel) (enough' : stop - pos ≤ fuel') :
    readUntil turn fuel stop m buf pos = readUntil turn fuel' stop m buf pos := by
  induction fuel generalizing fuel' pos m with
  | zero =>
    cases fuel' with
    | zero => rfl
    | succ fuel' =>
      rw [readUntil_run, if_neg (by omega)]
      rfl
  | succ fuel ih =>
    cases fuel' with
    | zero =>
      rw [readUntil_run, if_neg (by omega)]
      rfl
    | succ fuel' =>
      rw [readUntil_run, readUntil_run]
      split
      · cases turned : turn m buf pos with
        | error e => rfl
        | ok result =>
          have on := advances turned
          exact ih (by omega) (by omega)
      · rfl

/-- The loop as it is written. -/
theorem readUntil_while (advances : Advances turn) (stop pos : Nat) (m : M) (buf : Text) :
    readUntil turn (stop - pos) stop m buf pos = if pos < stop then
      (turn m buf pos).bind fun (m', pos') => readUntil turn (stop - pos') stop m' buf pos'
    else .ok (m, pos) := by
  by_cases more : pos < stop
  · obtain ⟨fuel, same⟩ := Nat.exists_eq_succ_of_ne_zero (Nat.sub_ne_zero_of_lt more)
    rw [same, readUntil_run, if_pos more, if_pos more]
    cases turned : turn m buf pos with
    | error e => rfl
    | ok result =>
      have on := advances turned
      exact readUntil_fuel advances (by omega) le_rfl
  · rw [if_neg more, Nat.sub_eq_zero_of_le (Nat.le_of_not_lt more)]
    rfl

/-- Bytes, entry by entry, that turn after turn make one message of another. -/
inductive Feeds (turn : M → Reader ε M) : M → List Text → M → Prop where
  | nil : Feeds turn m [] m
  | cons : Spells (turn m) entry m' → Feeds turn m' entries m'' →
    Feeds turn m (entry :: entries) m''

theorem Feeds.append (first : Feeds turn a x b) (rest : Feeds turn b y c) :
    Feeds turn a (x ++ y) c := by
  induction first with
  | nil => exact rest
  | cons spelled _ ih => exact .cons spelled (ih rest)

theorem Feeds.readUntil (feeds : Feeds turn a entries b) (advances : Advances turn)
    (before after : Text) {fuel : Nat} (enough : entries.flatten.length ≤ fuel) :
    readUntil turn fuel (before.length + entries.flatten.length) a
        (before ++ entries.flatten ++ after) before.length =
      .ok (b, before.length + entries.flatten.length) := by
  induction feeds generalizing before fuel with
  | nil =>
    cases fuel with
    | zero => rfl
    | succ fuel =>
      rw [readUntil_run, if_neg (by simp)]
      rfl
  | @cons m entry m' entries m'' spelled _ ih =>
    have alone := spelled [] []
    have nonempty : 0 < entry.length := by
      have on := advances alone
      simpa using on
    obtain ⟨fuel, rfl⟩ : ∃ n, fuel = n + 1 :=
      Nat.exists_eq_succ_of_ne_zero (by rw [List.flatten_cons, List.length_append] at enough; omega)
    rw [List.flatten_cons, List.length_append] at enough ⊢
    have here := spelled before (entries.flatten ++ after)
    have less : entries.flatten.length ≤ fuel := by omega
    have there := ih (before ++ entry) less
    rw [List.length_append] at there
    rw [readUntil_run, if_pos (by omega), ← List.append_assoc before,
      List.append_assoc (before ++ entry), here]
    change Wire.readUntil turn fuel _ m' (before ++ entry ++ (entries.flatten ++ after))
      (before.length + entry.length) = _
    rw [← List.append_assoc (before ++ entry), ← Nat.add_assoc, there]

/-- What is fed entry by entry is read by the loop over the length of the whole. -/
theorem Feeds.spells (feeds : Feeds turn a entries b) (advances : Advances turn) :
    Spells (readMessage turn entries.flatten.length a) entries.flatten b := fun before after =>
  feeds.readUntil advances before after le_rfl

theorem readMessage_forward (advances : Advances turn) (length : Nat) (target : M) :
    Forward (readMessage turn length target) := by
  have loop : ∀ fuel stop m, Forward (readUntil turn fuel stop m) := by
    intro fuel
    induction fuel with
    | zero => exact fun stop m => .pure m
    | succ fuel ih =>
      intro stop m buf pos m' pos' done
      rw [readUntil_run] at done
      split at done
      · cases turned : turn m buf pos with
        | error e =>
          rw [turned] at done
          cases done
        | ok result =>
          rw [turned] at done
          exact (advances turned).le.trans (ih _ _ done)
      · cases done
        exact le_rfl
  exact fun buf pos m' pos' done => loop _ _ _ done

/-- What every turn keeps, the loop keeps. -/
theorem readMessage_kept {Valid : M → Prop}
    (kept : ∀ ⦃m buf pos m' pos'⦄, Valid m → turn m buf pos = .ok (m', pos') → Valid m')
    {length : Nat} {target m : M} {buf : Text} {pos pos' : Nat} (valid : Valid target)
    (done : readMessage turn length target buf pos = .ok (m, pos')) : Valid m := by
  have loop : ∀ fuel stop (m m' : M) pos pos', Valid m →
      readUntil turn fuel stop m buf pos = .ok (m', pos') → Valid m' := by
    intro fuel
    induction fuel with
    | zero =>
      intro stop m m' pos pos' valid done
      cases done
      exact valid
    | succ fuel ih =>
      intro stop m m' pos pos' valid done
      rw [readUntil_run] at done
      split at done
      · cases turned : turn m buf pos with
        | error e =>
          rw [turned] at done
          cases done
        | ok result =>
          rw [turned] at done
          exact ih _ _ _ _ _ (kept valid turned) done
      · cases done
        exact valid
  exact loop _ _ _ _ _ _ valid done

end

inductive WireType where
  | varint
  | bit64
  | lengthDelimited
  | startGroup
  | endGroup
  | bit32
  deriving DecidableEq

/-- Values of one scalar type: how they are written, which a writer may refuse, and read. -/
structure Scalar (ε V : Type) (zero : V) where
  wireType : WireType
  write : V → Except ε Text
  read : Reader ε V
  /-- Those that keep what they are when they are written. -/
  Valid : V → Prop
  valid_zero : Valid zero
  spells : ∀ {v bytes}, Valid v → write v = .ok bytes → Spells read bytes v
  valid_read : ∀ ⦃buf pos v pos'⦄, read buf pos = .ok (v, pos') → Valid v
  forward : Forward read

/-- The numbers that a field may have. -/
def FieldNumber (no : Nat) : Prop := 0 < no ∧ no < 2 ^ 29

instance (no : Nat) : Decidable (FieldNumber no) := inferInstanceAs (Decidable (_ ∧ _))

/-- What messages are written and read with: tags, lengths, and skipping what is unknown. -/
structure Runtime (ε : Type) where
  tag : Nat → WireType → Text
  readTag : Reader ε (Nat × WireType)
  uint32 : Scalar ε Nat 0
  skip : WireType → Reader ε Text
  tag_spells : ∀ {no}, FieldNumber no → ∀ wireType, Spells readTag (tag no wireType) (no, wireType)
  tag_number : ∀ ⦃buf pos tag pos'⦄, readTag buf pos = .ok (tag, pos') → FieldNumber tag.1
  tag_advances : ∀ ⦃buf pos tag pos'⦄, readTag buf pos = .ok (tag, pos') → pos < pos'
  /-- What was skipped once is skipped again. -/
  skip_again : ∀ ⦃wireType buf pos data pos'⦄, skip wireType buf pos = .ok (data, pos') →
    Spells (skip wireType) data data
  skip_forward : ∀ wireType, Forward (skip wireType)
  uint32_valid : ∀ n, uint32.Valid n

variable {V R M : Type}

/-- Bytes behind tags of a field, one value of the field after the other. -/
structure FieldType (ε V : Type) where
  create : V
  /-- A value, and then another, read into one field. -/
  merge : V → V → V
  entries : V → Except ε (List (WireType × Text))
  read : V → Reader ε V
  Valid : V → Prop
  valid_create : Valid create
  merge_create : ∀ v, merge create v = v
  feeds : ∀ {w entries'} v, Valid w → entries w = .ok entries' →
    Feeds read v (entries'.map Prod.snd) (merge v w)
  valid_read : ∀ ⦃v buf pos w pos'⦄, Valid v → read v buf pos = .ok (w, pos') → Valid w
  forward : ∀ v, Forward (read v)

/-- A message: `turn` is the body of the loop that reads it. -/
structure MessageType (ε M : Type) where
  create : M
  merge : M → M → M
  internalBinaryWrite : M → Except ε Text
  turn : M → Reader ε M
  Valid : M → Prop
  valid_create : Valid create
  merge_create : ∀ m, merge create m = m
  feeds : ∀ {m bytes} target, Valid m → internalBinaryWrite m = .ok bytes →
    ∃ entries, bytes = entries.flatten ∧ Feeds turn target entries (merge target m)
  valid_turn : ∀ ⦃m buf pos m' pos'⦄, Valid m → turn m buf pos = .ok (m', pos') → Valid m'
  advances : Advances turn

namespace MessageType

variable (T : MessageType ε M)

def internalBinaryRead (length : Nat) (target : M) : Reader ε M := readMessage T.turn length target

/-- The message that all of the bytes make. -/
def fromBinary (data : Text) : Except ε M :=
  (T.internalBinaryRead data.length T.create data 0).map Prod.fst

variable {T}

/-- Read into a target, a message that was written is merged with it. -/
theorem spells_merge (valid : T.Valid m) (written : T.internalBinaryWrite m = .ok bytes)
    (target : M) :
    Spells (T.internalBinaryRead bytes.length target) bytes (T.merge target m) := by
  obtain ⟨entries, rfl, feeds⟩ := T.feeds target valid written
  exact feeds.spells T.advances

/-- Messages written one behind the other are merged one after the other. -/
theorem spells_merge_both (valid : T.Valid m) (written : T.internalBinaryWrite m = .ok bytes)
    (valid' : T.Valid m') (written' : T.internalBinaryWrite m' = .ok bytes') (target : M) :
    Spells (T.internalBinaryRead (bytes ++ bytes').length target) (bytes ++ bytes')
      (T.merge (T.merge target m) m') := by
  obtain ⟨entries, rfl, feeds⟩ := T.feeds target valid written
  obtain ⟨entries', rfl, feeds'⟩ := T.feeds (T.merge target m) valid' written'
  rw [← List.flatten_append]
  exact (feeds.append feeds').spells T.advances

theorem valid_read (valid : T.Valid target)
    (done : T.internalBinaryRead length target buf pos = .ok (m, pos')) : T.Valid m :=
  readMessage_kept T.valid_turn valid done

theorem fromBinary_of_spells {bytes : Text}
    (spelled : Spells (T.internalBinaryRead bytes.length T.create) bytes m) :
    T.fromBinary bytes = .ok m := by
  have whole := spelled [] []
  rw [List.nil_append, List.append_nil] at whole
  exact congrArg (Except.map Prod.fst) whole

/-- What was written is read back. -/
theorem fromBinary_write (valid : T.Valid m) (written : T.internalBinaryWrite m = .ok bytes) :
    T.fromBinary bytes = .ok m := by
  have spelled := spells_merge valid written T.create
  rw [T.merge_create] at spelled
  exact fromBinary_of_spells spelled

theorem valid_fromBinary (read : T.fromBinary bytes = .ok m) : T.Valid m := by
  unfold fromBinary at read
  cases done : T.internalBinaryRead bytes.length T.create bytes 0 with
  | error e =>
    rw [done] at read
    cases read
  | ok result =>
    rw [done] at read
    cases read
    exact valid_read T.valid_create done

end MessageType

namespace FieldType

/-- A scalar field is written unless it is zero; what comes last stays. -/
def scalar [DecidableEq V] {zero : V} (codec : Scalar ε V zero) : FieldType ε V where
  create := zero
  merge v w := if w = zero then v else w
  entries v :=
    if v = zero then .ok [] else (codec.write v).map fun bytes => [(codec.wireType, bytes)]
  read _ := codec.read
  Valid := codec.Valid
  valid_create := codec.valid_zero
  merge_create v := by
    split
    · rename_i same
      exact same.symm
    · rfl
  feeds {w entries} v valid written := by
    split at written
    · rename_i same
      cases written
      rw [if_pos same]
      exact .nil
    · rename_i nonzero
      obtain ⟨bytes, out, rfl⟩ := except_map_ok written
      rw [if_neg nonzero]
      exact .cons (codec.spells valid out) .nil
  valid_read _ _ _ _ _ _ done := codec.valid_read done
  forward _ := codec.forward

variable (rt : Runtime ε) (T : MessageType ε M)

/-- A message behind its length. -/
def delimited (m : M) : Except ε (WireType × Text) := do
  let bytes ← T.internalBinaryWrite m
  return (.lengthDelimited, (← rt.uint32.write bytes.length) ++ bytes)

def readDelimited (target : M) : Reader ε M := do
  T.internalBinaryRead (← rt.uint32.read) target

variable {rt T}

theorem delimited_spells {entry : WireType × Text} (valid : T.Valid m)
    (written : delimited rt T m = .ok entry) (target : M) :
    Spells (readDelimited rt T target) entry.2 (T.merge target m) := by
  obtain ⟨bytes, out, rest⟩ := except_bind_ok written
  obtain ⟨length, announced, same⟩ := except_bind_ok rest
  cases same
  exact (rt.uint32.spells (rt.uint32_valid _) announced).bind (T.spells_merge valid out target)

theorem readDelimited_forward (target : M) : Forward (readDelimited rt T target) :=
  rt.uint32.forward.bind fun length => readMessage_forward T.advances length target

theorem valid_readDelimited (valid : T.Valid target)
    (done : readDelimited rt T target buf pos = .ok (m, pos')) : T.Valid m := by
  obtain ⟨length, here, -, rest⟩ := bind_ok done
  exact T.valid_read valid rest

variable (rt T)

/-- A field with one message: what comes later is read into what is there. -/
def message : FieldType ε (Option M) where
  create := none
  merge
    | v, none => v
    | v, some m => some (T.merge (v.getD T.create) m)
  entries
    | none => .ok []
    | some m => (delimited rt T m).map fun entry => [entry]
  read v := do return some (← readDelimited rt T (v.getD T.create))
  Valid v := ∀ m ∈ v, T.Valid m
  valid_create := nofun
  merge_create
    | none => rfl
    | some m => congrArg some (T.merge_create m)
  feeds {w entries} v valid written := by
    cases w with
    | none =>
      cases written
      exact .nil
    | some m =>
      obtain ⟨entry, out, rfl⟩ := except_map_ok written
      exact .cons ((delimited_spells (valid m rfl) out _).map some) .nil
  valid_read v buf pos w pos' valid done := by
    obtain ⟨m, here, read, same⟩ := bind_ok done
    cases same
    have target : T.Valid (v.getD T.create) := by
      cases v with
      | none => exact T.valid_create
      | some old => exact valid old rfl
    intro m' member
    cases member
    exact valid_readDelimited target read
  forward v := (readDelimited_forward _).bind fun _ => .pure _

/-- A field with any number of messages: what comes later is put behind. -/
def repeated : FieldType ε (List M) where
  create := []
  merge := (· ++ ·)
  entries ms := ms.mapM (delimited rt T)
  read v := do return v ++ [← readDelimited rt T T.create]
  Valid v := ∀ m ∈ v, T.Valid m
  valid_create := nofun
  merge_create := List.nil_append
  feeds {w entries} v valid written := by
    induction w generalizing v entries with
    | nil =>
      cases written
      rw [List.append_nil]
      exact .nil
    | cons m ms ih =>
      rw [List.mapM_cons] at written
      obtain ⟨entry, out, rest⟩ := except_bind_ok written
      obtain ⟨later, outs, same⟩ := except_bind_ok rest
      cases same
      have here := delimited_spells (valid m List.mem_cons_self) out T.create
      rw [T.merge_create] at here
      have behind := ih (v ++ [m]) (fun m member => valid m (List.mem_cons_of_mem _ member)) outs
      rw [List.append_assoc] at behind
      exact .cons (here.map fun m => v ++ [m]) behind
  valid_read v buf pos w pos' valid done := by
    obtain ⟨m, here, read, same⟩ := bind_ok done
    cases same
    intro m' member
    rcases List.mem_append.mp member with old | new
    · exact valid m' old
    · cases List.mem_singleton.mp new
      exact valid_readDelimited T.valid_create read
  forward v := (readDelimited_forward _).bind fun _ => .pure _

end FieldType

/-- What stands behind one tag. -/
structure Entry where
  no : Nat
  wireType : WireType
  data : Text

/-- The fields of a message, each under its number. -/
inductive Fields (ε : Type) : Type → Type 1 where
  | nil : Fields ε Unit
  | cons {V R : Type} (no : Nat) (type : FieldType ε V) (rest : Fields ε R) : Fields ε (V × R)

namespace Fields

def numbers : {R : Type} → Fields ε R → List Nat
  | _, nil => []
  | _, cons no _ rest => no :: rest.numbers

/-- No number is given twice, and every one is a number that a field may have. -/
def wellNumbered (fields : Fields ε R) : Bool :=
  decide fields.numbers.Nodup && fields.numbers.all fun no => decide (FieldNumber no)

theorem wellNumbered_iff (fields : Fields ε R) : fields.wellNumbered = true ↔
    fields.numbers.Nodup ∧ ∀ no ∈ fields.numbers, FieldNumber no := by
  simp [wellNumbered]

def create : {R : Type} → Fields ε R → R
  | _, nil => ()
  | _, cons _ type rest => (type.create, rest.create)

def merge : {R : Type} → Fields ε R → R → R → R
  | _, nil, _, _ => ()
  | _, cons _ type rest, (v, r), (w, s) => (type.merge v w, rest.merge r s)

def entries : {R : Type} → Fields ε R → R → Except ε (List Entry)
  | _, nil, _ => .ok []
  | _, cons no type rest, (v, r) => do
    let first ← type.entries v
    return first.map (fun entry => ⟨no, entry.1, entry.2⟩) ++ (← rest.entries r)

/-- `switch (fieldNo)`, nothing where the field is not known. -/
def read? : {R : Type} → Fields ε R → Nat → R → Option (Reader ε R)
  | _, nil, _, _ => none
  | _, cons no type rest, fieldNo, (v, r) =>
    if fieldNo = no then some do return (← type.read v, r)
    else (rest.read? fieldNo r).map fun read => do return (v, ← read)

def Valid : {R : Type} → Fields ε R → R → Prop
  | _, nil, _ => True
  | _, cons _ type rest, (v, r) => type.Valid v ∧ rest.Valid r

theorem valid_create (fields : Fields ε R) : fields.Valid fields.create := by
  induction fields with
  | nil => trivial
  | cons no type rest ih => exact ⟨type.valid_create, ih⟩

theorem merge_create (fields : Fields ε R) (r : R) : fields.merge fields.create r = r := by
  induction fields with
  | nil => rfl
  | cons no type rest ih => exact Prod.ext (type.merge_create r.1) (ih r.2)

theorem read?_cons (no : Nat) (type : FieldType ε V) (rest : Fields ε R) (fieldNo : Nat)
    (r : V × R) : (cons no type rest).read? fieldNo r =
      if fieldNo = no then some do return (← type.read r.1, r.2)
      else (rest.read? fieldNo r.2).map fun read => do return (r.1, ← read) := rfl

theorem read?_eq_none (fields : Fields ε R) {fieldNo : Nat} (unknown : fieldNo ∉ fields.numbers)
    (r : R) : fields.read? fieldNo r = none := by
  induction fields with
  | nil => rfl
  | cons no type rest ih =>
    obtain ⟨other, later⟩ := not_or.mp (mt List.mem_cons.mpr unknown)
    rw [read?_cons, if_neg other, ih later, Option.map_none]

theorem not_mem_of_read? (fields : Fields ε R) {fieldNo : Nat} {r : R}
    (none : fields.read? fieldNo r = none) : fieldNo ∉ fields.numbers := by
  induction fields with
  | nil => exact List.not_mem_nil
  | cons no type rest ih =>
    rw [read?_cons] at none
    split at none
    · cases none
    · rename_i other
      exact fun member => (List.mem_cons.mp member).elim other (ih (Option.map_eq_none_iff.mp none))

theorem read?_forward (fields : Fields ε R) {fieldNo : Nat} {r : R} {read : Reader ε R}
    (known : fields.read? fieldNo r = some read) : Forward read := by
  induction fields with
  | nil => cases known
  | cons no type rest ih =>
    rw [read?_cons] at known
    split at known
    · cases known
      exact (type.forward _).bind fun _ => .pure _
    · obtain ⟨later, found, rfl⟩ := Option.map_eq_some_iff.mp known
      exact (ih found).bind fun _ => .pure _

theorem valid_read? (fields : Fields ε R) {fieldNo : Nat} {r s : R} {read : Reader ε R}
    (known : fields.read? fieldNo r = some read) (valid : fields.Valid r)
    (done : read buf pos = .ok (s, pos')) : fields.Valid s := by
  induction fields generalizing pos' with
  | nil => cases known
  | cons no type rest ih =>
    rw [read?_cons] at known
    split at known
    · cases known
      obtain ⟨v, here, found, same⟩ := bind_ok done
      cases same
      exact ⟨type.valid_read valid.1 found, valid.2⟩
    · obtain ⟨later, found, rfl⟩ := Option.map_eq_some_iff.mp known
      obtain ⟨t, here, found', same⟩ := bind_ok done
      cases same
      exact ⟨valid.1, ih found valid.2 found'⟩

/-- Entries that are read, one after the other, into the fields under their numbers. -/
inductive Takes (fields : Fields ε R) : R → List Entry → R → Prop where
  | nil : Takes fields r [] r
  | cons {entry : Entry} {field : Reader ε R} {others : List Entry} :
    fields.read? entry.no r = some field → Spells field entry.data s →
    Takes fields s others t → Takes fields r (entry :: others) t

theorem Takes.append {fields : Fields ε R} (first : Takes fields r x s)
    (rest : Takes fields s y t) : Takes fields r (x ++ y) t := by
  induction first with
  | nil => exact rest
  | cons known spelled _ ih => exact .cons known spelled (ih rest)

theorem Takes.first (no : Nat) (type : FieldType ε V) (rest : Fields ε R) (r : R)
    {entries : List (WireType × Text)} (feeds : Feeds type.read v (entries.map Prod.snd) w) :
    Takes (Fields.cons no type rest) (v, r) (entries.map fun entry => ⟨no, entry.1, entry.2⟩)
      (w, r) := by
  induction entries generalizing v with
  | nil =>
    cases feeds
    exact .nil
  | cons entry entries ih =>
    cases feeds with
    | cons spelled later => exact .cons (if_pos rfl) (spelled.map (·, r)) (ih later)

theorem Takes.later {rest : Fields ε R} {x : List Entry} (takes : Takes rest r x s)
    (type : FieldType ε V) (v : V) (apart : ∀ entry ∈ x, entry.no ≠ no) :
    Takes (Fields.cons no type rest) (v, r) x (v, s) := by
  induction takes with
  | nil => exact .nil
  | @cons r s t entry field others known spelled _ ih =>
    have other := apart entry List.mem_cons_self
    refine .cons ?_ (spelled.map (v, ·)) (ih fun entry member => ?_)
    · rw [read?_cons, if_neg other, known]
      rfl
    · exact apart entry (List.mem_cons_of_mem _ member)

theorem entries_no (fields : Fields ε R) {r : R} {entries : List Entry}
    (written : fields.entries r = .ok entries) : ∀ entry ∈ entries, entry.no ∈ fields.numbers := by
  induction fields generalizing entries with
  | nil =>
    cases written
    exact nofun
  | cons no type rest ih =>
    obtain ⟨first, -, later⟩ := except_bind_ok written
    obtain ⟨others, outs, same⟩ := except_bind_ok later
    cases same
    intro entry member
    rcases List.mem_append.mp member with here | there
    · obtain ⟨_, _, rfl⟩ := List.mem_map.mp here
      exact List.mem_cons_self
    · exact List.mem_cons_of_mem _ (ih outs entry there)

theorem takes (fields : Fields ε R) (apart : fields.numbers.Nodup) (valid : fields.Valid s)
    {entries : List Entry} (written : fields.entries s = .ok entries) (r : R) :
    Takes fields r entries (fields.merge r s) := by
  induction fields generalizing entries with
  | nil =>
    cases written
    exact .nil
  | cons no type rest ih =>
    obtain ⟨first, own, later⟩ := except_bind_ok written
    obtain ⟨others, outs, same⟩ := except_bind_ok later
    cases same
    obtain ⟨fresh, apart⟩ := List.nodup_cons.mp apart
    refine (Takes.first no type rest r.2 (type.feeds r.1 valid.1 own)).append ?_
    refine (ih apart valid.2 outs r.2).later type _ fun entry member same => fresh ?_
    rw [← same]
    exact rest.entries_no outs entry member

end Fields

namespace MessageType

variable (rt : Runtime ε) (fields : Fields ε R) (view : M ≃ R × List Entry)

/-- The body of the loop: a field of the message, or one that is kept as it stands. -/
def turnOf (m : M) : Reader ε M := do
  let (fieldNo, wireType) ← rt.readTag
  match fields.read? fieldNo (view m).1 with
  | some read => return view.symm (← read, (view m).2)
  | none => return view.symm ((view m).1, (view m).2 ++ [⟨fieldNo, wireType, ← rt.skip wireType⟩])

def tagged (entry : Entry) : Text := rt.tag entry.no entry.wireType ++ entry.data

def writeOf (m : M) : Except ε Text := do
  let known ← fields.entries (view m).1
  return ((known ++ (view m).2).map (tagged rt)).flatten

/-- What is kept stands under numbers that no field has, and can be skipped. -/
def Keeps (entry : Entry) : Prop :=
  entry.no ∉ fields.numbers ∧ FieldNumber entry.no ∧
    Spells (rt.skip entry.wireType) entry.data entry.data

variable {rt fields view}

theorem turnOf_known {entry : Entry} {field : Reader ε R} (numbered : FieldNumber entry.no)
    (known : fields.read? entry.no r = some field) (spelled : Spells field entry.data s)
    (kept : List Entry) : Spells (turnOf rt fields view (view.symm (r, kept))) (tagged rt entry)
      (view.symm (s, kept)) := by
  refine (rt.tag_spells numbered entry.wireType).bind ?_
  simp only [Equiv.apply_symm_apply, known]
  exact spelled.map fun s => view.symm (s, kept)

theorem turnOf_kept {entry : Entry} (keeps : Keeps rt fields entry) (r : R) (kept : List Entry) :
    Spells (turnOf rt fields view (view.symm (r, kept))) (tagged rt entry)
      (view.symm (r, kept ++ [entry])) := by
  obtain ⟨unknown, numbered, skipped⟩ := keeps
  refine (rt.tag_spells numbered entry.wireType).bind ?_
  simp only [Equiv.apply_symm_apply, fields.read?_eq_none unknown]
  exact skipped.map fun data => view.symm (r, kept ++ [⟨entry.no, entry.wireType, data⟩])

theorem turnOf_cases (done : turnOf rt fields view m buf pos = .ok (m', pos')) :
    ∃ fieldNo wireType here, rt.readTag buf pos = .ok ((fieldNo, wireType), here) ∧
      ((∃ field r, fields.read? fieldNo (view m).1 = some field ∧ field buf here = .ok (r, pos') ∧
          m' = view.symm (r, (view m).2)) ∨
        fields.read? fieldNo (view m).1 = none ∧ ∃ data,
          rt.skip wireType buf here = .ok (data, pos') ∧
          m' = view.symm ((view m).1, (view m).2 ++ [⟨fieldNo, wireType, data⟩])) := by
  obtain ⟨⟨fieldNo, wireType⟩, here, tag, rest⟩ := bind_ok done
  refine ⟨fieldNo, wireType, here, tag, ?_⟩
  dsimp only at rest
  cases known : fields.read? fieldNo (view m).1 with
  | some field =>
    rw [known] at rest
    obtain ⟨r, there, found, same⟩ := bind_ok rest
    cases same
    exact .inl ⟨field, r, rfl, found, rfl⟩
  | none =>
    rw [known] at rest
    obtain ⟨data, there, skipped, same⟩ := bind_ok rest
    cases same
    exact .inr ⟨rfl, data, skipped, rfl⟩

theorem turnOf_advances : Advances (turnOf rt fields view) := by
  intro m buf pos m' pos' done
  obtain ⟨fieldNo, wireType, here, tag, known | unknown⟩ := turnOf_cases done
  · obtain ⟨field, r, known, found, -⟩ := known
    exact (rt.tag_advances tag).trans_le (fields.read?_forward known found)
  · obtain ⟨-, data, skipped, -⟩ := unknown
    exact (rt.tag_advances tag).trans_le (rt.skip_forward wireType skipped)

theorem fed_known (numbered : ∀ no ∈ fields.numbers, FieldNumber no) {r s : R} {known : List Entry}
    (takes : fields.Takes r known s) (mine : ∀ entry ∈ known, entry.no ∈ fields.numbers)
    (kept : List Entry) : Feeds (turnOf rt fields view) (view.symm (r, kept))
      (known.map (tagged rt)) (view.symm (s, kept)) := by
  induction takes with
  | nil => exact .nil
  | @cons r s t entry field others found spelled _ ih =>
    have number := numbered _ (mine entry List.mem_cons_self)
    exact .cons (turnOf_known number found spelled kept)
      (ih fun other member => mine other (List.mem_cons_of_mem _ member))

theorem fed_kept {unknown : List Entry} (keeps : ∀ entry ∈ unknown, Keeps rt fields entry) (r : R)
    (kept : List Entry) : Feeds (turnOf rt fields view) (view.symm (r, kept))
      (unknown.map (tagged rt)) (view.symm (r, kept ++ unknown)) := by
  induction unknown generalizing kept with
  | nil =>
    rw [List.append_nil]
    exact .nil
  | cons entry unknown ih =>
    have others := fun other member => keeps other (List.mem_cons_of_mem _ member)
    have rest := ih others (kept ++ [entry])
    rw [List.append_assoc] at rest
    exact .cons (turnOf_kept (keeps entry List.mem_cons_self) r kept) rest

/-- Everything that was written is read into the target: the fields, then what is kept. -/
theorem fed_message (apart : fields.numbers.Nodup)
    (numbered : ∀ no ∈ fields.numbers, FieldNumber no) (target : M)
    (valid : fields.Valid (view m).1) (keeps : ∀ entry ∈ (view m).2, Keeps rt fields entry)
    (written : writeOf rt fields view m = .ok bytes) : ∃ entries, bytes = entries.flatten ∧
      Feeds (turnOf rt fields view) target entries
        (view.symm (fields.merge (view target).1 (view m).1, (view target).2 ++ (view m).2)) := by
  obtain ⟨known, out, same⟩ := except_bind_ok written
  cases same
  have takes := fields.takes apart valid out (view target).1
  have first : Feeds (turnOf rt fields view) (view.symm ((view target).1, (view target).2))
      (known.map (tagged rt))
      (view.symm (fields.merge (view target).1 (view m).1, (view target).2)) :=
    fed_known numbered takes (fields.entries_no out) (view target).2
  rw [Prod.mk.eta, Equiv.symm_apply_apply] at first
  refine ⟨_, rfl, ?_⟩
  rw [List.map_append]
  exact first.append (fed_kept keeps _ _)

theorem valid_turnOf (valid : fields.Valid (view m).1 ∧ ∀ entry ∈ (view m).2, Keeps rt fields entry)
    (done : turnOf rt fields view m buf pos = .ok (m', pos')) :
    fields.Valid (view m').1 ∧ ∀ entry ∈ (view m').2, Keeps rt fields entry := by
  obtain ⟨fieldNo, wireType, here, tag, known | unknown⟩ := turnOf_cases done
  · obtain ⟨field, r, known, found, rfl⟩ := known
    rw [Equiv.apply_symm_apply]
    exact ⟨fields.valid_read? known valid.1 found, valid.2⟩
  · obtain ⟨unknown, data, skipped, rfl⟩ := unknown
    rw [Equiv.apply_symm_apply]
    refine ⟨valid.1, fun entry member => ?_⟩
    rcases List.mem_append.mp member with old | new
    · exact valid.2 entry old
    · cases List.mem_singleton.mp new
      exact ⟨fields.not_mem_of_read? unknown, rt.tag_number tag, rt.skip_again skipped⟩

/-- A message type of the fields and of what is kept beside them. -/
def ofFields (rt : Runtime ε) (fields : Fields ε R) (view : M ≃ R × List Entry)
    (numbered : fields.wellNumbered = true) : MessageType ε M where
  create := view.symm (fields.create, [])
  merge m n := view.symm (fields.merge (view m).1 (view n).1, (view m).2 ++ (view n).2)
  internalBinaryWrite := writeOf rt fields view
  turn := turnOf rt fields view
  Valid m := fields.Valid (view m).1 ∧ ∀ entry ∈ (view m).2, Keeps rt fields entry
  valid_create := by
    rw [Equiv.apply_symm_apply]
    exact ⟨fields.valid_create, nofun⟩
  merge_create m := by
    rw [Equiv.apply_symm_apply, fields.merge_create]
    exact view.symm_apply_apply m
  feeds target valid written := by
    obtain ⟨apart, numbers⟩ := fields.wellNumbered_iff.mp numbered
    exact fed_message apart numbers target valid.1 valid.2 written
  valid_turn _ _ _ _ _ valid done := valid_turnOf valid done
  advances := turnOf_advances

end MessageType

end Lib.Wire
