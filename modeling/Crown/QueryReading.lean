import Crown.Lib.Gluing
import Crown.Lib.Url
import Crown.QueryBuilder

/-! When the query string of a builder reads back as the pairs it was built from.
Values are appended as they are, and the separator is left out after a question
mark, so the answer depends on the values. -/
namespace Crown

open Lib Lib.Text

namespace Call

theorem name_chars (call : Call) : ∀ c ∈ call.name, c.isAlphanum ∨ c = '_' := by
  cases call with
  | filter op column value => exact column.plain
  | order column direction nullsFirst =>
    have : ∀ c ∈ lit "order", c.isAlphanum ∨ c = '_' :=
      Text.forall_of_all (by with_unfolding_all decide)
    exact this
  | limit count =>
    have : ∀ c ∈ lit "limit", c.isAlphanum ∨ c = '_' :=
      Text.forall_of_all (by with_unfolding_all decide)
    exact this
  | offset count =>
    have : ∀ c ∈ lit "offset", c.isAlphanum ∨ c = '_' :=
      Text.forall_of_all (by with_unfolding_all decide)
    exact this
  | select columns =>
    have : ∀ c ∈ lit "select", c.isAlphanum ∨ c = '_' :=
      Text.forall_of_all (by with_unfolding_all decide)
    exact this

theorem not_mem_name (call : Call) (alpha : c.isAlphanum = false) (under : c ≠ '_') :
    c ∉ call.name := by
  intro member
  rcases call.name_chars c member with h | h
  · simp [alpha] at h
  · exact under h

theorem name_inPart (call : Call) : ∀ c ∈ call.name, Url.inPart c := by
  intro c member
  have hash : c ≠ '#' := by
    rintro rfl
    exact call.not_mem_name (by decide) (by decide) member
  have amp : c ≠ '&' := by
    rintro rfl
    exact call.not_mem_name (by decide) (by decide) member
  simp [Url.inPart, hash, amp]

theorem pair_text (call : Call) (more : Text) :
    Url.pair (call.name ++ '=' :: more) = (call.name, percentDecode more) := by
  apply Url.pair_append (call.not_mem_name (by decide) (by decide))
  by_contra escape
  have percent : '%' ∈ call.name := by
    apply mem_of_hasEscape
    simpa using escape
  exact call.not_mem_name (by decide) (by decide) percent

/-- The value survives in a part of its own: no separator, no fragment, no escape. -/
def Plain (call : Call) : Prop :=
  '&' ∉ call.value ∧ '#' ∉ call.value ∧ hasEscape call.value = false

instance (call : Call) : Decidable call.Plain := by unfold Plain; infer_instance

end Call

/-- Every value is plain, and no value but the last ends in a question mark. -/
def Clean : List Call → Prop
  | [] => True
  | call :: rest => call.Plain ∧ (rest ≠ [] → call.value.getLast? ≠ some '?') ∧ Clean rest

instance decidableClean : (calls : List Call) → Decidable (Clean calls)
  | [] => .isTrue trivial
  | _ :: rest =>
    have := decidableClean rest
    inferInstanceAs (Decidable (_ ∧ _ ∧ _))

namespace QueryBuilder

/-- What `checkLastString` puts between a call and the next one. -/
def separator (call : Call) : Text := if call.value.getLast? = some '?' then [] else ['&']

def joined : List Call → Text
  | [] => []
  | [call] => call.text
  | call :: next :: rest => call.text ++ separator call ++ joined (next :: rest)

theorem separator_eq (call : Call) : separator call = Gluing.gap '?' '&' call.text := by
  have last : call.text.getLast? = some '?' ↔ call.value.getLast? = some '?' := by
    rw [call.text_eq]
    cases call.value <;> simp [List.getLast?_cons_cons]
  simp only [separator, Gluing.gap, last]

theorem joined_eq (calls : List Call) :
    joined calls = Gluing.glued '?' '&' (calls.map Call.text) := by
  fun_induction joined calls with
  | case1 => rfl
  | case2 call => rfl
  | case3 call next rest ih =>
    rw [ih, separator_eq]
    rfl

theorem urlQuery_eq (table : Text) (calls : List Call) :
    urlQuery ⟨table, calls⟩ = table ++ '?' :: joined calls := by
  have nonempty : ∀ piece ∈ calls.map Call.text, piece ≠ [] := by
    intro piece member
    obtain ⟨call, -, rfl⟩ := List.mem_map.mp member
    simp [call.text_eq]
  rw [joined_eq, ← Gluing.foldl_glue_mark table nonempty, List.foldl_map]
  rfl

/-- The part of the query in which the first call stands: everything up to the
next separator or fragment, wherever that comes from. -/
theorem read_first (call : Call) (behind : Text) :
    Url.pair ((call.text ++ behind).takeWhile Url.inPart) =
      (call.name, percentDecode ((call.value ++ behind).takeWhile Url.inPart)) := by
  rw [call.text_eq, List.append_assoc, List.takeWhile_append_of_pos call.name_inPart,
    List.cons_append, List.takeWhile_cons_of_pos (by decide), call.pair_text]

/-- If the first part is read back as the first call then its value has no
separator and no fragment: what is cut off is lost, and decoding only shortens. -/
theorem inPart_of_read (value behind : Text)
    (same : percentDecode ((value ++ behind).takeWhile Url.inPart) = value) :
    ∀ c ∈ value, Url.inPart c := by
  by_contra cut
  have short : (value ++ behind).takeWhile Url.inPart = value.takeWhile Url.inPart := by
    rw [List.takeWhile_append, if_neg]
    intro whole
    exact cut (List.takeWhile_eq_self_iff.mp ((List.takeWhile_prefix _).eq_of_length whole))
  rw [short] at same
  have lengths := percentDecode_length_le (value.takeWhile Url.inPart)
  rw [same] at lengths
  exact cut (List.takeWhile_eq_self_iff.mp
    ((List.takeWhile_prefix _).eq_of_length_le lengths))

/-- The next call contributes at least its first character to the part it runs into. -/
theorem takeWhile_joined_ne_nil (call : Call) (rest : List Call) :
    (joined (call :: rest)).takeWhile Url.inPart ≠ [] := by
  have start : ∃ more, joined (call :: rest) = call.name ++ '=' :: more := by
    cases rest with
    | nil => exact ⟨call.value, call.text_eq⟩
    | cons next rest =>
      exact ⟨call.value ++ (separator call ++ joined (next :: rest)), by simp [joined, call.text_eq]⟩
  obtain ⟨more, equal⟩ := start
  rw [equal, List.takeWhile_append_of_pos call.name_inPart, List.takeWhile_cons_of_pos (by decide)]
  simp

/-- A value that ends in a question mark swallows what follows it: were the longer
part read as the value, the value would be its own decoding with more behind it. -/
theorem swallowed_ne (value swallowed : Text) (question : value.getLast? = some '?')
    (nonempty : swallowed ≠ []) : percentDecode (value ++ swallowed) ≠ value := by
  obtain ⟨front, rfl⟩ := List.getLast?_eq_some_iff.mp question
  intro same
  rw [List.append_assoc, List.singleton_append,
    percentDecode_append_cons (by decide) (by decide)] at same
  have kept : percentDecode swallowed ≠ [] := percentDecode_ne_nil nonempty
  rw [← List.dropLast_append_getLast kept, ← List.cons_append, ← List.append_assoc] at same
  exact percentDecode_extended_ne (by decide) (by decide) front _ (List.append_inj_left' same rfl)

/-- The reading of a chain of calls, part by part. -/
def parts (calls : List Call) : List (Text × Text) :=
  ((before '#' (joined calls)).splitOn '&').map Url.pair

theorem parts_eq (calls : List Call) :
    parts calls = Url.pair ((joined calls).takeWhile Url.inPart) ::
      (if '&' ∈ before '#' (joined calls) then
        ((after '&' (before '#' (joined calls))).splitOn '&').map Url.pair else []) := by
  rw [parts, Url.splitOn_eq, List.map_cons, Url.before_amp_before_hash]
  split <;> rfl

theorem not_mem_text (call : Call) (name : c ∉ call.name) (sign : c ≠ '=') (value : c ∉ call.value) :
    c ∉ call.text := by
  simp [call.text_eq, name, sign, value]

theorem parts_single (call : Call) (plain : call.Plain) :
    parts [call] = [(call.name, call.value)] := by
  have hash : '#' ∉ call.text :=
    not_mem_text call (call.not_mem_name (by decide) (by decide)) (by decide) plain.2.1
  have amp : '&' ∉ call.text :=
    not_mem_text call (call.not_mem_name (by decide) (by decide)) (by decide) plain.1
  rw [parts, joined, before_eq_self hash, List.splitOn_eq_singleton amp, List.map_singleton,
    call.text_eq, call.pair_text, percentDecode_eq_self plain.2.2]

theorem parts_cons (call next : Call) (rest : List Call) (plain : call.Plain)
    (separated : call.value.getLast? ≠ some '?') :
    parts (call :: next :: rest) = (call.name, call.value) :: parts (next :: rest) := by
  have hash : '#' ∉ call.text ++ ['&'] := by
    simpa using not_mem_text call (call.not_mem_name (by decide) (by decide)) (by decide) plain.2.1
  have amp : '&' ∉ call.text :=
    not_mem_text call (call.not_mem_name (by decide) (by decide)) (by decide) plain.1
  rw [parts, joined, separator, if_neg separated, before_append hash, List.append_assoc,
    List.singleton_append, List.splitOn_append_cons_self_of_not_mem amp, List.map_cons,
    call.text_eq, call.pair_text, percentDecode_eq_self plain.2.2]
  rfl

/-- If the first pair is right then the first call is plain and set apart from the next. -/
theorem clean_of_first (call : Call) (rest : List Call)
    (first : Url.pair ((joined (call :: rest)).takeWhile Url.inPart) = (call.name, call.value)) :
    call.Plain ∧ (rest ≠ [] → call.value.getLast? ≠ some '?') := by
  have shape : ∃ behind, joined (call :: rest) = call.text ++ behind ∧
      (rest = [] → behind = []) ∧
      (call.value.getLast? = some '?' → rest ≠ [] → behind.takeWhile Url.inPart ≠ []) ∧
      (call.value.getLast? ≠ some '?' → behind.takeWhile Url.inPart = []) := by
    cases rest with
    | nil => exact ⟨[], by simp [joined], by simp, by simp, by simp⟩
    | cons next rest =>
      refine ⟨separator call ++ joined (next :: rest), by simp [joined], by simp, ?_, ?_⟩
      · intro question _
        simpa [separator, question] using takeWhile_joined_ne_nil next rest
      · intro separated
        simp [separator, separated, Url.inPart]
  obtain ⟨behind, equal, nothing, runsInto, apart⟩ := shape
  rw [equal, read_first] at first
  have same := (Prod.mk.inj first).2
  have uncut := inPart_of_read call.value behind same
  rw [List.takeWhile_append_of_pos uncut] at same
  have plainOf (empty : behind.takeWhile Url.inPart = []) : call.Plain := by
    rw [empty, List.append_nil, percentDecode_eq_self_iff] at same
    refine ⟨fun member => ?_, fun member => ?_, same⟩
    · simpa [Url.inPart] using uncut _ member
    · simpa [Url.inPart] using uncut _ member
  by_cases question : call.value.getLast? = some '?'
  · by_cases last : rest = []
    · exact ⟨plainOf (by simp [nothing last]), fun more => absurd last more⟩
    · exact absurd same (swallowed_ne _ _ question (runsInto question last))
  · exact ⟨plainOf (apart question), fun _ => question⟩

theorem parts_eq_requested_iff (call : Call) (rest : List Call) :
    parts (call :: rest) = (call :: rest).map (fun c => (c.name, c.value)) ↔ Clean (call :: rest) := by
  induction rest generalizing call with
  | nil =>
    constructor
    · intro same
      rw [parts_eq] at same
      obtain ⟨plain, _⟩ := clean_of_first call [] (List.cons.inj same).1
      exact ⟨plain, by simp, trivial⟩
    · intro clean
      exact parts_single call clean.1
  | cons next rest ih =>
    constructor
    · intro same
      have first := same
      rw [parts_eq] at first
      obtain ⟨plain, separated⟩ := clean_of_first call (next :: rest) (List.cons.inj first).1
      rw [parts_cons call next rest plain (separated (by simp))] at same
      exact ⟨plain, separated, (ih next).mp (List.cons.inj same).2⟩
    · rintro ⟨plain, separated, clean⟩
      rw [parts_cons call next rest plain (separated (by simp)), (ih next).mpr clean]
      rfl

/-- The server reads the parts of the query. -/
theorem read_eq_parts (table : Text) (call : Call) (rest : List Call)
    (question : '?' ∉ table) (hash : '#' ∉ table) :
    Url.read (urlQuery ⟨table, call :: rest⟩) = parts (call :: rest) := by
  have nonempty : before '#' (joined (call :: rest)) ≠ [] := by
    intro empty
    apply takeWhile_joined_ne_nil call rest
    rw [← Url.before_amp_before_hash, empty]
    rfl
  rw [urlQuery_eq, Url.read, Url.query_append question hash, Url.pairs, if_neg nonempty]
  rfl

theorem read_clean (table : Text) {calls : List Call} (question : '?' ∉ table)
    (hash : '#' ∉ table) (clean : Clean calls) :
    Url.read (urlQuery ⟨table, calls⟩) = requested ⟨table, calls⟩ := by
  cases calls with
  | nil =>
    rw [urlQuery_eq, Url.read, Url.query_append question hash]
    simp [joined, before, Url.pairs, requested]
  | cons call rest =>
    rw [read_eq_parts table call rest question hash]
    exact (parts_eq_requested_iff call rest).mpr clean

/-- A chain of calls on a plain table name is read back as requested exactly when
it is clean. -/
theorem read_urlQuery_iff (table : Text) (calls : List Call)
    (question : '?' ∉ table) (hash : '#' ∉ table) :
    Url.read (urlQuery ⟨table, calls⟩) = requested ⟨table, calls⟩ ↔ Clean calls := by
  refine ⟨fun same => ?_, read_clean table question hash⟩
  cases calls with
  | nil => trivial
  | cons call rest =>
    rw [read_eq_parts table call rest question hash] at same
    exact (parts_eq_requested_iff call rest).mp same

/-- The lookup of a post by an ordinary id is read as it was asked. -/
theorem read_postLookup_ordinary :
    Url.read (postLookup (lit "V1StGXR8")).urlQuery = (postLookup (lit "V1StGXR8")).requested :=
  (read_urlQuery_iff _ _ (by with_unfolding_all decide) (by with_unfolding_all decide)).mpr (by with_unfolding_all decide)

/-- The same lookup with an ampersand in the id carries a filter nobody asked for. -/
theorem read_postLookup_injected :
    Url.read (postLookup (lit "x&author_id=neq.u")).urlQuery =
        [(lit "select", lit "id,author_id,image_url"), (lit "id", lit "eq.x"),
          (lit "author_id", lit "neq.u"), (lit "limit", lit "1")] ∧
      Url.read (postLookup (lit "x&author_id=neq.u")).urlQuery ≠
        (postLookup (lit "x&author_id=neq.u")).requested := by
  with_unfolding_all decide

end QueryBuilder
end Crown
