import Crown.SocialMessages

/-! Messages of `proto/social.ts` that are written and read back. -/
namespace Crown.Social

open Lib Lib.Wire

variable {ε : Type} (rt : BinaryRuntime ε) (name : MessageName)

/-- Whatever the message type: a message that was written is read back as it is, alone and
between other bytes; read into another message it is merged with it; and two that stand one
behind the other are read as the two merged. -/
theorem message_written_read {m m' : name.Message} (valid : (name.messageType rt).Valid m)
    (valid' : (name.messageType rt).Valid m') {bytes bytes' : Text}
    (written : (name.messageType rt).internalBinaryWrite m = .ok bytes)
    (written' : (name.messageType rt).internalBinaryWrite m' = .ok bytes') :
    (name.messageType rt).fromBinary bytes = .ok m ∧
      (name.messageType rt).fromBinary (bytes ++ bytes') =
        .ok ((name.messageType rt).merge m m') ∧
      ∀ target before after,
        (name.messageType rt).internalBinaryRead bytes.length target
            (before ++ bytes ++ after) before.length =
          .ok ((name.messageType rt).merge target m, before.length + bytes.length) := by
  refine ⟨MessageType.fromBinary_write valid written, ?_, fun target =>
    MessageType.spells_merge valid written target⟩
  have both := MessageType.spells_merge_both valid written valid' written'
    (name.messageType rt).create
  rw [(name.messageType rt).merge_create] at both
  exact MessageType.fromBinary_of_spells both

/-- Whatever bytes a message was read from, known fields and others: written again, it is read
as the same message. -/
theorem read_rewritten {bytes bytes' : Text} {m : name.Message}
    (read : (name.messageType rt).fromBinary bytes = .ok m)
    (written : (name.messageType rt).internalBinaryWrite m = .ok bytes') :
    (name.messageType rt).fromBinary bytes' = .ok m :=
  MessageType.fromBinary_write (MessageType.valid_fromBinary read) written

/-- The runtime of the wire format. -/
def binary : BinaryRuntime Protobuf.Refusal where
  toRuntime := Protobuf.runtime
  string := Protobuf.stringScalar
  bool := Protobuf.boolScalar

/-- An author with a name of two characters, and with a field that is not known. -/
def author : User :=
  { (User.messageType binary).create with
    username := [0x41, 0xE9]
    unknown := [⟨99, .varint, [Char.ofNat 1]⟩] }

def likedPost : Post :=
  { (Post.messageType binary).create with author := some author, likesCount := 300 }

/-- Nothing but another name of the author. -/
def renamed : Post :=
  { (Post.messageType binary).create with
    author := some { (User.messageType binary).create with username := [0x42] } }

theorem user_valid {username : JsString} {unknown : List Entry} (formed : username.WellFormed)
    (keeps : ∀ entry ∈ unknown, 12 < entry.no ∧ FieldNumber entry.no ∧
      Spells (binary.skip entry.wireType) entry.data entry.data) :
    (User.messageType binary).Valid
      { (User.messageType binary).create with username, unknown } := by
  have empty : JsString.WellFormed [] := trivial
  refine ⟨⟨empty, formed, empty, empty, empty, empty, trivial, trivial, trivial, empty, trivial,
    trivial, trivial⟩, fun entry member => ?_⟩
  obtain ⟨large, number, skipped⟩ := keeps entry member
  refine ⟨fun known => ?_, number, skipped⟩
  have small : ∀ no ∈ [1, 2, 3, 4, 5, 6, 7, 8, 9, 10, 11, 12], no ≤ 12 := by decide
  exact absurd (small _ known) (Nat.not_le_of_lt large)

theorem post_valid {author : User} (valid : (User.messageType binary).Valid author)
    (likesCount : Nat) : (Post.messageType binary).Valid
      { (Post.messageType binary).create with author := some author, likesCount } := by
  have empty : JsString.WellFormed [] := trivial
  refine ⟨⟨empty, fun m member => ?_, empty, empty, empty, trivial, trivial, trivial, empty,
    trivial⟩, nofun⟩
  cases member
  exact valid

theorem likedPost_read : ∃ bytes bytes' merged,
    (Post.messageType binary).internalBinaryWrite likedPost = .ok bytes ∧
    (Post.messageType binary).internalBinaryWrite renamed = .ok bytes' ∧
    (Post.messageType binary).fromBinary (bytes ++ bytes') = .ok merged ∧
    merged.likesCount = 300 ∧
    merged.author = some { author with username := [0x42] } := by
  have passed : binary.skip .varint [Char.ofNat 1] 0 = .ok ([Char.ofNat 1], 1) := rfl
  have valid : (Post.messageType binary).Valid likedPost := by
    refine post_valid (user_valid (by decide) fun entry member => ?_) 300
    cases List.mem_singleton.mp member
    exact ⟨by decide, by decide, binary.skip_again passed⟩
  have other : (Post.messageType binary).Valid renamed :=
    post_valid (user_valid (by decide) (List.forall_mem_nil _)) 0
  obtain ⟨-, both, -⟩ := message_written_read binary .post valid other rfl rfl
  exact ⟨_, _, _, rfl, rfl, both, rfl, rfl⟩

/-- Fields out of their order, one of them twice, a number in more bytes than it needs, and a
field that is not known. -/
def disordered : Text :=
  [0x30, 0xAC, 0x82, 0x00, 0x12, 0x00, 0x98, 0x06, 0x01, 0x30, 0x05, 0x0A, 0x01, 0x41].map
    Char.ofNat

def ordered : Post :=
  { (Post.messageType binary).create with
    id := [0x41]
    author := some (User.messageType binary).create
    likesCount := 5
    unknown := [⟨99, .varint, [Char.ofNat 1]⟩] }

theorem disordered_rewritten : ∃ bytes,
    (Post.messageType binary).fromBinary disordered = .ok ordered ∧
    (Post.messageType binary).internalBinaryWrite ordered = .ok bytes ∧ bytes ≠ disordered ∧
    (Post.messageType binary).fromBinary bytes = .ok ordered := by
  have read : (Post.messageType binary).fromBinary disordered = .ok ordered := rfl
  have again := read_rewritten binary .post (m := ordered) read rfl
  exact ⟨_, read, rfl, by decide +kernel, again⟩

end Crown.Social
