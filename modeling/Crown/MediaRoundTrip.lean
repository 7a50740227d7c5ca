import Crown.QueryReading
import Crown.Site

/-! Registering an upload and checking its hash again. -/
namespace Crown

open Lib

/-- What `registerImageHash` of the client sends: an absent member is left out. -/
def registration (hash : Text) (data : Json) : Json :=
  .object ((lit "hash", .string hash) ::
    (data.find (lit "url")).toList.map (lit "url", ·) ++
    (data.find (lit "fileId")).toList.map (lit "file_id", ·))

/-- The answer to a check that finds an object. -/
def foundAnswer (url objectKey : Text) : HttpAnswer :=
  .dumped 200 (.object [(lit "file_id", .string objectKey), (lit "found", .boolean true),
    (lit "url", .string url)])

/-- The names of the members that are sent and read are different. -/
theorem mediaKeys_ne : lit "file_id" ≠ lit "hash" ∧ lit "file_id" ≠ lit "url" ∧
    lit "hash" ≠ lit "url" ∧ lit "fileId" ≠ lit "url" ∧ lit "name" ≠ lit "url" := by
  simp

theorem registration_find (hash host objectKey fileName : Text) :
    let body := registration hash (CdnServer.uploaded host objectKey fileName)
    body.find (lit "hash") = some (.string hash) ∧
      body.find (lit "url") = some (.string (servedUrl host objectKey)) ∧
      body.find (lit "file_id") = some (.string objectKey) := by
  obtain ⟨fileHash, fileUrl, hashUrl, keyUrl, nameUrl⟩ := mediaKeys_ne
  simp [registration, CdnServer.uploaded, Json.find, fileHash.symm, fileUrl.symm, hashUrl, keyUrl,
    nameUrl]

namespace CdnServer

theorem hashRow_find (hash url fileId : Text) :
    (hashRow hash url fileId).find (lit "hash") = some (.string hash) ∧
      (hashRow hash url fileId).find (lit "url") = some (.string url) ∧
      (hashRow hash url fileId).find (lit "file_id") = some (.string fileId) := by
  obtain ⟨fileHash, fileUrl, hashUrl, _⟩ := mediaKeys_ne
  simp [hashRow, Json.find, fileHash, fileUrl, hashUrl]

theorem hashRow_text (row : MediaRow) :
    let sent := hashRow row.hash row.url row.fileId
    sent.text (lit "hash") = row.hash ∧ sent.text (lit "url") = row.url ∧
      sent.text (lit "file_id") = row.fileId := by
  obtain ⟨hash, url, fileId⟩ := hashRow_find row.hash row.url row.fileId
  simp [Json.text, hash, url, fileId]

/-- An upload that succeeds answers with the key it stored under and the URL of that key. -/
theorem upload_returns (config : CdnConfig) (host : Text) (request : Option Json) :
    (upload config host request).Returns fun answer => answer.status = 200 →
      ∃ objectKey fileName, answer = .dumped 200 (uploaded host objectKey fileName) := by
  have failed : ∀ {status : Nat} {text : Text}, status ≠ 200 →
      (HttpAnswer.json status text).status = 200 →
      ∃ objectKey fileName, HttpAnswer.json status text =
        .dumped 200 (uploaded host objectKey fileName) :=
    fun wrong right => absurd right wrong
  refine Program.returns_recover ?_ fun _ => failed (by decide)
  unfold uploadBody
  split
  · exact failed (by decide)
  · split
    · exact failed (by decide)
    · split
      · refine Program.returns_bind fun fileBase64 => Program.returns_bind fun fileName => ?_
        dsimp only
        split
        · exact failed (by decide)
        · split
          · exact failed (by decide)
          · unfold storeFile
            refine Program.returns_bind fun ⟨fileData, finalExt⟩ => ?_
            dsimp only
            split
            · exact fun impossible => absurd impossible (by simp [tooLarge, HttpAnswer.dumped])
            · refine Program.returns_bind fun folder => Program.returns_bind fun hex =>
                Program.returns_bind fun stored => ?_
              split
              · exact fun _ => ⟨_, _, rfl⟩
              · exact failed (by decide)
      · exact failed (by decide)

end CdnServer

namespace Tables

theorem hash_of_mem_upsertMedia (member : m ∈ (upsertMedia row t).media) :
    m = row ∨ m ∈ t.media ∧ m.hash ≠ row.hash := by
  unfold upsertMedia at member
  split at member
  · obtain ⟨old, stored, rfl⟩ := List.mem_map.mp member
    by_cases same : old.hash = row.hash
    · exact Or.inl (if_pos same)
    · rw [if_neg same]
      exact Or.inr ⟨stored, same⟩
  · rename_i fresh
    rcases List.mem_append.mp member with stored | new
    · exact Or.inr ⟨stored, fun same => fresh ⟨m, stored, same⟩⟩
    · exact Or.inl (List.mem_singleton.mp new)

/-- The row of a hash, if there is one. -/
def OnlyRow (row : MediaRow) (t : Tables) : Prop := ∀ m ∈ t.media, m.hash = row.hash → m = row

theorem onlyRow_upsertMedia (row : MediaRow) (t : Tables) : OnlyRow row (t.upsertMedia row) := by
  intro m member same
  rcases hash_of_mem_upsertMedia member with here | ⟨_, other⟩
  · exact here
  · exact absurd same other

theorem OnlyRow.upsertMedia (only : OnlyRow row t) (other : next.hash ≠ row.hash) :
    OnlyRow row (t.upsertMedia next) := by
  intro m member same
  rcases hash_of_mem_upsertMedia member with rfl | ⟨stored, _⟩
  · exact absurd same other
  · exact only m stored same

end Tables

namespace Site

/-- A registration enters its row. -/
theorem register_entered (platform : Platform) {body : Json} (s : Site)
    (hash : body.find (lit "hash") = some (.string row.hash))
    (url : body.find (lit "url") = some (.string row.url))
    (fileId : body.find (lit "file_id") = some (.string row.fileId)) :
    (s.route platform (.register (some body))).2 =
      s.withTables (s.world.database.upsertMedia row) := by
  obtain ⟨hashText, urlText, fileIdText⟩ := CdnServer.hashRow_text row
  have sent : (CdnServer.registerBody (some body) : Route) =
      .perform (.upsert (lit "midia_hashes") (CdnServer.hashRow row.hash row.url row.fileId))
        fun status => if 200 ≤ status ∧ status < 300 then
          .done (.ok (.json 200 (lit "\x7b\"ok\":true\x7d")))
        else .done (.ok (.json 500 (lit "\x7b\"error\":\"Falha ao registrar hash no banco.\"\x7d"))) := by
    simp only [CdnServer.registerBody, hash, url, fileId, Json.getString]
    rfl
  simp only [route, CdnServer.route, CdnServer.register, sent, Program.recover, Program.run_perform,
    answer, if_true, hashText, urlText, fileIdText]
  rfl

theorem register_hashRow (platform : Platform) (row : MediaRow) (s : Site) :
    (s.route platform (.register (some (CdnServer.hashRow row.hash row.url row.fileId)))).2 =
      s.withTables (s.world.database.upsertMedia row) := by
  obtain ⟨hash, url, fileId⟩ := CdnServer.hashRow_find row.hash row.url row.fileId
  exact register_entered platform s hash url fileId

/-- The client registers what the upload has answered. -/
theorem register_uploaded (platform : Platform) (hash host objectKey fileName : Text) (s : Site) :
    (s.route platform (.register (some
      (registration hash (CdnServer.uploaded host objectKey fileName))))).2 =
      s.withTables (s.world.database.upsertMedia ⟨hash, servedUrl host objectKey, objectKey⟩) := by
  obtain ⟨sentHash, url, fileId⟩ := registration_find hash host objectKey fileName
  have entered : (s.route platform _).2 = s.withTables (s.world.database.upsertMedia
      ⟨hash, servedUrl host objectKey, objectKey⟩) :=
    register_entered platform s sentHash url fileId
  exact entered

variable {hash host objectKey fileName : Text} {others : List MediaRow}

/-- The client's registration after its upload, and then those of others. -/
def registerAll (platform : Platform) (hash host objectKey fileName : Text)
    (others : List MediaRow) (s : Site) : Site :=
  others.foldl (fun s row => (s.route platform
      (.register (some (CdnServer.hashRow row.hash row.url row.fileId)))).2)
    (s.route platform (.register (some
      (registration hash (CdnServer.uploaded host objectKey fileName))))).2

/-- A later check of the hash answers with the URL and the key the upload gave, whatever
was registered before and whatever is registered for other hashes. -/
def RoundTrip (platform : Platform) (hash host objectKey fileName : Text) : Prop :=
  ∀ (s : Site) (others : List MediaRow), (∀ row ∈ others, row.hash ≠ hash) →
    ((s.registerAll platform hash host objectKey fileName others).route platform
      (.check host (some hash))).1 = .ok (foundAnswer (servedUrl host objectKey) objectKey)

theorem registerAll_onlyRow (platform : Platform) (s : Site) (fileName : Text)
    (different : ∀ row ∈ others, row.hash ≠ hash) :
    Tables.OnlyRow ⟨hash, servedUrl host objectKey, objectKey⟩
      (s.registerAll platform hash host objectKey fileName others).world.database := by
  unfold registerAll
  rw [register_uploaded]
  have start : Tables.OnlyRow ⟨hash, servedUrl host objectKey, objectKey⟩ (s.withTables
      (s.world.database.upsertMedia ⟨hash, servedUrl host objectKey, objectKey⟩)).world.database :=
    Tables.onlyRow_upsertMedia _ _
  generalize s.withTables (s.world.database.upsertMedia _) = registered at start ⊢
  induction others generalizing registered with
  | nil => exact start
  | cons row others ih =>
    rw [List.foldl_cons, register_hashRow]
    exact ih (fun other member => different other (List.mem_cons_of_mem _ member)) _
      (start.upsertMedia (different row List.mem_cons_self))

/-- The check takes the URL for a path under the serve route, and puts the route in
front of it a second time. -/
theorem foundRow_json (host : Text) (row : MediaRow) :
    CdnServer.foundRow host row.json =
      .ok (foundAnswer (servedUrl host (CdnServer.withoutSlash row.url)) row.fileId) := by
  obtain ⟨fileHash, fileUrl, hashUrl, _⟩ := mediaKeys_ne
  simp [CdnServer.foundRow, MediaRow.json, Json.find, fileHash.symm, fileUrl.symm, hashUrl,
    Json.getString, foundAnswer]

theorem check_run (platform : Platform) (s : Site) (nonempty : hash ≠ []) :
    (s.route platform (.check host (some hash))).1 = .ok (CdnServer.checkReply host
      (match s.world.database.selectMedia platform.service (CdnServer.hashLookup hash) with
        | some rows => .parsed (.array (rows.map MediaRow.json))
        | none => .empty)) := by
  obtain ⟨c, rest, rfl⟩ := List.exists_cons_of_ne_nil nonempty
  have media : (CdnServer.hashLookup (c :: rest)).table = lit "midia_hashes" := rfl
  simp only [route, CdnServer.route, CdnServer.check, Program.call_bind, Program.run_perform, answer,
    media, if_true]
  cases s.world.database.selectMedia platform.service (CdnServer.hashLookup (c :: rest)) <;> rfl

theorem servedUrl_twice_ne (host objectKey : Text) :
    servedUrl host (CdnServer.withoutSlash (servedUrl host objectKey)) ≠ servedUrl host objectKey := by
  have scheme : lit "http://" = 'h' :: lit "ttp://" := by with_unfolding_all decide
  have kept : CdnServer.withoutSlash (servedUrl host objectKey) = servedUrl host objectKey := by
    simp [servedUrl, scheme, CdnServer.withoutSlash]
  rw [kept]
  intro same
  have lengths := congrArg List.length same
  simp [servedUrl, scheme] at lengths
  omega

/-- Whatever row of its hash the check finds, it does not answer with the right URL. -/
theorem check_ne (platform : Platform) (s : Site)
    (only : ∀ found, s.world.database.selectMedia platform.service (CdnServer.hashLookup hash) =
      some found → ∀ row ∈ found, row.url = servedUrl host objectKey) :
    (s.route platform (.check host (some hash))).1 ≠
      .ok (foundAnswer (servedUrl host objectKey) objectKey) := by
  by_cases empty : hash = []
  · subst empty
    intro answered
    cases answered
  · rw [check_run platform s empty]
    intro answered
    cases selected : s.world.database.selectMedia platform.service (CdnServer.hashLookup hash) with
    | none =>
      rw [selected] at answered
      cases answered
    | some found =>
      rw [selected] at answered
      cases found with
      | nil => cases answered
      | cons row rest =>
        have stored := only _ selected row List.mem_cons_self
        simp only [List.map_cons, CdnServer.checkReply, foundRow_json, stored, foundAnswer,
          HttpAnswer.dumped, Except.ok.injEq, HttpAnswer.mk.injEq, HttpBody.dumped.injEq,
          Json.object.injEq, List.cons.injEq, Prod.mk.injEq, Json.string.injEq, true_and,
          and_true] at answered
        exact servedUrl_twice_ne host objectKey answered.2

/-- A hash the database reads back as it was sent is never answered rightly, whatever
else is registered. -/
theorem plain_check_ne (platform : Platform) (s : Site) (fileName : Text)
    (plain : Clean (CdnServer.hashLookup hash).calls) (different : ∀ row ∈ others, row.hash ≠ hash) :
    ((s.registerAll platform hash host objectKey fileName others).route platform
      (.check host (some hash))).1 ≠ .ok (foundAnswer (servedUrl host objectKey) objectKey) := by
  refine check_ne platform _ fun found selected row member => ?_
  have only : Tables.OnlyRow ⟨hash, servedUrl host objectKey, objectKey⟩ _ :=
    registerAll_onlyRow platform s fileName different
  have read : (lit "hash", lit "eq." ++ hash) ∈ Tables.pairs (CdnServer.hashLookup hash) := by
    have read : Tables.pairs (CdnServer.hashLookup hash) =
        QueryBuilder.requested (CdnServer.hashLookup hash) :=
      QueryBuilder.read_clean (lit "midia_hashes") (by with_unfolding_all decide) (by with_unfolding_all decide) plain
    rw [read]
    simp [CdnServer.hashLookup, QueryBuilder.requested, QueryBuilder.limit, QueryBuilder.eq,
      QueryBuilder.call, fromTable, Call.name, Call.value, Column.hash, FilterOp.opening,
      FilterOp.closing]
  obtain ⟨stored, filtered⟩ := platform.service.selection.filtered selected row member
  have same : row.hash = hash := filtered _ _ _ read row.column_hash
  rw [only row stored same]

/-- Already without other registrations the check answers with another URL or with none. -/
theorem roundTrip_never (platform : Platform) (hash host objectKey fileName : Text) :
    ¬RoundTrip platform hash host objectKey fileName := by
  intro roundTrip
  refine check_ne platform _ (fun found selected row member => ?_) (roundTrip empty [] (by simp))
  have stored := (platform.service.selection.filtered selected row member).1
  have single : (empty.registerAll platform hash host objectKey fileName []).world.database.media =
      [⟨hash, servedUrl host objectKey, objectKey⟩] := by
    rw [registerAll, List.foldl_nil, register_uploaded]
    rfl
  rw [single, List.mem_singleton] at stored
  rw [stored]

def photoHash : Text := lit "9f86d081884c7d659a2feaa0c55ad015a3bf4f1b2b0b822cd15d6c15b0f00a08"
def photoKey : Text := lit "/posts/0123456789abcdef0123456789abcdef.png"
def cdnHost : Text := lit "localhost:9000"

/-- The URL that comes back has the serve route twice. -/
theorem photo_servedTwice :
    ((empty.registerAll .plain photoHash cdnHost photoKey (lit "photo.png") []).route .plain
      (.check cdnHost (some photoHash))).1 = .ok (foundAnswer
        (lit "http://localhost:9000/api/cdn/serve/http://localhost:9000/api/cdn/serve//posts/" ++
          lit "0123456789abcdef0123456789abcdef.png") photoKey) ∧
      ¬RoundTrip .plain photoHash cdnHost photoKey (lit "photo.png") := by
  have selected : (empty.registerAll .plain photoHash cdnHost photoKey (lit "photo.png")
      []).world.database.selectMedia Platform.plain.service (CdnServer.hashLookup photoHash) =
        some [⟨photoHash, servedUrl cdnHost photoKey, photoKey⟩] := by
    rw [registerAll, List.foldl_nil, register_uploaded]
    with_unfolding_all decide
  have twice : servedUrl cdnHost (CdnServer.withoutSlash (servedUrl cdnHost photoKey)) =
      lit "http://localhost:9000/api/cdn/serve/http://localhost:9000/api/cdn/serve//posts/" ++
        lit "0123456789abcdef0123456789abcdef.png" := by
    with_unfolding_all decide
  have nonempty : photoHash ≠ [] := by with_unfolding_all decide
  refine ⟨?_, fun roundTrip => ?_⟩
  · rw [check_run .plain _ nonempty, selected]
    simp only [List.map_cons, List.map_nil, CdnServer.checkReply, foundRow_json, twice]
  · refine check_ne .plain _ (fun found chosen row member => ?_) (roundTrip empty [] (by simp))
    rw [selected, Option.some.injEq] at chosen
    subst chosen
    rw [List.mem_singleton.mp member]

end Site

end Crown
