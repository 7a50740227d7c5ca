import Crown.JsonDump
import Crown.Lib.JsonAcceptance
import Crown.MediaFormats
import Crown.Site

/-! The bodies that the CDN server sends as JSON, whatever its requests and its accesses come to. -/
namespace Crown

open Lib Lib.JsonText
open Serializer (FloatDigits)

/-- An exception with its text, or a value of another type. -/
inductive Thrown where
  | std (what : Text)
  | other

structure CdnResponse where
  status : Nat
  contentType : Text
  content : Text

namespace CdnResponse

def json (status : Nat) (content : Text) : CdnResponse :=
  ⟨status, lit "application/json", content⟩

def WellFormed (response : CdnResponse) : Prop :=
  response.contentType = lit "application/json" → Document response.content

end CdnResponse

/-- `set_content`; a value is dumped. -/
def HttpAnswer.written (floats : FloatDigits) (answer : HttpAnswer) :
    Except Exception CdnResponse :=
  match answer.body with
  | .text content => return ⟨answer.status, answer.contentType, content⟩
  | .dumped value => do
    let content ← value.dump floats
    return ⟨answer.status, answer.contentType, content⟩

namespace CdnServer

/-- A route up to what it sends, without a `catch` around it. -/
def attempt (config : CdnConfig) : CdnRequest → Route
  | .check host hash => check host hash
  | .serve objectKey => serve config objectKey
  | .upload host request => uploadBody config host request
  | .register request => registerBody request

/-- What a route sends; the lookup of a hash catches what its dump throws. -/
def deliver (floats : FloatDigits) (answer : HttpAnswer) :
    CdnRequest → Except Exception CdnResponse
  | .check .. => tryCatch (answer.written floats) fun e => (lookupFailed e).written floats
  | .serve _ | .upload .. | .register _ => answer.written floats

/-- The `catch` around the upload; what the other routes throw is left to the HTTP library. -/
def rescue : CdnRequest → Thrown → CdnResponse
  | .upload .., .std _ => .json 500 (lit "\x7b\"error\":\"Excecao interna no upload.\"\x7d")
  | .upload .., .other => .json 500 (lit "\x7b\"error\":\"Erro desconhecido no upload.\"\x7d")
  | .check .., _ | .serve _, _ | .register _, _ => ⟨500, [], []⟩

/-- What the accesses to the database, the object store and the codec come to. -/
abbrev Outcomes (σ : Type) : Type :=
  Program.Interpretation CdnOp (fun op => Except Thrown op.Reply) σ

/-- What a request is answered with: the handler's answer, or what is sent when it throws. -/
def respond (floats : FloatDigits) (config : CdnConfig) (outcomes : Outcomes σ) (s : σ)
    (request : CdnRequest) : CdnResponse :=
  match (((attempt config request).throwing fun e => .std e.what).run outcomes s).1 with
  | .error thrown => rescue request thrown
  | .ok answer =>
    match deliver floats answer request with
    | .ok response => response
    | .error e => rescue request (.std e.what)

end CdnServer

/-- Behind the first member of an object the text goes on with it, up to a string value that it
leaves open. -/
def Splices (text : Text) : Prop :=
  Utf8 text ∧ State.run ⟨.after, [.object]⟩ text = some ⟨.string false, [.object]⟩

/-- What a lookup may come to. -/
def SelectReply.Answers (host : Text) : SelectReply → Prop
  | .empty => True
  | .malformed e => Splices e.what
  | .parsed (.array (row :: _)) =>
    ∀ url fileId, row.find (lit "url") = some url → row.find (lit "file_id") = some fileId →
      ∃ dbUrl, url = .string dbUrl ∧ Utf8 host ∧ Utf8 dbUrl ∧ fileId.Encoded
  | .parsed _ => True

namespace CdnServer

/-- The request is not a lookup, or its lookup throws or comes to what may be answered. -/
def LookupAnswers (outcomes : Outcomes σ) (s : σ) : CdnRequest → Prop
  | .check host (some (c :: hash)) => ∀ reply,
    (outcomes (.select (hashLookup (c :: hash))) s).1 = .ok reply → reply.Answers host
  | .check .. | .serve _ | .upload .. | .register _ => True

end CdnServer

/-! Bodies. -/

/-- An ASCII text that the reader accepts. -/
def readable (text : Text) : Bool :=
  text.all (fun c => decide (c.toNat < 0x80)) &&
    match State.start.run text with
    | some ⟨mode, []⟩ => mode.whole
    | _ => false

theorem document_of_readable (checked : readable text = true) : Document text := by
  obtain ⟨ascii, accepted⟩ := (Bool.and_eq_true _ _).mp checked
  refine ⟨.of_ascii (Text.forall_of_all ascii), (start_accepts_iff text).mp ?_⟩
  split at accepted
  · rename_i mode ran
    exact ⟨⟨mode, []⟩, ran, accepted, rfl⟩
  · cases accepted

/-- The bodies that the routes write out. -/
def literalBodies : List Text :=
  [lit "\x7b\"found\":false\x7d",
    lit "\x7b\"error\":\"Registro incompleto no banco.\",\"found\":false\x7d",
    lit "\x7b\"error\":\"Parametro 'hash' obrigatorio.\"\x7d",
    lit "\x7b\"error\":\"Servico CDN nao inicializado.\"\x7d",
    lit "\x7b\"error\":\"Arquivo nao encontrado.\"\x7d",
    lit "\x7b\"error\":\"JSON invalido.\"\x7d",
    lit "\x7b\"error\":\"Campos 'file' e 'fileName' obrigatorios.\"\x7d",
    lit "\x7b\"error\":\"Extensao do arquivo invalida.\"\x7d",
    lit "\x7b\"error\":\"Formato nao suportado. Aceitos: PNG, JPG, WEBP, " ++
      lit "GIF, MP4, WEBM, MOV, AVI, MKV, M4V.\"\x7d",
    lit "\x7b\"error\":\"Falha ao enviar arquivo para CDN.\"\x7d",
    lit "\x7b\"error\":\"Excecao interna no upload.\"\x7d",
    lit "\x7b\"error\":\"Erro desconhecido no upload.\"\x7d",
    lit "\x7b\"error\":\"Campos 'hash', 'url' e 'file_id' obrigatorios.\"\x7d",
    lit "\x7b\"ok\":true\x7d",
    lit "\x7b\"error\":\"Falha ao registrar hash no banco.\"\x7d"]

theorem literalBodies_readable : ∀ body ∈ literalBodies, readable body = true := by
  decide +kernel

theorem CdnResponse.json_wellFormed {content : Text} (status : Nat)
    (literal : content ∈ literalBodies) : (CdnResponse.json status content).WellFormed :=
  fun _ => document_of_readable (literalBodies_readable content literal)

/-- Nothing is sent, and not as JSON. -/
theorem CdnResponse.empty_wellFormed (status : Nat) :
    CdnResponse.WellFormed ⟨status, [], []⟩ := by
  have other : [] ≠ lit "application/json" := by with_unfolding_all decide
  exact fun json => absurd json other

/-- Whatever of it is sent as JSON is a document. -/
def HttpAnswer.Sound (floats : FloatDigits) (answer : HttpAnswer) : Prop :=
  ∀ response, answer.written floats = .ok response → response.WellFormed

theorem HttpAnswer.json_sound (floats : FloatDigits) (status : Nat)
    (literal : content ∈ literalBodies) : (HttpAnswer.json status content).Sound floats := by
  rintro response ⟨⟩
  exact CdnResponse.json_wellFormed status literal

theorem HttpAnswer.dumped_sound (floats : FloatDigits) (status : Nat) (value : Json) :
    (HttpAnswer.dumped status value).Sound floats := by
  intro response written _
  obtain ⟨content, dumped, sent⟩ := bind_eq_ok.mp written
  cases sent
  have shape := Json.dump_writes floats value
  rw [dumped] at shape
  exact ⟨shape.2.1, .alone (List.append_nil content ▸ shape.2.2 [])⟩

theorem getContentType_ne (ext : Text) : getContentType ext ≠ lit "application/json" := by
  unfold getContentType
  cases found : lookupMedia ext with
  | none => simp
  | some media =>
    have json : ∀ entry ∈ mediaTable, entry.2.2 ≠ lit "application/json" := by
      simp [mediaTable]
    exact json _ (Codec.mem_of_lookupMedia found)

namespace CdnServer

theorem serve_sound (floats : FloatDigits) (config : CdnConfig) (objectKey : Text) :
    (serve config objectKey).Returns (·.Sound floats) := by
  unfold serve
  split
  · exact HttpAnswer.json_sound floats 500 (by simp [literalBodies])
  split
  · rintro response ⟨⟩
    exact CdnResponse.empty_wellFormed 400
  · rintro (_ | bytes)
    · exact HttpAnswer.json_sound floats 404 (by simp [literalBodies])
    · rintro response ⟨⟩ wrong
      exact absurd wrong (getContentType_ne _)

theorem uploadBody_sound (floats : FloatDigits) (config : CdnConfig) (host : Text)
    (request : Option Json) : (uploadBody config host request).Returns (·.Sound floats) := by
  unfold uploadBody
  split
  · exact HttpAnswer.json_sound floats 500 (by simp [literalBodies])
  split
  · exact HttpAnswer.json_sound floats 400 (by simp [literalBodies])
  split
  · refine Program.returns_bind fun fileBase64 => Program.returns_bind fun fileName => ?_
    dsimp only
    split
    · exact HttpAnswer.json_sound floats 400 (by simp [literalBodies])
    split
    · exact HttpAnswer.json_sound floats 415 (by simp [literalBodies])
    unfold storeFile
    refine Program.returns_bind fun ⟨fileData, finalExt⟩ => ?_
    dsimp only
    split
    · exact HttpAnswer.dumped_sound floats 413 _
    refine Program.returns_bind fun folder => Program.returns_bind fun hex =>
      Program.returns_bind fun stored => ?_
    split
    · exact HttpAnswer.dumped_sound floats 200 _
    · exact HttpAnswer.json_sound floats 502 (by simp [literalBodies])
  · exact HttpAnswer.json_sound floats 400 (by simp [literalBodies])

theorem registerBody_sound (floats : FloatDigits) (request : Option Json) :
    (registerBody request).Returns (·.Sound floats) := by
  unfold registerBody
  split
  · exact HttpAnswer.json_sound floats 400 (by simp [literalBodies])
  split
  · refine Program.returns_bind fun hash => Program.returns_bind fun url =>
      Program.returns_bind fun fileId => Program.returns_bind fun status => ?_
    split
    · exact HttpAnswer.json_sound floats 200 (by simp [literalBodies])
    · exact HttpAnswer.json_sound floats 500 (by simp [literalBodies])
  · exact HttpAnswer.json_sound floats 400 (by simp [literalBodies])

def failureFront : Text := lit "\x7b\"error\":\"Falha ao consultar banco: \""

def failureBack : Text :=
  ['"', ',', '"', 'f', 'o', 'u', 'n', 'd', '"', ':', 'f', 'a', 'l', 's', 'e', '\x7d']

/-- The front ends behind a whole member. -/
theorem failure_texts : lit "\",\"found\":false\x7d" = failureBack ∧
    State.start.run failureFront = some ⟨.after, [.object]⟩ ∧
    failureFront.all (fun c => decide (c.toNat < 0x80)) = true := by
  with_unfolding_all decide

theorem lookupFailed_eq (e : Exception) :
    lookupFailed e = .json 500 (failureFront ++ (e.what ++ failureBack)) := by
  rw [lookupFailed, failure_texts.1, List.append_assoc]
  rfl

/-- The end of the text is read from one state only. -/
theorem accepts_failureBack (s : State) :
    s.Accepts failureBack ↔ s = ⟨.string false, [.object]⟩ := by
  obtain ⟨mode, stack⟩ := s
  constructor
  · rintro ⟨last, ran, whole, outermost⟩
    cases mode with
    | string isKey =>
      cases isKey with
      | true => cases ran
      | false =>
        rcases stack with _ | ⟨_ | _, outer⟩
        · cases ran
        · cases ran
        · have closed : State.run ⟨.string false, .object :: outer⟩ failureBack =
              some ⟨.after, outer⟩ := rfl
          rw [closed] at ran
          cases ran
          rw [show outer = [] from outermost]
    | escape isKey => cases isKey <;> rcases stack with _ | ⟨_ | _, outer⟩ <;> cases ran
    | unit due isKey => cases due <;> cases ran
    | word left => cases left <;> cases ran
    | _ => rcases stack with _ | ⟨_ | _, outer⟩ <;> cases ran
  · rintro ⟨⟩
    exact ⟨⟨.after, []⟩, rfl, rfl, rfl⟩

/-- The quotation mark in front of the text closes the string that it should stand in. -/
theorem failure_document_iff (what : Text) :
    Document (failureFront ++ (what ++ failureBack)) ↔ Splices what := by
  obtain ⟨-, front, all⟩ := failure_texts
  have ascii : ∀ c ∈ failureFront, c.toNat < 0x80 := Text.forall_of_all all
  have asciiBack : ∀ c ∈ failureBack, c.toNat < 0x80 := Text.forall_of_all (by decide)
  unfold Document Splices
  rw [← start_accepts_iff, State.accepts_append, front]
  refine and_congr (Utf8.between_iff ascii asciiBack) ?_
  simp only [Option.some.injEq, exists_eq_left', State.accepts_append, accepts_failureBack,
    exists_eq_right]

theorem not_splices_bracket (rest : Text) : ¬Splices ('[' :: rest) := by
  rintro ⟨-, ran⟩
  cases ran

theorem withoutSlash_utf8 (path : Text) : Utf8 (withoutSlash path) ↔ Utf8 path := by
  unfold withoutSlash
  split
  · have slash : ∀ c ∈ ['/'], c.toNat < 0x80 := by simp
    exact (Utf8.ascii_append_iff slash).symm
  · exact Iff.rfl

theorem servedUrl_utf8 (host objectKey : Text) :
    Utf8 (servedUrl host objectKey) ↔ Utf8 host ∧ Utf8 objectKey := by
  have http : ∀ c ∈ lit "http://", c.toNat < 0x80 :=
    Text.forall_of_all (by with_unfolding_all decide)
  have route : serveRoute = '/' :: lit "api/cdn/serve/" := by with_unfolding_all decide
  have rest : ∀ c ∈ lit "api/cdn/serve/", c.toNat < 0x80 :=
    Text.forall_of_all (by with_unfolding_all decide)
  rw [servedUrl, route, List.append_assoc, List.append_assoc, Utf8.ascii_append_iff http,
    List.cons_append, Utf8.append_cons_iff (by decide), Utf8.ascii_append_iff rest]

theorem foundAnswer_encoded (host dbUrl : Text) (fileId : Json) :
    (Json.object [(lit "file_id", fileId), (lit "found", .boolean true),
      (lit "url", .string (servedUrl host (withoutSlash dbUrl)))]).Encoded ↔
      Utf8 host ∧ Utf8 dbUrl ∧ fileId.Encoded := by
  have fileKey : Utf8 (lit "file_id") :=
    .of_ascii (Text.forall_of_all (by with_unfolding_all decide))
  have foundKey : Utf8 (lit "found") :=
    .of_ascii (Text.forall_of_all (by with_unfolding_all decide))
  have urlKey : Utf8 (lit "url") := .of_ascii (Text.forall_of_all (by with_unfolding_all decide))
  simp only [Json.Encoded, Json.EncodedMembers, fileKey, foundKey, urlKey, servedUrl_utf8,
    withoutSlash_utf8, true_and, and_true]
  exact and_comm.trans and_assoc

section

variable (floats : FloatDigits) (host : Text) (hash : Option Text)

theorem deliver_failed (e : Exception) :
    (CdnResponse.json 500 (failureFront ++ (e.what ++ failureBack))).WellFormed ↔
      Splices e.what := by
  rw [← failure_document_iff]
  exact ⟨fun formed => formed rfl, fun document _ => document⟩

/-- A found row is dumped, or what its dump throws is told. -/
theorem deliver_dumped (value : Json) :
    ∃ response, deliver floats (.dumped 200 value) (.check host hash) = .ok response ∧
      (response.WellFormed ↔ value.Encoded) := by
  have shape := Json.dump_writes floats value
  cases dumped : value.dump floats with
  | ok content =>
    rw [dumped] at shape
    refine ⟨⟨200, lit "application/json", content⟩, ?_, iff_of_true ?_ shape.1⟩
    · simp only [deliver, HttpAnswer.written, HttpAnswer.dumped, dumped]
      rfl
    · exact HttpAnswer.dumped_sound floats 200 value _ (by
        simp only [HttpAnswer.written, HttpAnswer.dumped, dumped]
        rfl)
  | error e =>
    rw [dumped] at shape
    obtain ⟨unencoded, rest, bracket⟩ := shape
    refine ⟨.json 500 (failureFront ++ (e.what ++ failureBack)), ?_, ?_⟩
    · simp only [deliver, HttpAnswer.written, HttpAnswer.dumped, dumped, lookupFailed_eq]
      rfl
    · rw [deliver_failed, bracket]
      exact iff_of_false (not_splices_bracket rest) unencoded

theorem getString_error {j : Json} (failed : j.getString = .error e) :
    (∀ text, j ≠ .string text) ∧ ∃ rest, e.what = '[' :: rest := by
  have bracket : lit "[json.exception.type_error.302] type must be " = '[' :: _ :=
    lit_bracket "json.exception.type_error.302] type must be "
  cases j with
  | string text => cases failed
  | _ =>
    cases failed
    refine ⟨fun text => by simp, ?_⟩
    rw [Json.wrongType, Exception.what, bracket]
    exact ⟨_, rfl⟩

/-- What is answered to a row with both members. -/
theorem deliver_foundRow {row url fileId : Json} (rest : List Json)
    (hasUrl : row.find (lit "url") = some url)
    (hasFileId : row.find (lit "file_id") = some fileId) :
    ∃ response, deliver floats (checkReply host (.parsed (.array (row :: rest))))
        (.check host hash) = .ok response ∧
      (response.WellFormed ↔
        ∃ dbUrl, url = .string dbUrl ∧ Utf8 host ∧ Utf8 dbUrl ∧ fileId.Encoded) := by
  simp only [checkReply, foundRow, hasUrl, hasFileId]
  cases read : url.getString with
  | ok dbUrl =>
    obtain rfl := (Json.getString_eq_ok url).mp read
    obtain ⟨response, delivered, formed⟩ := deliver_dumped floats host hash
      (.object [(lit "file_id", fileId), (lit "found", .boolean true),
        (lit "url", .string (servedUrl host (withoutSlash dbUrl)))])
    refine ⟨response, delivered, ?_⟩
    rw [formed, foundAnswer_encoded]
    simp
  | error e =>
    obtain ⟨other, rest, bracket⟩ := getString_error read
    refine ⟨.json 500 _, by simp only [bind, Except.bind, lookupFailed_eq]; rfl, ?_⟩
    rw [deliver_failed, bracket]
    exact iff_of_false (not_splices_bracket rest) fun ⟨dbUrl, same, _⟩ => other dbUrl same

theorem deliver_checkReply (reply : SelectReply) :
    ∃ response, deliver floats (checkReply host reply) (.check host hash) = .ok response ∧
      (response.WellFormed ↔ reply.Answers host) := by
  have absent : (CdnResponse.json 200 (lit "\x7b\"found\":false\x7d")).WellFormed :=
    CdnResponse.json_wellFormed 200 (by simp [literalBodies])
  have incomplete : (CdnResponse.json 500 (lit
      "\x7b\"error\":\"Registro incompleto no banco.\",\"found\":false\x7d")).WellFormed :=
    CdnResponse.json_wellFormed 500 (by simp [literalBodies])
  cases reply with
  | empty => exact ⟨_, rfl, iff_of_true absent trivial⟩
  | malformed e =>
    exact ⟨.json 500 _, by rw [checkReply, lookupFailed_eq]; rfl, deliver_failed e⟩
  | parsed value =>
    cases value with
    | array rows =>
      cases rows with
      | nil => exact ⟨_, rfl, iff_of_true absent trivial⟩
      | cons row rest =>
        cases hasUrl : row.find (lit "url") with
        | none =>
          refine ⟨.json 500 _, by simp only [checkReply, foundRow, hasUrl]; rfl,
            iff_of_true incomplete ?_⟩
          simp [SelectReply.Answers, hasUrl]
        | some url =>
          cases hasFileId : row.find (lit "file_id") with
          | none =>
            refine ⟨.json 500 _, by simp only [checkReply, foundRow, hasUrl, hasFileId]; rfl,
              iff_of_true incomplete ?_⟩
            simp [SelectReply.Answers, hasFileId]
          | some fileId =>
            simpa [SelectReply.Answers, hasUrl, hasFileId] using
              deliver_foundRow floats host hash rest hasUrl hasFileId
    | _ => exact ⟨_, rfl, iff_of_true absent trivial⟩

end

section

variable {floats : FloatDigits} {config : CdnConfig} {outcomes : Outcomes σ} {s : σ}
  {request : CdnRequest}

/-- Where every answer is sound, what is thrown must be rescued by a document. -/
theorem respond_sound (delivers : ∀ answer, deliver floats answer request = answer.written floats)
    (sound : (attempt config request).Returns (·.Sound floats))
    (rescued : ∀ thrown, (rescue request thrown).WellFormed) :
    (respond floats config outcomes s request).WellFormed := by
  unfold respond
  split
  · exact rescued _
  · rename_i answer ran
    rw [delivers]
    split
    · rename_i response written
      exact sound.throwing.run ran response written
    · exact rescued _

theorem respond_check (host : Text) (c : Char) (hash : Text) :
    (respond floats config outcomes s (.check host (some (c :: hash)))).WellFormed ↔
      LookupAnswers outcomes s (.check host (some (c :: hash))) := by
  simp only [respond, attempt, check, LookupAnswers, Program.call_bind, Program.throwing,
    Program.run_perform]
  cases (outcomes (.select (hashLookup (c :: hash))) s).1 with
  | error thrown => simpa [rescue] using CdnResponse.empty_wellFormed 500
  | ok reply =>
    obtain ⟨response, delivered, formed⟩ :=
      deliver_checkReply floats host (some (c :: hash)) reply
    simpa [Program.throwing, delivered] using formed

end

/-- What is sent as JSON is a document exactly when a lookup comes to what may be answered. -/
theorem respond_wellFormed_iff (floats : FloatDigits) (config : CdnConfig) (outcomes : Outcomes σ)
    (s : σ) (request : CdnRequest) :
    (respond floats config outcomes s request).WellFormed ↔ LookupAnswers outcomes s request := by
  cases request with
  | check host hash =>
    match hash with
    | none | some [] =>
      exact iff_of_true (CdnResponse.json_wellFormed 400 (by simp [literalBodies])) trivial
    | some (c :: hash) => exact respond_check host c hash
  | serve objectKey =>
    exact iff_of_true (respond_sound (fun _ => rfl) (serve_sound floats config objectKey)
      fun _ => CdnResponse.empty_wellFormed 500) trivial
  | upload host request =>
    refine iff_of_true (respond_sound (fun _ => rfl) (uploadBody_sound floats config host request)
      fun thrown => ?_) trivial
    cases thrown <;> exact CdnResponse.json_wellFormed 500 (by simp [literalBodies])
  | register request =>
    exact iff_of_true (respond_sound (fun _ => rfl) (registerBody_sound floats request)
      fun _ => CdnResponse.empty_wellFormed 500) trivial

/-- As `grisu2` for 1.0. -/
def unitDigits : FloatDigits where
  digits _ := ['1']
  exponent _ := 0
  digits_isDigit _ c member := by
    rw [List.mem_singleton.mp member]
    rfl
  digits_leading _ _ := ⟨'1', [], rfl, by decide⟩
  exponent_bounded _ _ := by decide

/-- The hash is registered; nothing else is asked. -/
def photoOutcomes : Outcomes Unit
  | .select _, s =>
    (.ok (.parsed (.array [hashRow (lit "abc") (lit "/posts/a.png") (lit "posts/a.png")])), s)
  | _, s => (.error .other, s)

def photoConfig : CdnConfig where
  ready := true
  bucket := lit "media"
  limitImageBytes := 10 * 2 ^ 20
  limitVideoBytes := 25 * 2 ^ 20

/-- The lookup of a registered hash with a `Host` header that is not UTF-8. -/
theorem foreignHost_malformed :
    (respond unitDigits photoConfig photoOutcomes () (.check ['\xff'] (some (lit "abc")))).content =
      lit ("\x7b\"error\":\"Falha ao consultar banco: \"[json.exception.type_error.316] " ++
        "invalid UTF-8 byte at index 7: 0xFF\",\"found\":false\x7d") ∧
    ¬(respond unitDigits photoConfig photoOutcomes ()
      (.check ['\xff'] (some (lit "abc")))).WellFormed := by
  have content : (respond unitDigits photoConfig photoOutcomes ()
      (.check ['\xff'] (some (lit "abc")))).content = failureFront ++
        (lit "[json.exception.type_error.316] invalid UTF-8 byte at index 7: 0xFF" ++
          failureBack) := by
    decide +kernel
  constructor
  · rw [content]
    decide +kernel
  · intro formed
    have document := formed (by decide +kernel)
    rw [content] at document
    have spliced := (failure_document_iff _).mp document
    have bracket : lit "[json.exception.type_error.316] invalid UTF-8 byte at index 7: 0xFF" =
        '[' :: _ :=
      lit_bracket "json.exception.type_error.316] invalid UTF-8 byte at index 7: 0xFF"
    exact not_splices_bracket _ (bracket ▸ spliced)

end CdnServer

end Crown
