import Crown.PostStore
import Crown.Lib.InFlight
import Crown.Lib.Transition

/-! The profile page, `composables/useProfileData.ts`. Every change of the handle starts another
`load`; those before it go on, and write the same refs when they are answered. -/
namespace Crown.Client

open Lib

structure ProfileData where
  handle : JsString
  profile : Option User
  posts : List Post
  isLoading : Bool
  isLoadingPosts : Bool
  error : Option JsString

def userNotFound : JsString := js "Usuário não encontrado"

namespace ProfileData

def initial (handle : JsString) : ProfileData where
  handle := handle
  profile := none
  posts := []
  isLoading := true
  isLoadingPosts := true
  error := none

/-- `load` up to its first wait, nothing when it returns at once. -/
def load (data : ProfileData) : Option (JsString × ProfileData) :=
  if data.handle = [] then none
  else some (data.handle, { data with isLoading := true, error := none, profile := none, posts := [] })

/-- `load` from the user on, up to its second wait or its end; nothing in place of a user who was
not returned. -/
def gotUser (answer : Option User) (data : ProfileData) : Option JsString × ProfileData :=
  match answer with
  | none => (none, { data with
      profile := none
      isLoading := false
      error := some userNotFound
      isLoadingPosts := false })
  | some user => (some user.id, { data with
      profile := some user
      isLoading := false
      isLoadingPosts := true })

/-- `load` from the posts on; nothing in place of posts that were not returned. -/
def gotPosts (answer : Option (List Post)) (data : ProfileData) : ProfileData :=
  { data with posts := answer.getD [], isLoadingPosts := false }

end ProfileData

/-- What a `load` waits for. -/
inductive ProfileRequest where
  | getUserByHandle (handle : JsString)
  | listUserPosts (userId : JsString)

def ProfileRequest.isLookup : ProfileRequest → Bool
  | .getUserByHandle _ => true
  | .listUserPosts _ => false

structure Load where
  serial : Nat
  request : ProfileRequest

/-- The refs with the loads that wait. On record are the handle that was asked for last, and what
the requests for each handle and each user were last answered. -/
structure ProfilePage where
  data : ProfileData
  loads : List Load
  started : Nat
  asked : Option JsString
  users : JsString → Option (Option User)
  lists : JsString → Option (List Post)

namespace ProfilePage

inductive Event where
  | change (handle : JsString)
  | answerUser (place : Nat) (answer : Option User)
  | answerPosts (place : Nat) (answer : Option (List Post))

def load (s : ProfilePage) : ProfilePage :=
  match s.data.load with
  | none => s
  | some (handle, data) =>
    { s with
      data
      loads := s.loads ++ [⟨s.started + 1, .getUserByHandle handle⟩]
      started := s.started + 1
      asked := some handle }

/-- The page is opened, and the watcher called at once. -/
def start (handle : JsString) : ProfilePage :=
  load {
    data := .initial handle
    loads := []
    started := 0
    asked := none
    users := fun _ => none
    lists := fun _ => none }

def step (s : ProfilePage) : Event → Option ProfilePage
  | .change handle =>
    if handle = s.data.handle then none
    else some (load { s with data := { s.data with handle } })
  | .answerUser place answer =>
    match s.loads[place]? with
    | some ⟨serial, .getUserByHandle handle⟩ =>
      some { s with
        data := (s.data.gotUser answer).2
        loads :=
          match (s.data.gotUser answer).1 with
          | some userId => s.loads.set place ⟨serial, .listUserPosts userId⟩
          | none => s.loads.eraseIdx place
        users := Function.update s.users handle (some answer) }
    | _ => none
  | .answerPosts place answer =>
    match s.loads[place]? with
    | some ⟨_, .listUserPosts userId⟩ =>
      some { s with
        data := s.data.gotPosts answer
        loads := s.loads.eraseIdx place
        lists := Function.update s.lists userId (some (answer.getD [])) }
    | _ => none

/-- The profile is what the request for the handle was answered, nothing with an error if it failed,
and the posts are what the request for the posts of that profile was answered. -/
def Shows (s : ProfilePage) (handle : JsString) : Prop :=
  s.users handle = some s.data.profile ∧
    match s.data.profile with
    | none => s.data.error = some userNotFound ∧ s.data.posts = []
    | some user => s.lists user.id = some s.data.posts

/-- At rest the page shows the handle that was asked for last, which is the current one unless that
is empty. -/
def ShowsLast (s : ProfilePage) : Prop :=
  (s.data.handle ≠ [] → s.asked = some s.data.handle) ∧
    (s.loads = [] → ∀ handle, s.asked = some handle → s.Shows handle)

/-- The newest load waits for its user. -/
def NewestAsks (s : ProfilePage) : Prop :=
  ∃ load ∈ s.loads, load.serial = s.started ∧ load.request.isLookup = true

def NewestWaits (s : ProfilePage) : Prop := ∃ load ∈ s.loads, load.serial = s.started

instance (s : ProfilePage) : Decidable s.NewestAsks :=
  inferInstanceAs (Decidable (∃ load ∈ s.loads, _))

instance (s : ProfilePage) : Decidable s.NewestWaits :=
  inferInstanceAs (Decidable (∃ load ∈ s.loads, _))

/-- A user is answered only while the newest load waits for its own, and posts only while the newest
load waits; and no posts have been put in when the newest load gets no user. -/
def InOrder (s : ProfilePage) : Event → Prop
  | .change _ => True
  | .answerUser place answer => s.NewestAsks ∧ ∀ load ∈ s.loads[place]?,
      load.serial = s.started → answer = none → s.data.posts = []
  | .answerPosts _ _ => s.NewestWaits

instance (s : ProfilePage) : DecidablePred s.InOrder
  | .change _ => .isTrue trivial
  | .answerUser place _ => inferInstanceAs (Decidable (_ ∧ ∀ load ∈ s.loads[place]?, _))
  | .answerPosts _ _ => inferInstanceAs (Decidable s.NewestWaits)

/-- What holds in every state: the newest load waits for the user or the posts of the handle asked
for last, or the page shows them. -/
structure Invariant (s : ProfilePage) : Prop where
  current : s.data.handle ≠ [] → s.asked = some s.data.handle
  apart : InFlight.Apart Load.serial s.loads
  past : ∀ load ∈ s.loads, load.serial ≤ s.started
  asking : ∀ load ∈ s.loads, load.serial = s.started → ∀ handle,
    load.request = .getUserByHandle handle → s.asked = some handle
  listing : ∀ load ∈ s.loads, load.serial = s.started → ∀ userId,
    load.request = .listUserPosts userId → ∀ handle, s.asked = some handle →
      ∃ user, s.data.profile = some user ∧ user.id = userId ∧ s.users handle = some (some user)
  done : ¬s.NewestWaits → ∀ handle, s.asked = some handle → s.Shows handle

variable {s s' : ProfilePage} {event : Event}

/-- A load starts, or returns at once where the handle is empty. -/
theorem load_invariant (apart : InFlight.Apart Load.serial s.loads)
    (past : ∀ load ∈ s.loads, load.serial ≤ s.started) (still : s.data.handle = [] → Invariant s) :
    Invariant s.load := by
  by_cases empty : s.data.handle = []
  · rw [load, ProfileData.load, if_pos empty]
    exact still empty
  · rw [load, ProfileData.load, if_neg empty]
    have older : ∀ load ∈ s.loads, load.serial ≠ s.started + 1 := by
      intro load member
      have := past load member
      omega
    have newest : ∀ load ∈ s.loads ++ [⟨s.started + 1, .getUserByHandle s.data.handle⟩],
        load.serial = s.started + 1 →
          load = ⟨s.started + 1, .getUserByHandle s.data.handle⟩ := by
      intro load member new
      rcases List.mem_append.mp member with old | own
      · exact absurd new (older load old)
      · exact List.mem_singleton.mp own
    refine ⟨fun _ => rfl, apart.start older, ?_, ?_, ?_, ?_⟩
    · intro load member
      rcases List.mem_append.mp member with old | own
      · exact Nat.le_succ_of_le (past load old)
      · rw [List.mem_singleton.mp own]
    · intro load member new handle request
      rw [newest load member new] at request
      cases request
      rfl
    · intro load member new userId request
      rw [newest load member new] at request
      cases request
    · intro finished
      exact absurd ⟨_, List.mem_append_right _ (List.mem_singleton_self _), rfl⟩ finished

theorem start_invariant (handle : JsString) : Invariant (start handle) := by
  refine load_invariant List.nodup_nil (fun _ member => ?_) fun empty => ?_
  · cases member
  · refine ⟨fun filled => absurd empty filled, List.nodup_nil, ?_, ?_, ?_, ?_⟩
    · intro load member
      cases member
    · intro load member
      cases member
    · intro load member
      cases member
    · intro _ handle asked
      cases asked

/-- The newest load is answered with a user, and waits for the user's posts. -/
theorem Invariant.gotUser {serial place : Nat} {handle : JsString} {user : User} (before : Invariant s)
    (here : s.loads[place]? = some ⟨serial, .getUserByHandle handle⟩) (newest : serial = s.started) :
    Invariant { s with
      data := (s.data.gotUser (some user)).2
      loads := s.loads.set place ⟨serial, .listUserPosts user.id⟩
      users := Function.update s.users handle (some (some user)) } := by
  have own := InFlight.mem_of_getElem? here
  have served : (⟨serial, .listUserPosts user.id⟩ : Load) ∈
      s.loads.set place ⟨serial, .listUserPosts user.id⟩ :=
    (InFlight.mem_set_iff here _).mpr (.inl rfl)
  have apart : InFlight.Apart Load.serial (s.loads.set place ⟨serial, .listUserPosts user.id⟩) :=
    before.apart.advanced here rfl
  have only : ∀ load ∈ s.loads.set place ⟨serial, .listUserPosts user.id⟩,
      load.serial = s.started → load = ⟨serial, .listUserPosts user.id⟩ :=
    fun load member new => apart.unique member served (new.trans newest.symm)
  refine ⟨before.current, apart, ?_, ?_, ?_, ?_⟩
  · intro load member
    rcases (InFlight.mem_set_iff here _).mp member with rfl | old
    · exact Nat.le_of_eq newest
    · exact before.past load (InFlight.mem_of_mem_eraseIdx here old)
  · intro load member new other request
    rw [only load member new] at request
    cases request
  · intro load member new userId request other asked
    rw [only load member new] at request
    cases request
    have last := before.asking _ own newest handle rfl
    rw [asked] at last
    cases last
    exact ⟨user, rfl, rfl, Function.update_self ..⟩
  · intro finished
    exact absurd ⟨_, served, newest⟩ finished

/-- The newest load ends, and the page shows what was asked for. -/
theorem Invariant.ended {load : Load} {place : Nat} (before : Invariant s)
    (here : s.loads[place]? = some load) (newest : load.serial = s.started)
    (same : s'.data.handle = s.data.handle ∧ s'.asked = s.asked ∧ s'.started = s.started)
    (loads : s'.loads = s.loads.eraseIdx place)
    (shows : ∀ handle, s'.asked = some handle → s'.Shows handle) : Invariant s' := by
  obtain ⟨handle, asked, started⟩ := same
  have others : ∀ other ∈ s'.loads, other.serial ≠ s'.started := by
    intro other member new
    rw [loads] at member
    exact before.apart.ne here member ((new.trans started).trans newest.symm)
  refine ⟨?_, ?_, ?_, ?_, ?_, fun _ => shows⟩
  · rw [handle, asked]
    exact before.current
  · rw [loads]
    exact before.apart.answered place
  · intro other member
    rw [loads] at member
    rw [started]
    exact before.past other (InFlight.mem_of_mem_eraseIdx here member)
  · exact fun other member new => absurd new (others other member)
  · exact fun other member new => absurd new (others other member)

/-- The newest load ends without a user. -/
theorem Invariant.gotNobody {serial place : Nat} {handle : JsString} (before : Invariant s)
    (here : s.loads[place]? = some ⟨serial, .getUserByHandle handle⟩) (newest : serial = s.started)
    (empty : s.data.posts = []) :
    Invariant { s with
      data := (s.data.gotUser none).2
      loads := s.loads.eraseIdx place
      users := Function.update s.users handle (some none) } := by
  have own := InFlight.mem_of_getElem? here
  refine before.ended here newest ⟨rfl, rfl, rfl⟩ rfl fun other asked => ?_
  have last := before.asking _ own newest handle rfl
  have same : other = handle := Option.some.inj (Eq.trans asked.symm last)
  subst same
  exact ⟨Function.update_self .., rfl, empty⟩

/-- The newest load ends with the posts. -/
theorem Invariant.gotPosts {serial place : Nat} {userId : JsString} (before : Invariant s)
    (here : s.loads[place]? = some ⟨serial, .listUserPosts userId⟩) (newest : serial = s.started)
    (answer : Option (List Post)) :
    Invariant { s with
      data := s.data.gotPosts answer
      loads := s.loads.eraseIdx place
      lists := Function.update s.lists userId (some (answer.getD [])) } := by
  have own := InFlight.mem_of_getElem? here
  refine before.ended here newest ⟨rfl, rfl, rfl⟩ rfl fun handle asked => ?_
  obtain ⟨user, shown, rfl, answered⟩ := before.listing _ own newest userId rfl handle asked
  have profile : (s.data.gotPosts answer).profile = some user := shown
  refine ⟨answered.trans (congrArg some profile.symm), ?_⟩
  simp only [profile]
  exact Function.update_self ..

/-- An older load is answered while the newest waits. -/
theorem Invariant.outdated (before : Invariant s) (handle : s'.data.handle = s.data.handle)
    (asked : s'.asked = s.asked) (started : s'.started = s.started)
    (apart : InFlight.Apart Load.serial s'.loads)
    (kept : ∀ load ∈ s'.loads, load ∈ s.loads ∨ load.serial ≠ s.started ∧ load.serial ≤ s.started)
    (waits : s'.NewestWaits)
    (listing : ∀ load ∈ s.loads, load.serial = s.started → ∀ userId,
      load.request = .listUserPosts userId →
        s'.data.profile = s.data.profile ∧ s'.users = s.users) : Invariant s' := by
  have newest : ∀ load ∈ s'.loads, load.serial = s'.started →
      load ∈ s.loads ∧ load.serial = s.started := by
    intro load member new
    rw [started] at new
    exact ⟨(kept load member).resolve_right fun old => old.1 new, new⟩
  refine ⟨?_, apart, ?_, ?_, ?_, fun finished => absurd waits finished⟩
  · rw [handle, asked]
    exact before.current
  · intro load member
    rw [started]
    rcases kept load member with old | ⟨-, bound⟩
    · exact before.past load old
    · exact bound
  · intro load member new requested request
    obtain ⟨old, new⟩ := newest load member new
    rw [asked]
    exact before.asking load old new requested request
  · intro load member new userId request requested last
    obtain ⟨old, new⟩ := newest load member new
    obtain ⟨profile, users⟩ := listing load old new userId request
    rw [asked] at last
    rw [profile, users]
    exact before.listing load old new userId request requested last

theorem step_invariant (before : Invariant s) (ordered : s.InOrder event)
    (stepped : s.step event = some s') : Invariant s' := by
  cases event with
  | change handle =>
    simp only [step] at stepped
    split at stepped
    · cases stepped
    · cases stepped
      refine load_invariant before.apart before.past fun empty => ?_
      exact ⟨fun filled => absurd empty filled, before.apart, before.past, before.asking,
        before.listing, before.done⟩
  | answerUser place answer =>
    obtain ⟨⟨newest, waits, new, asks⟩, failing⟩ := ordered
    simp only [step] at stepped
    split at stepped
    · rename_i serial handle here
      cases stepped
      by_cases own : serial = s.started
      · cases answer with
        | some user => exact before.gotUser here own
        | none => exact before.gotNobody here own (failing _ here own rfl)
      · have still := InFlight.mem_eraseIdx here waits fun same =>
          own ((congrArg Load.serial same).symm.trans new)
        have asking : ∀ load ∈ s.loads, load.serial = s.started → ∀ userId,
            load.request ≠ .listUserPosts userId := by
          intro load member serial userId request
          have same := before.apart.unique member waits (serial.trans new.symm)
          rw [← same, request] at asks
          cases asks
        cases answer with
        | some user =>
          refine before.outdated rfl rfl rfl (before.apart.advanced here rfl) ?_ ?_ ?_
          · intro load member
            rcases (InFlight.mem_set_iff here _).mp member with rfl | old
            · exact .inr ⟨own, before.past ⟨serial, .getUserByHandle handle⟩
                (InFlight.mem_of_getElem? here)⟩
            · exact .inl (InFlight.mem_of_mem_eraseIdx here old)
          · exact ⟨newest, (InFlight.mem_set_iff here _).mpr (.inr still), new⟩
          · exact fun load member serial userId request =>
              absurd request (asking load member serial userId)
        | none =>
          refine before.outdated rfl rfl rfl (before.apart.answered place) ?_ ⟨newest, still, new⟩ ?_
          · exact fun load member => .inl (InFlight.mem_of_mem_eraseIdx here member)
          · exact fun load member serial userId request =>
              absurd request (asking load member serial userId)
    · cases stepped
  | answerPosts place answer =>
    obtain ⟨newest, waits, new⟩ := ordered
    simp only [step] at stepped
    split at stepped
    · rename_i serial userId here
      cases stepped
      by_cases own : serial = s.started
      · exact before.gotPosts here own answer
      · have still := InFlight.mem_eraseIdx here waits fun same =>
          own ((congrArg Load.serial same).symm.trans new)
        refine before.outdated rfl rfl rfl (before.apart.answered place) ?_ ⟨newest, still, new⟩ ?_
        · exact fun load member => .inl (InFlight.mem_of_mem_eraseIdx here member)
        · exact fun _ _ _ _ _ => ⟨rfl, rfl⟩
    · cases stepped

/-- The page shows what was asked for last in every run in which the answers come in order. -/
theorem run_showsLast (handle : JsString)
    (run : Run (Guarded InOrder fun s event s' => s.step event = some s') (start handle) events s) :
    s.ShowsLast := by
  have kept : ∀ s event s', Invariant s → Guarded InOrder (fun s event s' => s.step event = some s')
      s event s' → Invariant s' :=
    fun _ _ _ before stepped => step_invariant before stepped.1 stepped.2
  have after := run.invariant (start_invariant handle) kept
  refine ⟨after.current, fun rest => after.done ?_⟩
  rintro ⟨load, member, -⟩
  rw [rest] at member
  cases member

def bia : User := ⟨js "2", js "bia", js "bia", [], [], [], 0, 0, 0, [], false, false⟩

/-- One profile is loaded. -/
theorem biaLoad_shown : ∃ s : ProfilePage,
    Run (Guarded InOrder fun s event s' => s.step event = some s') (start (js "bia"))
      [.answerUser 0 (some bia), .answerPosts 0 (some [])] s ∧ s.loads = [] ∧ s.ShowsLast := by
  have ends : (execute (fun s event => if s.InOrder event then s.step event else none)
      [.answerUser 0 (some bia), .answerPosts 0 (some [])] (start (js "bia"))).any
        (fun s => s.loads.isEmpty) = true := by
    with_unfolding_all decide
  obtain ⟨s, reached, rest⟩ := (Option.any_eq_true ..).mp ends
  have run := guarded_of_execute reached
  exact ⟨s, run, List.isEmpty_iff.mp rest, run_showsLast _ run⟩

/-- The handle changes while its user is looked up, and the second lookup is answered first. -/
theorem staleProfile_shown : ¬∀ (handle : JsString) (events : List Event) (s : ProfilePage),
    Run (fun s event s' => s.step event = some s') (start handle) events s → s.ShowsLast := by
  intro always
  have ends : (execute step [.change (js "ana"), .answerUser 1 none, .answerUser 0 (some bia),
      .answerPosts 0 (some [])] (start (js "bia"))).any (fun s => s.loads.isEmpty &&
        decide (s.asked = some (js "ana")) && decide (s.users (js "ana") ≠ some s.data.profile)) =
      true := by
    with_unfolding_all decide
  obtain ⟨s, reached, shows⟩ := (Option.any_eq_true ..).mp ends
  simp only [Bool.and_eq_true, List.isEmpty_iff, decide_eq_true_eq] at shows
  obtain ⟨⟨rest, asked⟩, stale⟩ := shows
  exact stale ((always _ _ s (run_of_execute reached)).2 rest _ asked).1

end ProfilePage
end Crown.Client
