import Crown.Lib.Splicing
import Crown.UniquePosts

/-! Calls of `removePost` that overlap, with their answers in any order and no other action
between them: when the list is what is left of the original one. -/
namespace Crown.Client

open Lib Splicing

/-- A store whose posts have distinct ids. -/
structure DistinctStore extends EditState where
  distinct : toPostState.ids.Nodup

/-- The store and its waiting calls, with the posts that were there at first and those whose
removal succeeded. -/
structure RemovalWatch where
  actions : PostActions
  original : List Nat
  deleted : List Nat

inductive RemovalEvent where
  | removePost (id : JsString)
  | answerRemove (place : Nat) (failure : Option Failure)

def RemovalEvent.event : RemovalEvent → PostActions.Event
  | removePost id => .removePost id
  | answerRemove place failure => .answerRemove place failure

namespace RemovalWatch

def start (s : DistinctStore) : RemovalWatch := ⟨⟨s.toEditState, none, [], [], []⟩, s.posts, []⟩

/-- The post whose removal an event reports as done. -/
def deletedBy (w : RemovalWatch) : RemovalEvent → List Nat
  | .answerRemove place none => (w.actions.removals[place]?.map Removal.removed).toList
  | _ => []

def step (w : RemovalWatch) (event : RemovalEvent) : Option RemovalWatch :=
  (w.actions.step event.event).map fun actions =>
    { w with actions, deleted := w.deletedBy event ++ w.deleted }

def waiting (w : RemovalWatch) : List Nat := w.actions.removals.map Removal.removed

/-- The posts that are being removed or were removed. -/
def gone (w : RemovalWatch) : List Nat := w.waiting ++ w.deleted

/-- The list is the original one without the posts that are gone; when every call is answered
these are the removed ones. -/
def Restored (w : RemovalWatch) : Prop := w.actions.store.posts = kept w.gone w.original

/-- A call that fails remembers the place of its post: as many posts are listed in front of it
as are left of those that were in front of the post at first. -/
def RightPlace (w : RemovalWatch) : RemovalEvent → Prop
  | .answerRemove place (some _) => ∀ call, w.actions.removals[place]? = some call →
      min call.index w.actions.store.posts.length =
        (kept w.gone (w.original.takeWhile (· ≠ call.removed))).length
  | _ => True

structure Invariant (w : RemovalWatch) : Prop where
  distinct : w.original.Nodup
  apart : w.gone.Nodup
  waiting : ∀ call ∈ w.actions.removals, call.removed ∈ w.original

variable {w w' : RemovalWatch} {event : RemovalEvent}

theorem start_invariant (s : DistinctStore) : Invariant (start s) := by
  refine ⟨?_, List.nodup_nil, fun call member => ?_⟩
  · have ids := s.distinct
    rw [PostState.ids_eq] at ids
    exact ids.of_map
  · cases member

theorem start_restored (s : DistinctStore) : Restored (start s) := by
  simp [Restored, start, kept, gone, waiting]

theorem removePost_place {s s' : EditState} {call : Removal} {id : JsString}
    (called : s.removePost id = some (call, s')) :
    s.posts[call.index]? = some call.removed ∧ s'.posts = s.posts.eraseIdx call.index := by
  unfold EditState.removePost at called
  split at called
  · cases called
  · obtain ⟨removed, here, same⟩ := Option.map_eq_some_iff.mp called
    cases same
    exact ⟨here, rfl⟩

/-- A call takes its post out of the list. -/
theorem removing_step {id : JsString} (before : Invariant w) (restored : w.Restored)
    (stepped : w.step (.removePost id) = some w') : Invariant w' ∧ w'.Restored := by
  obtain ⟨actions, acted, rfl⟩ := Option.map_eq_some_iff.mp stepped
  simp only [RemovalEvent.event, PostActions.step] at acted
  split at acted
  · cases acted
    exact ⟨before, restored⟩
  · rename_i call store called
    cases acted
    obtain ⟨here, posts⟩ := removePost_place called
    rw [restored] at here posts
    obtain ⟨member, listed⟩ := mem_kept.mp (List.mem_of_getElem? here)
    have added : ∀ gone : List Nat, (call.removed :: (w.waiting ++ gone)).Perm
        (w.waiting ++ [call.removed] ++ gone) := by
      intro gone
      rw [List.append_assoc]
      exact List.perm_middle.symm
    have same : ∀ ref, ref ∈ call.removed :: w.gone ↔
        ref ∈ w.waiting ++ [call.removed] ++ w.deleted := fun ref => (added _).mem_iff
    have waiting : (w.actions.removals ++ [call]).map Removal.removed =
        w.waiting ++ [call.removed] := by simp [RemovalWatch.waiting]
    refine ⟨⟨before.distinct, ?_, ?_⟩, ?_⟩
    · show ((w.actions.removals ++ [call]).map Removal.removed ++ w.deleted).Nodup
      rw [waiting, ← (added _).nodup_iff]
      exact List.nodup_cons.mpr ⟨listed, before.apart⟩
    · intro other inside
      rcases List.mem_append.mp inside with earlier | new
      · exact before.waiting other earlier
      · rwa [List.mem_singleton.mp new]
    · show store.posts = kept ((w.actions.removals ++ [call]).map Removal.removed ++ w.deleted) _
      rw [posts, kept_eraseIdx before.distinct here, waiting]
      exact kept_congr same

/-- The answer to a call takes it from those that wait. -/
theorem answered_step {place : Nat} {failure : Option Failure} (before : Invariant w)
    (restored : w.Restored) (stepped : w.step (.answerRemove place failure) = some w') :
    Invariant w' ∧ (w'.Restored ↔ w.RightPlace (.answerRemove place failure)) := by
  obtain ⟨actions, acted, rfl⟩ := Option.map_eq_some_iff.mp stepped
  obtain ⟨call, here, rfl⟩ := Option.map_eq_some_iff.mp acted
  obtain ⟨front, back, removals, -, erased⟩ := InFlight.parts here
  have member := before.waiting call (InFlight.mem_of_getElem? here)
  have left : (w.actions.removals.eraseIdx place).map Removal.removed =
      front.map Removal.removed ++ back.map Removal.removed := by
    rw [erased, List.map_append]
  have moved : (call.removed :: ((w.actions.removals.eraseIdx place).map Removal.removed ++
      w.deleted)).Perm w.gone := by
    rw [left, RemovalWatch.gone, RemovalWatch.waiting, removals, List.map_append, List.map_cons,
      List.append_assoc, List.append_assoc]
    exact List.perm_middle.symm
  have apart := moved.nodup_iff.mpr before.apart
  have waiting : ∀ other ∈ w.actions.removals.eraseIdx place, other.removed ∈ w.original :=
    fun other inside => before.waiting other (InFlight.mem_of_mem_eraseIdx here inside)
  cases failure with
  | none =>
    have deleted : w.deletedBy (.answerRemove place none) = [call.removed] := by
      simp [deletedBy, here]
    have same : ((w.actions.removals.eraseIdx place).map Removal.removed ++
        ([call.removed] ++ w.deleted)).Perm w.gone := by
      refine List.Perm.trans ?_ moved
      exact List.perm_middle
    rw [deleted]
    refine ⟨⟨before.distinct, same.nodup_iff.mpr before.apart, waiting⟩, iff_of_true ?_ trivial⟩
    exact restored.trans (kept_congr fun ref => same.mem_iff.symm)
  | some err =>
    refine ⟨⟨before.distinct, (List.nodup_cons.mp apart).2, waiting⟩, ?_⟩
    have put : insertAt call.index call.removed w.actions.store.posts =
        kept ((w.actions.removals.eraseIdx place).map Removal.removed ++ w.deleted) w.original ↔
          min call.index w.actions.store.posts.length =
            (kept w.gone (w.original.takeWhile (· ≠ call.removed))).length := by
      rw [restored]
      exact insertAt_kept_iff before.distinct member
        (fun ref => moved.mem_iff.symm.trans List.mem_cons) (List.nodup_cons.mp apart).1 _
    refine Iff.trans put ?_
    simp only [RightPlace, here, Option.some.injEq, forall_eq']

theorem step_restored_iff (before : Invariant w) (restored : w.Restored)
    (stepped : w.step event = some w') :
    Invariant w' ∧ (w'.Restored ↔ w.RightPlace event) := by
  cases event with
  | removePost id =>
    obtain ⟨after, same⟩ := removing_step before restored stepped
    exact ⟨after, iff_of_true same trivial⟩
  | answerRemove place failure => exact answered_step before restored stepped

/-- When every call is answered, what is gone is what was removed. -/
theorem Restored.answered (restored : w.Restored) (answered : w.actions.removals = []) :
    w.actions.store.posts = kept w.deleted w.original := by
  rw [restored, gone, waiting, answered, List.map_nil, List.nil_append]

/-- The runs in which the list is what is left of the original one in every state reached are
those in which every call that fails remembers the place of its post. When all calls of such a
run are answered, the list is the original one without the posts whose removal succeeded. -/
theorem run_restored_iff (s : DistinctStore) :
    (Run (fun w event w' => w.step event = some w' ∧ w'.Restored) (start s) events w ↔
      Run (Guarded RightPlace fun w event w' => w.step event = some w') (start s) events w) ∧
    (Run (Guarded RightPlace fun w event w' => w.step event = some w') (start s) events w →
      w.actions.removals = [] → w.actions.store.posts = kept w.deleted w.original) := by
  have kept : ∀ w event w', Invariant w ∧ w.Restored →
      w.step event = some w' ∧ w'.Restored → Invariant w' ∧ w'.Restored := by
    rintro w event w' ⟨before, restored⟩ ⟨stepped, still⟩
    exact ⟨(step_restored_iff before restored stepped).1, still⟩
  have same : Run (fun w event w' => w.step event = some w' ∧ w'.Restored) (start s) events w ↔
      Run (Guarded RightPlace fun w event w' => w.step event = some w') (start s) events w := by
    refine Run.keeping_iff ⟨start_invariant s, start_restored s⟩ ?_ ?_
    · intro w event w' before restored stepped _
      exact (step_restored_iff before restored stepped).1
    · intro w event w' before restored stepped
      exact (step_restored_iff before restored stepped).2
  refine ⟨same, fun run answered => ?_⟩
  have last := (same.mpr run).invariant ⟨start_invariant s, start_restored s⟩ kept
  exact last.2.answered answered

def twoPosts : DistinctStore where
  objects := [{ (default : Post) with id := [97] }, { (default : Post) with id := [98] }]
  posts := [0, 1]
  isLoading := false
  error := none
  page := 1
  hasMore := true
  likeVersions _ := none
  pendingLikes _ := false
  isCreating := false
  isDeleting := false
  distinct := by decide

/-- Both posts are removed, each from the front of the list, and both calls fail in the order
in which they were made: the posts are swapped. -/
theorem failed_swapped : ¬∀ (s : DistinctStore) (events : List RemovalEvent) (w : RemovalWatch),
    Run (fun w event w' => w.step event = some w') (start s) events w →
      w.actions.removals = [] → w.actions.store.posts = kept w.deleted w.original := by
  intro always
  have ends : (execute step [.removePost [97], .removePost [98], .answerRemove 0 (some ⟨none, []⟩),
      .answerRemove 0 (some ⟨none, []⟩)] (start twoPosts)).any (fun w =>
        w.actions.removals.isEmpty && decide (w.actions.store.posts ≠ kept w.deleted w.original)) =
      true := by
    decide
  obtain ⟨w, reached, ends⟩ := (Option.any_eq_true ..).mp ends
  obtain ⟨answered, swapped⟩ := Bool.and_eq_true_iff.mp ends
  exact of_decide_eq_true swapped
    (always twoPosts _ w (run_of_execute reached) (List.isEmpty_iff.mp answered))

end RemovalWatch
end Crown.Client
