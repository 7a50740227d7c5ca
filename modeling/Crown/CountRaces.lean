import Crown.Lib.Transition
import Crown.Site

/-! One call of `CountUserPosts` while its entry expires, is deleted or is overwritten by other
calls and the posts change, at any moment between its operations: when the number it returns was
there during the call. -/
namespace Crown

open Lib

namespace CrownServer

/-- The call behind the test of the entry, when it is a number. -/
def readAgain (userId : Text) : Handler Int := do
  let value ← cacheGetJson (Cache.postCountKey userId)
  return cachedInt value

/-- What is made of a total. -/
def countOf (total : Int) : Int := if 0 ≤ total then toInt32 total else 0

def storeCount (userId : Text) (count : Int) : Handler Int := do
  cacheSetJson (Cache.postCountKey userId) (.integer count) cacheTtlPostCount
  return count

/-- The call behind the test of the entry, when it is no number. -/
def countRows (userId : Text) : Handler Int := do
  let total ← ((fromTable (lit "posts")).eq .authorId userId).count
  storeCount userId (countOf total)

theorem countUserPosts_eq (userId : Text) : countUserPosts userId = (do
    let cached ← cacheGetJson (Cache.postCountKey userId)
    if cached.isNumber then readAgain userId else countRows userId) := rfl

end CrownServer

open CrownServer

/-- The call with what is left of its program. `seen` are the numbers that the entry held and
the totals that the database gave since it began, its own entry apart; `reads` are its reads of the
cache and `counted` is the answer of its count. -/
structure CountCall (σ : Type) where
  program : Handler Int
  world : World σ
  seen : List Int
  reads : Nat
  counted : Option Int

namespace CountCall

/-- The entry expires or is deleted, or another call stores a number. -/
inductive Event (σ : Type) where
  | advance
  | entry (value : Option Int)
  | database (after : σ)

/-- An entry as `set_json` writes a count. -/
def stored (value : Option Int) : Option Json := value.map fun n => .integer (toInt32 n)

def held (value : Option Int) : List Int := (value.map toInt32).toList

section

variable {σ : Type} (backend : Backend σ) (env : Environment) (userId : Text)

def withEntry (value : Option Int) (w : World σ) : World σ :=
  { w with cache := { w.cache with
      entries := Function.update w.cache.entries (Cache.postCountKey userId) (stored value) } }

/-- In any world with any entry, or none. -/
def start (entry : Option Int) (w : World σ) : CountCall σ :=
  ⟨countUserPosts userId, withEntry userId entry w, held entry, 0, none⟩

/-- What an operation of the call leaves behind beside the world. -/
def observed (c : CountCall σ) : (op : Op) → op.Reply → CountCall σ
  | .cacheGet _, _ => { c with reads := c.reads + 1 }
  | .count _, total =>
    { c with counted := some total, seen := c.seen ++ if 0 ≤ total then [total] else [] }
  | _, _ => c

def step (c : CountCall σ) : Event σ → Option (CountCall σ)
  | .advance =>
    match c.program with
    | .perform op next =>
      let (reply, world) := backend.answer env op c.world
      some { c.observed op reply with program := next reply, world }
    | .done _ => none
  | .entry value =>
    some { c with world := withEntry userId value c.world, seen := c.seen ++ held value }
  | .database after => some { c with world := { c.world with database := after } }

/-- The number that is returned was seen. -/
def Faithful (c : CountCall σ) : Prop := ∀ n, c.program = .done (.ok n) → n ∈ c.seen

/-- The call does not read an entry that is gone since it was tested, and does not return what it
made of a failure or of a total beyond an `int`, unless the number was seen. -/
def Sound (c : CountCall σ) : Event σ → Prop
  | .advance =>
    match c.program with
    | .perform (.cacheGet key) _ =>
      c.reads = 0 ∨ (c.world.cache.getJson key).isNumber = true ∨ 0 ∈ c.seen
    | .perform (.cacheSet ..) _ =>
      ∀ total ∈ c.counted, (0 ≤ total ∧ total < 2 ^ 31) ∨ countOf total ∈ c.seen
    | _ => True
  | _ => True

/-- Unless the call has stored it, the number of the entry was seen. -/
def Tracked (c : CountCall σ) : Prop :=
  ∃ entry, c.world.cache.entries (Cache.postCountKey userId) = stored entry ∧
    ∀ n ∈ held entry, n ∈ c.seen

/-- Where the call stands. -/
inductive Stage (c : CountCall σ) : Prop where
  | testing (program : c.program = countUserPosts userId) (reads : c.reads = 0)
      (tracked : c.Tracked userId)
  | reading (program : c.program = readAgain userId) (reads : c.reads = 1)
      (tracked : c.Tracked userId)
  | counting (program : c.program = countRows userId)
  | storing (total : Int) (program : c.program = storeCount userId (countOf total))
      (counted : c.counted = some total) (given : 0 ≤ total → total ∈ c.seen)
  | returned (n : Int) (program : c.program = .done (.ok n))

end

section

variable {σ : Type} {backend : Backend σ} {env : Environment} {userId : Text} {c c' : CountCall σ}

theorem start_stage (entry : Option Int) (w : World σ) : Stage userId (start userId entry w) :=
  .testing rfl rfl ⟨entry, Function.update_self .., fun _ member => member⟩

theorem faithful_of_perform {op : Op} {next : op.Reply → Handler Int}
    (performs : c.program = .perform op next) : c.Faithful := by
  intro n returned
  cases performs.symm.trans returned

theorem start_faithful (entry : Option Int) (w : World σ) : (start userId entry w).Faithful :=
  faithful_of_perform rfl

/-- A number that an `int` holds is read as it was stored. -/
theorem cachedInt_toInt32 (n : Int) : cachedInt (.integer (toInt32 n)) = toInt32 n :=
  if_pos (toInt32_range n)

/-- The second read gives a number that was seen exactly when the entry is there or zero was
seen. -/
theorem Tracked.cachedInt_iff (tracked : c.Tracked userId) :
    cachedInt (c.world.cache.getJson (Cache.postCountKey userId)) ∈ c.seen ↔
      (c.world.cache.getJson (Cache.postCountKey userId)).isNumber = true ∨ 0 ∈ c.seen := by
  obtain ⟨entry, entries, seen⟩ := tracked
  rw [Cache.getJson, entries]
  cases c.world.cache.connected with
  | false => simp [cachedInt, Json.isNumber]
  | true =>
    cases entry with
    | none => simp [stored, cachedInt, Json.isNumber]
    | some n =>
      have own : toInt32 n ∈ c.seen := seen _ (by simp [held])
      simp only [stored, Option.map_some, Option.getD_some, reduceIte, cachedInt_toInt32]
      exact iff_of_true own (.inl rfl)

theorem countOf_eq (low : 0 ≤ total) (high : total < 2 ^ 31) : countOf total = total := by
  rw [countOf, if_pos low, toInt32_eq_self (by omega) high]

/-- What happens outside leaves the call where it is. -/
theorem Stage.outside {event : Event σ} (stage : Stage userId c) (outside : event ≠ .advance)
    (stepped : step backend env userId c event = some c') :
    Stage userId c' ∧ (c.Faithful → c'.Faithful) := by
  cases event with
  | advance => exact absurd rfl outside
  | entry value =>
    cases stepped
    refine ⟨?_, fun faithful n returned => List.mem_append_left _ (faithful n returned)⟩
    have tracked : Tracked userId { c with
        world := withEntry userId value c.world, seen := c.seen ++ held value } :=
      ⟨value, Function.update_self .., fun n member => List.mem_append_right _ member⟩
    cases stage with
    | testing program reads => exact .testing program reads tracked
    | reading program reads => exact .reading program reads tracked
    | counting program => exact .counting program
    | storing total program counted given =>
      exact .storing total program counted fun low => List.mem_append_left _ (given low)
    | returned n program => exact .returned n program
  | database after =>
    cases stepped
    refine ⟨?_, fun faithful => faithful⟩
    cases stage with
    | testing program reads tracked => exact .testing program reads tracked
    | reading program reads tracked => exact .reading program reads tracked
    | counting program => exact .counting program
    | storing total program counted given => exact .storing total program counted given
    | returned n program => exact .returned n program

/-- An operation of the call takes it to its next stage, and the number is seen or not from its
last operation on. -/
theorem Stage.advance (stage : Stage userId c)
    (stepped : step backend env userId c .advance = some c') :
    Stage userId c' ∧ (c'.Faithful ↔ c.Sound .advance) := by
  obtain ⟨program, world, seen, reads, counted⟩ := c
  cases stage with
  | testing program reads tracked =>
    dsimp only at program reads
    subst program reads
    cases stepped
    have next : ∀ rest : Handler Int, (if (world.cache.getJson
        (Cache.postCountKey userId)).isNumber = true then readAgain userId else countRows userId) =
          rest → Stage userId ⟨rest, world, seen, 1, counted⟩ ∧
            (Faithful ⟨rest, world, seen, 1, counted⟩ ↔ True) := by
      rintro rest rfl
      split
      · exact ⟨.reading rfl rfl tracked, iff_true_intro (faithful_of_perform rfl)⟩
      · exact ⟨.counting rfl, iff_true_intro (faithful_of_perform rfl)⟩
    obtain ⟨stage, faithful⟩ := next _ rfl
    exact ⟨stage, faithful.trans (iff_of_true trivial (.inl rfl))⟩
  | reading program reads tracked =>
    dsimp only at program reads
    subst program reads
    cases stepped
    refine ⟨.returned _ rfl, ?_⟩
    have value : Faithful (σ := σ) ⟨.done (.ok (cachedInt (world.cache.getJson
        (Cache.postCountKey userId)))), world, seen, 2, counted⟩ ↔
          cachedInt (world.cache.getJson (Cache.postCountKey userId)) ∈ seen := by
      simp [Faithful]
    refine value.trans (tracked.cachedInt_iff.trans ?_)
    exact (or_iff_right Nat.one_ne_zero).symm
  | counting program =>
    dsimp only at program
    subst program
    cases stepped
    refine ⟨.storing _ rfl rfl fun low => List.mem_append_right _ ?_, ?_⟩
    · rw [if_pos low]
      exact List.mem_singleton_self _
    · exact iff_of_true (faithful_of_perform rfl) trivial
  | storing total program counted given =>
    dsimp only at program counted
    subst program counted
    cases stepped
    refine ⟨.returned _ rfl, ?_⟩
    constructor
    · intro faithful other same
      cases same
      exact .inr (faithful _ rfl)
    · intro sound n returned
      cases returned
      rcases sound total rfl with ⟨low, high⟩ | seen
      · rw [countOf_eq low high]
        exact given low
      · exact seen
  | returned n program =>
    dsimp only at program
    subst program
    cases stepped

theorem step_faithful_iff {event : Event σ} (stage : Stage userId c) (faithful : c.Faithful)
    (stepped : step backend env userId c event = some c') :
    Stage userId c' ∧ (c'.Faithful ↔ c.Sound event) := by
  cases event with
  | advance => exact stage.advance stepped
  | entry value =>
    obtain ⟨after, still⟩ := stage.outside (by simp) stepped
    exact ⟨after, iff_of_true (still faithful) trivial⟩
  | database after =>
    obtain ⟨after, still⟩ := stage.outside (by simp) stepped
    exact ⟨after, iff_of_true (still faithful) trivial⟩

/-- The runs in which the number returned was seen are those in which the call is sound: its
second read finds the entry that it tested, or one stored since, and its count an answer below
2^31, unless the number that it returns instead was seen. -/
theorem run_faithful_iff (backend : Backend σ) (env : Environment) (userId : Text)
    (entry : Option Int) (w : World σ) :
    Run (fun c event c' => step backend env userId c event = some c' ∧ c'.Faithful)
        (start userId entry w) events c ↔
      Run (Guarded Sound fun c event c' => step backend env userId c event = some c')
        (start userId entry w) events c := by
  refine Run.keeping_iff ⟨start_stage entry w, start_faithful entry w⟩ ?_ ?_
  · intro c event c' stage faithful stepped _
    exact (step_faithful_iff stage faithful stepped).1
  · intro c event c' stage faithful stepped
    exact (step_faithful_iff stage faithful stepped).2

end

/-- The call has returned a number that was not seen. -/
def unseen {σ : Type} (c : CountCall σ) : Bool :=
  match c.program with
  | .done (.ok n) => n ∉ c.seen
  | _ => false

theorem unseen_not_faithful {σ : Type} {c : CountCall σ} (unseen : c.unseen = true) :
    ¬c.Faithful := by
  intro faithful
  rw [CountCall.unseen] at unseen
  split at unseen
  · rename_i n returned
    exact of_decide_eq_true unseen (faithful n returned)
  · cases unseen

/-- Five is cached. The entry expires between the two reads, and the call returns zero. -/
theorem expired_zero : ¬∀ (backend : Backend Tables) (env : Environment) (userId : Text)
    (entry : Option Int) (w : World Tables) (events : List (Event Tables)) (c : CountCall Tables),
    Run (fun c event c' => step backend env userId c event = some c') (start userId entry w)
      events c → c.Faithful := by
  intro always
  let env : Environment := ⟨0, fun _ => none, ⟨0, ⟨none, 0⟩, ⟨none, 0⟩, 0⟩⟩
  have ends : (execute (step Platform.plain.backend env (lit "ana")) [.advance, .entry none,
      .advance] (start (lit "ana") (some 5) Site.empty.world)).any (fun c => c.unseen) = true := by
    with_unfolding_all decide
  obtain ⟨c, reached, ends⟩ := (Option.any_eq_true ..).mp ends
  exact unseen_not_faithful ends (always _ env _ _ _ _ c (run_of_execute reached))

end CountCall
end Crown
