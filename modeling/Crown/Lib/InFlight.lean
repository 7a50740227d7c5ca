import Mathlib

/-! Calls in flight: a list to which a call is added when it starts, where it changes while it
is served, and from which it is taken when its answer arrives, in any order. -/
namespace Lib.InFlight

variable {Call Key : Type} {call other served : Call} {place : Nat}

theorem parts {calls : List Call} (here : calls[place]? = some call) :
    ∃ before after, calls = before ++ call :: after ∧
      (∀ served, calls.set place served = before ++ served :: after) ∧
      calls.eraseIdx place = before ++ after := by
  obtain ⟨inside, same⟩ := List.getElem?_eq_some_iff.mp here
  refine ⟨calls.take place, calls.drop (place + 1), ?_, fun served => ?_, ?_⟩
  · rw [← same, List.getElem_cons_drop, List.take_append_drop]
  · rw [List.set_eq_take_append_cons_drop, if_pos inside]
  · exact List.eraseIdx_eq_take_drop_succ ..

theorem mem_iff {calls : List Call} (here : calls[place]? = some call) :
    other ∈ calls ↔ other = call ∨ other ∈ calls.eraseIdx place := by
  obtain ⟨before, after, rfl, -, erased⟩ := parts here
  rw [erased]
  simp only [List.mem_append, List.mem_cons]
  tauto

theorem mem_set_iff {calls : List Call} (here : calls[place]? = some call) (served : Call) :
    other ∈ calls.set place served ↔ other = served ∨ other ∈ calls.eraseIdx place := by
  obtain ⟨before, after, rfl, set, erased⟩ := parts here
  rw [set, erased]
  simp only [List.mem_append, List.mem_cons]
  tauto

theorem mem_of_mem_eraseIdx {calls : List Call} (here : calls[place]? = some call)
    (member : other ∈ calls.eraseIdx place) : other ∈ calls :=
  (mem_iff here).mpr (.inr member)

theorem mem_eraseIdx {calls : List Call} (here : calls[place]? = some call)
    (member : other ∈ calls) (apart : other ≠ call) : other ∈ calls.eraseIdx place :=
  ((mem_iff here).mp member).resolve_left apart

theorem mem_of_getElem? {calls : List Call} (here : calls[place]? = some call) : call ∈ calls :=
  (mem_iff here).mpr (.inl rfl)

/-- No call is left exactly when the one that is answered was the only one. -/
theorem eraseIdx_eq_nil_iff {calls : List Call} (here : calls[place]? = some call) :
    calls.eraseIdx place = [] ↔ calls = [call] := by
  obtain ⟨before, after, rfl, -, erased⟩ := parts here
  rw [erased, List.append_eq_nil_iff]
  constructor
  · rintro ⟨rfl, rfl⟩
    rfl
  · intro only
    obtain ⟨front, single⟩ | ⟨front, empty⟩ := List.append_eq_singleton_iff.mp only
    · exact ⟨front, (List.cons.inj single).2⟩
    · cases empty

/-- No two calls in flight have the same key. -/
def Apart (key : Call → Key) (calls : List Call) : Prop := (calls.map key).Nodup

section Apart

variable {key : Call → Key} {calls : List Call}

theorem Apart.start (apart : Apart key calls) (fresh : ∀ other ∈ calls, key other ≠ key call) :
    Apart key (calls ++ [call]) := by
  unfold Apart
  rw [List.map_append, List.map_singleton, List.nodup_append_comm, List.singleton_append,
    List.nodup_cons]
  refine ⟨fun member => ?_, apart⟩
  obtain ⟨other, member, same⟩ := List.mem_map.mp member
  exact fresh other member same

theorem Apart.advanced (apart : Apart key calls) (here : calls[place]? = some call)
    (same : key served = key call) : Apart key (calls.set place served) := by
  obtain ⟨before, after, rfl, set, -⟩ := parts here
  rw [set]
  simpa [Apart, same] using apart

theorem Apart.answered (apart : Apart key calls) (place : Nat) :
    Apart key (calls.eraseIdx place) :=
  List.Nodup.sublist ((List.eraseIdx_sublist ..).map key) apart

/-- What remains when a call is answered has other keys. -/
theorem Apart.ne (apart : Apart key calls) (here : calls[place]? = some call)
    (member : other ∈ calls.eraseIdx place) : key other ≠ key call := by
  obtain ⟨before, after, rfl, -, erased⟩ := parts here
  rw [erased] at member
  have apart : ((before ++ call :: after).map key).Nodup := apart
  rw [List.map_append, List.map_cons, List.nodup_middle, List.nodup_cons, ← List.map_append] at apart
  intro same
  exact apart.1 (same ▸ List.mem_map_of_mem member)

theorem Apart.unique (apart : Apart key calls) (one : call ∈ calls) (two : other ∈ calls)
    (same : key call = key other) : call = other :=
  List.inj_on_of_nodup_map apart one two same

end Apart
section Forall₂

variable {Record : Type} {Agrees : Call → Record → Prop} {calls : List Call} {records : List Record}

/-- The record of a call is dropped with the call. -/
theorem forall₂_eraseIdx (agrees : List.Forall₂ Agrees calls records) (place : Nat) :
    List.Forall₂ Agrees (calls.eraseIdx place) (records.eraseIdx place) := by
  induction agrees generalizing place with
  | nil => exact .nil
  | cons first rest ih =>
    cases place with
    | zero => exact rest
    | succ place => exact .cons first (ih place)

theorem forall₂_getElem? (agrees : List.Forall₂ Agrees calls records)
    (here : calls[place]? = some call) :
    ∃ record, records[place]? = some record ∧ Agrees call record := by
  induction agrees generalizing place with
  | nil => cases here
  | @cons _ record _ _ first rest ih =>
    cases place with
    | zero =>
      cases here
      exact ⟨record, rfl, first⟩
    | succ place => exact ih here

/-- A call that goes on may keep its record. -/
theorem forall₂_set (agrees : List.Forall₂ Agrees calls records)
    (keeps : ∀ record, records[place]? = some record → Agrees served record) :
    List.Forall₂ Agrees (calls.set place served) records := by
  induction agrees generalizing place with
  | nil => exact .nil
  | cons first rest ih =>
    cases place with
    | zero => exact .cons (keeps _ rfl) rest
    | succ place => exact .cons first (ih keeps)

end Forall₂
end Lib.InFlight
