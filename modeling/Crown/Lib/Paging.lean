import Mathlib

/-! A list read window by window, where every reading may arrange elements of one key anew.
The readings make up the list exactly when the key falls at every place a window starts. -/
namespace Lib.Paging

variable {α β ρ : Type} [LinearOrder β] {key : α → β} {l l' : List α} {keys : List β}

/-- The keys never rise. -/
def Falling (key : α → β) (l : List α) : Prop := l.Pairwise fun a b => key b ≤ key a

/-- Every key before a place is above every key from there on. -/
def Falls (keys : List β) (n : Nat) : Prop := ∀ a ∈ keys.take n, ∀ b ∈ keys.drop n, b < a

theorem keys_eq (falling : Falling key l) (falling' : Falling key l') (perm : l.Perm l') :
    l.map key = l'.map key := by
  apply (perm.map key).eq_of_pairwise (fun a b _ _ below above => le_antisymm above below)
  · exact List.pairwise_map.mpr falling
  · exact List.pairwise_map.mpr falling'

/-- Where the keys never rise, neighbours decide whether they fall. -/
theorem falls_iff (falling : keys.Pairwise fun a b => b ≤ a) (n : Nat) :
    Falls keys n ↔ (0 < n → n < keys.length → keys[n - 1]? ≠ keys[n]?) := by
  constructor
  · intro falls later inside
    have before : n - 1 < keys.length := by omega
    rw [List.getElem?_eq_getElem before, List.getElem?_eq_getElem inside]
    have front : keys[n - 1] ∈ keys.take n :=
      List.mem_take_iff_getElem.mpr ⟨n - 1, by omega, rfl⟩
    have back : keys[n] ∈ keys.drop n := List.mem_drop_iff_getElem.mpr ⟨0, by omega, by simp⟩
    intro same
    exact (falls _ front _ back).ne' (Option.some.inj same)
  · intro apart a front b back
    obtain ⟨i, early, rfl⟩ := List.mem_take_iff_getElem.mp front
    obtain ⟨j, late, rfl⟩ := List.mem_drop_iff_getElem.mp back
    have later : 0 < n := by omega
    have inside : n < keys.length := by omega
    have before : n - 1 < keys.length := by omega
    have step := apart later inside
    rw [List.getElem?_eq_getElem before, List.getElem?_eq_getElem inside] at step
    have ordered : ∀ (i j : Nat) (first : i ≤ j) (bound : j < keys.length),
        keys[j] ≤ keys.get ⟨i, by omega⟩ := by
      intro i j first bound
      rcases Nat.lt_or_eq_of_le first with before | rfl
      · exact List.pairwise_iff_getElem.mp falling i j _ bound before
      · exact le_rfl
    have fall : keys[n] < keys[n - 1] :=
      lt_of_le_of_ne (ordered (n - 1) n (by omega) inside) fun same =>
        step (congrArg some same.symm)
    calc keys[n + j] ≤ keys[n] := ordered n (n + j) (by omega) (by omega)
      _ < keys[n - 1] := fall
      _ ≤ keys[i] := ordered i (n - 1) (by omega) before

theorem take_eq_filter {n : Nat} (same : l.map key = keys) (falls : Falls keys n) :
    l.take n = l.filter fun a => decide (∀ b ∈ keys.drop n, b < key a) := by
  have front : ∀ a ∈ l.take n, decide (∀ b ∈ keys.drop n, b < key a) = true := by
    intro a member
    apply decide_eq_true
    apply falls
    rw [← same, ← List.map_take]
    exact List.mem_map_of_mem member
  have back : ∀ a ∈ l.drop n, ¬decide (∀ b ∈ keys.drop n, b < key a) = true := by
    intro a member above
    have own : key a ∈ keys.drop n := by
      rw [← same, ← List.map_drop]
      exact List.mem_map_of_mem member
    exact lt_irrefl _ (of_decide_eq_true above _ own)
  conv_rhs => rw [← List.take_append_drop n l, List.filter_append]
  rw [List.filter_eq_self.mpr front, List.filter_eq_nil_iff.mpr back, List.append_nil]

/-- Up to a place where the keys fall, two arrangements have the same elements. -/
theorem take_perm {n : Nat} (perm : l.Perm l') (same : l.map key = l'.map key)
    (falls : Falls (l.map key) n) : (l.take n).Perm (l'.take n) := by
  rw [take_eq_filter rfl falls, take_eq_filter same.symm falls]
  exact perm.filter _

theorem drop_perm {n : Nat} (perm : l.Perm l') (same : l.map key = l'.map key)
    (falls : Falls (l.map key) n) : (l.drop n).Perm (l'.drop n) := by
  have front : (l'.take n ++ l'.drop n).Perm (l.take n ++ l'.drop n) :=
    (take_perm perm same falls).symm.append_right _
  apply (List.perm_append_left_iff (l.take n)).mp
  rw [List.take_append_drop] at front ⊢
  exact perm.trans front

theorem Falls.dropped {start limit : Nat} (falls : Falls keys (start + limit)) :
    Falls (keys.drop start) limit := by
  intro a front b back
  apply falls
  · rw [List.take_add]
    exact List.mem_append_right _ front
  · rwa [List.drop_drop] at back

/-- Between two places where the keys fall, two arrangements have the same elements. -/
theorem window_perm {start limit : Nat} (perm : l.Perm l') (same : l.map key = l'.map key)
    (starts : Falls (l.map key) start) (ends : Falls (l.map key) (start + limit)) :
    ((l.drop start).take limit).Perm ((l'.drop start).take limit) := by
  have equal : (l.drop start).map key = (l'.drop start).map key := by
    rw [List.map_drop, List.map_drop, same]
  have dropped : Falls ((l.drop start).map key) limit := by
    rw [List.map_drop]
    exact ends.dropped
  exact take_perm (drop_perm perm same starts) equal dropped

/-- Where the keys do not fall, the two elements there can change places. -/
theorem exists_swapped {n : Nat} (falling : Falling key l) (later : 0 < n) (inside : n < l.length)
    (tied : (l.map key)[n - 1]? = (l.map key)[n]?) :
    ∃ l' x, l'.Perm l ∧ Falling key l' ∧ l[n - 1]? = some x ∧ l'[n]? = some x := by
  obtain ⟨m, rfl⟩ : ∃ m, n = m + 1 := ⟨n - 1, by omega⟩
  rw [Nat.add_sub_cancel] at tied ⊢
  have before : m < l.length := by omega
  have parts : l = l.take m ++ l[m] :: l[m + 1] :: l.drop (m + 2) := by
    rw [List.getElem_cons_drop, List.getElem_cons_drop, List.take_append_drop]
  have equal : key l[m] = key l[m + 1] := by simpa [before, inside] using tied
  refine ⟨l.take m ++ l[m + 1] :: l[m] :: l.drop (m + 2), l[m], ?_, ?_, ?_, ?_⟩
  · conv_rhs => rw [parts]
    exact (List.Perm.swap ..).append_left _
  · unfold Falling at falling ⊢
    rw [parts] at falling
    simp only [List.pairwise_append, List.pairwise_cons, List.forall_mem_cons] at falling ⊢
    rw [equal] at falling
    rw [equal]
    tauto
  · exact List.getElem?_eq_getElem before
  · have place : m + 1 - (l.take m).length = 1 := by
      rw [List.length_take]
      omega
    rw [List.getElem?_append_right (by omega)]
    rw [place]
    rfl

/-- Answers to one page after another, up to the first empty one. -/
inductive Walk (answer : Nat → Option (List ρ)) : Nat → List ρ → Prop
  | ended {page : Nat} (last : answer page = some []) : Walk answer page []
  | turned {page : Nat} {rows others : List ρ} (first : answer page = some rows) (more : rows ≠ [])
      (rest : Walk answer (page + 1) others) : Walk answer page (rows ++ others)

variable {answer : Nat → Option (List ρ)} {limit page last : Nat} {rows first : List ρ}

/-- A walk goes through all pages before the first empty one. -/
theorem Walk.reaches (walk : Walk answer page rows) (before : page ≤ last)
    (more : ∀ k < last, answer k ≠ some []) :
    ∃ front others, Walk answer last others ∧ rows = front ++ others := by
  induction walk with
  | @ended page ends =>
    have there : page = last := by
      by_contra other
      exact more page (by omega) ends
    exact ⟨[], [], there ▸ .ended ends, rfl⟩
  | @turned page rows others first nonempty rest ih =>
    rcases Nat.lt_or_eq_of_le before with early | rfl
    · obtain ⟨front, remaining, reached, rfl⟩ := ih early
      exact ⟨rows ++ front, remaining, reached, (List.append_assoc ..).symm⟩
    · exact ⟨[], rows ++ others, .turned first nonempty rest, rfl⟩

theorem Walk.next (walk : Walk answer page rows) (read : answer page = some first)
    (more : first ≠ []) : ∃ others, Walk answer (page + 1) others ∧ rows = first ++ others := by
  cases walk with
  | ended ends =>
    rw [read] at ends
    exact absurd (Option.some.inj ends) more
  | turned here _ rest =>
    rw [read] at here
    obtain rfl := Option.some.inj here
    exact ⟨_, rest, rfl⟩

theorem Walk.not_nodup {element : ρ} {a b : List ρ} (walk : Walk answer 0 rows)
    (more : ∀ k < page, answer k ≠ some []) (read : answer page = some a)
    (here : element ∈ a) (read' : answer (page + 1) = some b) (again : element ∈ b) :
    ¬rows.Nodup := by
  obtain ⟨front, rest, reached, rfl⟩ := walk.reaches (Nat.zero_le page) more
  obtain ⟨rest, onward, rfl⟩ := reached.next read (List.ne_nil_of_mem here)
  obtain ⟨rest, -, rfl⟩ := onward.next read' (List.ne_nil_of_mem again)
  intro distinct
  have apart := (List.nodup_append.mp (List.nodup_append.mp distinct).2.1).2.2
  exact apart element here element (List.mem_append_left _ again) rfl

section

variable {render : α → ρ} {lists : Nat → List α}

/-- The windows of any arrangements make up the list, if the keys fall wherever a window starts. -/
theorem walk_perm (positive : 0 < limit)
    (read : ∀ page, answer page =
      some ((((lists page).drop (page * limit)).take limit).map render))
    (perm : ∀ page, (lists page).Perm l) (same : ∀ page, (lists page).map key = l.map key)
    (falls : ∀ page, Falls (l.map key) (page * limit)) (page : Nat) :
    ∃ rows, Walk answer page rows ∧ rows.Perm ((l.drop (page * limit)).map render) := by
  by_cases inside : page * limit < l.length
  · have onward : page * limit < (page + 1) * limit := by
      rw [Nat.succ_mul]
      omega
    obtain ⟨rest, walk, others⟩ := walk_perm positive read perm same falls (page + 1)
    have ends := falls (page + 1)
    rw [Nat.succ_mul] at ends others
    have window := window_perm (perm page) (same page) ((same page).symm ▸ falls page)
      ((same page).symm ▸ ends)
    refine ⟨_, .turned (read page) ?_ walk, ?_⟩
    · rw [Ne, List.map_eq_nil_iff, ← List.length_eq_zero_iff, List.length_take, List.length_drop,
        (perm page).length_eq]
      omega
    · rw [← List.take_append_drop limit (l.drop (page * limit)), List.map_append, List.drop_drop]
      exact (window.map render).append others
  · have past : l.length ≤ page * limit := Nat.not_lt.mp inside
    refine ⟨[], .ended ?_, ?_⟩
    · rw [read page, List.drop_eq_nil_of_le ((perm page).length_eq.trans_le past), List.take_nil,
        List.map_nil]
    · rw [List.drop_eq_nil_of_le past]
      exact .nil
termination_by l.length - page * limit

/-- What one arrangement has at the end of a window and the next at the start of its own is
listed twice. -/
theorem Walk.twice (walk : Walk answer 0 rows) (positive : 0 < limit)
    (read : ∀ page, answer page =
      some ((((lists page).drop (page * limit)).take limit).map render))
    (length : ∀ page, (lists page).length = l.length) (inside : (page + 1) * limit < l.length)
    (closes : (lists page)[(page + 1) * limit - 1]? = some x)
    (opens : (lists (page + 1))[(page + 1) * limit]? = some x) : ¬rows.Nodup := by
  have more : ∀ k < page, answer k ≠ some [] := by
    intro k before empty
    have early : k * limit ≤ (page + 1) * limit := Nat.mul_le_mul_right limit (by omega)
    rw [read k, Option.some.injEq, List.map_eq_nil_iff, ← List.length_eq_zero_iff,
      List.length_take, List.length_drop, length k] at empty
    omega
  have here : x ∈ ((lists page).drop (page * limit)).take limit := by
    apply List.mem_of_getElem? (i := limit - 1)
    have place : page * limit + (limit - 1) = (page + 1) * limit - 1 := by
      rw [Nat.succ_mul]
      omega
    rw [List.getElem?_take_of_lt (by omega), List.getElem?_drop, place, closes]
  have again : x ∈ ((lists (page + 1)).drop ((page + 1) * limit)).take limit := by
    apply List.mem_of_getElem? (i := 0)
    rw [List.getElem?_take_of_lt positive, List.getElem?_drop]
    exact opens
  exact walk.not_nodup more (read page) (List.mem_map_of_mem here) (read (page + 1))
    (List.mem_map_of_mem again)

end

end Lib.Paging
