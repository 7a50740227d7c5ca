import Mathlib

/-! Rejection sampling. Draws are made one after the other; some give an output and the others
are passed over, until there are as many outputs as are wanted. How many words of draws lead to
given outputs depends on nothing but how many draws give each of them. -/
namespace Lib.Rejection

section

variable {α : Type} [Fintype α] {good good' : List α → Prop} [DecidablePred good]
  [DecidablePred good']

/-- How many words of a length are good. -/
def words (length : Nat) (good : List α → Prop) [DecidablePred good] : Nat :=
  Fintype.card {word : List.Vector α length // good word.toList}

theorem words_congr (same : ∀ word, good word ↔ good' word) (length : Nat) :
    words length good = words length good' :=
  Fintype.card_congr (Equiv.subtypeEquivRight fun word => same word.toList)

theorem words_none (none : ∀ word, ¬good word) (length : Nat) : words length good = 0 :=
  Fintype.card_eq_zero_iff.mpr ⟨fun word => none _ word.2⟩

theorem words_zero : words 0 good = if good [] then 1 else 0 := by
  have empty : ∀ word : List.Vector α 0, word.toList = [] := fun word =>
    List.length_eq_zero_iff.mp word.toList_length
  split
  · rename_i holds
    refine Fintype.card_eq_one_iff.mpr ⟨⟨.nil, holds⟩, fun word => Subtype.ext ?_⟩
    exact List.Vector.toList_injective ((empty word.1).trans (empty .nil).symm)
  · rename_i fails
    refine Fintype.card_eq_zero_iff.mpr ⟨fun word => fails ?_⟩
    rw [← empty word.1]
    exact word.2

/-- A good word is a letter and a word that is good behind it. -/
def consEquiv (length : Nat) (good : List α → Prop) :
    {word : List.Vector α (length + 1) // good word.toList} ≃
      Σ a, {word : List.Vector α length // good (a :: word.toList)} where
  toFun word := ⟨word.1.head, word.1.tail, by
    rw [← List.Vector.toList_cons, List.Vector.cons_head_tail]
    exact word.2⟩
  invFun split := ⟨split.1 ::ᵥ split.2.1, by
    rw [List.Vector.toList_cons]
    exact split.2.2⟩
  left_inv word := Subtype.ext (List.Vector.cons_head_tail word.1)
  right_inv _ := rfl

theorem words_succ (length : Nat) :
    words (length + 1) good = ∑ a, words length fun word => good (a :: word) := by
  rw [words, Fintype.card_congr (consEquiv length good), Fintype.card_sigma]
  rfl

end

section

variable {α β : Type} {pick : α → Option β}

/-- The draws give the outputs, and the last of them gives one. -/
def Spends (pick : α → Option β) (draws : List α) (outputs : List β) : Prop :=
  draws.filterMap pick = outputs ∧ ∀ a ∈ draws.getLast?, pick a ≠ none

instance [DecidableEq β] (outputs : List β) : DecidablePred (Spends pick · outputs) :=
  fun draws => inferInstanceAs (Decidable (draws.filterMap pick = outputs ∧ _))

theorem spends_nil_iff {outputs : List β} : Spends pick [] outputs ↔ outputs = [] := by
  simp only [Spends, List.filterMap_nil, List.getLast?_nil, Option.not_mem_none, false_implies,
    implies_true, and_true]
  exact eq_comm

/-- Nothing is drawn for no outputs. -/
theorem not_spends_nil (a : α) (draws : List α) : ¬Spends pick (a :: draws) [] := by
  rintro ⟨given, last⟩
  refine last _ (List.getLast?_eq_some_getLast (List.cons_ne_nil a draws)) ?_
  exact List.filterMap_eq_nil_iff.mp given _ (List.getLast_mem _)

theorem spends_cons_iff (a : α) (draws : List α) (b : β) (outputs : List β) :
    Spends pick (a :: draws) (b :: outputs) ↔
      pick a = some b ∧ Spends pick draws outputs ∨
        pick a = none ∧ Spends pick draws (b :: outputs) := by
  cases draws with
  | nil => cases picked : pick a <;> simp [Spends, picked]
  | cons a' draws => cases picked : pick a <;> simp [Spends, picked, and_assoc]

variable [Fintype α] [DecidableEq β]

/-- How many draws give what is asked for. -/
def giving (pick : α → Option β) (output : Option β) : Nat :=
  Fintype.card {a // pick a = output}

/-- The first draw gives the first output, or is passed over. -/
theorem words_spends_succ (length : Nat) (b : β) (outputs : List β) :
    words (length + 1) (Spends pick · (b :: outputs)) =
      giving pick (some b) * words length (Spends pick · outputs) +
        giving pick none * words length (Spends pick · (b :: outputs)) := by
  have first : ∀ a, words length (fun word => Spends pick (a :: word) (b :: outputs)) =
      (if pick a = some b then words length (Spends pick · outputs) else 0) +
        if pick a = none then words length (Spends pick · (b :: outputs)) else 0 := by
    intro a
    cases picked : pick a with
    | none =>
      simp only [reduceCtorEq, if_false, if_true, Nat.zero_add]
      exact words_congr (fun word => by simp [spends_cons_iff, picked]) length
    | some c =>
      simp only [reduceCtorEq, if_false, Nat.add_zero, Option.some.injEq]
      split
      · exact words_congr (fun word => by simp [spends_cons_iff, *]) length
      · exact words_none (fun word => by simp [spends_cons_iff, *]) length
  rw [words_succ, Finset.sum_congr rfl fun a _ => first a, Finset.sum_add_distrib]
  simp only [← Finset.sum_filter, Finset.sum_const, smul_eq_mul, giving, Fintype.card_subtype]

theorem words_spends_zero (b : β) (outputs : List β) :
    words 0 (Spends pick · (b :: outputs)) = 0 := by
  rw [words_zero, if_neg]
  rw [spends_nil_iff]
  exact List.cons_ne_nil b outputs

theorem words_spends_nil (length : Nat) : words (length + 1) (Spends pick · []) = 0 := by
  rw [words_succ]
  exact Finset.sum_eq_zero fun a _ => words_none (not_spends_nil a) length

/-- Of the numbers of places the next output may come from, the one case adds to the other. -/
theorem choose_shares (length left share none : Nat) :
    share * (length.choose left * share ^ (left + 1) * none ^ (length - left)) +
        none * (length.choose (left + 1) * share ^ (left + 2) * none ^ (length - (left + 1))) =
      (length + 1).choose (left + 1) * share ^ (left + 2) * none ^ (length - left) := by
  rw [Nat.choose_succ_succ]
  by_cases fits : left + 1 ≤ length
  · have places : length - left = length - (left + 1) + 1 := by omega
    rw [places]
    ring
  · rw [Nat.choose_eq_zero_of_lt (Nat.lt_of_not_le fits)]
    ring

/-- The last draw gives the last output; of the others, as many give an output as are left,
wherever they stand. -/
theorem words_spends {share : Nat} (length : Nat) (b : β) (outputs : List β)
    (even : ∀ c ∈ b :: outputs, giving pick (some c) = share) :
    words (length + 1) (Spends pick · (b :: outputs)) =
      length.choose outputs.length * share ^ (outputs.length + 1) *
        giving pick none ^ (length - outputs.length) := by
  induction length generalizing b outputs with
  | zero =>
    rw [words_spends_succ, words_spends_zero, even b List.mem_cons_self]
    cases outputs with
    | nil => simp [words_zero, spends_nil_iff]
    | cons c outputs => simp [words_spends_zero]
  | succ length ih =>
    rw [words_spends_succ, ih b outputs even, even b List.mem_cons_self]
    cases outputs with
    | nil =>
      simp only [words_spends_nil, List.length_nil, Nat.choose_zero_right, Nat.sub_zero]
      ring
    | cons c outputs =>
      rw [ih c outputs fun d member => even d (List.mem_cons_of_mem b member)]
      simpa using choose_shares length outputs.length share (giving pick none)

/-- Outputs of one length come from equally many words. -/
theorem words_spends_eq {share : Nat} {outputs outputs' : List β} (length : Nat)
    (same : outputs.length = outputs'.length)
    (even : ∀ c ∈ outputs, giving pick (some c) = share)
    (even' : ∀ c ∈ outputs', giving pick (some c) = share) :
    words length (Spends pick · outputs) = words length (Spends pick · outputs') := by
  cases outputs with
  | nil =>
    cases outputs' with
    | nil => rfl
    | cons => cases same
  | cons b outputs =>
    cases outputs' with
    | nil => cases same
    | cons b' outputs' =>
      cases length with
      | zero => rw [words_spends_zero, words_spends_zero]
      | succ length =>
        rw [words_spends length b outputs even, words_spends length b' outputs' even',
          Nat.succ.inj same]

end

end Lib.Rejection
