import Crown.Lib.Url

/-! Loading the environment from a file, `utils/dotenv.h`. -/
namespace Crown.Dotenv

open Lib Lib.Text

/-- The variables of the process. -/
abbrev Environment := Text → Option Text

/-- What `c_str()` hands to the C library: a string ends at its first zero byte. -/
def cString (s : Text) : Text := before '\x00' s

/-- `setenv` with the overwrite flag: it fails on an empty name. -/
def setenv (env : Environment) (key value : Text) : Environment :=
  if key = [] then env else fun name => if name = key then some value else env name

/-- A pair of identical quotes around a value is taken away. -/
def unquote (value : Text) : Text :=
  if 2 ≤ value.length ∧
      (value.head? = some '"' ∧ value.getLast? = some '"' ∨
        value.head? = some '\'' ∧ value.getLast? = some '\'') then
    (value.drop 1).take (value.length - 2)
  else value

/-- `getline` until the end of the file: nothing follows the last line break. -/
def getlines (content : Text) : List Text :=
  let lines := content.splitOn '\n'
  if lines.getLast? = some [] then lines.dropLast else lines

/-- The environment and the number of variables that are reported as loaded. -/
structure Loading where
  environment : Environment
  loaded : Nat

/-- The body of the loop. -/
def loadLine (loading : Loading) (line : Text) : Loading :=
  if line = [] ∨ line.head? = some '#' then loading
  else if '=' ∉ line then loading
  else
    let key := before '=' line
    let value := unquote (after '=' line)
    if loading.environment (cString key) = none then
      ⟨setenv loading.environment (cString key) (cString value), loading.loaded + 1⟩
    else loading

/-- `LoadEnv`: a file that cannot be opened changes nothing. -/
def loadEnv (env : Environment) (file : Option Text) : Loading :=
  match file with
  | none => ⟨env, 0⟩
  | some content => (getlines content).foldl loadLine ⟨env, 0⟩

/-- The variable and the value of a line, each as far as it is read. -/
def assignment (read : Text → Text) (line : Text) : Option (Text × Text) :=
  if line.head? = some '#' ∨ '=' ∉ line then none
  else some (read (before '=' line), read (unquote (after '=' line)))

/-- The value on the first line of a name. -/
def firstValue (read : Text → Text) (lines : List Text) (name : Text) : Option Text :=
  ((lines.filterMap (assignment read)).find? fun pair => pair.1 = name).map (·.2)

theorem firstValue_cons (read : Text → Text) (line : Text) (lines : List Text) (name : Text) :
    firstValue read (line :: lines) name =
      (assignment read line).elim (firstValue read lines name) fun pair =>
        if pair.1 = name then some pair.2 else firstValue read lines name := by
  rw [firstValue, List.filterMap_cons]
  cases assignment read line with
  | none => rfl
  | some pair =>
    rw [List.find?_cons, Option.elim_some]
    by_cases same : pair.1 = name
    · simp [same]
    · simp [same, firstValue]

theorem setenv_lookup (env : Environment) (key value name : Text) :
    setenv env key value name = if name = key ∧ name ≠ [] then some value else env name := by
  rw [setenv]
  by_cases same : name = key
  · subst same
    by_cases empty : name = [] <;> simp [empty]
  · by_cases empty : key = [] <;> simp [same, empty]

/-- What a line sets, unless the variable is there or the name is empty. -/
theorem loadLine_lookup (loading : Loading) (line name : Text) :
    (loadLine loading line).environment name =
      (assignment cString line).elim (loading.environment name) fun pair =>
        if pair.1 = name ∧ name ≠ [] ∧ loading.environment name = none then some pair.2
        else loading.environment name := by
  by_cases skipped : line.head? = some '#' ∨ '=' ∉ line
  · have kept : loadLine loading line = loading := by
      rcases skipped with comment | signless
      · simp [loadLine, comment]
      · simp [loadLine, signless]
    rw [kept, assignment, if_pos skipped]
    rfl
  · have counted : ¬(line = [] ∨ line.head? = some '#') := by
      rintro (rfl | comment)
      · simp at skipped
      · exact skipped (.inl comment)
    rw [loadLine, if_neg counted, if_neg (not_or.mp skipped).2, assignment, if_neg skipped,
      Option.elim_some]
    simp only
    generalize cString (before '=' line) = key
    by_cases absent : loading.environment key = none
    · simp only [if_pos absent, setenv_lookup]
      by_cases same : name = key
      · simp [same, absent]
      · simp [same, Ne.symm same]
    · rw [if_neg absent, if_neg]
      rintro ⟨rfl, -, missing⟩
      exact absent missing

/-- Behind a run over some lines a variable has the value it had, or the first one that
the lines give it. -/
theorem loadLines_lookup (lines : List Text) (loading : Loading) (name : Text) :
    (lines.foldl loadLine loading).environment name =
      (loading.environment name).or
        (if name = [] then none else firstValue cString lines name) := by
  induction lines generalizing loading with
  | nil => simp [firstValue]
  | cons line lines ih =>
    rw [List.foldl_cons, ih, loadLine_lookup, firstValue_cons]
    cases assignment cString line with
    | none => rfl
    | some pair =>
      simp only [Option.elim_some]
      by_cases same : pair.1 = name
      · cases loading.environment name <;> by_cases empty : name = [] <;> simp [same, empty]
      · simp [same]

theorem loadEnv_lookup (env : Environment) (content name : Text) :
    (loadEnv env (some content)).environment name =
      (env name).or (if name = [] then none else firstValue cString (getlines content) name) :=
  loadLines_lookup _ _ _

/-- After loading, a variable that was set has its value, every other one that has a
name has the value of its first line if there is one, names and values being read up to
their first zero byte, and no variable without a name comes up. -/
theorem loadEnv_environment (env : Environment) (content : Text) :
    (∀ name value, env name = some value →
      (loadEnv env (some content)).environment name = some value) ∧
    (∀ name, env name = none → name ≠ [] →
      (loadEnv env (some content)).environment name =
        firstValue cString (getlines content) name) ∧
    (env [] = none → (loadEnv env (some content)).environment [] = none) := by
  refine ⟨fun name value held => ?_, fun name missing named => ?_, fun missing => ?_⟩
  · rw [loadEnv_lookup, held, Option.some_or]
  · rw [loadEnv_lookup, missing, Option.none_or, if_neg named]
  · rw [loadEnv_lookup, missing, Option.none_or, if_pos rfl]

/-- `A`, a zero byte, `B=v`: the variable `A` is set although no line names it. -/
theorem zero_byte_names : ¬ ∀ (env : Environment) (content name : Text), env name = none →
    name ≠ [] → (loadEnv env (some content)).environment name =
      firstValue id (getlines content) name := by
  intro loaded
  have first := loaded (fun _ => none) ['A', '\x00', 'B', '=', 'v'] ['A'] rfl (by decide)
  exact absurd first (by decide)

theorem unquote_subset (value : Text) : unquote value ⊆ value := by
  rw [unquote]
  split
  · exact List.Subset.trans (List.take_subset _ _) (List.drop_subset _ _)
  · exact List.Subset.refl _

/-- Without zero bytes names and values are read in full. -/
theorem firstValue_plain (plain : '\x00' ∉ content) (name : Text) :
    firstValue cString (getlines content) name = firstValue id (getlines content) name := by
  have full (line : Text) (inside : line ∈ getlines content) :
      assignment cString line = assignment id line := by
    have part : line ∈ content.splitOn '\n' := by
      rw [getlines] at inside
      split at inside
      · exact List.dropLast_subset _ inside
      · exact inside
    have within (piece : Text) (smaller : piece ⊆ line) : cString piece = piece :=
      before_eq_self fun zero => plain (Url.mem_of_mem_splitOn part (smaller zero))
    have front : before '=' line ⊆ line := List.takeWhile_subset _
    have behind : after '=' line ⊆ line :=
      List.Subset.trans (List.drop_subset _ _) (List.dropWhile_subset _)
    rw [assignment, assignment, within _ front,
      within _ (List.Subset.trans (unquote_subset _) behind)]
    rfl
  rw [firstValue, List.filterMap_congr full]
  rfl

end Crown.Dotenv
