import Crown.Sanitize

/-! The console of the server, `command/command.h`: which of the lines that are read
have their command executed. -/
namespace Crown.Console

open Lib

/-! `erase` takes away everything up to the place that `find_first_not_of` found, or
behind the one that `find_last_not_of` found. On a blank line both find `npos`: up to
`npos` is the whole line, and behind `npos` starts at zero. -/

def findFirstNotOf (s : Text) : Option Nat := s.findIdx? fun c => !isSpace c

def findLastNotOf (s : Text) : Option Nat :=
  (s.reverse.findIdx? fun c => !isSpace c).map fun behind => s.length - 1 - behind

def eraseUpTo (s : Text) (found : Option Nat) : Text := found.elim [] s.drop

def eraseBehind (s : Text) (found : Option Nat) : Text :=
  s.take (found.elim 0 (· + 1))

def trimLine (line : Text) : Text :=
  let line := eraseUpTo line (findFirstNotOf line)
  eraseBehind line (findLastNotOf line)

/-- The function of the table that a line has executed, or the line that is reported. -/
inductive Effect (Command : Type) where
  | execute (command : Command)
  | unknown (line : Text)

section

variable {Command : Type} (serverPrefix : Text) (commands : Text → Option Command)

/-- The body of the loop behind the trimming. -/
def obey (line : Text) : List (Effect Command) :=
  if serverPrefix ≠ [] ∧ serverPrefix <+: line then
    let command := line.drop serverPrefix.length
    let command := Text.lower (eraseUpTo command (findFirstNotOf command))
    match commands command with
    | some command => [.execute command]
    | none => [.unknown line]
  else []

/-- `StartConsoleReader`: the lines read one after the other, up to the end of the
input or a blank line. -/
def startConsoleReader : List Text → List (Effect Command)
  | [] => []
  | line :: lines =>
    let line := trimLine line
    if line = [] then [] else obey serverPrefix commands line ++ startConsoleReader lines

end

def Effect.executed : Effect Command → Option Command
  | execute command => some command
  | unknown _ => none

theorem drop_findIdx (p : α → Bool) (s : List α) :
    (s.findIdx? fun x => !p x).elim [] s.drop = s.dropWhile p := by
  induction s with
  | nil => rfl
  | cons x s ih =>
    rw [List.findIdx?_cons]
    cases blank : p x with
    | false => simp [blank]
    | true =>
      rw [List.dropWhile_cons_of_pos blank, ← ih]
      cases (s.findIdx? fun x => !p x) <;> simp

theorem eraseUpTo_eq (s : Text) : eraseUpTo s (findFirstNotOf s) = s.dropWhile isSpace :=
  drop_findIdx isSpace s

theorem eraseBehind_eq (s : Text) :
    eraseBehind s (findLastNotOf s) = (s.reverse.dropWhile isSpace).reverse := by
  rw [← drop_findIdx, eraseBehind, findLastNotOf]
  cases found : s.reverse.findIdx? fun c => !isSpace c with
  | none => rfl
  | some behind =>
    have inside : behind < s.length := by
      simpa using (List.findIdx?_eq_some_iff_findIdx_eq.mp found).1
    have place : s.length - 1 - behind + 1 = s.length - behind := by omega
    simp [place, List.drop_reverse]

theorem trimLine_eq (line : Text) : trimLine line = trimmed line := by
  simp only [trimLine, eraseUpTo_eq, eraseBehind_eq, trimmed]

section

variable {Command : Type} (serverPrefix : Text) (commands : Text → Option Command)

@[simp] theorem startConsoleReader_nil : startConsoleReader serverPrefix commands [] = [] := rfl

theorem startConsoleReader_cons (line : Text) (lines : List Text) :
    startConsoleReader serverPrefix commands (line :: lines) =
      if trimmed line = [] then []
      else obey serverPrefix commands (trimmed line) ++
        startConsoleReader serverPrefix commands lines := by
  rw [startConsoleReader, trimLine_eq]

/-- What a line asks for on its own. -/
def asked (line : Text) : Option Command :=
  if serverPrefix ≠ [] ∧ serverPrefix <+: trimmed line then
    commands (Text.lower (((trimmed line).drop serverPrefix.length).dropWhile isSpace))
  else none

theorem obey_executed (line : Text) :
    (obey serverPrefix commands (trimmed line)).filterMap Effect.executed =
      (asked serverPrefix commands line).toList := by
  rw [obey, asked]
  split
  · simp only [eraseUpTo_eq]
    cases commands (Text.lower (((trimmed line).drop serverPrefix.length).dropWhile isSpace)) <;> rfl
  · rfl

theorem asked_blank (blank : trimmed line = []) : asked serverPrefix commands line = none := by
  rw [asked, if_neg]
  rintro ⟨nonempty, start⟩
  rw [blank] at start
  exact nonempty (List.prefix_nil.mp start)

/-- The commands executed are those that the lines ask for, each on its own, as long as
no line from the first blank one on asks for any. -/
theorem executed_eq_asked_iff (lines : List Text) :
    (startConsoleReader serverPrefix commands lines).filterMap Effect.executed =
        lines.filterMap (asked serverPrefix commands) ↔
      ∀ line ∈ lines.dropWhile (fun line => trimmed line ≠ []),
        asked serverPrefix commands line = none := by
  induction lines with
  | nil => simp
  | cons line lines ih =>
    rw [startConsoleReader_cons]
    by_cases blank : trimmed line = []
    · rw [if_pos blank, List.dropWhile_cons_of_neg (by simpa using blank), List.filterMap_nil,
        eq_comm, List.filterMap_eq_nil_iff]
    · have rest : (line :: lines).filterMap (asked serverPrefix commands) =
          (asked serverPrefix commands line).toList ++
            lines.filterMap (asked serverPrefix commands) := by
        rw [List.filterMap_cons]
        cases asked serverPrefix commands line <;> rfl
      rw [if_neg blank, List.dropWhile_cons_of_pos (by simpa using blank), List.filterMap_append,
        obey_executed, rest, List.append_cancel_left_eq]
      exact ih

end

/-- The functions of the table. -/
inductive Command where
  | requestShutdown

def commands (key : Text) : Option Command :=
  if key = lit "exit" then some .requestShutdown else none

/-- An empty line and then `/exit`: the server is not told to shut down. -/
theorem blank_line_ends : ¬ ∀ (serverPrefix : Text) (lines : List Text),
    (startConsoleReader serverPrefix commands lines).filterMap Effect.executed =
      lines.filterMap (asked serverPrefix commands) := by
  intro executed
  have exit := (executed_eq_asked_iff _ _ _).mp (executed (lit "/") [[], lit "/exit"])
    (lit "/exit") (by simp [trimmed])
  exact absurd exit (by with_unfolding_all decide)

end Crown.Console
