import Mathlib.Data.Rat.Defs
import Ughi.Lib.Words

/-!
# The terminal skill

The skill answers for a command that begins with an allowed name.  That is the
command's first word unless the name runs on, and an allowed first word is
refused when whitespace stands before it.
-/

namespace Ughi.Skills

open Ughi.Lib

/-- A JSON value. -/
inductive Value where
  | null
  | bool (value : Bool)
  | number (value : ℚ)
  | string (text : String)
  | array (items : List Value)
  | object (fields : List (String × Value))

namespace Value

/-- The field of an object under a key. -/
def get (value : Value) (key : String) : Option Value :=
  match value with
  | .object fields => (fields.find? fun field => field.1 = key).map Prod.snd
  | _ => none

def asStr : Value → Option String
  | .string text => some text
  | _ => none

end Value

inductive SkillError where
  | notFound (name : String)
  | executionFailed (reason : String)
  | memoryBudgetExceeded (usedMb : UInt64)
  | timeout (name : String) (timeoutMs : UInt64)

namespace TerminalCommand

def allowedPrefixes : List String :=
  ["echo", "ls", "cat", "head", "tail", "wc", "date", "uname", "pwd",
    "whoami"]

/-- The command the parameters name. -/
def commandOf (params : Value) : String :=
  ((params.get "command").bind Value.asStr).getD "echo hello"

def isSafe (command : String) : Bool :=
  allowedPrefixes.any fun p => p.toList.isPrefixOf command.toList

def execTerminalCommand (params : Value) :
    Except SkillError (Value × String) :=
  let command := commandOf params
  if isSafe command then
    .ok (.object
        [("command", .string command),
          ("exit_code", .number 0),
          ("stdout", .string ("output of: " ++ command)),
          ("stderr", .string ""),
          ("safe", .bool true)],
      "Terminal: '" ++ command ++ "' → exit 0")
  else
    .error (.executionFailed ("command '" ++ command ++ "' not in allowlist"))

theorem isSafe_iff (command : String) :
    isSafe command = true ↔
      ∃ name ∈ allowedPrefixes, name.toList <+: command.toList := by
  simp [isSafe, List.isPrefixOf_iff_prefix]

theorem execTerminalCommand_isOk (params : Value) :
    (execTerminalCommand params).isOk = isSafe (commandOf params) := by
  rw [execTerminalCommand]
  cases safe : isSafe (commandOf params) with
  | false => rfl
  | true => rfl

/-- The first word of the command is an allowed name. -/
def AllowedWord (command : String) : Prop :=
  ∃ name ∈ allowedPrefixes,
    (splitWhitespace command.toList).head? = some name.toList

/-- The command begins with an allowed name that runs on without
whitespace. -/
def RunsOn (command : String) : Prop :=
  ∃ name ∈ allowedPrefixes, ∃ next rest,
    command.toList = name.toList ++ next :: rest ∧
      isWhitespace next = false

/-- Whitespace stands before an allowed name that does not run on. -/
def Indented (command : String) : Prop :=
  ∃ name ∈ allowedPrefixes, ∃ margin rest,
    command.toList = margin ++ name.toList ++ rest ∧
      margin ≠ [] ∧ (∀ c ∈ margin, isWhitespace c = true) ∧ EndsWord rest

theorem allowedPrefixes_clean :
    ∀ name ∈ allowedPrefixes, name.toList ≠ [] ∧
      ∀ c ∈ name.toList, isWhitespace c = false := by
  have checked : (allowedPrefixes.all fun name =>
      !name.toList.isEmpty && name.toList.all fun c => !isWhitespace c) =
        true := by
    decide +kernel
  intro name allowed
  have both := List.all_eq_true.mp checked name allowed
  rw [Bool.and_eq_true] at both
  obtain ⟨nonempty, clean⟩ := both
  refine ⟨by simpa using nonempty, ?_⟩
  intro c member
  have letter := List.all_eq_true.mp clean c member
  simpa using letter

/-- No allowed name begins with another. -/
theorem allowedPrefixes_prefixFree :
    ∀ name ∈ allowedPrefixes, ∀ other ∈ allowedPrefixes,
      name.toList <+: other.toList → name = other := by
  have checked : (allowedPrefixes.all fun name =>
      allowedPrefixes.all fun other =>
        !name.toList.isPrefixOf other.toList || name == other) = true := by
    decide +kernel
  intro name allowed other otherAllowed starts
  have every := List.all_eq_true.mp checked name allowed
  have either := List.all_eq_true.mp every other otherAllowed
  rw [List.isPrefixOf_iff_prefix.mpr starts] at either
  simpa using either

theorem allowedWord_of_indented {command : String}
    (indented : Indented command) : AllowedWord command := by
  obtain ⟨name, allowed, margin, rest, split, _, blank, ends⟩ := indented
  obtain ⟨nonempty, clean⟩ := allowedPrefixes_clean name allowed
  refine ⟨name, allowed, ?_⟩
  rw [split, List.append_assoc, splitWhitespace_append_whitespace blank]
  exact head?_splitWhitespace_append nonempty clean ends

theorem not_isSafe_of_indented {command : String}
    (indented : Indented command) : isSafe command ≠ true := by
  obtain ⟨_, _, margin, _, split, indents, blank, _⟩ := indented
  rw [ne_eq, isSafe_iff]
  rintro ⟨name, allowed, rest, starts⟩
  obtain ⟨nonempty, clean⟩ := allowedPrefixes_clean name allowed
  obtain ⟨first, letters, letterEq⟩ := List.exists_cons_of_ne_nil nonempty
  obtain ⟨space, spaces, spaceEq⟩ := List.exists_cons_of_ne_nil indents
  rw [split, letterEq, spaceEq] at starts
  have same := (List.cons.inj starts).1
  have letter := clean first (letterEq ▸ List.mem_cons_self)
  have blankFirst := blank space (spaceEq ▸ List.mem_cons_self)
  rw [same, blankFirst] at letter
  cases letter

theorem isSafe_of_runsOn {command : String} (runsOn : RunsOn command) :
    isSafe command = true := by
  obtain ⟨name, allowed, next, rest, split, _⟩ := runsOn
  rw [isSafe_iff, split]
  exact ⟨name, allowed, List.prefix_append name.toList (next :: rest)⟩

/-- The first word is longer than the name, and no allowed name is. -/
theorem not_allowedWord_of_runsOn {command : String}
    (runsOn : RunsOn command) : ¬ AllowedWord command := by
  obtain ⟨name, allowed, next, rest, split, letter⟩ := runsOn
  obtain ⟨nonempty, clean⟩ := allowedPrefixes_clean name allowed
  obtain ⟨letters, tail, restSplit, restClean, ends⟩ :=
    exists_leading_word rest
  let word := name.toList ++ next :: letters
  have wordClean : ∀ c ∈ word, isWhitespace c = false := by
    intro c member
    rcases List.mem_append.mp member with inName | behind
    · exact clean c inName
    · rcases List.mem_cons.mp behind with rfl | later
      · exact letter
      · exact restClean c later
  have wordNonempty : word ≠ [] := by
    simp [word]
  have first := head?_splitWhitespace_append wordNonempty wordClean ends
  have whole : word ++ tail = command.toList := by
    rw [split, restSplit]
    simp [word]
  rw [whole] at first
  rintro ⟨other, otherAllowed, otherFirst⟩
  rw [first] at otherFirst
  have same := Option.some.inj otherFirst
  have starts : name.toList <+: other.toList :=
    ⟨next :: letters, same⟩
  have sameName :=
    allowedPrefixes_prefixFree name allowed other otherAllowed starts
  rw [← sameName] at same
  simp [word] at same

/-- A safe command has an allowed first word, unless it runs on. -/
theorem allowedWord_or_runsOn {command : String}
    (safe : isSafe command = true) :
    AllowedWord command ∨ RunsOn command := by
  obtain ⟨name, allowed, rest, split⟩ := (isSafe_iff command).mp safe
  obtain ⟨nonempty, clean⟩ := allowedPrefixes_clean name allowed
  by_cases ends : EndsWord rest
  · left
    refine ⟨name, allowed, ?_⟩
    rw [← split]
    exact head?_splitWhitespace_append nonempty clean ends
  · right
    cases rest with
    | nil => exact absurd (by simp [EndsWord]) ends
    | cons next rest =>
        refine ⟨name, allowed, next, rest, split.symm, ?_⟩
        simpa [EndsWord] using ends

theorem isSafe_or_indented {command : String}
    (allowedWord : AllowedWord command) :
    isSafe command = true ∨ Indented command := by
  obtain ⟨name, allowed, first⟩ := allowedWord
  obtain ⟨margin, rest, split, blank, ends⟩ :=
    exists_of_head?_splitWhitespace first
  cases margin with
  | nil =>
      left
      rw [isSafe_iff, split]
      exact ⟨name, allowed, List.prefix_append name.toList rest⟩
  | cons space margin =>
      right
      exact ⟨name, allowed, space :: margin, rest, split,
        List.cons_ne_nil space margin, blank, ends⟩

/-- The skill accepts exactly the commands with an allowed first word, but for
those where an allowed name runs on and those that are indented. -/
theorem accepts_allowedWord_iff (params : Value) :
    ((execTerminalCommand params).isOk = true ↔
        AllowedWord (commandOf params)) ↔
      ¬ RunsOn (commandOf params) ∧ ¬ Indented (commandOf params) := by
  rw [execTerminalCommand_isOk]
  constructor
  · intro agree
    constructor
    · intro runsOn
      have allowed := agree.mp (isSafe_of_runsOn runsOn)
      exact not_allowedWord_of_runsOn runsOn allowed
    · intro indented
      have safe := agree.mpr (allowedWord_of_indented indented)
      exact not_isSafe_of_indented indented safe
  · rintro ⟨notRunsOn, notIndented⟩
    constructor
    · intro safe
      exact (allowedWord_or_runsOn safe).resolve_right notRunsOn
    · intro allowed
      exact (isSafe_or_indented allowed).resolve_right notIndented

/-- The program of the first word is `lsof`, which is not an allowed name. -/
theorem lsof_accepted :
    let params := Value.object [("command", .string "lsof -i")]
    (execTerminalCommand params).isOk = true ∧
      (splitWhitespace (commandOf params).toList).head? =
        some "lsof".toList ∧
      "lsof" ∉ allowedPrefixes ∧ ¬ AllowedWord (commandOf params) := by
  have command : commandOf (.object [("command", .string "lsof -i")]) =
      "lsof -i" := rfl
  have runsOn : RunsOn "lsof -i" :=
    ⟨"ls", by decide, 'o', "f -i".toList, by decide +kernel,
      by decide +kernel⟩
  dsimp only
  rw [execTerminalCommand_isOk, command]
  refine ⟨isSafe_of_runsOn runsOn, by decide +kernel, by decide +kernel, ?_⟩
  exact not_allowedWord_of_runsOn runsOn

end TerminalCommand

end Ughi.Skills
