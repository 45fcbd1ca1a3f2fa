import Ughi.Lib.HashMap
import Ughi.Lib.Run
import Ughi.Lib.Text
import Ughi.Lib.Vec

/-!
# Agent backups

A backup is a file whose name joins the agent and the second it was taken in.
`restore_latest` reads the second back after the last underscore, but takes
every file whose name starts with the agent identifier for a file of that
agent.  Where names of other agents start that way, theirs compete with its
own.
-/

namespace Ughi.Agents

open Ughi.Lib

/-- The backup directory: file names and what the files hold. -/
abbrev BackupDir : Type := HashMap String (List UInt8)

def backupExtension : List Char := ".bak".toList

/-- The name of a backup file. -/
def backupName (agentId : String) (timestamp : Nat) : String :=
  String.ofList
    (agentId.toList ++ '_' ::
      (Nat.toDigits 10 timestamp ++ backupExtension))

/-- One call of `create_backup`, with the clock reading it takes. -/
structure Backup where
  agentId : String
  data : List UInt8
  timestamp : Nat
deriving DecidableEq, Repr

/-- The name of the file a call writes. -/
def Backup.filename (backup : Backup) : String :=
  backupName backup.agentId backup.timestamp

namespace BackupManager

/-- Write a backup file, over a file of that name if there is one. -/
def createBackup (dir : BackupDir) (backup : Backup) : BackupDir :=
  dir.insert backup.filename backup.data

/-- The second in a file name: the number after the last underscore. -/
def extractTimestamp (filename : String) : Option Nat :=
  let parts := filename.toList.splitOn '_'
  if parts.length ≥ 2 then
    parts.getLast?.bind fun lastPart =>
      parseU64 (trimEndMatches backupExtension lastPart)
  else none

/-- One turn of the search, with the latest file so far. -/
def considerFile (agentId : String) (latest : Option String × Nat)
    (filename : String) : Option String × Nat :=
  if agentId.toList <+: filename.toList ∧
      backupExtension <:+ filename.toList then
    match extractTimestamp filename with
    | some ts => if ts > latest.2 then (some filename, ts) else latest
    | none => latest
  else latest

/-- The latest backup of an agent; `order` is the order in which the directory
lists its files. -/
def restoreLatest (dir : BackupDir) (order : List String)
    (agentId : String) : Option (List UInt8) :=
  let (latestFile, _) :=
    (HashMap.iterate order dir).foldl (considerFile agentId) (none, 0)
  latestFile.bind dir.lookup

/-! ## File names -/

theorem underscore_notMem_stamp (timestamp : Nat) :
    '_' ∉ Nat.toDigits 10 timestamp ++ backupExtension := by
  intro member
  rcases List.mem_append.mp member with digit | extension
  · exact Nat.underscore_not_in_toDigits digit
  · exact absurd extension (by decide)

theorem toList_backupName (agentId : String) (timestamp : Nat) :
    (backupName agentId timestamp).toList =
      agentId.toList ++ '_' ::
        (Nat.toDigits 10 timestamp ++ backupExtension) :=
  String.toList_ofList

theorem backupName_inj {first second : String} {early late : Nat} :
    backupName first early = backupName second late ↔
      first = second ∧ early = late := by
  constructor
  · intro same
    have characters := congrArg String.toList same
    rw [toList_backupName, toList_backupName] at characters
    obtain ⟨sameId, sameStamp⟩ := append_cons_inj_of_notMem
      (underscore_notMem_stamp early) (underscore_notMem_stamp late)
      characters
    have digits := List.append_cancel_right sameStamp
    refine ⟨String.toList_inj.mp sameId, ?_⟩
    rw [← @Nat.ofDigitChars_ten_toDigits early, digits,
      Nat.ofDigitChars_ten_toDigits]
  · rintro ⟨rfl, rfl⟩
    rfl

theorem extension_suffix (agentId : String) (timestamp : Nat) :
    backupExtension <:+ (backupName agentId timestamp).toList := by
  rw [toList_backupName]
  exact ⟨agentId.toList ++ '_' :: Nat.toDigits 10 timestamp, by simp⟩

theorem extractTimestamp_backupName (agentId : String) {timestamp : Nat}
    (word : timestamp < 2 ^ 64) :
    extractTimestamp (backupName agentId timestamp) = some timestamp := by
  have digits : ¬ backupExtension <:+ Nat.toDigits 10 timestamp := by
    intro suffix
    have letter : 'k' ∈ Nat.toDigits 10 timestamp :=
      suffix.subset (by decide)
    exact absurd (isDigit_of_mem_toDigits letter) (by decide)
  obtain ⟨lastPart, enough⟩ := @getLast?_splitOn_append_cons Char _ _ '_'
    agentId.toList _ (underscore_notMem_stamp timestamp)
  rw [extractTimestamp, toList_backupName, if_pos enough, lastPart,
    Option.bind_some, trimEndMatches_append digits, parseU64_toDigits word]

/-! ## The search -/

/-- The second of a file the search takes for one of the agent; other files
count as second zero. -/
def stamp (agentId filename : String) : Nat :=
  if agentId.toList <+: filename.toList ∧
      backupExtension <:+ filename.toList then
    (extractTimestamp filename).getD 0
  else 0

theorem considerFile_eq_keepGreater (agentId : String) :
    considerFile agentId = keepGreater (stamp agentId) := by
  funext latest filename
  rw [considerFile, keepGreater, stamp]
  split
  · cases extractTimestamp filename with
    | none => simp
    | some ts => rfl
  · simp

/-- A search finds, in some order, each file of greatest second, and in every
order one of them. -/
theorem restoreLatest_forall_iff (dir : BackupDir) (agentId : String)
    (expected : Option (List UInt8)) :
    (∀ order, restoreLatest dir order agentId = expected) ↔
      (∀ filename ∈ dir, 0 < stamp agentId filename →
          (∀ other ∈ dir, stamp agentId other ≤ stamp agentId filename) →
            dir.lookup filename = expected) ∧
        ((∀ filename ∈ dir, stamp agentId filename = 0) →
          none = expected) := by
  have search : ∀ order, restoreLatest dir order agentId =
      (firstGreatest (stamp agentId) (HashMap.iterate order dir)).1.bind
        dir.lookup := by
    intro order
    rw [restoreLatest, considerFile_eq_keepGreater]
    rfl
  constructor
  · intro restores
    constructor
    · intro filename present positive greatest
      have found := restores [filename]
      rw [search, HashMap.iterate_singleton present,
        firstGreatest_cons positive] at found
      · exact found
      · intro other member
        exact greatest other (AList.mem_keys.mp (List.mem_of_mem_filter member))
    · intro nothing
      have found := restores []
      rcases firstGreatest_cases (stamp agentId) (HashMap.iterate [] dir) with
        ⟨missing, _⟩ | ⟨filename, member, _, positive, _⟩
      · rwa [search, missing] at found
      · have zero := nothing filename ((HashMap.mem_iterate []).mp member)
        omega
  · intro condition order
    obtain ⟨greatestRestores, noneExpected⟩ := condition
    rw [search]
    rcases firstGreatest_cases (stamp agentId)
        (HashMap.iterate order dir) with
      ⟨missing, nothing⟩ | ⟨filename, member, found, positive, greatest⟩
    · rw [missing]
      apply noneExpected
      intro filename present
      exact nothing filename ((HashMap.mem_iterate order).mpr present)
    · rw [found]
      apply greatestRestores filename ((HashMap.mem_iterate order).mp member)
        positive
      intro other present
      exact greatest other ((HashMap.mem_iterate order).mpr present)

/-! ## Runs -/

/-- The directory after the calls, from an empty one. -/
def afterRun (calls : List Backup) : BackupDir :=
  runCalls createBackup ∅ calls

/-- The data of the most recent backup of exactly that agent. -/
def latestBackup (agentId : String) (calls : List Backup) :
    Option (List UInt8) :=
  (calls.filter (·.agentId = agentId)).getLast?.map Backup.data

/-- Identifiers are free of path separators, and the clock is positive, a
machine word and never goes back. -/
structure WellFormed (calls : List Backup) : Prop where
  separatorFree : ∀ backup ∈ calls,
    '/' ∉ backup.agentId.toList ∧ '\\' ∉ backup.agentId.toList
  positive : ∀ backup ∈ calls, 0 < backup.timestamp
  word : ∀ backup ∈ calls, backup.timestamp < 2 ^ 64
  nondecreasing :
    calls.Pairwise fun earlier later => earlier.timestamp ≤ later.timestamp

/-- Every file of another agent whose name starts with the identifier is older
than some file of such a name, or holds the right data anyway. -/
def OthersOutdated (agentId : String) (calls : List Backup) : Prop :=
  ∀ other ∈ calls, other.agentId ≠ agentId →
    agentId.toList <+: other.filename.toList →
      (∃ later ∈ calls, agentId.toList <+: later.filename.toList ∧
        other.timestamp < later.timestamp) ∨
      (afterRun calls).lookup other.filename = latestBackup agentId calls

section Runs

variable {calls : List Backup} {agentId : String}

theorem lookup_afterRun (calls : List Backup) (filename : String) :
    (afterRun calls).lookup filename =
      (calls.filter (·.filename = filename)).getLast?.map Backup.data := by
  apply @invariant_of_history _ _ createBackup (fun served dir =>
    dir.lookup filename =
      (served.filter (·.filename = filename)).getLast?.map Backup.data) ∅
  · rfl
  · intro served dir backup before
    rw [createBackup, HashMap.lookup_insert_eq, List.filter_append]
    by_cases written : backup.filename = filename
    · simp [written]
    · simp [written, Ne.symm written, before]

theorem mem_afterRun {filename : String} :
    filename ∈ afterRun calls ↔
      ∃ backup ∈ calls, backup.filename = filename := by
  rw [HashMap.mem_iff_exists_lookup, lookup_afterRun]
  constructor
  · rintro ⟨data, found⟩
    obtain ⟨backup, last, _⟩ := Option.map_eq_some_iff.mp found
    have member := List.mem_of_getLast? last
    obtain ⟨inside, named⟩ := List.mem_filter.mp member
    exact ⟨backup, inside, of_decide_eq_true named⟩
  · rintro ⟨backup, inside, named⟩
    have nonempty : calls.filter (·.filename = filename) ≠ [] := by
      apply List.ne_nil_of_mem
      exact List.mem_filter.mpr ⟨inside, decide_eq_true named⟩
    rw [List.getLast?_eq_some_getLast nonempty]
    exact ⟨_, rfl⟩

/-- A backup file counts with its second, for whom its name starts with. -/
theorem stamp_filename (wellFormed : WellFormed calls) {backup : Backup}
    (inside : backup ∈ calls) :
    stamp agentId backup.filename =
      if agentId.toList <+: backup.filename.toList then backup.timestamp
      else 0 := by
  have extension := extension_suffix backup.agentId backup.timestamp
  have read := extractTimestamp_backupName backup.agentId
    (wellFormed.word backup inside)
  rw [stamp, Backup.filename, read]
  simp [extension]

theorem own_prefix (backup : Backup) :
    backup.agentId.toList <+: backup.filename.toList := by
  rw [Backup.filename, toList_backupName]
  exact List.prefix_append _ _

theorem last_backup (wellFormed : WellFormed calls) {last : Backup}
    (isLast : (calls.filter (·.agentId = agentId)).getLast? = some last) :
    (last ∈ calls ∧ last.agentId = agentId) ∧
      (∀ backup ∈ calls, backup.agentId = agentId →
        backup.timestamp ≤ last.timestamp) ∧
      (afterRun calls).lookup last.filename = some last.data := by
  have member := List.mem_filter.mp (List.mem_of_getLast? isLast)
  have own : last.agentId = agentId := of_decide_eq_true member.2
  obtain ⟨earlier, split⟩ := List.getLast?_eq_some_iff.mp isLast
  refine ⟨⟨member.1, own⟩, ?_, ?_⟩
  · intro backup inside named
    have ordered := wellFormed.nondecreasing.filter
      fun backup => decide (backup.agentId = agentId)
    have listed : backup ∈ calls.filter (·.agentId = agentId) :=
      List.mem_filter.mpr ⟨inside, decide_eq_true named⟩
    rw [split] at ordered listed
    rcases List.mem_append.mp listed with before | itself
    · exact (List.pairwise_append.mp ordered).2.2 backup before last
        (List.mem_singleton_self last)
    · rw [List.mem_singleton.mp itself]
  · have sameFiles : calls.filter (·.filename = last.filename) =
        (calls.filter (·.agentId = agentId)).filter
          (·.timestamp = last.timestamp) := by
      rw [List.filter_filter]
      apply List.filter_congr
      intro backup _
      rw [← Bool.decide_and, Backup.filename, Backup.filename]
      simp only [backupName_inj, own, and_comm]
    rw [lookup_afterRun, sameFiles, split, List.filter_append]
    simp

theorem stamp_own (wellFormed : WellFormed calls) {backup : Backup}
    (inside : backup ∈ calls) (own : backup.agentId = agentId) :
    stamp agentId backup.filename = backup.timestamp := by
  have named : agentId.toList <+: backup.filename.toList :=
    own ▸ own_prefix backup
  rw [stamp_filename wellFormed inside, if_pos named]

theorem own_greatest_restores (wellFormed : WellFormed calls)
    {backup : Backup} (inside : backup ∈ calls)
    (own : backup.agentId = agentId)
    (greatest : ∀ other ∈ afterRun calls,
      stamp agentId other ≤ stamp agentId backup.filename) :
    (afterRun calls).lookup backup.filename =
      latestBackup agentId calls := by
  have nonempty : calls.filter (·.agentId = agentId) ≠ [] := by
    apply List.ne_nil_of_mem
    exact List.mem_filter.mpr ⟨inside, decide_eq_true own⟩
  have isLast := List.getLast?_eq_some_getLast nonempty
  obtain ⟨⟨lastInside, lastOwn⟩, newest, holds⟩ :=
    last_backup wellFormed isLast
  have above := greatest _ (mem_afterRun.mpr ⟨_, lastInside, rfl⟩)
  rw [stamp_own wellFormed lastInside lastOwn,
    stamp_own wellFormed inside own] at above
  have sameSecond := Nat.le_antisymm (newest backup inside own) above
  have sameFile : backup.filename =
      ((calls.filter (·.agentId = agentId)).getLast nonempty).filename :=
    backupName_inj.mpr ⟨own.trans lastOwn.symm, sameSecond⟩
  rw [sameFile, holds, latestBackup, isLast]
  rfl

/-- Where the search is right in every order, no file of another agent
competes: one of greatest second would be found when it is listed first. -/
theorem othersOutdated_of_restores (wellFormed : WellFormed calls)
    (restores : ∀ order, restoreLatest (afterRun calls) order agentId =
      latestBackup agentId calls) : OthersOutdated agentId calls := by
  have greatestRestores :=
    ((restoreLatest_forall_iff _ agentId _).mp restores).1
  intro other inside different named
  by_cases outdated : ∃ later ∈ calls,
      agentId.toList <+: later.filename.toList ∧
        other.timestamp < later.timestamp
  · exact .inl outdated
  · right
    have stamped := @stamp_filename _ agentId wellFormed _ inside
    rw [if_pos named] at stamped
    apply greatestRestores other.filename
      (mem_afterRun.mpr ⟨other, inside, rfl⟩)
    · rw [stamped]
      exact wellFormed.positive other inside
    · intro filename present
      obtain ⟨backup, member, rfl⟩ := mem_afterRun.mp present
      rw [stamped, stamp_filename wellFormed member]
      split
      next matched =>
        apply Nat.le_of_not_lt
        intro later
        exact outdated ⟨backup, member, matched, later⟩
      next unmatched => exact Nat.zero_le _

theorem restores_of_othersOutdated (wellFormed : WellFormed calls)
    (outdated : OthersOutdated agentId calls) (order : List String) :
    restoreLatest (afterRun calls) order agentId =
      latestBackup agentId calls := by
  revert order
  apply (restoreLatest_forall_iff _ agentId _).mpr
  constructor
  · intro filename present positive greatest
    obtain ⟨backup, inside, rfl⟩ := mem_afterRun.mp present
    by_cases own : backup.agentId = agentId
    · exact own_greatest_restores wellFormed inside own greatest
    · have stamped := @stamp_filename _ agentId wellFormed _ inside
      by_cases named : agentId.toList <+: backup.filename.toList
      · rcases outdated backup inside own named with
          ⟨later, member, laterNamed, newer⟩ | holds
        · have bound := greatest later.filename
            (mem_afterRun.mpr ⟨later, member, rfl⟩)
          rw [stamped, stamp_filename wellFormed member, if_pos named,
            if_pos laterNamed] at bound
          omega
        · exact holds
      · rw [stamped, if_neg named] at positive
        omega
  · intro nothing
    cases isLast : (calls.filter (·.agentId = agentId)).getLast? with
    | none =>
        rw [latestBackup, isLast]
        rfl
    | some last =>
        obtain ⟨⟨inside, own⟩, _⟩ := last_backup wellFormed isLast
        have zero := nothing last.filename
          (mem_afterRun.mpr ⟨last, inside, rfl⟩)
        rw [stamp_own wellFormed inside own] at zero
        have positive := wellFormed.positive last inside
        omega

end Runs

/-- After a run, a search finds the latest backup of exactly that agent in
every order of the directory, exactly when no file of another agent
competes. -/
theorem restoreLatest_iff {calls : List Backup}
    (wellFormed : WellFormed calls) (agentId : String) :
    (∀ order, restoreLatest (afterRun calls) order agentId =
        latestBackup agentId calls) ↔
      OthersOutdated agentId calls := by
  constructor
  · intro restores
    exact othersOutdated_of_restores wellFormed restores
  · intro outdated order
    exact restores_of_othersOutdated wellFormed outdated order

/-- Two agents whose names do not begin alike. -/
theorem restoreLatest_iff_apart :
    let calls : List Backup :=
      [{ agentId := "alpha", data := [1], timestamp := 100 },
        { agentId := "beta", data := [2], timestamp := 101 },
        { agentId := "alpha", data := [3], timestamp := 101 }]
    WellFormed calls ∧
      ((∀ order, restoreLatest (afterRun calls) order "alpha" =
          latestBackup "alpha" calls) ↔
        OthersOutdated "alpha" calls) := by
  intro calls
  have wellFormed : WellFormed calls :=
    { separatorFree := by decide
      positive := by decide
      word := by decide
      nondecreasing := by decide }
  exact ⟨wellFormed, restoreLatest_iff wellFormed "alpha"⟩

/-- The later backup of `agent_10` is restored for `agent_1`. -/
theorem restores_other_agent :
    ¬ ∀ calls, WellFormed calls → ∀ agentId order,
      restoreLatest (afterRun calls) order agentId =
        latestBackup agentId calls := by
  intro claimed
  let own : Backup :=
    { agentId := "agent_1", data := [1], timestamp := 100 }
  let other : Backup :=
    { agentId := "agent_10", data := [2], timestamp := 200 }
  have wellFormed : WellFormed [own, other] :=
    { separatorFree := by decide
      positive := by decide
      word := by decide
      nondecreasing := by decide }
  have outdated := othersOutdated_of_restores wellFormed
    (claimed _ wellFormed "agent_1")
  have named : "agent_1".toList <+: other.filename.toList := by
    rw [Backup.filename, toList_backupName]
    decide
  rcases outdated other (by simp) (by decide) named with
    ⟨later, member, _, newer⟩ | holds
  · have oldest : ∀ backup ∈ [own, other], backup.timestamp ≤ 200 := by
      decide
    exact absurd newer (Nat.not_lt.mpr (oldest later member))
  · rw [lookup_afterRun] at holds
    have different : own.filename ≠ other.filename := by
      intro same
      exact absurd (backupName_inj.mp same).2 (by decide)
    have stored : [own, other].filter (·.filename = other.filename) =
        [other] := by
      simp [different]
    rw [stored] at holds
    exact absurd holds (by decide)

end BackupManager

end Ughi.Agents
