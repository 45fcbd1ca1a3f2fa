import Ughi.Sandbox.Capability

/-!
# The skill registry

Ten skills are registered, each with the scope a plain grant gives.  The
registry never changes, and no registered name has a colon in it.
-/

namespace Ughi.Sandbox

open Ughi.Lib

structure SkillDefinition where
  name : String
  defaultScope : CapabilityScope
deriving DecidableEq, Repr

structure SkillRegistry where
  skills : HashMap String SkillDefinition

/-- The built-in skills. -/
def builtinSkills : List SkillDefinition :=
  [ { name := "browser_control"
      defaultScope :=
        { allowedHosts := ["*"]
          maxMemoryBytes := 45 * 1024 * 1024
          maxTimeMs := 420 } },
    { name := "code_executor"
      defaultScope :=
        { maxMemoryBytes := 45 * 1024 * 1024
          maxTimeMs := 420 } },
    { name := "web_search"
      defaultScope :=
        { allowedHosts := ["api.duckduckgo.com"]
          maxMemoryBytes := 8 * 1024 * 1024
          maxTimeMs := 420
          readOnly := true } },
    { name := "file_system"
      defaultScope :=
        { allowedPaths := ["data/", "tmp/"]
          maxMemoryBytes := 16 * 1024 * 1024
          maxTimeMs := 200
          readOnly := false } },
    { name := "memory_read_write"
      defaultScope :=
        { maxMemoryBytes := 45 * 1024 * 1024
          maxTimeMs := 200 } },
    { name := "messaging"
      defaultScope :=
        { allowedHosts := ["slack.com", "discord.com", "smtp.gmail.com"]
          maxMemoryBytes := 4 * 1024 * 1024
          maxTimeMs := 420 } },
    { name := "scheduler"
      defaultScope :=
        { maxMemoryBytes := 2 * 1024 * 1024
          maxTimeMs := 100 } },
    { name := "self_critique"
      defaultScope :=
        { maxMemoryBytes := 45 * 1024 * 1024
          maxTimeMs := 420 } },
    { name := "collaboration_vote"
      defaultScope :=
        { maxMemoryBytes := 4 * 1024 * 1024
          maxTimeMs := 200
          canSpawn := true } },
    { name := "terminal_command"
      defaultScope :=
        { maxMemoryBytes := 16 * 1024 * 1024
          maxTimeMs := 420
          readOnly := false } } ]

namespace SkillRegistry

def new : SkillRegistry :=
  { skills := builtinSkills.foldl
      (fun skills definition => skills.insert definition.name definition) ∅ }

def isRegistered (registry : SkillRegistry) (name : String) : Bool :=
  name ∈ registry.skills

def defaultScope (registry : SkillRegistry) (name : String) :
    Option CapabilityScope :=
  (registry.skills.lookup name).map SkillDefinition.defaultScope

theorem mem_foldl_insert (definitions : List SkillDefinition)
    (skills : HashMap String SkillDefinition) (name : String) :
    name ∈ definitions.foldl (fun skills definition =>
        skills.insert definition.name definition) skills ↔
      name ∈ definitions.map SkillDefinition.name ∨ name ∈ skills := by
  induction definitions generalizing skills with
  | nil => simp
  | cons definition definitions induction =>
      rw [List.foldl_cons, induction]
      simp only [AList.mem_insert, List.map_cons, List.mem_cons]
      tauto

theorem isRegistered_new_iff {name : String} :
    new.isRegistered name = true ↔
      name ∈ builtinSkills.map SkillDefinition.name := by
  simp [isRegistered, new, mem_foldl_insert]

theorem exists_builtin_of_defaultScope {name : String}
    {scope : CapabilityScope}
    (found : new.defaultScope name = some scope) :
    ∃ definition ∈ builtinSkills, definition.defaultScope = scope := by
  have inserted : ∀ (definitions : List SkillDefinition)
      (skills : HashMap String SkillDefinition) (definition : SkillDefinition),
      (definitions.foldl (fun skills definition =>
          skills.insert definition.name definition) skills).lookup name =
        some definition →
      definition ∈ definitions ∨ skills.lookup name = some definition := by
    intro definitions
    induction definitions with
    | nil =>
        intro skills definition present
        exact .inr present
    | cons first definitions induction =>
        intro skills definition present
        rcases induction _ definition present with later | now
        · exact .inl (List.mem_cons_of_mem first later)
        · rw [HashMap.lookup_insert_eq] at now
          split at now
          · cases now
            exact .inl List.mem_cons_self
          · exact .inr now
  obtain ⟨definition, present, same⟩ := Option.map_eq_some_iff.mp found
  rcases inserted builtinSkills ∅ definition present with member | absent
  · exact ⟨definition, member, same⟩
  · cases absent

theorem exists_defaultScope {name : String}
    (registered : new.isRegistered name = true) :
    ∃ scope, new.defaultScope name = some scope := by
  have member : name ∈ new.skills := of_decide_eq_true registered
  obtain ⟨definition, found⟩ := HashMap.mem_iff_exists_lookup.mp member
  exact ⟨definition.defaultScope, by rw [defaultScope, found]; rfl⟩

theorem colon_notMem_of_isRegistered {name : String}
    (registered : new.isRegistered name = true) : ':' ∉ name.toList := by
  have plain : ∀ name ∈ builtinSkills.map SkillDefinition.name,
      ':' ∉ name.toList := by decide
  exact plain name (isRegistered_new_iff.mp registered)

end SkillRegistry

end Ughi.Sandbox
