import Ughi.Integrity.SkillsClient

/-!
# What the client keeps aligned

The cached entries and the installed copies are two lists that each operation
searches on its own.  Slugs are distinct in both, every installed skill has a
cached entry, and an entry that is quarantined has no skill left that counts
as installed.
-/

namespace Ughi.Integrity

open Ughi.Lib

/-! ## Signing the catalogue -/

namespace IntegrityVerifier

theorem new_keys_sliced :
    HashMap.Every (fun key => ∃ keyStart, sliceTo key 64 = some keyStart)
      new.trustedKeys := by
  have every : HashMap.Every
      (fun key => ∃ keyStart, sliceTo key 64 = some keyStart)
      (∅ : TrustedKeys) := HashMap.every_empty
  apply every.insertAll
  intro publisher member
  obtain ⟨digits, reaches⟩ := publishers_hexDigits publisher member
  exact ⟨_, sliceTo_of_isAsciiHexDigit digits reaches⟩

theorem new_signs (author : String) (contentBytes : List UInt8) (now : Nat) :
    ∃ signed, new.signSkill author contentBytes now = some signed := by
  rw [signSkill]
  cases registered : new.trustedKeys.lookup author with
  | none => exact ⟨none, rfl⟩
  | some key =>
      obtain ⟨keyStart, slice⟩ := new_keys_sliced author key registered
      dsimp only
      rw [slice]
      exact ⟨_, rfl⟩

end IntegrityVerifier

namespace SkillsShClient

theorem new_cached (signedAt updatedAt : Nat → Nat) :
    ∃ client, new signedAt updatedAt = some client ∧
      client.cached.map SkillEntry.slug = topSkills.map Listing.slug ∧
      client.installed = [] := by
  have signs : ∀ row ∈ topSkills.zipIdx,
      ∃ entry, cacheEntry .new signedAt updatedAt row.1 row.2 = some entry ∧
        entry.slug = row.1.slug := by
    intro row _
    obtain ⟨signed, signs⟩ := IntegrityVerifier.new_signs row.1.author
      (skillContent row.1.slug row.1.author "1.0.0") (signedAt row.2)
    rw [cacheEntry, signs]
    exact ⟨_, rfl, rfl⟩
  obtain ⟨cached, loaded, slugs⟩ := exists_mapM signs
  have load : loadTopCache .new signedAt updatedAt = some cached := loaded
  rw [new, load]
  refine ⟨_, rfl, ?_, rfl⟩
  rw [slugs]
  calc
    topSkills.zipIdx.map (fun row => row.1.slug) =
        (topSkills.zipIdx.map Prod.fst).map Listing.slug :=
      (List.map_map ..).symm
    _ = topSkills.map Listing.slug := by rw [List.zipIdx_map_fst]

/-! ## The invariant -/

/-- A cached entry with this slug is quarantined. -/
def Quarantined (client : SkillsShClient) (slug : String) : Prop :=
  ∃ entry ∈ client.cached, entry.slug = slug ∧
    entry.safetyScore = .quarantined

structure Aligned (client : SkillsShClient) : Prop where
  cachedDistinct : (client.cached.map SkillEntry.slug).Nodup
  installedDistinct : (client.installed.map InstalledSkill.slug).Nodup
  installedCached : ∀ skill ∈ client.installed,
    skill.slug ∈ client.cached.map SkillEntry.slug
  quarantineShown : ∀ skill ∈ client.installed,
    Quarantined client skill.slug → skill.status ≠ .installed

/-- Both lists are the same; the verifier and the catalogue figures may
differ. -/
structure SameSkills (client other : SkillsShClient) : Prop where
  cached : other.cached = client.cached
  installed : other.installed = client.installed

theorem verifyEntry_sameSkills (client : SkillsShClient) (entry : SkillEntry)
    (now : Nat) : SameSkills client (client.verifyEntry entry now).2 where
  cached := rfl
  installed := rfl

theorem Aligned.congr {client other : SkillsShClient}
    (aligned : Aligned client) (same : SameSkills client other) :
    Aligned other := by
  constructor
  · rw [same.cached]
    exact aligned.cachedDistinct
  · rw [same.installed]
    exact aligned.installedDistinct
  · rw [same.cached, same.installed]
    exact aligned.installedCached
  · rw [same.installed]
    intro skill member
    rw [Quarantined, same.cached]
    exact aligned.quarantineShown skill member

theorem new_aligned {signedAt updatedAt : Nat → Nat}
    {client : SkillsShClient}
    (created : new signedAt updatedAt = some client) : Aligned client := by
  obtain ⟨_, same, slugs, none⟩ := new_cached signedAt updatedAt
  cases Option.some.inj (created.symm.trans same)
  have characters :
      (topSkills.map fun listing => listing.slug.toList).Nodup := by
    decide +kernel
  constructor
  · rw [slugs]
    apply List.Nodup.of_map String.toList
    rwa [List.map_map]
  · rw [none]
    exact List.nodup_nil
  · rw [none]
    intro skill member
    cases member
  · rw [none]
    intro skill member
    cases member

/-! ## Installing -/

/-- An installation either fails, or it adds the copy of an entry that is
neither quarantined nor installed yet. -/
theorem install_cases (client : SkillsShClient) (slug : String) (now : Nat) :
    ∃ verified, SameSkills client verified ∧
      ((∃ message,
          client.install slug now = (.error message, verified)) ∨
        ∃ entry, client.resolve slug = some entry ∧
          entry.safetyScore ≠ .quarantined ∧
          slug ∉ client.installed.map InstalledSkill.slug ∧
          client.install slug now =
            (.ok (verified.addInstalled slug entry).1,
              (verified.addInstalled slug entry).2)) := by
  have unchanged : SameSkills client client := ⟨rfl, rfl⟩
  rw [install]
  cases found : client.resolve slug with
  | none => exact ⟨client, unchanged, .inl ⟨_, rfl⟩⟩
  | some entry =>
      have verified := client.verifyEntry_sameSkills entry now
      dsimp only
      by_cases quarantined : entry.safetyScore = .quarantined
      · rw [if_pos quarantined]
        exact ⟨client, unchanged, .inl ⟨_, rfl⟩⟩
      · rw [if_neg quarantined]
        by_cases present :
            (client.installed.any fun skill => skill.slug = slug) = true
        · rw [if_pos present]
          exact ⟨client, unchanged, .inl ⟨_, rfl⟩⟩
        · have absent : slug ∉ client.installed.map InstalledSkill.slug := by
            intro member
            apply present
            obtain ⟨skill, inside, same⟩ := List.mem_map.mp member
            exact List.any_eq_true.mpr
              ⟨skill, inside, decide_eq_true same⟩
          rw [if_neg present]
          by_cases failed :
              (!(client.verifyEntry entry now).1.overallPass) = true
          · rw [if_pos failed]
            exact ⟨_, verified, .inl ⟨_, rfl⟩⟩
          · rw [if_neg failed]
            exact ⟨_, verified,
              .inr ⟨entry, rfl, quarantined, absent, rfl⟩⟩

theorem install_error_sameSkills {client : SkillsShClient} {slug : String}
    {now : Nat} {message : String}
    (failed : (client.install slug now).1 = .error message) :
    SameSkills client (client.install slug now).2 := by
  obtain ⟨verified, same, ⟨_, result⟩ | ⟨entry, _, _, _, result⟩⟩ :=
    install_cases client slug now
  · rw [result]
    exact same
  · rw [result] at failed
    cases failed

/-- The entry behind a quarantined one after the first entry with a slug has
changed. -/
theorem quarantined_modified {client modified : SkillsShClient}
    {slug other : String} {change : SkillEntry → SkillEntry}
    (distinct : (client.cached.map SkillEntry.slug).Nodup)
    (changed : modified.cached =
      modifyFirst SkillEntry.slug slug change client.cached)
    (kept : ∀ entry, (change entry).slug = entry.slug)
    (quarantined : Quarantined modified other) :
    ∃ entry ∈ client.cached, entry.slug = other ∧
      (if entry.slug = slug then change entry else entry).safetyScore =
        .quarantined := by
  obtain ⟨new, member, sameSlug, score⟩ := quarantined
  rw [changed, modifyFirst_eq_map distinct] at member
  obtain ⟨entry, inside, rfl⟩ := List.mem_map.mp member
  refine ⟨entry, inside, ?_, score⟩
  by_cases hit : entry.slug = slug
  · rw [if_pos hit, kept] at sameSlug
    exact sameSlug
  · rw [if_neg hit] at sameSlug
    exact sameSlug

theorem quarantined_of_addInstalled {client : SkillsShClient}
    {slug other : String} {entry : SkillEntry}
    (distinct : (client.cached.map SkillEntry.slug).Nodup)
    (after : Quarantined (client.addInstalled slug entry).2 other) :
    Quarantined client other := by
  have counted : (client.addInstalled slug entry).2.cached =
      modifyFirst SkillEntry.slug slug
        (fun cached => { cached with installs := cached.installs + 1 })
        client.cached := rfl
  obtain ⟨old, member, same, score⟩ :=
    quarantined_modified distinct counted (fun _ => rfl) after
  refine ⟨old, member, same, ?_⟩
  by_cases hit : old.slug = slug
  · rw [if_pos hit] at score
    exact score
  · rw [if_neg hit] at score
    exact score

theorem addInstalled_aligned {client : SkillsShClient}
    (aligned : Aligned client) {slug : String} {entry : SkillEntry}
    (found : client.resolve slug = some entry)
    (allowed : entry.safetyScore ≠ .quarantined)
    (absent : slug ∉ client.installed.map InstalledSkill.slug) :
    Aligned (client.addInstalled slug entry).2 := by
  have inside : entry ∈ client.cached := mem_of_firstWith found
  have sameSlug : entry.slug = slug := key_of_firstWith found
  have slugs : (client.addInstalled slug entry).2.cached.map
      SkillEntry.slug = client.cached.map SkillEntry.slug :=
    map_modifyFirst_of_kept fun _ => rfl
  constructor
  · rw [slugs]
    exact aligned.cachedDistinct
  · simp only [addInstalled, List.map_append, List.map_singleton]
    apply aligned.installedDistinct.append (List.nodup_singleton _)
    apply List.disjoint_singleton.mpr
    rw [InstalledSkill.slug, sameSlug]
    exact absent
  · intro skill member
    rw [slugs]
    rcases List.mem_append.mp member with old | new
    · exact aligned.installedCached skill old
    · rw [List.mem_singleton.mp new]
      exact List.mem_map_of_mem inside
  · intro skill member isQuarantined
    have before :=
      quarantined_of_addInstalled aligned.cachedDistinct isQuarantined
    rcases List.mem_append.mp member with old | new
    · exact aligned.quarantineShown skill old before
    · rw [List.mem_singleton.mp new] at before
      obtain ⟨other, otherInside, otherSlug, score⟩ := before
      have same : other = entry :=
        List.inj_on_of_nodup_map aligned.cachedDistinct otherInside inside
          otherSlug
      rw [same] at score
      exact absurd score allowed

/-! ## The other calls -/

theorem uninstall_aligned {client : SkillsShClient}
    (aligned : Aligned client) (slug : String) :
    Aligned (client.uninstall slug).2 := by
  have kept := List.filter_sublist
    (p := fun skill => skill.slug ≠ slug) (l := client.installed)
  constructor
  · exact aligned.cachedDistinct
  · exact aligned.installedDistinct.sublist (kept.map InstalledSkill.slug)
  · intro skill member
    exact aligned.installedCached skill (kept.subset member)
  · intro skill member
    exact aligned.quarantineShown skill (kept.subset member)

theorem quarantine_aligned {client : SkillsShClient}
    (aligned : Aligned client) (slug : String) :
    Aligned (client.quarantine slug) := by
  have cachedSlugs : (client.quarantine slug).cached.map SkillEntry.slug =
      client.cached.map SkillEntry.slug :=
    map_modifyFirst_of_kept fun _ => rfl
  have installedSlugs :
      (client.quarantine slug).installed.map InstalledSkill.slug =
        client.installed.map InstalledSkill.slug :=
    map_modifyFirst_of_kept fun _ => rfl
  constructor
  · rw [cachedSlugs]
    exact aligned.cachedDistinct
  · rw [installedSlugs]
    exact aligned.installedDistinct
  · intro skill member
    have slugMember := List.mem_map_of_mem (f := InstalledSkill.slug) member
    rw [installedSlugs] at slugMember
    obtain ⟨old, inside, same⟩ := List.mem_map.mp slugMember
    rw [cachedSlugs, ← same]
    exact aligned.installedCached old inside
  · intro skill member isQuarantined
    have marked : (client.quarantine slug).cached =
        modifyFirst SkillEntry.slug slug
          (fun entry => { entry with safetyScore := .quarantined })
          client.cached := rfl
    obtain ⟨entry, entryInside, sameSlug, score⟩ := quarantined_modified
      aligned.cachedDistinct marked (fun _ => rfl) isQuarantined
    simp only [quarantine] at member
    rw [modifyFirst_eq_map aligned.installedDistinct] at member
    obtain ⟨old, inside, rfl⟩ := List.mem_map.mp member
    by_cases hit : old.slug = slug
    · rw [if_pos hit]
      intro installed
      cases installed
    · rw [if_neg hit] at sameSlug ⊢
      rw [sameSlug, if_neg hit] at score
      exact aligned.quarantineShown old inside
        ⟨entry, entryInside, sameSlug, score⟩

theorem serve_aligned {client : SkillsShClient} (aligned : Aligned client)
    (call : Call) : Aligned (client.serve call) := by
  cases call with
  | install slug now =>
      obtain ⟨verified, same, ⟨_, result⟩ |
          ⟨entry, found, allowed, absent, result⟩⟩ :=
        install_cases client slug now
      · rw [serve, result]
        exact aligned.congr same
      · rw [serve, result]
        apply addInstalled_aligned (aligned.congr same) _ allowed
        · rw [same.installed]
          exact absent
        · rw [resolve, same.cached]
          exact found
  | uninstall slug => exact uninstall_aligned aligned slug
  | quarantine slug => exact quarantine_aligned aligned slug
  | verifySkill slug now =>
      rw [serve, verifySkill]
      cases client.resolve slug with
      | none => exact aligned
      | some entry =>
          exact aligned.congr (client.verifyEntry_sameSkills entry now)
  | sync now => exact aligned.congr ⟨rfl, rfl⟩

/-! ## Counting installations -/

/-- The count that an entry shows, under its slug. -/
def installCount (entry : SkillEntry) : String × UInt64 :=
  (entry.slug, entry.installs)

/-- The counts after so many further installations of each skill. -/
def countsAfter (client : SkillsShClient) (further : String → Nat) :
    List (String × UInt64) :=
  client.cached.map fun entry =>
    (entry.slug, entry.installs + UInt64.ofNat (further entry.slug))

theorem countsAfter_of_eq_zero {client : SkillsShClient}
    {further : String → Nat} (none : ∀ slug, further slug = 0) :
    client.countsAfter further = client.cached.map installCount := by
  apply List.map_congr_left
  intro entry _
  rw [none, installCount]
  exact congrArg (Prod.mk entry.slug) (UInt64.add_zero entry.installs)

theorem install_counts {client : SkillsShClient} (aligned : Aligned client)
    (slug : String) (now : Nat) :
    (client.install slug now).2.cached.map installCount =
      client.countsAfter fun other =>
        (client.installsSkill other (.install slug now)).toNat := by
  obtain ⟨verified, same, ⟨message, result⟩ | ⟨entry, _, _, _, result⟩⟩ :=
    install_cases client slug now
  · have none : ∀ other,
        (client.installsSkill other (.install slug now)).toNat = 0 := by
      intro other
      rw [installsSkill, result]
      simp [Except.isOk, Except.toBool]
    rw [result, countsAfter_of_eq_zero none, same.cached]
  · rw [result]
    simp only [addInstalled, same.cached]
    rw [modifyFirst_eq_map aligned.cachedDistinct, List.map_map]
    apply List.map_congr_left
    intro other _
    simp only [Function.comp_apply, installsSkill, result]
    by_cases hit : other.slug = slug
    · rw [if_pos hit]
      simp [installCount, hit, Except.isOk, Except.toBool]
    · rw [if_neg hit]
      simp [installCount, Ne.symm hit]

theorem serve_counts {client : SkillsShClient} (aligned : Aligned client)
    (call : Call) :
    (client.serve call).cached.map installCount =
      client.countsAfter fun slug =>
        (client.installsSkill slug call).toNat := by
  cases call with
  | install slug now => exact install_counts aligned slug now
  | uninstall slug => exact (countsAfter_of_eq_zero fun _ => rfl).symm
  | quarantine slug =>
      apply Eq.trans _ (countsAfter_of_eq_zero fun _ => rfl).symm
      exact map_modifyFirst_of_kept fun _ => rfl
  | verifySkill slug now =>
      apply Eq.trans _ (countsAfter_of_eq_zero fun _ => rfl).symm
      rw [serve, verifySkill]
      cases client.resolve slug with
      | none => rfl
      | some entry => rfl
  | sync now => exact (countsAfter_of_eq_zero fun _ => rfl).symm

theorem run_counts {client : SkillsShClient} (aligned : Aligned client)
    (calls : List Call) :
    (runCalls serve client calls).cached.map installCount =
      client.countsAfter fun slug =>
        successfulInstalls slug client calls := by
  induction calls generalizing client with
  | nil => exact (countsAfter_of_eq_zero fun _ => rfl).symm
  | cons call calls induction =>
      let rest := fun slug =>
        successfulInstalls slug (client.serve call) calls
      have first := serve_counts aligned call
      have later := induction (serve_aligned aligned call)
      have split : (client.serve call).countsAfter rest =
          ((client.serve call).cached.map installCount).map fun count =>
            (count.1, count.2 + UInt64.ofNat (rest count.1)) := by
        rw [List.map_map]
        rfl
      rw [runCalls_cons, later, split, first, countsAfter, List.map_map]
      apply List.map_congr_left
      intro entry _
      simp only [Function.comp_apply, successfulInstalls, rest]
      rw [UInt64.ofNat_add, UInt64.add_assoc]

/-! ## Whole runs -/

theorem run_aligned {client : SkillsShClient} (aligned : Aligned client)
    (calls : List Call) : Aligned (runCalls serve client calls) := by
  have preserved : ∀ client call, Aligned client →
      Aligned (serve client call) := by
    intro client call aligned
    exact serve_aligned aligned call
  exact invariant_of_calls preserved aligned calls

/-- After any calls on a new client, the lists are aligned, a failed
installation would change neither, and each entry counts its successful
installations. -/
theorem installation_consistent (signedAt updatedAt : Nat → Nat)
    (calls : List Call) :
    ∃ start, new signedAt updatedAt = some start ∧
      let client := runCalls serve start calls
      (client.installed.map InstalledSkill.slug).Nodup ∧
        (∀ skill ∈ client.installed,
          skill.slug ∈ client.cached.map SkillEntry.slug) ∧
        (∀ entry ∈ client.cached, entry.safetyScore = .quarantined →
          ∀ skill ∈ client.installed, skill.slug = entry.slug →
            skill.status ≠ .installed) ∧
        (∀ slug now message,
          (client.install slug now).1 = .error message →
            (client.install slug now).2.installed = client.installed ∧
              (client.install slug now).2.cached = client.cached) ∧
        client.cached.map (fun entry => (entry.slug, entry.installs)) =
          start.cached.map fun entry =>
            (entry.slug, entry.installs +
              UInt64.ofNat (successfulInstalls entry.slug start calls)) := by
  obtain ⟨start, created, _, _⟩ := new_cached signedAt updatedAt
  have initial := new_aligned created
  have aligned := run_aligned initial calls
  refine ⟨start, created, aligned.installedDistinct,
    aligned.installedCached, ?_, ?_, run_counts initial calls⟩
  · intro entry entryInside score skill inside same
    apply aligned.quarantineShown skill inside
    exact ⟨entry, entryInside, same.symm, score⟩
  · intro slug now message failed
    have same := install_error_sameSkills failed
    exact ⟨same.installed, same.cached⟩

end SkillsShClient

end Ughi.Integrity
