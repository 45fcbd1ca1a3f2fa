import Mathlib.Algebra.Ring.GeomSum
import Mathlib.Tactic.Ring
import Ughi.Orchestrator.Client

/-!
# Which clock readings yield an identifier, and which the same one

The generator is affine on signed 64-bit words, so its state after a number of
steps has a closed form in the clock reading.  The shift is arithmetic and the
remainder takes the sign of its dividend: a negative state gives a negative
index, unless the remainder is zero.  Readings with the same twelve symbols
yield the same identifier.
-/

namespace Ughi.Orchestrator

open Ughi.Lib

/-- The index into `charset` a state of the generator selects. -/
def charIndex (src : Int) : Int :=
  (src >>> (33 : Nat)).tmod charset.length

/-- The unsigned residue of the generator's state after `steps` steps from a
clock reading, in closed form. -/
def residueAfter (steps : Nat) (unixNano : Int) : Int :=
  (6364136223846793005 ^ steps * unixNano +
      1442695040888963407 *
        ∑ power ∈ Finset.range steps, 6364136223846793005 ^ power) % 2 ^ 64

/-- Each of the twelve residues is below `2 ^ 63`, or its upper bits leave the
remainder that cancels the sign. -/
def IndicesStayInRange (unixNano : Int) : Prop :=
  ∀ steps ∈ Finset.Icc 1 12, residueAfter steps unixNano < 2 ^ 63 ∨
    residueAfter steps unixNano / 2 ^ 33 % 62 = 2

instance (unixNano : Int) : Decidable (IndicesStayInRange unixNano) := by
  unfold IndicesStayInRange
  infer_instance

/-- The index of the character drawn at a step, in closed form: the upper bits
of a residue from `2 ^ 63` on count as divisible. -/
def symbolAfter (steps : Nat) (unixNano : Int) : Int :=
  if residueAfter steps unixNano < 2 ^ 63 then
    residueAfter steps unixNano / 2 ^ 33 % 62
  else 0

/-- The residues of both readings give the same twelve symbols. -/
def SameSymbols (first second : Int) : Prop :=
  ∀ steps ∈ Finset.Icc 1 12,
    symbolAfter steps first = symbolAfter steps second

instance (first second : Int) : Decidable (SameSymbols first second) := by
  unfold SameSymbols
  infer_instance

/-- The generator returns an identifier of the promised form, without an index
out of range, and no spawn that reads this clock panics. -/
structure GeneratesSafely (unixNano : Int) : Prop where
  inRange : ∀ drawn < 12, 0 ≤ charIndex (nextSeed^[drawn + 1] unixNano) ∧
    charIndex (nextSeed^[drawn + 1] unixNano) < charset.length
  identifier : ∃ agentID, generateAgentID unixNano = some agentID ∧
    agentID.length = 12 ∧ ∀ c ∈ agentID.toList, c ∈ charset
  noPanic : ∀ (client : Client) (request : SpawnRequest)
    (readings : SpawnReadings), readings.unixNano = unixNano →
      (client.spawn request readings).1 ≠ .panic

/-! ## The state of the generator -/

theorem nextSeed_bmod (value : Int) :
    nextSeed (value.bmod (2 ^ 64)) = nextSeed value := by
  rw [nextSeed, nextSeed, ← Int.bmod_add_bmod, Int.bmod_mul_bmod,
    Int.bmod_add_bmod]

theorem iterate_nextSeed (drawn : Nat) (unixNano : Int) :
    nextSeed^[drawn + 1] unixNano =
      (6364136223846793005 ^ (drawn + 1) * unixNano +
        1442695040888963407 * ∑ power ∈ Finset.range (drawn + 1),
          6364136223846793005 ^ power).bmod (2 ^ 64) := by
  induction drawn with
  | zero => simp [nextSeed, mul_comm]
  | succ drawn induction =>
      rw [Function.iterate_succ_apply', induction, nextSeed_bmod, nextSeed,
        @geom_sum_succ _ _ _ (drawn + 1)]
      congr 1
      ring

/-- The remainder of a truncated division is negative exactly for a negative
dividend that the divisor does not divide. -/
theorem tmod_nonneg_iff {dividend divisor : Int} (positive : 0 < divisor) :
    0 ≤ dividend.tmod divisor ↔ 0 ≤ dividend ∨ divisor ∣ dividend := by
  have below := Int.emod_lt_of_pos dividend positive
  have above := Int.emod_nonneg dividend (Int.ne_of_gt positive)
  rw [Int.tmod_eq_emod]
  split
  next either =>
    simpa [above] using either
  next neither =>
    refine iff_of_false ?_ neither
    omega

theorem charset_length : charset.length = 62 :=
  rfl

theorem charIndex_lt (src : Int) : charIndex src < charset.length :=
  Int.tmod_lt_of_pos _ (by decide)

theorem residueAfter_bounds (steps : Nat) (unixNano : Int) :
    0 ≤ residueAfter steps unixNano ∧
      residueAfter steps unixNano < 2 ^ 64 :=
  ⟨Int.emod_nonneg _ (by decide), Int.emod_lt_of_pos _ (by decide)⟩

theorem shiftRight_iterate_nextSeed (drawn : Nat) (unixNano : Int) :
    nextSeed^[drawn + 1] unixNano >>> (33 : Nat) =
      if residueAfter (drawn + 1) unixNano < 2 ^ 63 then
        residueAfter (drawn + 1) unixNano / 2 ^ 33
      else residueAfter (drawn + 1) unixNano / 2 ^ 33 - 2 ^ 31 := by
  rw [iterate_nextSeed, Int.shiftRight_eq_div_pow, Int.bmod_def]
  obtain ⟨above, below⟩ := residueAfter_bounds (drawn + 1) unixNano
  rw [residueAfter] at above below ⊢
  generalize residue : (6364136223846793005 ^ (drawn + 1) * unixNano +
      1442695040888963407 * ∑ power ∈ Finset.range (drawn + 1),
        6364136223846793005 ^ power) % 2 ^ 64 = value at above below ⊢
  have sameModulus : ((2 ^ 64 : Nat) : Int) = 2 ^ 64 := by norm_num
  rw [sameModulus, residue]
  push_cast
  split <;> omega

theorem charIndex_nonneg_iff (drawn : Nat) (unixNano : Int) :
    0 ≤ charIndex (nextSeed^[drawn + 1] unixNano) ↔
      residueAfter (drawn + 1) unixNano < 2 ^ 63 ∨
        residueAfter (drawn + 1) unixNano / 2 ^ 33 % 62 = 2 := by
  obtain ⟨above, below⟩ := residueAfter_bounds (drawn + 1) unixNano
  rw [charIndex, charset_length, tmod_nonneg_iff (by decide),
    shiftRight_iterate_nextSeed]
  push_cast
  split <;> omega

theorem charIndex_eq_symbolAfter {drawn : Nat} {unixNano : Int}
    (inRange : 0 ≤ charIndex (nextSeed^[drawn + 1] unixNano)) :
    charIndex (nextSeed^[drawn + 1] unixNano) =
      symbolAfter (drawn + 1) unixNano := by
  obtain ⟨above, below⟩ := residueAfter_bounds (drawn + 1) unixNano
  have upper := (charIndex_nonneg_iff drawn unixNano).mp inRange
  rw [charIndex, charset_length, shiftRight_iterate_nextSeed, symbolAfter]
  push_cast
  split
  next small =>
    apply Int.tmod_eq_emod_of_nonneg
    omega
  next large =>
    apply Int.tmod_eq_zero_of_dvd
    omega

/-! ## Drawing the characters -/

theorem drawChars_succ (count : Nat) (src : Int) :
    drawChars (count + 1) src =
      if charIndex (nextSeed src) < 0 then none
      else
        charset[(charIndex (nextSeed src)).toNat]?.bind fun c =>
          (drawChars count (nextSeed src)).map (c :: ·) :=
  rfl

/-- Characters are drawn when no index is negative; they are as many as asked
for, and all from the character set. -/
theorem drawChars_of_nonneg {count : Nat} {src : Int}
    (inRange : ∀ drawn < count, 0 ≤ charIndex (nextSeed^[drawn + 1] src)) :
    ∃ chars, drawChars count src = some chars ∧ chars.length = count ∧
      ∀ c ∈ chars, c ∈ charset := by
  induction count generalizing src with
  | zero => exact ⟨[], rfl, rfl, by simp⟩
  | succ count induction =>
      have first : 0 ≤ charIndex (nextSeed src) :=
        inRange 0 (Nat.succ_pos count)
      have bounded := charIndex_lt (nextSeed src)
      have position : (charIndex (nextSeed src)).toNat < charset.length := by
        omega
      have rest : ∀ drawn < count,
          0 ≤ charIndex (nextSeed^[drawn + 1] (nextSeed src)) := by
        intro drawn below
        exact inRange (drawn + 1) (Nat.succ_lt_succ below)
      obtain ⟨chars, drawn, length, members⟩ := induction rest
      refine ⟨charset[(charIndex (nextSeed src)).toNat] :: chars, ?_, ?_, ?_⟩
      · rw [drawChars_succ, if_neg (Int.not_lt.mpr first),
          List.getElem?_eq_getElem position, drawn]
        rfl
      · rw [List.length_cons, length]
      · intro c member
        rcases List.mem_cons.mp member with rfl | later
        · exact List.getElem_mem position
        · exact members c later

theorem nonneg_of_drawChars {count : Nat} {src : Int} {chars : List Char}
    (drawnChars : drawChars count src = some chars) :
    ∀ drawn < count, 0 ≤ charIndex (nextSeed^[drawn + 1] src) := by
  induction count generalizing src chars with
  | zero => exact fun drawn below => absurd below (Nat.not_lt_zero drawn)
  | succ count induction =>
      rw [drawChars_succ] at drawnChars
      split at drawnChars
      · cases drawnChars
      next first =>
        obtain ⟨c, _, rest⟩ := Option.bind_eq_some_iff.mp drawnChars
        obtain ⟨later, drawnLater, _⟩ := Option.map_eq_some_iff.mp rest
        intro drawn below
        cases drawn with
        | zero => exact Int.not_lt.mp first
        | succ drawn =>
            exact induction drawnLater drawn (Nat.lt_of_succ_lt_succ below)

theorem charset_nodup : charset.Nodup := by
  decide

theorem drawChars_eq_iff {count : Nat} {src other : Int}
    {chars otherChars : List Char}
    (drawnChars : drawChars count src = some chars)
    (drawnOther : drawChars count other = some otherChars) :
    chars = otherChars ↔
      ∀ drawn < count, charIndex (nextSeed^[drawn + 1] src) =
        charIndex (nextSeed^[drawn + 1] other) := by
  induction count generalizing src other chars otherChars with
  | zero =>
      cases drawnChars
      cases drawnOther
      exact iff_of_true rfl fun drawn below =>
        absurd below (Nat.not_lt_zero drawn)
  | succ count induction =>
      have first := nonneg_of_drawChars drawnChars 0 (Nat.succ_pos count)
      have firstOther := nonneg_of_drawChars drawnOther 0 (Nat.succ_pos count)
      have index : 0 ≤ charIndex (nextSeed src) := first
      have indexOther : 0 ≤ charIndex (nextSeed other) := firstOther
      rw [drawChars_succ, if_neg (Int.not_lt.mpr index)] at drawnChars
      rw [drawChars_succ, if_neg (Int.not_lt.mpr indexOther)] at drawnOther
      obtain ⟨c, found, rest⟩ := Option.bind_eq_some_iff.mp drawnChars
      obtain ⟨d, foundOther, restOther⟩ :=
        Option.bind_eq_some_iff.mp drawnOther
      obtain ⟨later, drawnLater, rfl⟩ := Option.map_eq_some_iff.mp rest
      obtain ⟨otherLater, drawnOtherLater, rfl⟩ :=
        Option.map_eq_some_iff.mp restOther
      have heads : c = d ↔ charIndex (nextSeed src) =
          charIndex (nextSeed other) := by
        obtain ⟨inside, rfl⟩ := List.getElem?_eq_some_iff.mp found
        obtain ⟨insideOther, rfl⟩ := List.getElem?_eq_some_iff.mp foundOther
        rw [charset_nodup.getElem_inj_iff]
        omega
      rw [List.cons.injEq, heads, induction drawnLater drawnOtherLater]
      constructor
      · rintro ⟨same, rest⟩ drawn below
        cases drawn with
        | zero => exact same
        | succ drawn => exact rest drawn (Nat.lt_of_succ_lt_succ below)
      · intro all
        refine ⟨all 0 (Nat.succ_pos count), ?_⟩
        intro drawn below
        exact all (drawn + 1) (Nat.succ_lt_succ below)

theorem indicesStayInRange_iff (unixNano : Int) :
    IndicesStayInRange unixNano ↔
      ∀ drawn < 12, 0 ≤ charIndex (nextSeed^[drawn + 1] unixNano) := by
  constructor
  · intro stays drawn below
    apply (charIndex_nonneg_iff drawn unixNano).mpr
    exact stays (drawn + 1) (Finset.mem_Icc.mpr ⟨by omega, by omega⟩)
  · intro nonneg steps member
    obtain ⟨positive, atMost⟩ := Finset.mem_Icc.mp member
    have inRange := nonneg (steps - 1) (by omega)
    rw [charIndex_nonneg_iff, Nat.sub_add_cancel positive] at inRange
    exact inRange

theorem exists_generateAgentID_iff (unixNano : Int) :
    (∃ agentID, generateAgentID unixNano = some agentID) ↔
      IndicesStayInRange unixNano := by
  rw [indicesStayInRange_iff]
  constructor
  · rintro ⟨agentID, generated⟩
    obtain ⟨chars, drawn, _⟩ := Option.map_eq_some_iff.mp generated
    exact nonneg_of_drawChars drawn
  · intro nonneg
    obtain ⟨chars, drawn, _⟩ := drawChars_of_nonneg nonneg
    refine ⟨String.ofList chars, ?_⟩
    rw [generateAgentID, drawn]
    rfl

/-- Two readings yield one identifier exactly when they have the same
symbols. -/
theorem generateAgentID_eq_iff {first second : Int}
    {agentID other : String} (generated : generateAgentID first = some agentID)
    (generatedOther : generateAgentID second = some other) :
    agentID = other ↔ SameSymbols first second := by
  obtain ⟨chars, drawn, rfl⟩ := Option.map_eq_some_iff.mp generated
  obtain ⟨otherChars, drawnOther, rfl⟩ :=
    Option.map_eq_some_iff.mp generatedOther
  have inRange := nonneg_of_drawChars drawn
  have inRangeOther := nonneg_of_drawChars drawnOther
  rw [String.ofList_inj, drawChars_eq_iff drawn drawnOther]
  constructor
  · intro same steps member
    obtain ⟨positive, atMost⟩ := Finset.mem_Icc.mp member
    have below : steps - 1 < 12 := by omega
    have step := same (steps - 1) below
    rw [charIndex_eq_symbolAfter (inRange _ below),
      charIndex_eq_symbolAfter (inRangeOther _ below),
      Nat.sub_add_cancel positive] at step
    exact step
  · intro same position below
    rw [charIndex_eq_symbolAfter (inRange _ below),
      charIndex_eq_symbolAfter (inRangeOther _ below)]
    exact same (position + 1) (Finset.mem_Icc.mpr ⟨by omega, by omega⟩)

/-- For every clock reading, the identifier is generated safely exactly when
the twelve residues of the reading stay in range. -/
theorem generatesSafely_iff (unixNano : Int) :
    GeneratesSafely unixNano ↔ IndicesStayInRange unixNano := by
  rw [indicesStayInRange_iff]
  constructor
  · intro safe drawn below
    exact (safe.inRange drawn below).1
  · intro nonneg
    obtain ⟨chars, drawn, length, members⟩ := drawChars_of_nonneg nonneg
    have generated :
        generateAgentID unixNano = some (String.ofList chars) := by
      rw [generateAgentID, drawn]
      rfl
    refine ⟨?_, ?_, ?_⟩
    · intro position below
      exact ⟨nonneg position below, charIndex_lt _⟩
    · refine ⟨String.ofList chars, generated, ?_, ?_⟩
      · simpa using length
      · simpa using members
    · intro client request readings reading
      unfold Client.spawn
      rw [reading, generated]
      split <;> simp

/-- A clock reading of November 2023 selects index -29 at the first step. -/
theorem clock_reading_panics : ¬ GeneratesSafely 1700000000000000000 := by
  intro safe
  obtain ⟨agentID, generated, _⟩ := safe.identifier
  have nothing : generateAgentID 1700000000000000000 = none := by decide
  rw [nothing] at generated
  cases generated

end Ughi.Orchestrator
