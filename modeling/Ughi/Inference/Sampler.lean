import Mathlib.Algebra.Order.BigOperators.Group.List
import Mathlib.Algebra.Order.Field.Basic
import Mathlib.Algebra.Order.Field.Rat
import Mathlib.Data.List.Sort
import Mathlib.Tactic.Linarith
import Ughi.Lib.WeightWalk

/-!
# The token sampler

The probabilities of the tokens are sorted, cut twice, and one of those left
is drawn.  Numbers are exact rationals in place of single-precision ones;
`softmax` and the random numbers are parameters, since the exponential is not a
rational function.  `nextRandom` is the generator in exact arithmetic.
-/

namespace Ughi.Inference

open Ughi.Lib

structure SamplingParams where
  temperature : ℚ
  topK : UInt32
  topP : ℚ
deriving DecidableEq, Repr

structure TokenSampler where
  params : SamplingParams
  rngState : UInt64
deriving DecidableEq, Repr

/-- A token index with the probability of the token. -/
abbrev Candidate : Type := ℚ × Nat

namespace TokenSampler

def new (params : SamplingParams) : TokenSampler :=
  { params
    rngState := 0x5DEECE66D }

/-- The linear congruential generator and its number from zero to one. -/
def nextRandom (rngState : UInt64) : ℚ × UInt64 :=
  let rngState := rngState * 6364136223846793005 + 1442695040888963407
  ((rngState >>> 33).toNat / 2 ^ 31, rngState)

/-- Later values win over equal ones. -/
def keepLastGreatest (best : Option Candidate) (entry : Candidate) :
    Option Candidate :=
  match best with
  | none => some entry
  | some held => if held.1 ≤ entry.1 then some entry else some held

/-- Index of the largest value. -/
def argmax (values : List ℚ) : Nat :=
  ((values.zipIdx.foldl keepLastGreatest none).map Prod.snd).getD 0

end TokenSampler

namespace SamplingParams

variable (params : SamplingParams)

/-- Temperature scaling. -/
def scale (logits : List ℚ) : List ℚ :=
  if 0 < params.temperature ∧ params.temperature ≠ 1 then
    let invTemp := 1 / params.temperature
    logits.map (· * invTemp)
  else logits

/-- Top-k filter. -/
def cutTopK (indexed : List Candidate) : List Candidate :=
  let k :=
    if 0 < params.topK then min params.topK.toNat indexed.length
    else indexed.length
  indexed.take k

/-- Top-p (nucleus) filter. -/
def cutTopP (indexed : List Candidate) : List Candidate :=
  if params.topP < 1 then
    let cutoff :=
      match reachIndex Prod.fst params.topP 0 indexed with
      | some i => i + 1
      | none => indexed.length
    indexed.take cutoff
  else indexed

end SamplingParams

/-- Sorted descending by probability. -/
def sortDescending (probs : List ℚ) : List Candidate :=
  probs.zipIdx.insertionSort fun a b => b.1 ≤ a.1

/-- The index a draw falls on, or the first one. -/
def selectIndex (indexed : List Candidate) (randVal : ℚ) : Nat :=
  let first := (indexed.head?.map Prod.snd).getD 0
  match reachIndex Prod.fst randVal 0 indexed with
  | some i => (indexed[i]?.map Prod.snd).getD first
  | none => first

namespace TokenSampler

/-- Sample a token index from the logit vector; the logits are scaled in
place. -/
def sample (softmax : List ℚ → List ℚ) (random : UInt64 → ℚ × UInt64)
    (sampler : TokenSampler) (logits : List ℚ) :
    Nat × TokenSampler × List ℚ :=
  if logits.isEmpty then (0, sampler, logits)
  else
    let params := sampler.params
    let logits := params.scale logits
    if params.temperature = 0 ∨ params.topK = 1 then
      (argmax logits, sampler, logits)
    else
      let indexed := sortDescending (softmax logits)
      let indexed := params.cutTopP (params.cutTopK indexed)
      let total := weightOf Prod.fst indexed
      if total ≤ 0 then
        ((indexed.head?.map Prod.snd).getD 0, sampler, logits)
      else
        let (draw, rngState) := random sampler.rngState
        (selectIndex indexed (draw * total), { sampler with rngState }, logits)

theorem nextRandom_range (rngState : UInt64) :
    0 ≤ (nextRandom rngState).1 ∧ (nextRandom rngState).1 < 1 := by
  rw [nextRandom]
  dsimp only
  have shifted : ∀ word : UInt64, (word >>> 33).toNat < 2 ^ 31 := by
    intro word
    have bounded := word.toNat_lt
    have value : (word >>> 33).toNat = word.toNat / 2 ^ 33 := by
      rw [UInt64.toNat_shiftRight, Nat.shiftRight_eq_div_pow]
      rfl
    rw [value]
    omega
  have below := shifted
    (rngState * 6364136223846793005 + 1442695040888963407)
  constructor
  · exact div_nonneg (Nat.cast_nonneg _) (by norm_num)
  · rw [div_lt_one (by norm_num)]
    exact_mod_cast below

end TokenSampler

/-- Probabilities of so many tokens. -/
structure IsDistribution (size : Nat) (probs : List ℚ) : Prop where
  sized : probs.length = size
  nonneg : ∀ p ∈ probs, 0 ≤ p
  total : probs.sum = 1

/-- The tokens the top-k filter leaves: the first of the descending order, or
all of them when it is disabled. -/
def topTokens (params : SamplingParams) (probs : List ℚ) : List Candidate :=
  if params.topK = 0 then sortDescending probs
  else (sortDescending probs).take params.topK.toNat

/-- So many tokens make the nucleus: the shortest non-empty prefix that reaches
`topP`, or all tokens when none does or the filter is disabled. -/
structure IsNucleus (topP : ℚ) (tokens : List Candidate) (count : Nat) :
    Prop where
  nonempty : 0 < count
  within : count ≤ tokens.length
  reached : topP < 1 → count < tokens.length →
    topP ≤ weightOf Prod.fst (tokens.take count)
  shortest : topP < 1 → ∀ fewer, 0 < fewer → fewer < count →
    weightOf Prod.fst (tokens.take fewer) < topP
  disabled : 1 ≤ topP → count = tokens.length

/-- The draw falls on the token at a position: with it, and with no earlier
one, the probabilities reach the drawn share of the whole. -/
structure DrawnAt (draw : ℚ) (retained : List Candidate) (position : Nat) :
    Prop where
  inside : position < retained.length
  reached : draw * weightOf Prod.fst retained ≤
    weightOf Prod.fst (retained.take (position + 1))
  first : ∀ earlier < position,
    weightOf Prod.fst (retained.take (earlier + 1)) <
      draw * weightOf Prod.fst retained

section Order

variable {size : Nat} {probs : List ℚ}

theorem sortDescending_perm (probs : List ℚ) :
    (sortDescending probs).Perm probs.zipIdx :=
  List.perm_insertionSort _ _

theorem sortDescending_pairwise (probs : List ℚ) :
    (sortDescending probs).Pairwise fun a b => b.1 ≤ a.1 := by
  have total : Std.Total fun a b : Candidate => b.1 ≤ a.1 :=
    ⟨fun a b => le_total b.1 a.1⟩
  have trans : IsTrans Candidate fun a b => b.1 ≤ a.1 :=
    ⟨fun _ _ _ first second => le_trans second first⟩
  exact List.pairwise_insertionSort _ _

/-- A token is sorted with its own probability. -/
theorem getElem?_of_mem_sortDescending {token : Candidate}
    (member : token ∈ sortDescending probs) :
    probs[token.2]? = some token.1 := by
  have listed := (sortDescending_perm probs).mem_iff.mp member
  exact List.mem_zipIdx_iff_getElem?.mp listed

theorem weightOf_sortDescending (probs : List ℚ) :
    weightOf Prod.fst (sortDescending probs) = probs.sum := by
  rw [weightOf, ((sortDescending_perm probs).map Prod.fst).sum_eq,
    List.zipIdx_map_fst]

theorem length_sortDescending (probs : List ℚ) :
    (sortDescending probs).length = probs.length := by
  rw [(sortDescending_perm probs).length_eq, List.length_zipIdx]

namespace IsDistribution

theorem ne_nil (distribution : IsDistribution size probs) : probs ≠ [] := by
  intro empty
  have total := distribution.total
  rw [empty] at total
  exact absurd total (by norm_num)

theorem nonneg_of_mem (distribution : IsDistribution size probs)
    {token : Candidate} (member : token ∈ sortDescending probs) :
    0 ≤ token.1 := by
  have found := getElem?_of_mem_sortDescending member
  exact distribution.nonneg token.1 (List.mem_of_getElem? found)

theorem index_lt (distribution : IsDistribution size probs)
    {token : Candidate} (member : token ∈ sortDescending probs) :
    token.2 < size := by
  have found := getElem?_of_mem_sortDescending member
  obtain ⟨inside, _⟩ := List.getElem?_eq_some_iff.mp found
  rwa [distribution.sized] at inside

/-- The first token in descending order is possible, as otherwise none
were. -/
theorem head_pos (distribution : IsDistribution size probs)
    {first : Candidate} {rest : List Candidate}
    (sorted : sortDescending probs = first :: rest) : 0 < first.1 := by
  by_contra impossible
  have greatest := sortDescending_pairwise probs
  rw [sorted] at greatest
  have others := (List.pairwise_cons.mp greatest).1
  have noneLeft : ∀ p ∈ (sortDescending probs).map Prod.fst, p ≤ 0 := by
    intro p member
    obtain ⟨token, inside, rfl⟩ := List.mem_map.mp member
    rw [sorted] at inside
    rcases List.mem_cons.mp inside with rfl | later
    · exact not_lt.mp impossible
    · exact le_trans (others token later) (not_lt.mp impossible)
  have total := distribution.total
  rw [← weightOf_sortDescending] at total
  have bounded := List.sum_le_card_nsmul _ 0 noneLeft
  rw [nsmul_zero] at bounded
  rw [weightOf] at total
  linarith

end IsDistribution

end Order

section Filters

variable {params : SamplingParams} {probs : List ℚ}

theorem cutTopK_sortDescending (params : SamplingParams) (probs : List ℚ) :
    params.cutTopK (sortDescending probs) = topTokens params probs := by
  rw [SamplingParams.cutTopK, topTokens]
  by_cases disabled : params.topK = 0
  · have notPositive : ¬ 0 < params.topK := by
      rw [disabled]
      decide
    rw [if_neg notPositive, if_pos disabled, List.take_length]
  · have positive : 0 < params.topK := UInt32.pos_iff_ne_zero.mpr disabled
    rw [if_pos positive, if_neg disabled, ← List.take_eq_take_min]

/-- The top tokens are the first of the descending order, at least one of
them. -/
theorem exists_topTokens {size : Nat}
    (distribution : IsDistribution size probs) (params : SamplingParams) :
    ∃ limit, 0 < limit ∧
      topTokens params probs = (sortDescending probs).take limit := by
  rw [topTokens]
  by_cases disabled : params.topK = 0
  · rw [if_pos disabled]
    refine ⟨(sortDescending probs).length, ?_, List.take_length.symm⟩
    rw [length_sortDescending]
    exact List.length_pos_iff.mpr distribution.ne_nil
  · rw [if_neg disabled]
    have positive : 0 < params.topK := UInt32.pos_iff_ne_zero.mpr disabled
    exact ⟨params.topK.toNat, UInt32.lt_iff_toNat_lt.mp positive, rfl⟩

theorem exists_isNucleus {tokens : List Candidate} (nonempty : tokens ≠ []) :
    ∃ count, params.cutTopP tokens = tokens.take count ∧
      IsNucleus params.topP tokens count := by
  have positive := List.length_pos_iff.mpr nonempty
  rw [SamplingParams.cutTopP]
  by_cases enabled : params.topP < 1
  · rw [if_pos enabled]
    cases stopped : reachIndex Prod.fst params.topP 0 tokens with
    | some index =>
        obtain ⟨inside, reached, short⟩ := reachIndex_eq_some_iff.mp stopped
        refine ⟨index + 1, rfl, ?_⟩
        constructor
        case nonempty => exact Nat.succ_pos index
        case within => exact inside
        case reached =>
          intro _ _
          rwa [zero_add] at reached
        case shortest =>
          intro _ fewer some less
          have before := short (fewer - 1) (by omega)
          rwa [zero_add, Nat.sub_add_cancel some] at before
        case disabled =>
          intro atLeast
          exact absurd enabled (not_lt.mpr atLeast)
    | none =>
        have short := reachIndex_eq_none_iff.mp stopped
        refine ⟨tokens.length, rfl, ?_⟩
        constructor
        case nonempty => exact positive
        case within => exact le_rfl
        case reached =>
          intro _ less
          exact absurd less (Nat.lt_irrefl _)
        case shortest =>
          intro _ fewer some less
          have before := short (fewer - 1) (by omega)
          rwa [zero_add, Nat.sub_add_cancel some] at before
        case disabled =>
          intro _
          rfl
  · rw [if_neg enabled]
    refine ⟨tokens.length, List.take_length.symm, ?_⟩
    constructor
    case nonempty => exact positive
    case within => exact le_rfl
    case reached =>
      intro on
      exact absurd on enabled
    case shortest =>
      intro on
      exact absurd on enabled
    case disabled =>
      intro _
      rfl

end Filters

section Selection

variable {size : Nat} {probs : List ℚ} {draw : ℚ}

theorem exists_drawnAt {retained : List Candidate}
    (positive : 0 < weightOf Prod.fst retained) (below : draw < 1) :
    ∃ position token, retained[position]? = some token ∧
      DrawnAt draw retained position ∧
      selectIndex retained (draw * weightOf Prod.fst retained) = token.2 := by
  have nonempty : retained ≠ [] := by
    intro empty
    rw [empty] at positive
    exact absurd positive (lt_irrefl _)
  have reaches : draw * weightOf Prod.fst retained ≤
      weightOf Prod.fst retained := by
    have share := mul_le_mul_of_nonneg_right below.le positive.le
    rwa [one_mul] at share
  obtain ⟨position, stopped⟩ := exists_reachIndex nonempty reaches
  obtain ⟨inside, reached, short⟩ := reachIndex_eq_some_iff.mp stopped
  have found := List.getElem?_eq_getElem inside
  refine ⟨position, retained[position], found, ?_, ?_⟩
  · constructor
    case inside => exact inside
    case reached => rwa [zero_add] at reached
    case first =>
      intro earlier sooner
      have before := short earlier sooner
      rwa [zero_add] at before
  · rw [selectIndex, stopped]
    change (retained[position]?.map Prod.snd).getD _ = _
    rw [found]
    rfl

theorem weightOf_take_pos (distribution : IsDistribution size probs)
    {count : Nat} (some : 0 < count) :
    0 < weightOf Prod.fst ((sortDescending probs).take count) := by
  obtain ⟨fewer, rfl⟩ := Nat.exists_eq_succ_of_ne_zero some.ne'
  cases sorted : sortDescending probs with
  | nil =>
      have length := length_sortDescending probs
      rw [sorted] at length
      exact absurd (List.length_eq_zero_iff.mp length.symm)
        distribution.ne_nil
  | cons first rest =>
      have others : ∀ p ∈ (rest.take fewer).map Prod.fst, 0 ≤ p := by
        intro p member
        obtain ⟨token, inside, rfl⟩ := List.mem_map.mp member
        apply distribution.nonneg_of_mem
        rw [sorted]
        exact List.mem_cons_of_mem first (List.mem_of_mem_take inside)
      have weight := List.sum_nonneg others
      have positive := distribution.head_pos sorted
      rw [List.take_succ_cons, weightOf_cons, weightOf]
      linarith

/-- The token a draw falls on is possible: the first one is, and a later one
has to add to what those before it weigh. -/
theorem pos_of_drawnAt (distribution : IsDistribution size probs)
    {count position : Nat} {token : Candidate}
    (drawn : DrawnAt draw ((sortDescending probs).take count) position)
    (found : ((sortDescending probs).take count)[position]? = some token) :
    0 < token.1 := by
  cases position with
  | zero =>
      cases sorted : sortDescending probs with
      | nil =>
          rw [sorted, List.take_nil] at found
          cases found
      | cons first rest =>
          cases count with
          | zero => cases found
          | succ count =>
              rw [sorted] at found
              cases found
              exact distribution.head_pos sorted
  | succ position =>
      have before := drawn.first position (Nat.lt_succ_self position)
      have reached := drawn.reached
      rw [weightOf_take_succ found] at reached
      linarith

end Selection

namespace TokenSampler

theorem sample_index {softmax : List ℚ → List ℚ}
    {random : UInt64 → ℚ × UInt64} {sampler : TokenSampler}
    {logits : List ℚ} {retained : List Candidate} (nonempty : logits ≠ [])
    (drawing : ¬ (sampler.params.temperature = 0 ∨ sampler.params.topK = 1))
    (left : sampler.params.cutTopP (sampler.params.cutTopK
      (sortDescending (softmax (sampler.params.scale logits)))) = retained)
    (positive : 0 < weightOf Prod.fst retained) :
    (sample softmax random sampler logits).1 =
      selectIndex retained
        ((random sampler.rngState).1 * weightOf Prod.fst retained) := by
  have some : ¬ logits.isEmpty = true := by
    rw [List.isEmpty_iff]
    exact nonempty
  rw [sample, if_neg some]
  dsimp only
  rw [if_neg drawing, left, if_neg (not_le.mpr positive)]

/-- With the temperature on and more than one candidate allowed, the sampled
index is that of a possible token of the vocabulary, among the first in
descending order, in the nucleus of these, and the one the draw falls on. -/
theorem sample_within_filters {softmax : List ℚ → List ℚ}
    {random : UInt64 → ℚ × UInt64} {sampler : TokenSampler}
    {logits : List ℚ} (temperature : 0 < sampler.params.temperature)
    (severalTokens : sampler.params.topK ≠ 1)
    (distribution : IsDistribution logits.length
      (softmax (sampler.params.scale logits)))
    (below : (random sampler.rngState).1 < 1) :
    let index := (sample softmax random sampler logits).1
    let probs := softmax (sampler.params.scale logits)
    let tokens := topTokens sampler.params probs
    ∃ count position p,
      IsNucleus sampler.params.topP tokens count ∧
        DrawnAt (random sampler.rngState).1 (tokens.take count) position ∧
        (tokens.take count)[position]? = some (p, index) ∧
        index < logits.length ∧ probs[index]? = some p ∧ 0 < p := by
  let params := sampler.params
  let probs := softmax (params.scale logits)
  let tokens := topTokens params probs
  have nonempty : logits ≠ [] := by
    intro empty
    have sized := distribution.sized
    rw [List.length_eq_zero_iff.mpr empty] at sized
    exact distribution.ne_nil (List.length_eq_zero_iff.mp sized)
  have drawing :
      ¬ (sampler.params.temperature = 0 ∨ sampler.params.topK = 1) := by
    rintro (off | one)
    · exact temperature.ne' off
    · exact severalTokens one
  obtain ⟨limit, someTop, top⟩ := exists_topTokens distribution params
  have someTokens : tokens ≠ [] := by
    intro empty
    have positive := weightOf_take_pos distribution someTop
    rw [← top] at positive
    change 0 < weightOf Prod.fst tokens at positive
    rw [empty] at positive
    exact absurd positive (lt_irrefl _)
  obtain ⟨count, cut, nucleus⟩ := @exists_isNucleus params tokens someTokens
  have retained : tokens.take count =
      (sortDescending probs).take (min count limit) := by
    change (topTokens params probs).take count = _
    rw [top, List.take_take]
  have positive : 0 < weightOf Prod.fst (tokens.take count) := by
    rw [retained]
    apply weightOf_take_pos distribution
    exact lt_min nucleus.nonempty someTop
  obtain ⟨position, token, found, drawn, selected⟩ :=
    exists_drawnAt positive below
  have sampled : (sample softmax random sampler logits).1 = token.2 := by
    rw [← selected]
    apply sample_index nonempty drawing _ positive
    rw [cutTopK_sortDescending]
    exact cut
  have possible : 0 < token.1 := by
    rw [retained] at drawn found
    exact pos_of_drawnAt distribution drawn found
  have member : token ∈ sortDescending probs := by
    have inside := List.mem_of_getElem? found
    rw [retained] at inside
    exact List.mem_of_mem_take inside
  refine ⟨count, position, token.1, nucleus, drawn, ?_, ?_, ?_, possible⟩
  · rw [sampled]
    exact found
  · rw [sampled]
    exact distribution.index_lt member
  · rw [sampled]
    exact getElem?_of_mem_sortDescending member

/-- Two equal logits, the better half of them kept. -/
def fairSampler : TokenSampler :=
  new
    { temperature := 1
      topK := 0
      topP := 1 / 2 }

/-- The softmax of equal logits. -/
def evenSoftmax (logits : List ℚ) : List ℚ :=
  logits.map fun _ => 1 / logits.length

theorem sample_within_filters_fair :
    let index := (sample evenSoftmax nextRandom fairSampler [3, 3]).1
    let tokens := topTokens fairSampler.params [1 / 2, 1 / 2]
    ∃ count position p,
      IsNucleus (1 / 2) tokens count ∧
        DrawnAt (nextRandom fairSampler.rngState).1 (tokens.take count)
          position ∧
        (tokens.take count)[position]? = some (p, index) ∧
        index < 2 ∧ ([1 / 2, 1 / 2] : List ℚ)[index]? = some p ∧ 0 < p := by
  have even : evenSoftmax (fairSampler.params.scale [3, 3]) =
      [1 / 2, 1 / 2] := by
    simp [evenSoftmax, SamplingParams.scale, fairSampler, new]
  have distribution : IsDistribution ([3, 3] : List ℚ).length
      (evenSoftmax (fairSampler.params.scale [3, 3])) := by
    rw [even]
    constructor
    case sized => rfl
    case nonneg =>
      intro p member
      simp only [List.mem_cons, List.not_mem_nil, or_false, or_self] at member
      rw [member]
      norm_num
    case total => norm_num
  have sampled := @sample_within_filters evenSoftmax nextRandom fairSampler
    [3, 3] (by norm_num [fairSampler, new])
    (by decide) distribution (nextRandom_range _).2
  rw [even] at sampled
  exact sampled

end TokenSampler

end Ughi.Inference
