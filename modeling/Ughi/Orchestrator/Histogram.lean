import Mathlib.Algebra.Order.Ring.Rat
import Mathlib.Tactic.NormNum
import Ughi.Lib.Run
import Ughi.Lib.Tally

/-!
# Histograms of the metrics collector

A histogram counts each observation in the first bucket whose bound it does
not exceed, and the rendering adds the buckets up.  So the rendered count of a
bucket is the number of observations up to its bound, provided that the bounds
ascend.
-/

namespace Ughi.Orchestrator

open Ughi.Lib

universe u

structure Histogram (α : Type u) where
  buckets : List α
  counts : List Nat
  sum : α
  count : Nat
  sized : counts.length = buckets.length + 1

/-- A line of the text exposition format; the bucket without a bound is the
infinite one. -/
inductive MetricLine (α : Type u) where
  | help (name text : String)
  | type (name kind : String)
  | bucket (name : String) (le : Option α) (count : Nat)
  | sum (name : String) (value : α)
  | count (name : String) (value : Nat)
deriving DecidableEq, Repr

/-- The text of a line, given how a number is written without decimals and
with two of them. -/
def MetricLine.text {α : Type u} (whole cents : α → String) :
    MetricLine α → String
  | .help name text => "# HELP " ++ name ++ " " ++ text ++ "\n"
  | .type name kind => "# TYPE " ++ name ++ " " ++ kind ++ "\n"
  | .bucket name (some bound) held =>
      name ++ "_bucket\x7ble=\"" ++ whole bound ++ "\"\x7d " ++
        toString held ++ "\n"
  | .bucket name none held =>
      name ++ "_bucket\x7ble=\"+Inf\"\x7d " ++ toString held ++ "\n"
  | .sum name value => name ++ "_sum " ++ cents value ++ "\n"
  | .count name value => name ++ "_count " ++ toString value ++ "\n"

namespace Histogram

section Operations

variable {α : Type u}

def new [Zero α] (buckets : List α) : Histogram α :=
  { buckets := buckets
    counts := List.replicate (buckets.length + 1) 0
    sum := 0
    count := 0
    sized := List.length_replicate }

/-- `slotOf` stops at the first bound the value does not exceed, and past the
bounds when there is none. -/
def observe [Add α] [LinearOrder α] (h : Histogram α) (value : α) :
    Histogram α :=
  { h with
    counts := h.counts.modify (slotOf h.buckets value) (· + 1)
    sum := h.sum + value
    count := h.count + 1
    sized := by rw [List.length_modify, h.sized] }

/-- The bucket lines, and the running total after them. -/
def bucketLines (name : String) :
    Nat → List (α × Nat) → List (MetricLine α) × Nat
  | cumulative, [] => ([], cumulative)
  | cumulative, (bucket, count) :: rest =>
      let lines := bucketLines name (cumulative + count) rest
      (.bucket name (some bucket) (cumulative + count) :: lines.1, lines.2)

/-- How many observations exceed every bound. -/
def beyond (h : Histogram α) : Nat :=
  h.counts.get ⟨h.buckets.length, by
    rw [h.sized]
    exact Nat.lt_succ_self _⟩

def lines (name help : String) (h : Histogram α) : List (MetricLine α) :=
  let bounded := bucketLines name 0 (h.buckets.zip h.counts)
  [.help name help, .type name "histogram"] ++ bounded.1 ++
    [.bucket name none (bounded.2 + h.beyond), .sum name h.sum,
      .count name h.count]

def write (whole cents : α → String) (name help : String)
    (h : Histogram α) : String :=
  String.join ((h.lines name help).map (MetricLine.text whole cents))

end Operations

section Rendering

variable {α : Type u}

/-- The rendering loop writes the running totals of the counts. -/
theorem bucketLines_zip (name : String) (before : Nat) {last : Nat}
    {buckets : List α} {counts : List Nat}
    (sized : counts.length = buckets.length + 1)
    (atEnd : counts[buckets.length]? = some last) :
    (bucketLines name before (buckets.zip counts)).1 ++
        [.bucket name none
          ((bucketLines name before (buckets.zip counts)).2 + last)] =
      (buckets.map some ++ [none]).zipWith (MetricLine.bucket name)
        (runningTotals before counts) := by
  induction buckets generalizing before counts with
  | nil =>
      obtain ⟨only, rfl⟩ := List.length_eq_one_iff.mp sized
      have same : only = last := by
        simpa using atEnd
      subst same
      rfl
  | cons bucket buckets induction =>
      cases counts with
      | nil => simp at sized
      | cons count counts =>
          have restSized : counts.length = buckets.length + 1 := by
            simpa using sized
          have restAtEnd : counts[buckets.length]? = some last := by
            simpa using atEnd
          have rest := induction (before + count) restSized restAtEnd
          simpa [bucketLines, runningTotals] using rest

theorem lines_eq (name help : String) (h : Histogram α) :
    h.lines name help =
      [.help name help, .type name "histogram"] ++
        (h.buckets.map some ++ [none]).zipWith (MetricLine.bucket name)
          (runningTotals 0 h.counts) ++
        [.sum name h.sum, .count name h.count] := by
  have inside : h.buckets.length < h.counts.length := by
    rw [h.sized]
    exact Nat.lt_succ_self _
  have atEnd : h.counts[h.buckets.length]? = some h.beyond :=
    List.getElem?_eq_getElem inside
  have written := bucketLines_zip name 0 h.sized atEnd
  rw [← written, lines]
  simp

end Rendering

section Observations

variable {α : Type u} [LinearOrder α] [Zero α] [Add α]

/-- The histogram once the values have been observed. -/
def observed (buckets values : List α) : Histogram α :=
  runCalls observe (new buckets) values

@[simp] theorem observed_append (buckets values : List α) (value : α) :
    observed buckets (values ++ [value]) =
      (observed buckets values).observe value := by
  simp [observed]

/-- Nothing but the tally of the values by the bounds is kept of them, besides
their sum and number. -/
structure Tallies (buckets values : List α) (h : Histogram α) : Prop where
  bounds : h.buckets = buckets
  counts : h.counts = tally buckets values
  sum : h.sum = values.foldl (· + ·) 0
  count : h.count = values.length

theorem tallies_new (buckets : List α) : Tallies buckets [] (new buckets) where
  bounds := rfl
  counts := (tally_nil buckets).symm
  sum := rfl
  count := rfl

theorem Tallies.observe {buckets values : List α} {h : Histogram α}
    (tallies : Tallies buckets values h) (value : α) :
    Tallies buckets (values ++ [value]) (h.observe value) where
  bounds := tallies.bounds
  counts := by
    rw [tally_append, ← tallies.counts, ← tallies.bounds]
    rfl
  sum := by
    rw [List.foldl_concat, ← tallies.sum]
    rfl
  count := by
    rw [List.length_append, List.length_singleton, ← tallies.count]
    rfl

theorem tallies_observed (buckets values : List α) :
    Tallies buckets values (observed buckets values) := by
  induction values using List.reverseRecOn with
  | nil => exact tallies_new buckets
  | append_singleton values value induction =>
      rw [observed_append]
      exact induction.observe value

/-- Bucket by bucket the rendering counts the observations up to the bound,
without ever going down, and the infinite bucket counts all of them. -/
theorem lines_observed {buckets : List α}
    (ascending : buckets.Pairwise (· < ·)) (name help : String)
    (values : List α) :
    (observed buckets values).lines name help =
        [.help name help, .type name "histogram"] ++
          buckets.map (fun bound =>
            .bucket name (some bound) (values.countP (· ≤ bound))) ++
          [.bucket name none values.length,
            .sum name (values.foldl (· + ·) 0), .count name values.length] ∧
      (buckets.map (fun bound => values.countP (· ≤ bound)) ++
        [values.length]).Pairwise (· ≤ ·) := by
  have tallies := tallies_observed buckets values
  have totals := runningTotals_tally ascending 0 values
  simp only [Nat.zero_add] at totals
  constructor
  · rw [lines_eq, tallies.bounds, tallies.counts, tallies.sum, tallies.count,
      totals]
    simp [List.zipWith_append, List.zipWith_map_left, List.zipWith_map_right]
  · rw [← totals]
    exact (pairwise_runningTotals 0 _).1

end Observations

end Histogram

/-- The bounds of the two histograms the collector makes. -/
def requestLatencyBuckets : List ℚ :=
  [1, 5, 10, 25, 50, 100, 250, 500, 1000, 5000]

def agentLifecycleBuckets : List ℚ :=
  [10, 50, 100, 500, 1000, 5000, 10000, 30000]

theorem ascending_requestLatencyBuckets :
    requestLatencyBuckets.Pairwise (· < ·) := by
  rw [requestLatencyBuckets]
  norm_num

theorem ascending_agentLifecycleBuckets :
    agentLifecycleBuckets.Pairwise (· < ·) := by
  rw [agentLifecycleBuckets]
  norm_num

namespace Histogram

/-- Two lives on a bound, one between bounds and one beyond them all. -/
theorem lines_observed_lifecycle :
    (observed agentLifecycleBuckets [10, 500, 60, 50000]).lines
        "ughi_agent_lifecycle_ms" "Agent lifecycle duration in milliseconds" =
      [.help "ughi_agent_lifecycle_ms"
          "Agent lifecycle duration in milliseconds",
        .type "ughi_agent_lifecycle_ms" "histogram",
        .bucket "ughi_agent_lifecycle_ms" (some 10) 1,
        .bucket "ughi_agent_lifecycle_ms" (some 50) 1,
        .bucket "ughi_agent_lifecycle_ms" (some 100) 2,
        .bucket "ughi_agent_lifecycle_ms" (some 500) 3,
        .bucket "ughi_agent_lifecycle_ms" (some 1000) 3,
        .bucket "ughi_agent_lifecycle_ms" (some 5000) 3,
        .bucket "ughi_agent_lifecycle_ms" (some 10000) 3,
        .bucket "ughi_agent_lifecycle_ms" (some 30000) 3,
        .bucket "ughi_agent_lifecycle_ms" none 4,
        .sum "ughi_agent_lifecycle_ms" 50570,
        .count "ughi_agent_lifecycle_ms" 4] := by
  have rendered := lines_observed ascending_agentLifecycleBuckets
    "ughi_agent_lifecycle_ms" "Agent lifecycle duration in milliseconds"
    [10, 500, 60, 50000]
  rw [rendered.1, agentLifecycleBuckets]
  norm_num [List.countP_cons]

end Histogram

end Ughi.Orchestrator
