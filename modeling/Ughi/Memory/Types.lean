import Mathlib.Data.String.Basic
import Ughi.Lib.Word

/-!
# Memory entries and queries

JSON text and floating-point similarity come from outside the store, so they
are parameters: `SerdeJson` for the values, `Similarity` for the scores.  An
embedding is the list of the bit patterns of its 32-bit floats.
-/

namespace Ughi.Memory

open Ughi.Lib

/-- How serde_json writes and reads a value. -/
structure SerdeJson (Value : Type) where
  toString : Value → Except String String
  fromStr : String → Option Value
  null : Value

/-- The scores of a semantic search and how they are computed. -/
structure Similarity (Score : Type) where
  lessThan : Score → Score → Bool
  atLeast : Score → Score → Bool
  zero : Score
  half : Score
  cosineSimilarity : List UInt32 → List UInt32 → Score
  simpleTextEmbedding : String → Nat → List UInt32

/-- The errors the modelled operations return. -/
inductive MemoryError where
  | queryReturnedNoRows
  | keyNotFound (key : String)
  | serialization (message : String)
deriving DecidableEq, Repr

abbrev MemoryResult (α : Type) : Type := Except MemoryError α

inductive MemoryTier where
  | shortTerm
  | longTerm
deriving DecidableEq, Repr

structure MemoryEntry (Value : Type) where
  agentId : String
  key : String
  value : Value
  embedding : Option (List UInt32)
  createdAt : Nat
  lastAccessed : Nat
  accessCount : Nat
  tier : MemoryTier
deriving DecidableEq

namespace MemoryEntry

variable {Value : Type}

def newShort (agentId key : String) (value : Value) (now : Nat) :
    MemoryEntry Value :=
  { agentId := agentId
    key := key
    value := value
    embedding := none
    createdAt := now
    lastAccessed := now
    accessCount := 0
    tier := .shortTerm }

def estimatedBytes (json : SerdeJson Value) (entry : MemoryEntry Value) :
    Nat :=
  let valSize :=
    match json.toString entry.value with
    | .ok text => text.utf8ByteSize
    | .error _ => 32
  let embSize :=
    match entry.embedding with
    | some embedding => embedding.length * 4
    | none => 0
  entry.agentId.utf8ByteSize + entry.key.utf8ByteSize + valSize + embSize + 64

def touch (entry : MemoryEntry Value) (now : Nat) : MemoryEntry Value :=
  { entry with
    lastAccessed := now
    accessCount := wrappingAdd 32 entry.accessCount 1 }

@[simp] theorem touch_value (entry : MemoryEntry Value) (now : Nat) :
    (entry.touch now).value = entry.value :=
  rfl

end MemoryEntry

structure MemoryQuery (Score : Type) where
  agentId : String
  keyPrefix : Option String
  embedding : Option (List UInt32)
  limit : Nat
  minSimilarity : Score

namespace MemoryQuery

variable {Score : Type}

def byAgent (sim : Similarity Score) (agentId : String) : MemoryQuery Score :=
  { agentId := agentId
    keyPrefix := none
    embedding := none
    limit := 10
    minSimilarity := sim.half }

def withEmbedding (query : MemoryQuery Score) (embedding : List UInt32) :
    MemoryQuery Score :=
  { query with embedding := some embedding }

def withLimit (query : MemoryQuery Score) (limit : Nat) : MemoryQuery Score :=
  { query with limit := limit }

end MemoryQuery

structure SearchResult (Value Score : Type) where
  entry : MemoryEntry Value
  similarity : Option Score

namespace SearchResult

variable {Value Score : Type}

/-- `b.partial_cmp(a).unwrap_or(Equal)` on the scores, where a missing score
counts as zero: the order of a descending sort. -/
def compareSimilarity (sim : Similarity Score)
    (a b : SearchResult Value Score) : Ordering :=
  let left := a.similarity.getD sim.zero
  let right := b.similarity.getD sim.zero
  if sim.lessThan right left then .lt
  else if sim.lessThan left right then .gt
  else .eq

end SearchResult

end Ughi.Memory
