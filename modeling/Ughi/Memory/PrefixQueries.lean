import Ughi.Memory.LongTerm
import Ughi.Memory.ShortTerm

/-!
# Prefix queries in the two tiers

The short-term tier asks whether a key starts with the prefix.  The long-term
tier asks whether it is `LIKE` the prefix followed by `%`, and does not escape
the prefix: its `%` and `_` are wildcards, and its letters match in either
case.  `Fills` says which texts a pattern stands for.
-/

namespace Ughi.Memory

open Ughi.Lib

/-- The text is the pattern with each `%` replaced by some text, each `_` by
some character, and letters in either case. -/
inductive Fills : List Char → List Char → Prop where
  | done : Fills [] []
  | any {pattern text : List Char} (filler : List Char)
      (rest : Fills pattern text) :
      Fills ('%' :: pattern) (filler ++ text)
  | one {pattern text : List Char} (c : Char) (rest : Fills pattern text) :
      Fills ('_' :: pattern) (c :: text)
  | same {pattern text : List Char} {p c : Char} (literal : p ≠ '%')
      (alike : p.toLower = c.toLower) (rest : Fills pattern text) :
      Fills (p :: pattern) (c :: text)

theorem fills_nil_iff {text : List Char} : Fills [] text ↔ text = [] := by
  constructor
  · intro filled
    cases filled
    rfl
  · rintro rfl
    exact .done

theorem fills_any_iff {pattern text : List Char} :
    Fills ('%' :: pattern) text ↔
      ∃ filler rest, text = filler ++ rest ∧ Fills pattern rest := by
  constructor
  · intro filled
    generalize whole : '%' :: pattern = shape at filled
    cases filled with
    | done => cases whole
    | any filler rest =>
        cases whole
        exact ⟨filler, _, rfl, rest⟩
    | one c rest => exact absurd (List.cons.inj whole).1 (by decide)
    | same literal alike rest =>
        exact absurd (List.cons.inj whole).1.symm literal
  · rintro ⟨filler, rest, rfl, filled⟩
    exact .any filler filled

theorem fills_literal_iff {pattern text : List Char} {p : Char}
    (literal : p ≠ '%') :
    Fills (p :: pattern) text ↔
      ∃ c rest, text = c :: rest ∧ (p = '_' ∨ p.toLower = c.toLower) ∧
        Fills pattern rest := by
  constructor
  · intro filled
    cases filled with
    | any filler rest => exact absurd rfl literal
    | one c rest => exact ⟨c, _, rfl, .inl rfl, rest⟩
    | same _ alike rest => exact ⟨_, _, rfl, .inr alike, rest⟩
  · rintro ⟨c, rest, rfl, rfl | alike, filled⟩
    · exact .one c filled
    · exact .same literal alike filled

/-- `LIKE` accepts exactly the texts its pattern stands for. -/
theorem sqlLike_iff_fills (pattern text : List Char) :
    sqlLike pattern text = true ↔ Fills pattern text := by
  induction pattern, text using sqlLike.induct with
  | case1 => simp [sqlLike, fills_nil_iff]
  | case2 c text => simp [sqlLike, fills_nil_iff]
  | case3 pattern induction =>
      rw [sqlLike, induction, fills_any_iff]
      simp
  | case4 pattern c text first later =>
      rw [sqlLike, Bool.or_eq_true, first, later, fills_any_iff,
        fills_any_iff]
      -- The filler is empty or takes the first character.
      constructor
      · rintro (filled | ⟨filler, rest, rfl, filled⟩)
        · exact ⟨[], c :: text, rfl, filled⟩
        · exact ⟨c :: filler, rest, rfl, filled⟩
      · rintro ⟨filler, rest, same, filled⟩
        cases filler with
        | nil =>
            rw [List.nil_append] at same
            exact .inl (same ▸ filled)
        | cons head filler =>
            obtain ⟨rfl, rfl⟩ := List.cons.inj same
            exact .inr ⟨filler, rest, rfl, filled⟩
  | case5 p pattern literal =>
      have notAny : p ≠ '%' := literal
      rw [fills_literal_iff notAny]
      simp [sqlLike]
  | case6 p pattern c text literal induction =>
      have notAny : p ≠ '%' := literal
      rw [fills_literal_iff notAny, sqlLike]
      · simp [induction]
      · exact literal

theorem fills_append_iff {pattern later text : List Char} :
    Fills (pattern ++ later) text ↔
      ∃ filled rest, text = filled ++ rest ∧ Fills pattern filled ∧
        Fills later rest := by
  induction pattern generalizing text with
  | nil => simp [fills_nil_iff]
  | cons p pattern induction =>
      rw [List.cons_append]
      by_cases wildcard : p = '%'
      · subst wildcard
        simp only [fills_any_iff, induction]
        constructor
        · rintro ⟨filler, _, rfl, filled, rest, rfl, first, second⟩
          refine ⟨filler ++ filled, rest, ?_, ?_, second⟩
          · rw [List.append_assoc]
          · exact ⟨filler, filled, rfl, first⟩
        · rintro ⟨_, rest, rfl, ⟨filler, filled, rfl, first⟩, second⟩
          refine ⟨filler, filled ++ rest, ?_, ?_⟩
          · rw [List.append_assoc]
          · exact ⟨filled, rest, rfl, first, second⟩
      · simp only [fills_literal_iff wildcard, induction]
        constructor
        · rintro ⟨c, _, rfl, alike, filled, rest, rfl, first, second⟩
          refine ⟨c :: filled, rest, rfl, ?_, second⟩
          exact ⟨c, filled, rfl, alike, first⟩
        · rintro ⟨_, rest, rfl, ⟨c, filled, rfl, alike, first⟩, second⟩
          refine ⟨c, filled ++ rest, rfl, alike, ?_⟩
          exact ⟨filled, rest, rfl, first, second⟩

theorem Fills.self (text : List Char) : Fills text text := by
  induction text with
  | nil => exact .done
  | cons c text induction =>
      by_cases wildcard : c = '%'
      · subst wildcard
        exact .any ['%'] induction
      · exact .same wildcard rfl induction

/-! ## The two filters -/

/-- The long-term filter on the keys. -/
def LongTermStore.keyLike (text key : String) : Bool :=
  sqlLike (text.toList ++ ['%']) key.toList

/-- The short-term filter on the keys. -/
def ShortTermStore.keyStartsWith (text key : String) : Bool :=
  text.toList.isPrefixOf key.toList

open LongTermStore ShortTermStore

section Filters

variable {Value Score : Type} {query : MemoryQuery Score} {text : String}

theorem selectRecent_of_keyPrefix (asked : query.keyPrefix = some text)
    (orderBy : OrderByRecency) (store : LongTermStore) :
    store.selectRecent orderBy query =
      (orderBy.sort (store.memoryEntries.rows.filter fun row =>
        row.agentId = query.agentId && keyLike text row.key)).take
        query.limit := by
  rw [selectRecent, asked]
  rfl

theorem matchEntry_of_keyPrefix (asked : query.keyPrefix = some text)
    (plain : query.embedding = none) (sim : Similarity Score)
    (entry : MemoryEntry Value) :
    (matchEntry sim query entry).isSome = keyStartsWith text entry.key := by
  rw [matchEntry, asked, plain, Option.map_some]
  change (if some (keyStartsWith text entry.key) = some false then none
    else some none).isSome = _
  cases keyStartsWith text entry.key with
  | true => rfl
  | false => rfl

end Filters

theorem keyStartsWith_iff {text key : String} :
    keyStartsWith text key = true ↔ text.toList <+: key.toList :=
  List.isPrefixOf_iff_prefix

theorem keyLike_iff {text key : String} :
    keyLike text key = true ↔
      ∃ filled, Fills text.toList filled ∧ filled <+: key.toList := by
  rw [keyLike, sqlLike_iff_fills, fills_append_iff]
  constructor
  · rintro ⟨filled, rest, same, fills, _⟩
    exact ⟨filled, fills, rest, same.symm⟩
  · rintro ⟨filled, fills, rest, same⟩
    refine ⟨filled, rest, same.symm, fills, ?_⟩
    have filler := Fills.any rest .done
    rwa [List.append_nil] at filler

theorem keyLike_of_keyStartsWith {text key : String}
    (starts : keyStartsWith text key = true) : keyLike text key = true :=
  keyLike_iff.mpr ⟨text.toList, .self _, keyStartsWith_iff.mp starts⟩

/-- No filter lets a character through for another. -/
def Plain (c : Char) : Prop :=
  c ≠ '%' ∧ c ≠ '_' ∧ c.isAlpha = false

theorem toNat_toLower (c : Char) :
    c.toLower.toNat =
      if 65 ≤ c.toNat ∧ c.toNat ≤ 90 then c.toNat + 32 else c.toNat := by
  by_cases upper : 65 ≤ c.toNat ∧ c.toNat ≤ 90
  · have lowered : c.toLower.toNat = (c.val + 32).toNat :=
      congrArg Char.toNat (dif_pos upper)
    have fits : c.toNat + 32 < 2 ^ 32 := by omega
    rw [if_pos upper, lowered]
    exact (UInt32.toNat_add _ _).trans (Nat.mod_eq_of_lt fits)
  · have kept : c.toLower = c := dif_neg upper
    rw [if_neg upper, kept]

theorem isAlpha_iff (c : Char) :
    c.isAlpha = true ↔
      65 ≤ c.toNat ∧ c.toNat ≤ 90 ∨ 97 ≤ c.toNat ∧ c.toNat ≤ 122 := by
  have upper : c.isUpper = true ↔ 65 ≤ c.toNat ∧ c.toNat ≤ 90 :=
    decide_eq_true_iff
  have lower : c.isLower = true ↔ 97 ≤ c.toNat ∧ c.toNat ≤ 122 := by
    change (decide (97 ≤ c.toNat) && decide (c.toNat ≤ 122)) = true ↔ _
    rw [Bool.and_eq_true, decide_eq_true_iff, decide_eq_true_iff]
  exact Bool.or_eq_true_iff.trans (or_congr upper lower)

theorem eq_of_alike {p c : Char} (noLetter : p.isAlpha = false)
    (alike : p.toLower = c.toLower) : c = p := by
  have outside := (isAlpha_iff p).not.mp (Bool.eq_false_iff.mp noLetter)
  have codes := congrArg Char.toNat alike
  rw [toNat_toLower, toNat_toLower] at codes
  apply Char.toNat_inj.mp
  split at codes <;> split at codes <;> omega

theorem exists_alike {c : Char} (letter : c.isAlpha = true) :
    ∃ other, other ≠ c ∧ c.toLower = other.toLower := by
  rcases (isAlpha_iff c).mp letter with upper | lower
  · have code := toNat_toLower c
    rw [if_pos upper] at code
    have again := toNat_toLower c.toLower
    refine ⟨c.toLower, ?_, ?_⟩
    · intro same
      rw [same] at code
      omega
    · apply Char.toNat_inj.mp
      rw [again, if_neg (by omega)]
  · have code : (Char.ofNat (c.toNat - 32)).toNat = c.toNat - 32 := by
      have valid : (c.toNat - 32).isValidChar := .inl (by omega)
      rw [Char.ofNat, dif_pos valid]
      rfl
    refine ⟨Char.ofNat (c.toNat - 32), ?_, ?_⟩
    · intro same
      rw [same] at code
      omega
    · apply Char.toNat_inj.mp
      rw [toNat_toLower, toNat_toLower, code, if_neg (by omega),
        if_pos (by omega)]
      omega

theorem Fills.eq_of_plain {pattern text : List Char}
    (plain : ∀ c ∈ pattern, Plain c) (filled : Fills pattern text) :
    text = pattern := by
  induction filled with
  | done => rfl
  | any filler rest induction =>
      exact absurd rfl (plain '%' List.mem_cons_self).1
  | one c rest induction =>
      exact absurd rfl (plain '_' List.mem_cons_self).2.1
  | same literal alike rest induction =>
      have here := plain _ List.mem_cons_self
      have later := induction fun c member =>
        plain c (List.mem_cons_of_mem _ member)
      rw [later, eq_of_alike here.2.2 alike]

theorem exists_other_filling {c : Char} (special : ¬ Plain c) :
    ∃ other, other ≠ c ∧ ∀ pattern text, Fills pattern text →
      Fills (c :: pattern) (other :: text) := by
  by_cases any : c = '%'
  · subst any
    exact ⟨'x', by decide, fun _ _ rest => .any ['x'] rest⟩
  by_cases one : c = '_'
  · subst one
    exact ⟨'x', by decide, fun _ _ rest => .one 'x' rest⟩
  have letter : c.isAlpha = true := by
    by_contra noLetter
    exact special ⟨any, one, Bool.eq_false_iff.mpr noLetter⟩
  obtain ⟨other, different, alike⟩ := exists_alike letter
  exact ⟨other, different, fun _ _ rest => .same any alike rest⟩

theorem keyLike_eq_keyStartsWith_iff {text key : String} :
    keyLike text key = keyStartsWith text key ↔
      text.toList <+: key.toList ∨
        ∀ filled, Fills text.toList filled → ¬ filled <+: key.toList := by
  constructor
  · intro agree
    cases starts : keyStartsWith text key with
    | true => exact .inl (keyStartsWith_iff.mp starts)
    | false =>
        right
        intro filled fills begins
        rw [keyLike_iff.mpr ⟨filled, fills, begins⟩, starts] at agree
        cases agree
  · rintro (starts | noFilling)
    · have startsWith := keyStartsWith_iff.mpr starts
      rw [keyLike_of_keyStartsWith startsWith, startsWith]
    · have notLike : ¬ keyLike text key = true := by
        intro like
        obtain ⟨filled, fills, begins⟩ := keyLike_iff.mp like
        exact noFilling filled fills begins
      have notStarts : ¬ keyStartsWith text key = true :=
        fun starts => notLike (keyLike_of_keyStartsWith starts)
      rw [Bool.eq_false_iff.mpr notLike, Bool.eq_false_iff.mpr notStarts]

theorem keyLike_eq_keyStartsWith_of_plain {text : String}
    (plain : ∀ c ∈ text.toList, Plain c) (key : String) :
    keyLike text key = keyStartsWith text key := by
  apply keyLike_eq_keyStartsWith_iff.mpr
  by_cases starts : text.toList <+: key.toList
  · exact .inl starts
  · right
    intro filled fills begins
    rw [fills.eq_of_plain plain] at begins
    exact starts begins

/-- A prefix with a character that is not plain selects a key that does not
start with it. -/
theorem plain_of_agree {text : String}
    (agree : ∀ key, keyLike text key = keyStartsWith text key) :
    ∀ c ∈ text.toList, Plain c := by
  intro c member
  by_contra special
  obtain ⟨other, different, refill⟩ := exists_other_filling special
  obtain ⟨before, after, whole⟩ := List.append_of_mem member
  have filled : Fills text.toList (before ++ other :: after) := by
    rw [whole]
    apply fills_append_iff.mpr
    exact ⟨before, other :: after, rfl, .self before,
      refill after after (.self after)⟩
  have agreeHere :=
    keyLike_eq_keyStartsWith_iff.mp
      (agree (String.ofList (before ++ other :: after)))
  rw [String.toList_ofList] at agreeHere
  rcases agreeHere with starts | noFilling
  · have sameLength :
        text.toList.length = (before ++ other :: after).length := by
      rw [whole, List.length_append, List.length_append, List.length_cons,
        List.length_cons]
    have same := starts.eq_of_length sameLength
    rw [whole] at same
    have tails := List.append_cancel_left same
    exact different (List.cons.inj tails).1.symm
  · exact noFilling _ filled (List.prefix_refl _)

/-- The filters agree on a key exactly when it starts with the prefix or with
no filling of it; they agree on every key exactly when the prefix has no
wildcard and no letter. -/
theorem prefixFilters_agree_iff (text : String) :
    (∀ key : String,
        keyLike text key = keyStartsWith text key ↔
          text.toList <+: key.toList ∨
            ∀ filled, Fills text.toList filled → ¬ filled <+: key.toList) ∧
      ((∀ key : String, keyLike text key = keyStartsWith text key) ↔
        ∀ c ∈ text.toList, c ≠ '%' ∧ c ≠ '_' ∧ c.isAlpha = false) := by
  constructor
  · intro key
    exact keyLike_eq_keyStartsWith_iff
  · constructor
    · exact plain_of_agree
    · exact keyLike_eq_keyStartsWith_of_plain

/-- The underscore of the prefix stands for any character. -/
theorem underscore_prefix_selects_other_key :
    ¬ ∀ text key : String,
      keyLike text key = keyStartsWith text key := by
  intro claimed
  have like : keyLike "goal_" "goals" = true := by
    apply keyLike_iff.mpr
    refine ⟨"goals".toList, ?_, List.prefix_refl _⟩
    have filled : Fills ("goal".toList ++ ['_']) ("goal".toList ++ ['s']) :=
      fills_append_iff.mpr ⟨_, _, rfl, .self _, .one 's' .done⟩
    exact filled
  rw [claimed "goal_" "goals"] at like
  exact absurd like (by decide)

end Ughi.Memory
