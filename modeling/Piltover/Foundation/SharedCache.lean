/- source: none (library)
   digest: Caches that keep what was computed for whoever asked first. -/

import Mathlib.Data.List.Basic
import Mathlib.Tactic.Common

set_option autoImplicit false

namespace Piltover.Foundation

universe u v w

abbrev Cache (κ : Type u) (ν : Type v) := κ → Option ν

namespace Cache

variable {κ : Type u} {ν : Type v} [DecidableEq κ]

def empty : Cache κ ν := fun _ => none

def set (cache : Cache κ ν) (key : κ) (value : ν) : Cache κ ν :=
  fun k => if k = key then some value else cache k

/-- One pair after the other. -/
def multiSet (cache : Cache κ ν) (pairs : List (κ × ν)) : Cache κ ν :=
  pairs.foldl (fun cache pair => cache.set pair.1 pair.2) cache

variable {cache : Cache κ ν} {pairs : List (κ × ν)} {key : κ} {value : ν}

@[simp] theorem set_self : cache.set key value key = some value := if_pos rfl

theorem set_of_ne {k : κ} (other : k ≠ key) : cache.set key value k = cache k := if_neg other

theorem multiSet_of_notMem (unset : ∀ pair ∈ pairs, pair.1 ≠ key) :
    cache.multiSet pairs key = cache key := by
  induction pairs generalizing cache with
  | nil => rfl
  | cons pair pairs ih =>
    have other : cache.set pair.1 pair.2 key = cache key :=
      set_of_ne (Ne.symm (unset pair List.mem_cons_self))
    rw [multiSet, List.foldl_cons, ← other]
    exact ih fun p listed => unset p (List.mem_cons_of_mem pair listed)

theorem multiSet_of_mem (listed : ∃ pair ∈ pairs, pair.1 = key)
    (only : ∀ pair ∈ pairs, pair.1 = key → pair.2 = value) :
    cache.multiSet pairs key = some value := by
  induction pairs generalizing cache with
  | nil =>
    obtain ⟨pair, listed, -⟩ := listed
    cases listed
  | cons pair pairs ih =>
    have later : ∀ p ∈ pairs, p.1 = key → p.2 = value := fun p listed =>
      only p (List.mem_cons_of_mem pair listed)
    rw [multiSet, List.foldl_cons]
    by_cases again : ∃ p ∈ pairs, p.1 = key
    · exact ih again later
    · have unset : ∀ p ∈ pairs, p.1 ≠ key := fun p listed same => again ⟨p, listed, same⟩
      obtain ⟨p, listed, same⟩ := listed
      rcases List.mem_cons.mp listed with rfl | listed
      · refine (multiSet_of_notMem unset).trans ?_
        rw [← only p List.mem_cons_self same, ← same, set_self]
      · exact absurd same (unset p listed)

theorem zip_map_self {α : Type u} {β : Type v} (f : α → β) (batch : List α) :
    batch.zip (batch.map f) = batch.map fun a => (a, f a) := by
  conv_lhs => rw [← List.map_id batch, List.map_map]
  exact List.zip_map'

/-! ### Whoever asked first -/

variable {α : Type w}

/-- The first one who asked for a key. -/
def firstAsker (keyOf : α → κ) (log : List α) (key : κ) : Option α :=
  log.find? fun a => keyOf a = key

/-- What is cached for a key is what is right for the first one who asked for it. -/
def Tells (keyOf : α → κ) (right : α → ν) (log : List α) (cache : Cache κ ν) : Prop :=
  ∀ key, cache key = (firstAsker keyOf log key).map right

variable {keyOf : α → κ} {right : α → ν} {log batch : List α} {a : α}

theorem tells_empty : Tells keyOf right [] (empty : Cache κ ν) := fun _ => rfl

theorem keyOf_firstAsker (first : firstAsker keyOf log key = some a) : keyOf a = key := by
  have found := List.find?_some first
  exact of_decide_eq_true found

theorem firstAsker_append : firstAsker keyOf (log ++ batch) key =
    (firstAsker keyOf log key).or (firstAsker keyOf batch key) := List.find?_append

theorem firstAsker_eq_none_iff :
    firstAsker keyOf log key = none ↔ ∀ a ∈ log, keyOf a ≠ key := by
  rw [firstAsker, List.find?_eq_none]
  exact forall₂_congr fun a _ => not_congr decide_eq_true_iff

/-- A batch that stores what is right for whoever asks first, where nothing is stored yet, leaves
the cache telling it. -/
theorem Tells.multiSet (tells : Tells keyOf right log cache)
    (stored : ∀ b ∈ batch, cache (keyOf b) = none → ∃ pair ∈ pairs, pair.1 = keyOf b)
    (only : ∀ pair ∈ pairs, cache pair.1 = none ∧
      ∃ b ∈ batch, keyOf b = pair.1 ∧ right b = pair.2)
    (alike : ∀ b ∈ batch, ∀ c ∈ batch, keyOf b = keyOf c → right b = right c) :
    Tells keyOf right (log ++ batch) (cache.multiSet pairs) := by
  intro k
  rw [firstAsker_append]
  cases first : firstAsker keyOf log k with
  | some b =>
    have here := tells k
    rw [first] at here
    rw [multiSet_of_notMem, here]
    · rfl
    · rintro pair listed rfl
      rw [(only pair listed).1] at here
      cases here
  | none =>
    have free := tells k
    rw [first] at free
    rw [Option.none_or]
    cases asked : firstAsker keyOf batch k with
    | none =>
      refine (multiSet_of_notMem fun pair listed same => ?_).trans free
      obtain ⟨b, inBatch, key, -⟩ := (only pair listed).2
      exact firstAsker_eq_none_iff.mp asked b inBatch (key.trans same)
    | some b =>
      have inBatch : b ∈ batch := List.mem_of_find?_eq_some asked
      have key := keyOf_firstAsker asked
      obtain ⟨pair, listed, same⟩ := stored b inBatch (by rw [key, free]; rfl)
      refine multiSet_of_mem ⟨pair, listed, same.trans key⟩ fun p inPairs sameKey => ?_
      obtain ⟨c, there, keyC, value⟩ := (only p inPairs).2
      rw [← value]
      exact alike c there b inBatch (keyC.trans (sameKey.trans key.symm))

end Cache

end Piltover.Foundation
