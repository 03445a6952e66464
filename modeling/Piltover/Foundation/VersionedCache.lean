/- source: none (library)
   digest: Caches whose keys carry a version: the changes and the writes that leave them right. -/

import Mathlib.Tactic.Common

set_option autoImplicit false

namespace Piltover.Foundation.VersionedCache

universe u v

variable {ι : Type u} {ν : Type v}

/-- What is cached for the version that something has now is its value. -/
def Coherent (current : ι → Option (Nat × ν)) (cache : ι × Nat → Option ν) : Prop :=
  ∀ i n v, current i = some (n, v) → ∀ w, cache (i, n) = some w → w = v

/-- No version is cached that is still to come. -/
def Bounded (current : ι → Option (Nat × ν)) (cache : ι × Nat → Option ν) : Prop :=
  ∀ i n w, cache (i, n) = some w → ∃ m v, current i = some (m, v) ∧ n ≤ m

/-- Nothing goes, and versions only grow. -/
def Rises (before after : ι → Option (Nat × ν)) : Prop :=
  ∀ i n v, before i = some (n, v) → ∃ m w, after i = some (m, w) ∧ n ≤ m

/-- Whatever keeps its version keeps its value. -/
def Tells (before after : ι → Option (Nat × ν)) : Prop :=
  ∀ i n v w, before i = some (n, v) → after i = some (n, w) → v = w

variable {current before after : ι → Option (Nat × ν)} {cache written : ι × Nat → Option ν}

theorem Rises.bounded (rises : Rises before after) (bounded : Bounded before cache) :
    Bounded after cache := by
  intro i n w cached
  obtain ⟨m, v, here, le⟩ := bounded i n w cached
  obtain ⟨m', v', there, le'⟩ := rises i m v here
  exact ⟨m', v', there, Nat.le_trans le le'⟩

/-- A change in which every new value has a new version leaves a coherent cache coherent, also when
there are new things. -/
theorem Tells.coherent_of_rises (tells : Tells before after) (rises : Rises before after)
    (bounded : Bounded before cache) (coherent : Coherent before cache) :
    Coherent after cache := by
  intro i n w there x stored
  obtain ⟨m, v, here, le⟩ := bounded i n x stored
  obtain ⟨m', w', there', le'⟩ := rises i m v here
  obtain ⟨rfl, rfl⟩ := Prod.mk.inj (Option.some.inj (there.symm.trans there'))
  obtain rfl := Nat.le_antisymm le le'
  exact (coherent i n v here x stored).trans (tells i n v w here there)

theorem coherent_empty : Coherent current fun _ => none := by
  intro i n v here w cached
  cases cached

theorem bounded_empty : Bounded current fun _ => none := by
  intro i n w cached
  cases cached

theorem Coherent.write (coherent : Coherent current cache)
    (right : ∀ i n w, written (i, n) = some w → current i = some (n, w)) :
    Coherent current fun key => (written key).or (cache key) := by
  intro i n v here w stored
  rcases Option.or_eq_some_iff.mp stored with fresh | ⟨_, old⟩
  · have now := here.symm.trans (right i n w fresh)
    exact (congrArg Prod.snd (Option.some.inj now)).symm
  · exact coherent i n v here w old

theorem Bounded.write (bounded : Bounded current cache)
    (right : ∀ i n w, written (i, n) = some w → current i = some (n, w)) :
    Bounded current fun key => (written key).or (cache key) := by
  intro i n w stored
  rcases Option.or_eq_some_iff.mp stored with fresh | ⟨_, old⟩
  · exact ⟨n, w, right i n w fresh, Nat.le_refl n⟩
  · exact bounded i n w old

end Piltover.Foundation.VersionedCache
