/- source: none (library)
   digest: Dictionaries of nonempty sets, as the set of their pairs, seen from one member. -/

import Mathlib.Data.Finset.Prod

set_option autoImplicit false

namespace Piltover.Foundation

universe u v

/-- A dictionary of sets from which empty sets are deleted: the pairs of a key and a member. -/
abbrev Registry (κ : Type u) (ρ : Type v) := Finset (κ × ρ)

namespace Registry

variable {κ : Type u} {ρ : Type v} [DecidableEq κ] [DecidableEq ρ]

/-- `t[k].add(r)`, with a new set for a new key. -/
def add (t : Registry κ ρ) (k : κ) (r : ρ) : Registry κ ρ := insert (k, r) t

/-- `t[k].remove(r)` when the member is there. -/
def discard (t : Registry κ ρ) (k : κ) (r : ρ) : Registry κ ρ := t.erase (k, r)

/-- Add every given member to the sets of all the keys. -/
def addAll (t : Registry κ ρ) (ks : Finset κ) (rs : Finset ρ) : Registry κ ρ := t ∪ ks ×ˢ rs

/-- Remove every given member from the sets of all the keys. -/
def discardAll (t : Registry κ ρ) (ks : Finset κ) (rs : Finset ρ) : Registry κ ρ :=
  t.filter fun p => ¬ (p.1 ∈ ks ∧ p.2 ∈ rs)

/-- The members of the sets under the keys. -/
def members (t : Registry κ ρ) (ks : Finset κ) : Finset ρ :=
  (t.filter fun p => p.1 ∈ ks).image Prod.snd

/-- The keys whose sets hold the member. -/
def keysOf (t : Registry κ ρ) (r : ρ) : Finset κ := (t.filter fun p => p.2 = r).image Prod.fst

theorem mem_keysOf {t : Registry κ ρ} {k : κ} {r : ρ} : k ∈ t.keysOf r ↔ (k, r) ∈ t := by
  simp [keysOf]

theorem mem_members {t : Registry κ ρ} {ks : Finset κ} {r : ρ} :
    r ∈ t.members ks ↔ ∃ k ∈ ks, k ∈ t.keysOf r := by
  simp [members, mem_keysOf, and_comm]

@[simp] theorem keysOf_empty (r : ρ) : keysOf (∅ : Registry κ ρ) r = ∅ := rfl

@[simp] theorem keysOf_add (t : Registry κ ρ) (k : κ) (r s : ρ) :
    (t.add k r).keysOf s = if s = r then insert k (t.keysOf s) else t.keysOf s := by
  ext j
  by_cases same : s = r <;> simp [mem_keysOf, add, same]

@[simp] theorem keysOf_discard (t : Registry κ ρ) (k : κ) (r s : ρ) :
    (t.discard k r).keysOf s = if s = r then (t.keysOf s).erase k else t.keysOf s := by
  ext j
  by_cases same : s = r <;> simp [mem_keysOf, discard, same]

@[simp] theorem keysOf_addAll (t : Registry κ ρ) (ks : Finset κ) (rs : Finset ρ) (s : ρ) :
    (t.addAll ks rs).keysOf s = if s ∈ rs then t.keysOf s ∪ ks else t.keysOf s := by
  ext j
  by_cases chosen : s ∈ rs <;> simp [mem_keysOf, addAll, chosen]

@[simp] theorem keysOf_discardAll (t : Registry κ ρ) (ks : Finset κ) (rs : Finset ρ) (s : ρ) :
    (t.discardAll ks rs).keysOf s = if s ∈ rs then t.keysOf s \ ks else t.keysOf s := by
  ext j
  by_cases chosen : s ∈ rs <;> simp [mem_keysOf, discardAll, chosen]

end Registry

end Piltover.Foundation
