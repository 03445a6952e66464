/- source: piltover/db/models/state.py
   digest: The pts counters of the users. -/

import Mathlib.Algebra.Order.Ring.Int
import Mathlib.Logic.Function.Basic
import Piltover.Foundation.Readers

set_option autoImplicit false

namespace Piltover.Updates.State

open Piltover.Foundation.Reader (isSome_mapM)

/-- `State.add_pts`: a count that is not positive only reads the counter. -/
def addPts (pts ptsCount : Int) : Int := if ptsCount ≤ 0 then pts else pts + ptsCount

theorem le_addPts (pts ptsCount : Int) : pts ≤ addPts pts ptsCount := by
  unfold addPts
  split <;> omega

theorem addPts_of_nonneg {ptsCount : Int} (pts : Int) (counted : 0 ≤ ptsCount) :
    addPts pts ptsCount = pts + ptsCount := by
  unfold addPts
  split <;> omega

/-- The rows of `State`: the pts of the users that have one. -/
abbrev Counters := Nat → Option Int

/-- The loop of `add_pts_bulk`, over `state_by_user_id`. -/
def addCounts : Counters → List (Nat × Int) → Option Counters
  | states, [] => some states
  | states, (userId, ptsCount) :: rest =>
    if ptsCount ≤ 0 then addCounts states rest
    else
      match states userId with
      | none => none
      | some pts => addCounts (Function.update states userId (some (pts + ptsCount))) rest

/-- `State.add_pts_bulk`, with the counters that it leaves; `none` when it raises. -/
def addPtsBulk (states : Counters) (users : List Nat) (ptsCounts : List Int) :
    Option (Counters × List Int) :=
  if ptsCounts.length ≠ users.length then none
  else
    match addCounts states (users.zip ptsCounts) with
    | none => none
    | some after => (users.mapM after).map fun ptss => (after, ptss)

variable {states after : Counters} {userId : Nat}

theorem addCounts_of_notMem {requests : List (Nat × Int)}
    (absent : userId ∉ requests.map Prod.fst) (added : addCounts states requests = some after) :
    after userId = states userId := by
  induction requests generalizing states with
  | nil =>
    cases added
    rfl
  | cons request requests ih =>
    obtain ⟨user, ptsCount⟩ := request
    rw [List.map_cons, List.mem_cons, not_or] at absent
    rw [addCounts] at added
    split at added
    · exact ih absent.2 added
    · split at added
      · cases added
      · rw [ih absent.2 added]
        exact Function.update_of_ne absent.1 _ _

theorem addCounts_of_mem {requests : List (Nat × Int)} (distinct : (requests.map Prod.fst).Nodup)
    {ptsCount pts : Int} (asked : (userId, ptsCount) ∈ requests) (known : states userId = some pts)
    (added : addCounts states requests = some after) :
    after userId = some (addPts pts ptsCount) := by
  induction requests generalizing states with
  | nil => cases asked
  | cons request requests ih =>
    obtain ⟨user, count⟩ := request
    rw [List.map_cons, List.nodup_cons] at distinct
    rw [addCounts] at added
    rcases List.mem_cons.mp asked with same | later
    · cases same
      split at added
      · rename_i nothing
        rw [addCounts_of_notMem distinct.1 added, known, addPts, if_pos nothing]
      · rename_i something
        rw [known] at added
        rw [addCounts_of_notMem distinct.1 added, Function.update_self, addPts,
          if_neg something]
    · have apart : userId ≠ user := by
        rintro rfl
        exact distinct.1 (List.mem_map.mpr ⟨(userId, ptsCount), later, rfl⟩)
      split at added
      · exact ih distinct.2 later known added
      · split at added
        · cases added
        · apply ih distinct.2 later _ added
          rw [Function.update_of_ne apart, known]

private theorem map_of_mapM {users : List Nat} {ptss : List Int}
    (read : users.mapM after = some ptss) : ptss = users.map fun user => (after user).getD 0 := by
  induction users generalizing ptss with
  | nil =>
    cases read
    rfl
  | cons user users ih =>
    rw [List.mapM_cons] at read
    cases here : after user with
    | none =>
      rw [here] at read
      cases read
    | some pts =>
      cases rest : users.mapM after with
      | none =>
        rw [here, rest] at read
        cases read
      | some more =>
        rw [here, rest] at read
        cases read
        rw [List.map_cons, here, ih rest]
        rfl

theorem addPtsBulk_some {users : List Nat} {ptsCounts ptss : List Int}
    (added : addPtsBulk states users ptsCounts = some (after, ptss)) :
    addCounts states (users.zip ptsCounts) = some after ∧
      ptss = users.map fun user => (after user).getD 0 := by
  rw [addPtsBulk] at added
  split at added
  · cases added
  · split at added
    · cases added
    · rename_i counters counted
      rw [Option.map_eq_some_iff] at added
      obtain ⟨read, mapped, same⟩ := added
      cases same
      exact ⟨counted, map_of_mapM mapped⟩

theorem addCounts_isSome {requests : List (Nat × Int)}
    (known : ∀ user ∈ requests.map Prod.fst, (states user).isSome) :
    ∃ counters, addCounts states requests = some counters ∧
      ∀ user, (states user).isSome → (counters user).isSome := by
  induction requests generalizing states with
  | nil => exact ⟨states, rfl, fun _ => id⟩
  | cons request requests ih =>
    obtain ⟨user, ptsCount⟩ := request
    have here : (states user).isSome := known user List.mem_cons_self
    have later : ∀ other ∈ requests.map Prod.fst, (states other).isSome := fun other listed =>
      known other (List.mem_cons_of_mem user listed)
    rw [addCounts]
    split
    · exact ih later
    · obtain ⟨pts, found⟩ := Option.isSome_iff_exists.mp here
      have kept : ∀ other, (states other).isSome →
          (Function.update states user (some (pts + ptsCount)) other).isSome := by
        intro other before
        by_cases same : other = user
        · subst same
          rw [Function.update_self]
          rfl
        · rw [Function.update_of_ne same]
          exact before
      obtain ⟨counters, added, keeps⟩ := ih fun other listed => kept other (later other listed)
      rw [found]
      exact ⟨counters, added, fun other before => keeps other (kept other before)⟩

/-- The loop makes no rows. -/
theorem isSome_of_addCounts {requests : List (Nat × Int)}
    (added : addCounts states requests = some after) (there : (after userId).isSome) :
    (states userId).isSome := by
  induction requests generalizing states with
  | nil =>
    cases added
    exact there
  | cons request requests ih =>
    obtain ⟨user, ptsCount⟩ := request
    rw [addCounts] at added
    split at added
    · exact ih added
    · split at added
      · cases added
      · rename_i pts known
        have before := ih added
        by_cases same : userId = user
        · rw [same, known]
          rfl
        · rw [Function.update_of_ne same] at before
          exact before

theorem addPtsBulk_isSome {users : List Nat} {ptsCounts : List Int}
    (paired : ptsCounts.length = users.length) (known : ∀ user ∈ users, (states user).isSome) :
    (addPtsBulk states users ptsCounts).isSome := by
  have first : (users.zip ptsCounts).map Prod.fst = users :=
    List.map_fst_zip (Nat.le_of_eq paired.symm)
  have listed : ∀ user ∈ (users.zip ptsCounts).map Prod.fst, (states user).isSome := by
    rw [first]
    exact known
  obtain ⟨counters, added, keeps⟩ := addCounts_isSome listed
  obtain ⟨ptss, read⟩ := Option.isSome_iff_exists.mp
    (isSome_mapM.mpr fun user member => keeps user (known user member))
  rw [addPtsBulk, if_neg (not_not_intro paired), added]
  simp only [read]
  rfl

theorem known_of_addPtsBulk {users : List Nat} {ptsCounts ptss : List Int}
    (added : addPtsBulk states users ptsCounts = some (after, ptss)) :
    ∀ user ∈ users, (states user).isSome := by
  intro user listed
  have counted := (addPtsBulk_some added).1
  rw [addPtsBulk] at added
  split at added
  · cases added
  · rw [counted] at added
    obtain ⟨read, mapped, -⟩ := Option.map_eq_some_iff.mp added
    have found : (users.mapM after).isSome := by
      rw [mapped]
      rfl
    exact isSome_of_addCounts counted (isSome_mapM.mp found user listed)

end Piltover.Updates.State
