/- source: none (library)
   digest: Dictionaries that remember the order in which their keys were first set. -/

import Mathlib.Data.List.AList
import Mathlib.Data.List.Induction

set_option autoImplicit false

namespace Piltover.Foundation

universe u v

/-- A dictionary whose entries stand in the order of their first insertion. -/
abbrev OrderedDict (κ : Type u) (ν : Type v) := AList (fun _ : κ => ν)

namespace OrderedDict

variable {κ : Type u} {ν : Type v} [DecidableEq κ]

/-- Overwrite the value of a key in place, or append the pair at the end. -/
def setEntry (k : κ) (v : ν) : List (Sigma fun _ : κ => ν) → List (Sigma fun _ : κ => ν)
  | [] => [⟨k, v⟩]
  | ⟨a, b⟩ :: l => if a = k then ⟨a, v⟩ :: l else ⟨a, b⟩ :: setEntry k v l

theorem keys_setEntry (k : κ) (v : ν) (l : List (Sigma fun _ : κ => ν)) :
    (setEntry k v l).keys = if k ∈ l.keys then l.keys else l.keys ++ [k] := by
  induction l with
  | nil => simp [setEntry, List.keys]
  | cons p l ih =>
    obtain ⟨a, b⟩ := p
    by_cases same : a = k
    · simp [setEntry, same]
    · simp only [setEntry, same, ↓reduceIte, List.keys_cons, ih, List.mem_cons,
        Ne.symm same, false_or]
      split <;> simp

private theorem nodupKeys_setEntry (k : κ) (v : ν) {l : List (Sigma fun _ : κ => ν)}
    (nodup : l.NodupKeys) : (setEntry k v l).NodupKeys := by
  unfold List.NodupKeys at nodup ⊢
  rw [keys_setEntry]
  split
  · exact nodup
  · rename_i fresh
    rw [List.nodup_append]
    refine ⟨nodup, by simp, ?_⟩
    intro a ha b hb equal
    obtain rfl := List.mem_singleton.mp hb
    exact fresh (equal ▸ ha)

private theorem dlookup_cons_pair (j a : κ) (b : ν) (l : List (Sigma fun _ : κ => ν)) :
    List.dlookup j (⟨a, b⟩ :: l) = if j = a then some b else l.dlookup j := by
  by_cases hit : j = a
  · subst hit
    rw [if_pos rfl]
    exact List.dlookup_cons_eq l j b
  · rw [if_neg hit]
    exact List.dlookup_cons_ne l ⟨a, b⟩ hit

theorem dlookup_setEntry (k j : κ) (v : ν) (l : List (Sigma fun _ : κ => ν)) :
    (setEntry k v l).dlookup j = if j = k then some v else l.dlookup j := by
  induction l with
  | nil => simp only [setEntry, dlookup_cons_pair, List.dlookup_nil]
  | cons p l ih =>
    obtain ⟨a, b⟩ := p
    by_cases same : a = k
    · subst same
      simp only [setEntry, ↓reduceIte, dlookup_cons_pair]
      split <;> rfl
    · simp only [setEntry, same, ↓reduceIte, dlookup_cons_pair, ih]
      by_cases hit : j = a
      · subst hit
        simp [same]
      · simp [hit]

/-- `d[k] = v`. -/
def setItem (d : OrderedDict κ ν) (k : κ) (v : ν) : OrderedDict κ ν :=
  ⟨setEntry k v d.entries, nodupKeys_setEntry k v d.nodupKeys⟩

theorem lookup_setItem (d : OrderedDict κ ν) (k j : κ) (v : ν) :
    (setItem d k v).lookup j = if j = k then some v else d.lookup j :=
  dlookup_setEntry k j v d.entries

theorem entries_setItem_of_notMem (d : OrderedDict κ ν) {k : κ} (v : ν) (absent : k ∉ d) :
    (setItem d k v).entries = d.entries ++ [⟨k, v⟩] := by
  have absent : k ∉ d.entries.keys := absent
  change setEntry k v d.entries = _
  generalize d.entries = l at absent
  induction l with
  | nil => rfl
  | cons p l ih =>
    obtain ⟨a, b⟩ := p
    simp only [List.keys_cons, List.mem_cons, not_or] at absent
    simp [setEntry, Ne.symm absent.1, ih absent.2]

theorem mem_values_iff {d : OrderedDict κ ν} {v : ν} :
    v ∈ d.entries.map Sigma.snd ↔ ∃ k, d.lookup k = some v := by
  rw [List.mem_map]
  constructor
  · rintro ⟨⟨k, w⟩, entry, rfl⟩
    exact ⟨k, AList.mem_lookup_iff.mpr entry⟩
  · rintro ⟨k, found⟩
    exact ⟨⟨k, v⟩, AList.mem_lookup_iff.mp found, rfl⟩

theorem lookup_erase_eq_some {d : OrderedDict κ ν} {k j : κ} {v : ν} :
    AList.lookup j (AList.erase k d) = some v ↔ j ≠ k ∧ d.lookup j = some v := by
  by_cases same : j = k
  · subst same
    simp
  · simp [same, AList.lookup_erase_ne]

private theorem filter_key {l : List (Sigma fun _ : κ => ν)} (nodup : l.NodupKeys) (k : κ) :
    (l.filter fun e => e.1 = k) = (l.dlookup k).toList.map (Sigma.mk k) := by
  induction l with
  | nil => rfl
  | cons p l ih =>
    obtain ⟨a, b⟩ := p
    obtain ⟨absent, rest⟩ := List.nodupKeys_cons.mp nodup
    rw [dlookup_cons_pair]
    by_cases same : a = k
    · subst same
      have none : (l.filter fun e => e.1 = a) = [] := by
        refine List.filter_eq_nil_iff.mpr fun e listed hit => absent ?_
        have here : e.1 ∈ l.keys := List.mem_keys_of_mem listed
        rwa [of_decide_eq_true hit] at here
      simp [none]
    · rw [if_neg (Ne.symm same), ← ih rest]
      exact List.filter_cons_of_neg (by simpa using same)

theorem filter_entries (d : OrderedDict κ ν) (k : κ) :
    (d.entries.filter fun e => e.1 = k) = (d.lookup k).toList.map (Sigma.mk k) :=
  filter_key d.nodupKeys k

/-- `d.pop(k, None)` for every key of the list, in order. -/
def popAll (d : OrderedDict κ ν) (ks : List κ) : OrderedDict κ ν :=
  ks.foldl (fun d k => AList.erase k d) d

private theorem kerase_eq_filter (k : κ) {l : List (Sigma fun _ : κ => ν)}
    (nodup : l.NodupKeys) : l.kerase k = l.filter (fun e => e.1 ≠ k) := by
  induction l with
  | nil => rfl
  | cons p l ih =>
    obtain ⟨absent, rest⟩ := List.nodupKeys_cons.mp nodup
    by_cases same : k = p.1
    · subst same
      have kept : l.filter (fun e => e.1 ≠ p.1) = l := by
        rw [List.filter_eq_self]
        intro e member
        simp only [ne_eq, decide_eq_true_eq]
        exact fun equal => absent (equal ▸ List.mem_keys_of_mem member)
      simp only [List.kerase_cons_eq, ne_eq, not_true_eq_false, decide_false,
        Bool.false_eq_true, not_false_eq_true, List.filter_cons_of_neg]
      exact kept.symm
    · simp [List.kerase_cons_ne same, Ne.symm same, ih rest]

theorem entries_popAll (d : OrderedDict κ ν) (ks : List κ) :
    (popAll d ks).entries = d.entries.filter (fun e => e.1 ∉ ks) := by
  induction ks generalizing d with
  | nil => simp [popAll]
  | cons k ks ih =>
    have rest := ih (AList.erase k d)
    simp only [popAll, List.foldl_cons] at rest ⊢
    rw [rest, show (AList.erase k d).entries = d.entries.kerase k from rfl,
      kerase_eq_filter k d.nodupKeys, List.filter_filter]
    refine List.filter_congr fun e _ => ?_
    simp [not_or, Bool.and_comm]

/-- A dictionary comprehension: of several pairs with one key the last one counts. -/
def ofPairs (pairs : List (κ × ν)) : OrderedDict κ ν :=
  pairs.foldl (fun d p => setItem d p.1 p.2) ∅

theorem lookup_ofPairs (pairs : List (κ × ν)) (k : κ) :
    (ofPairs pairs).lookup k = (pairs.reverse.find? fun p => p.1 = k).map Prod.snd := by
  induction pairs using List.reverseRecOn with
  | nil => exact AList.lookup_empty k
  | append_singleton pairs p ih =>
    have last : ofPairs (pairs ++ [p]) = setItem (ofPairs pairs) p.1 p.2 := List.foldl_concat ..
    rw [last, lookup_setItem, List.reverse_concat, List.find?_cons, ih]
    by_cases same : p.1 = k
    · subst same
      simp only [decide_true, ↓reduceIte, Option.map_some]
    · simp only [same, Ne.symm same, decide_false, ↓reduceIte]

theorem mem_of_lookup_ofPairs {pairs : List (κ × ν)} {k : κ} {v : ν}
    (found : (ofPairs pairs).lookup k = some v) : (k, v) ∈ pairs := by
  rw [lookup_ofPairs, Option.map_eq_some_iff] at found
  obtain ⟨pair, last, rfl⟩ := found
  have hit := List.find?_some last
  have same : pair.1 = k := of_decide_eq_true hit
  rw [← same]
  exact List.mem_reverse.mp (List.mem_of_find?_eq_some last)

theorem exists_lookup_ofPairs {pairs : List (κ × ν)} {k : κ} {v : ν} (mem : (k, v) ∈ pairs) :
    ∃ w, (ofPairs pairs).lookup k = some w := by
  rw [lookup_ofPairs]
  cases found : pairs.reverse.find? fun p => p.1 = k with
  | some pair => exact ⟨pair.2, rfl⟩
  | none =>
    have missing := List.find?_eq_none.mp found (k, v) (List.mem_reverse.mpr mem)
    exact absurd (decide_eq_true rfl) missing

/-- The value of a key is that of the last pair with it. -/
theorem lookup_ofPairs_eq_some_iff {pairs : List (κ × ν)} {k : κ} {v : ν} :
    (ofPairs pairs).lookup k = some v ↔
      ∃ before after, pairs = before ++ (k, v) :: after ∧ ∀ p ∈ after, p.1 ≠ k := by
  rw [lookup_ofPairs, Option.map_eq_some_iff]
  constructor
  · rintro ⟨⟨k', v'⟩, found, rfl⟩
    obtain ⟨hit, front, back, split, unset⟩ := List.find?_eq_some_iff_append.mp found
    obtain rfl : k' = k := of_decide_eq_true hit
    refine ⟨back.reverse, front.reverse, ?_, fun p listed same => ?_⟩
    · rw [← List.reverse_reverse pairs, split, List.reverse_append, List.reverse_cons,
        List.append_assoc]
      rfl
    · have here := unset p (List.mem_reverse.mp listed)
      rw [decide_eq_true same] at here
      cases here
  · rintro ⟨before, after, rfl, unset⟩
    refine ⟨(k, v), List.find?_eq_some_iff_append.mpr
      ⟨decide_eq_true rfl, after.reverse, before.reverse, ?_, fun p listed => ?_⟩, rfl⟩
    · rw [List.reverse_append, List.reverse_cons, List.append_assoc]
      rfl
    · rw [decide_eq_false (unset p (List.mem_reverse.mp listed))]
      rfl

theorem lookup_ofPairs_eq_iff {pairs : List (κ × ν)} {k : κ} {own : Option ν}
    (right : ∀ v, (k, v) ∈ pairs → own = some v) :
    (ofPairs pairs).lookup k = own ↔ own = none ∨ ∃ v, (k, v) ∈ pairs := by
  constructor
  · intro same
    cases own with
    | none => exact .inl rfl
    | some v => exact .inr ⟨v, mem_of_lookup_ofPairs same⟩
  · intro either
    cases found : (ofPairs pairs).lookup k with
    | some v => exact (right v (mem_of_lookup_ofPairs found)).symm
    | none =>
      rcases either with rfl | ⟨v, listed⟩
      · rfl
      · obtain ⟨w, there⟩ := exists_lookup_ofPairs listed
        rw [found] at there
        cases there

theorem lookup_known (f : κ → Option ν) (l : List κ) (a : κ) :
    (ofPairs (l.filterMap fun b => (f b).map fun v => (b, v))).lookup a =
      if a ∈ l then f a else none := by
  have pairs : ∀ v, (a, v) ∈ (l.filterMap fun b => (f b).map fun v => (b, v)) ↔
      (if a ∈ l then f a else none) = some v := by
    intro v
    rw [Option.ite_none_right_eq_some, List.mem_filterMap]
    simp only [Option.map_eq_some_iff, Prod.mk.injEq]
    constructor
    · rintro ⟨b, listed, w, known, rfl, rfl⟩
      exact ⟨listed, known⟩
    · rintro ⟨listed, known⟩
      exact ⟨a, listed, v, known, rfl, rfl⟩
  rw [lookup_ofPairs_eq_iff fun v => (pairs v).mp]
  simp only [pairs]
  exact (Option.eq_none_or_eq_some _).imp_right fun ⟨v, known⟩ => ⟨v, known⟩

theorem lookup_computed (f : κ → ν) (l : List κ) (a : κ) :
    (ofPairs (l.map fun b => (b, f b))).lookup a = if a ∈ l then some (f a) else none := by
  have pairs : (l.map fun b => (b, f b)) = l.filterMap fun b => (some (f b)).map fun v => (b, v) :=
    (congrFun List.filterMap_eq_map' _).symm
  rw [pairs, lookup_known]

theorem lookup_ofPairs_iff {pairs : List (κ × ν)} (once : (pairs.map Prod.fst).Nodup) {k : κ}
    {v : ν} : (ofPairs pairs).lookup k = some v ↔ (k, v) ∈ pairs := by
  refine ⟨mem_of_lookup_ofPairs, fun listed => ?_⟩
  refine (lookup_ofPairs_eq_iff fun w also => ?_).mpr (.inr ⟨v, listed⟩)
  rw [(Prod.mk.inj (List.inj_on_of_nodup_map once listed also rfl)).2]

section Grouping

variable {ω : Type v}

/-- `d[k].append(v)` for every pair, in a dictionary that makes empty lists for new keys. -/
def appendAll (d : OrderedDict κ (List ω)) (pairs : List (κ × ω)) : OrderedDict κ (List ω) :=
  pairs.foldl (fun d p => setItem d p.1 ((d.lookup p.1).getD [] ++ [p.2])) d

theorem lookup_appendAll (d : OrderedDict κ (List ω)) (pairs : List (κ × ω)) (k : κ) :
    (appendAll d pairs).lookup k =
      if (pairs.filter fun p => p.1 = k) = [] then d.lookup k
      else some ((d.lookup k).getD [] ++ (pairs.filter fun p => p.1 = k).map Prod.snd) := by
  induction pairs generalizing d with
  | nil => rfl
  | cons p pairs ih =>
    have rest := ih (setItem d p.1 ((d.lookup p.1).getD [] ++ [p.2]))
    simp only [appendAll, List.foldl_cons] at rest ⊢
    rw [rest, lookup_setItem]
    by_cases same : p.1 = k
    · subst same
      by_cases alone : (pairs.filter fun q => q.1 = p.1) = []
      · simp [alone]
      · simp [alone, List.append_assoc]
    · have skipped : ((p :: pairs).filter fun q => q.1 = k) = pairs.filter fun q => q.1 = k :=
        List.filter_cons_of_neg (by simpa using same)
      rw [skipped, if_neg (Ne.symm same)]

private theorem perm_setEntry (k : κ) (v : ω) (l : List (Sigma fun _ : κ => List ω)) :
    ((setEntry k ((l.dlookup k).getD [] ++ [v]) l).flatMap Sigma.snd).Perm
      (l.flatMap Sigma.snd ++ [v]) := by
  induction l with
  | nil => exact List.Perm.refl _
  | cons p l ih =>
    obtain ⟨a, b⟩ := p
    rw [dlookup_cons_pair]
    by_cases same : a = k
    · subst same
      simp only [setEntry, ↓reduceIte, Option.getD_some, List.flatMap_cons, List.append_assoc]
      exact List.perm_append_comm.append_left b
    · simp only [setEntry, same, Ne.symm same, ↓reduceIte, List.flatMap_cons, List.append_assoc]
      exact ih.append_left b

theorem perm_appendAll (d : OrderedDict κ (List ω)) (pairs : List (κ × ω)) :
    ((appendAll d pairs).entries.flatMap Sigma.snd).Perm
      (d.entries.flatMap Sigma.snd ++ pairs.map Prod.snd) := by
  induction pairs generalizing d with
  | nil => rw [List.map_nil, List.append_nil]; exact List.Perm.refl _
  | cons p pairs ih =>
    have rest := ih (setItem d p.1 ((d.lookup p.1).getD [] ++ [p.2]))
    simp only [appendAll, List.foldl_cons] at rest ⊢
    refine rest.trans ?_
    have first := (perm_setEntry p.1 p.2 d.entries).append_right (pairs.map Prod.snd)
    rw [List.append_assoc] at first
    exact first

end Grouping

end OrderedDict

end Piltover.Foundation
