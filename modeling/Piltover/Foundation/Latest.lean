/- source: none (library)
   digest: Lists that a dictionary reduces to one item for every key, and when this leaves one item
     for every kind. -/

import Piltover.Foundation.OrderedDict

set_option autoImplicit false

namespace Piltover.Foundation

universe u v w

namespace OrderedDict

variable {α : Type u} {κ : Type v} [DecidableEq κ]

/-- `{key(item): item for item in items}`. -/
def byKey (key : α → κ) (items : List α) : OrderedDict κ α := ofPairs (items.map fun a => (key a, a))

/-- `d[key(item)] = item` for one item after the other. -/
def setAll (key : α → κ) (d : OrderedDict κ α) (items : List α) : OrderedDict κ α :=
  items.foldl (fun d a => setItem d (key a) a) d

/-- `list(d.values())`. -/
def values (d : OrderedDict κ α) : List α := d.entries.map Sigma.snd

theorem byKey_eq (key : α → κ) (items : List α) : byKey key items = setAll key ∅ items := by
  rw [byKey, ofPairs, List.foldl_map]
  rfl

theorem setAll_append (key : α → κ) (d : OrderedDict κ α) (front back : List α) :
    setAll key d (front ++ back) = setAll key (setAll key d front) back :=
  List.foldl_append

theorem setAll_byKey (key : α → κ) (front back : List α) :
    setAll key (byKey key front) back = byKey key (front ++ back) := by
  rw [byKey_eq, byKey_eq, setAll_append]

variable {key : α → κ} {items : List α} {a : α}

/-- No later item has the key. -/
def Lasts (key : α → κ) (items : List α) (a : α) : Prop :=
  ∃ before after, items = before ++ a :: after ∧ ∀ b ∈ after, key b ≠ key a

theorem lookup_byKey_eq_some_iff {k : κ} :
    (byKey key items).lookup k = some a ↔ key a = k ∧ Lasts key items a := by
  rw [byKey, lookup_ofPairs_eq_some_iff]
  constructor
  · rintro ⟨before, after, split, last⟩
    obtain ⟨front, rest, rfl, rfl, rest_eq⟩ := List.map_eq_append_iff.mp split
    obtain ⟨b, back, rfl, pair, rfl⟩ := List.map_eq_cons_iff.mp rest_eq
    cases pair
    exact ⟨rfl, front, back, rfl, fun b listed => last _ (List.mem_map.mpr ⟨b, listed, rfl⟩)⟩
  · rintro ⟨rfl, before, after, rfl, last⟩
    refine ⟨before.map fun a => (key a, a), after.map fun a => (key a, a), ?_, ?_⟩
    · rw [List.map_append, List.map_cons]
    · intro pair listed
      obtain ⟨b, there, rfl⟩ := List.mem_map.mp listed
      exact last b there

theorem mem_values_byKey : a ∈ (byKey key items).values ↔ Lasts key items a := by
  rw [values, mem_values_iff]
  constructor
  · rintro ⟨k, found⟩
    exact (lookup_byKey_eq_some_iff.mp found).2
  · intro last
    exact ⟨key a, lookup_byKey_eq_some_iff.mpr ⟨rfl, last⟩⟩

omit [DecidableEq κ] in
theorem Lasts.mem (last : Lasts key items a) : a ∈ items := by
  obtain ⟨before, after, rfl, -⟩ := last
  exact List.mem_append_right before List.mem_cons_self

theorem Lasts.unique {b : α} (first : Lasts key items a) (second : Lasts key items b)
    (same : key a = key b) : a = b := by
  have found := lookup_byKey_eq_some_iff.mpr ⟨same, first⟩
  rw [lookup_byKey_eq_some_iff.mpr ⟨rfl, second⟩] at found
  exact (Option.some.inj found).symm

omit [DecidableEq κ] in
theorem exists_lasts {k : κ} (listed : ∃ b ∈ items, key b = k) :
    ∃ b, key b = k ∧ Lasts key items b := by
  induction items with
  | nil =>
    obtain ⟨b, there, -⟩ := listed
    cases there
  | cons c items ih =>
    by_cases later : ∃ b ∈ items, key b = k
    · obtain ⟨b, same, before, after, rfl, last⟩ := ih later
      exact ⟨b, same, c :: before, after, rfl, last⟩
    · obtain ⟨b, there, same⟩ := listed
      rcases List.mem_cons.mp there with rfl | there
      · exact ⟨b, same, [], items, rfl, fun d listed again => later ⟨d, listed, again.trans same⟩⟩
      · exact absurd ⟨b, there, same⟩ later

omit [DecidableEq κ] in
theorem exists_lasts_append {front back : List α} (listed : a ∈ front ++ back) :
    ∃ b, key b = key a ∧ Lasts key (front ++ back) b ∧
      ((∃ c ∈ back, key c = key a) → b ∈ back) := by
  by_cases later : ∃ c ∈ back, key c = key a
  · obtain ⟨b, same, last⟩ := exists_lasts later
    have there := last.mem
    obtain ⟨before, after, rfl, none_later⟩ := last
    exact ⟨b, same, ⟨front ++ before, after, (List.append_assoc ..).symm, none_later⟩, fun _ => there⟩
  · obtain ⟨b, same, last⟩ := exists_lasts ⟨a, listed, rfl⟩
    exact ⟨b, same, last, fun again => absurd again later⟩

theorem keys_values_byKey : (byKey key items).values.map key = (byKey key items).entries.keys := by
  rw [values, List.map_map]
  refine List.map_congr_left fun entry listed => ?_
  exact (lookup_byKey_eq_some_iff.mp (AList.mem_lookup_iff.mpr listed)).1

theorem nodup_values_byKey : (byKey key items).values.Nodup := by
  refine List.Nodup.of_map key ?_
  rw [keys_values_byKey]
  exact (byKey key items).nodupKeys

/-! ### Kinds -/

variable {ε : Type w} [DecidableEq ε] {kind : α → ε} {front back : List α}

/-- One item for every kind that is there, which comes from the second list if this has the kind. -/
def OneForEach (kind : α → ε) (front back values : List α) : Prop :=
  ∀ a ∈ front ++ back, ∃ b, values.filter (fun c => kind c = kind a) = [b] ∧
    if ∃ c ∈ back, kind c = kind a then b ∈ back else b ∈ front

/-- For every kind that is there one item lasts, which comes from the second list if this has the
kind. -/
def OneLasts (key : α → κ) (kind : α → ε) (front back : List α) : Prop :=
  ∀ a ∈ front ++ back, ∃ b, kind b = kind a ∧ Lasts key (front ++ back) b ∧
    (∀ c, kind c = kind a → Lasts key (front ++ back) c → c = b) ∧
    ((∃ c ∈ back, kind c = kind a) → b ∈ back)

theorem filter_eq_singleton_iff {l : List α} {p : α → Bool} (once : l.Nodup) :
    l.filter p = [a] ↔ a ∈ l ∧ p a ∧ ∀ b ∈ l, p b → b = a := by
  constructor
  · intro only
    have listed : a ∈ l.filter p := only ▸ List.mem_cons_self
    obtain ⟨listed, fits⟩ := List.mem_filter.mp listed
    refine ⟨listed, fits, fun b there fits => ?_⟩
    have again : b ∈ l.filter p := List.mem_filter.mpr ⟨there, fits⟩
    rwa [only, List.mem_singleton] at again
  · rintro ⟨listed, fits, only⟩
    have only (b : α) (there : b ∈ l.filter p) : b = a :=
      only b (List.mem_filter.mp there).1 (List.mem_filter.mp there).2
    have there : a ∈ l.filter p := List.mem_filter.mpr ⟨listed, fits⟩
    have once := once.filter p
    rw [List.eq_replicate_of_mem only] at once there ⊢
    have few := List.nodup_replicate.mp once
    have some_there := List.ne_nil_of_mem there
    rw [Ne, List.replicate_eq_nil_iff] at some_there
    have one : (l.filter p).length = 1 := by omega
    rw [one, List.replicate_one]

theorem oneForEach_values_iff :
    OneForEach kind front back (byKey key (front ++ back)).values ↔
      OneLasts key kind front back := by
  refine forall₂_congr fun a listed => exists_congr fun b => ?_
  have from_lists (last : Lasts key (front ++ back) b) (same : kind b = kind a) :
      (if ∃ c ∈ back, kind c = kind a then b ∈ back else b ∈ front) ↔
        ((∃ c ∈ back, kind c = kind a) → b ∈ back) := by
    split
    case isTrue later => exact ⟨fun there _ => there, fun there => there later⟩
    case isFalse later =>
      refine ⟨fun _ again => absurd again later, fun _ => ?_⟩
      exact (List.mem_append.mp last.mem).resolve_right fun there => later ⟨b, there, same⟩
  rw [filter_eq_singleton_iff nodup_values_byKey]
  simp only [mem_values_byKey, decide_eq_true_eq]
  constructor
  · rintro ⟨⟨last, same, only⟩, origin⟩
    exact ⟨same, last, fun c same last => only c last same, (from_lists last same).mp origin⟩
  · rintro ⟨same, last, only, origin⟩
    exact ⟨⟨last, same, fun c last same => only c same last⟩, (from_lists last same).mpr origin⟩

omit [DecidableEq ε] in
theorem oneLasts_of_key_iff
    (faithful : ∀ a ∈ front ++ back, ∀ b ∈ front ++ back, key a = key b ↔ kind a = kind b) :
    OneLasts key kind front back := by
  intro a listed
  obtain ⟨b, same, last, origin⟩ :
      ∃ b, key b = key a ∧ Lasts key (front ++ back) b ∧
        ((∃ c ∈ back, key c = key a) → b ∈ back) := exists_lasts_append listed
  refine ⟨b, (faithful b last.mem a listed).mp same, last, ?_, ?_⟩
  · intro c of_kind lasts
    exact lasts.unique last (((faithful c lasts.mem a listed).mpr of_kind).trans same.symm)
  · rintro ⟨c, later, of_kind⟩
    exact origin ⟨c, later, (faithful c (List.mem_append_right front later) a listed).mpr of_kind⟩

end OrderedDict

end Piltover.Foundation
