/- source: piltover/app/handlers/phone.py
   digest: The protocols that the two sides of a phone call offer, and what they agree on. -/

import Mathlib.Data.List.Lex
import Mathlib.Data.List.Sort
import Mathlib.Data.Set.Basic
import Piltover.Failure

set_option autoImplicit false

namespace Piltover.PhoneCalls

def supportedLibraryVersions : List String :=
  ["2.4.4", "2.7.7", "4.0.0", "5.0.0", "7.0.0", "8.0.0", "9.0.0", "11.0.0", "12.0.0", "13.0.0"]

structure PhoneCallProtocol where
  udpP2p : Bool
  udpReflector : Bool
  minLayer : Int
  maxLayer : Int
  libraryVersions : List String
  deriving DecidableEq, Repr

/-- The second list stands in for a first one that is empty. -/
def orFallback (first fallback : List String) : List String :=
  if first.isEmpty then fallback else first

def normalizeLibraryVersions (versions : List String) : List String :=
  orFallback (versions.filter fun version => supportedLibraryVersions.contains version) ["2.4.4"]

/-- `tuple(map(int, version.split(".")))`. -/
def versionNum (version : String) : List Nat :=
  (version.toList.splitOn '.').map fun digits =>
    digits.foldl (fun n digit => 10 * n + (digit.toNat - '0'.toNat)) 0

def versionText (num : List Nat) : String := ".".intercalate (num.map toString)

/-- The versions in one of the orders that a set can have. -/
def mergedLibraryVersions (a b : PhoneCallProtocol) : List String :=
  orFallback
    (supportedLibraryVersions.filter fun version =>
      a.libraryVersions.contains version && b.libraryVersions.contains version)
    (normalizeLibraryVersions (a.libraryVersions ++ b.libraryVersions).dedup)

def pickMergedLibraryVersions (a b : PhoneCallProtocol) (final : Bool) : List String :=
  let merged := mergedLibraryVersions a b
  if final then
    let versionsNum := (merged.map versionNum).insertionSort (· ≤ ·)
    versionsNum.getLast?.toList.map versionText
  else merged

def checkProtocol (protocol : PhoneCallProtocol) : Except Failure PhoneCallProtocol := do
  require (protocol.udpP2p || protocol.udpReflector) (.rpc 400 "CALL_PROTOCOL_FLAGS_INVALID")
  require (protocol.minLayer ≤ protocol.maxLayer) (.rpc 400 "CALL_PROTOCOL_LAYER_INVALID")
  require (65 ≤ protocol.minLayer && protocol.maxLayer ≤ 200)
    (.rpc 400 "CALL_PROTOCOL_LAYER_INVALID")
  return { protocol with libraryVersions := normalizeLibraryVersions protocol.libraryVersions }

def mergeProtocols (a b : PhoneCallProtocol) (final : Bool) : Except Failure PhoneCallProtocol := do
  let mergedMinLayer := max a.minLayer b.minLayer
  let mergedMaxLayer := min a.maxLayer b.maxLayer
  let versions := pickMergedLibraryVersions a b final
  require (mergedMinLayer ≤ mergedMaxLayer) (.rpc 406 "CALL_PROTOCOL_COMPAT_LAYER_INVALID")
  require (!versions.isEmpty) (.rpc 406 "CALL_PROTOCOL_COMPAT_LAYER_INVALID")
  return ⟨a.udpP2p || b.udpP2p, a.udpReflector || b.udpReflector, mergedMinLayer, mergedMaxLayer,
    versions⟩

/-- The layers that a side can speak. -/
def PhoneCallProtocol.layers (protocol : PhoneCallProtocol) : Set Int :=
  {layer | protocol.minLayer ≤ layer ∧ layer ≤ protocol.maxLayer}

/-- What both sides can work with. -/
structure PhoneCallProtocol.Valid (protocol : PhoneCallProtocol) : Prop where
  flags : protocol.udpP2p = true ∨ protocol.udpReflector = true
  layers : 65 ≤ protocol.minLayer ∧ protocol.minLayer ≤ protocol.maxLayer ∧ protocol.maxLayer ≤ 200
  versions : protocol.libraryVersions ≠ []
  supported : protocol.libraryVersions ⊆ supportedLibraryVersions

theorem orFallback_ne_nil {first fallback : List String} (some : fallback ≠ []) :
    orFallback first fallback ≠ [] := by
  unfold orFallback
  split
  · exact some
  · rename_i full
    exact fun empty => full (List.isEmpty_iff.mpr empty)

theorem orFallback_subset {first fallback all : List String} (left : first ⊆ all)
    (right : fallback ⊆ all) : orFallback first fallback ⊆ all := by
  unfold orFallback
  split
  · exact right
  · exact left

theorem normalizeLibraryVersions_ne_nil (versions : List String) :
    normalizeLibraryVersions versions ≠ [] :=
  orFallback_ne_nil (List.cons_ne_nil _ _)

theorem normalizeLibraryVersions_subset (versions : List String) :
    normalizeLibraryVersions versions ⊆ supportedLibraryVersions := by
  apply orFallback_subset
  · intro version listed
    exact List.contains_iff_mem.mp (List.mem_filter.mp listed).2
  · decide

theorem mergedLibraryVersions_ne_nil (a b : PhoneCallProtocol) : mergedLibraryVersions a b ≠ [] :=
  orFallback_ne_nil (normalizeLibraryVersions_ne_nil _)

theorem mergedLibraryVersions_subset (a b : PhoneCallProtocol) :
    mergedLibraryVersions a b ⊆ supportedLibraryVersions :=
  orFallback_subset (fun _ listed => (List.mem_filter.mp listed).1)
    (normalizeLibraryVersions_subset _)

theorem versionText_versionNum :
    ∀ version ∈ supportedLibraryVersions, versionText (versionNum version) = version := by
  decide +kernel

/-- The last protocol names one version, the highest of the merged ones. -/
theorem pickMergedLibraryVersions_final (a b : PhoneCallProtocol) :
    ∃ version ∈ mergedLibraryVersions a b, pickMergedLibraryVersions a b true = [version] ∧
      ∀ other ∈ mergedLibraryVersions a b, versionNum other ≤ versionNum version := by
  let nums := (mergedLibraryVersions a b).map versionNum
  have sorted : (nums.insertionSort (· ≤ ·)).Pairwise (· ≤ ·) := List.pairwise_insertionSort _ nums
  have some : nums.insertionSort (· ≤ ·) ≠ [] := by
    rw [← List.length_pos_iff, List.length_insertionSort, List.length_map, List.length_pos_iff]
    exact mergedLibraryVersions_ne_nil a b
  obtain ⟨lower, top, split⟩ : ∃ lower top, nums.insertionSort (· ≤ ·) = lower ++ [top] :=
    ⟨_, _, (List.dropLast_concat_getLast some).symm⟩
  have listed : ∀ num, num ∈ lower ++ [top] ↔ num ∈ nums := by
    intro num
    rw [← split, List.mem_insertionSort]
  obtain ⟨version, merged, rfl⟩ := List.mem_map.mp ((listed top).mp List.mem_concat_self)
  refine ⟨version, merged, ?_, ?_⟩
  · show (nums.insertionSort (· ≤ ·)).getLast?.toList.map versionText = [version]
    rw [split, List.getLast?_concat, Option.toList_some, List.map_singleton,
      versionText_versionNum version (mergedLibraryVersions_subset a b merged)]
  · intro other there
    rw [split, List.pairwise_append] at sorted
    have here : versionNum other ∈ lower ++ [versionNum version] :=
      (listed _).mpr (List.mem_map_of_mem there)
    rcases List.mem_append.mp here with below | same
    · exact sorted.2.2 _ below _ List.mem_cons_self
    · rw [List.mem_singleton.mp same]

theorem valid_of_checkProtocol {offered protocol : PhoneCallProtocol}
    (checked : checkProtocol offered = .ok protocol) :
    protocol.Valid ∧ protocol.layers = offered.layers := by
  simp only [checkProtocol, check_bind_eq_ok, require_eq_ok, Bool.or_eq_true, Bool.and_eq_true,
    decide_eq_true_eq] at checked
  obtain ⟨flags, order, ⟨low, high⟩, same⟩ := checked
  cases same
  exact ⟨⟨flags, ⟨low, order, high⟩, normalizeLibraryVersions_ne_nil _,
    normalizeLibraryVersions_subset _⟩, rfl⟩

theorem mergeProtocols_eq_ok {a b protocol : PhoneCallProtocol} {final : Bool} :
    mergeProtocols a b final = .ok protocol ↔
      max a.minLayer b.minLayer ≤ min a.maxLayer b.maxLayer ∧
      pickMergedLibraryVersions a b final ≠ [] ∧
      protocol = ⟨a.udpP2p || b.udpP2p, a.udpReflector || b.udpReflector,
        max a.minLayer b.minLayer, min a.maxLayer b.maxLayer,
        pickMergedLibraryVersions a b final⟩ := by
  simp only [mergeProtocols, check_bind_eq_ok, require_eq_ok, decide_eq_true_eq, Bool.not_eq_true',
    List.isEmpty_eq_false_iff]
  refine and_congr_right fun _ => and_congr_right fun _ => ?_
  exact ⟨fun same => (Except.ok.inj same).symm, fun same => congrArg _ same.symm⟩

theorem valid_of_mergeProtocols {a b protocol : PhoneCallProtocol} {final : Bool} (left : a.Valid)
    (merged : mergeProtocols a b final = .ok protocol) :
    protocol.Valid ∧ protocol.layers = a.layers ∩ b.layers ∧
      (final = true → ∃ version, protocol.libraryVersions = [version]) := by
  obtain ⟨meet, some, rfl⟩ := mergeProtocols_eq_ok.mp merged
  obtain ⟨version, listed, last, -⟩ := pickMergedLibraryVersions_final a b
  refine ⟨⟨?_, ⟨?_, meet, ?_⟩, some, ?_⟩, Set.ext fun layer => ?_, ?_⟩
  · rcases left.flags with p2p | reflector
    · exact .inl (by rw [p2p, Bool.true_or])
    · exact .inr (by rw [reflector, Bool.true_or])
  · show 65 ≤ max a.minLayer b.minLayer
    have low := left.layers.1
    omega
  · show min a.maxLayer b.maxLayer ≤ 200
    have high := left.layers.2.2
    omega
  · cases final with
    | false => exact mergedLibraryVersions_subset a b
    | true =>
      show pickMergedLibraryVersions a b true ⊆ _
      rw [last, List.cons_subset]
      exact ⟨mergedLibraryVersions_subset a b listed, List.nil_subset _⟩
  · simp only [PhoneCallProtocol.layers, Set.mem_ofPred_eq, Set.mem_inter_iff]
    omega
  · rintro rfl
    exact ⟨version, last⟩

/-- Sides that share a supported version agree on one that they share. -/
theorem mem_mergedLibraryVersions {a b : PhoneCallProtocol} {shared : String}
    (supported : shared ∈ supportedLibraryVersions) (left : shared ∈ a.libraryVersions)
    (right : shared ∈ b.libraryVersions) (version : String) :
    version ∈ mergedLibraryVersions a b ↔ version ∈ supportedLibraryVersions ∧
      version ∈ a.libraryVersions ∧ version ∈ b.libraryVersions := by
  have filtered : ∀ v, (v ∈ supportedLibraryVersions.filter fun version =>
      a.libraryVersions.contains version && b.libraryVersions.contains version) ↔
      v ∈ supportedLibraryVersions ∧ v ∈ a.libraryVersions ∧ v ∈ b.libraryVersions := by
    intro v
    rw [List.mem_filter, Bool.and_eq_true, List.contains_iff_mem, List.contains_iff_mem]
  have some := List.ne_nil_of_mem ((filtered shared).mpr ⟨supported, left, right⟩)
  rw [mergedLibraryVersions, orFallback, if_neg fun empty => some (List.isEmpty_iff.mp empty)]
  exact filtered version

/-- Between sides that share a supported version the last protocol names the highest one that they
share, by number and not by text. -/
theorem final_version_highest {a b protocol : PhoneCallProtocol} {shared : String}
    (supported : shared ∈ supportedLibraryVersions) (left : shared ∈ a.libraryVersions)
    (right : shared ∈ b.libraryVersions) (merged : mergeProtocols a b true = .ok protocol) :
    ∃ version ∈ a.libraryVersions, version ∈ b.libraryVersions ∧
      protocol.libraryVersions = [version] ∧
      ∀ other ∈ supportedLibraryVersions, other ∈ a.libraryVersions →
        other ∈ b.libraryVersions → versionNum other ≤ versionNum version := by
  obtain ⟨-, -, rfl⟩ := mergeProtocols_eq_ok.mp merged
  have both := mem_mergedLibraryVersions supported left right
  obtain ⟨version, listed, last, highest⟩ := pickMergedLibraryVersions_final a b
  obtain ⟨-, offered, accepted⟩ := (both version).mp listed
  refine ⟨version, offered, accepted, last, ?_⟩
  intro other known there here
  exact highest other ((both other).mpr ⟨known, there, here⟩)

private def older : PhoneCallProtocol := ⟨true, true, 65, 92, ["9.0.0", "11.0.0"]⟩

private def newer : PhoneCallProtocol := ⟨true, true, 65, 92, ["11.0.0", "9.0.0", "13.0.0"]⟩

/-- The text of 9.0.0 is above that of 11.0.0. -/
theorem final_version_eleven :
    ∃ version ∈ older.libraryVersions, version ∈ newer.libraryVersions ∧
      ["11.0.0"] = [version] ∧
      ∀ other ∈ supportedLibraryVersions, other ∈ older.libraryVersions →
        other ∈ newer.libraryVersions → versionNum other ≤ versionNum version := by
  have merged : mergeProtocols older newer true = .ok ⟨true, true, 65, 92, ["11.0.0"]⟩ :=
    mergeProtocols_eq_ok.mpr (by decide +kernel)
  have shared : "9.0.0" ∈ older.libraryVersions ∧ "9.0.0" ∈ newer.libraryVersions := by decide
  exact final_version_highest (by decide) shared.1 shared.2 merged

end Piltover.PhoneCalls
