/- source: piltover/app/utils/bot_api/parse_mode.py
   digest: An offset is right unless a later pass takes a delimiter out before it. -/

import Piltover.BotApi.Markdown
import Piltover.BotApi.HtmlTrees

set_option autoImplicit false

namespace Piltover.BotApi

open Piltover.Foundation.Matching

/-- A pass as one that takes the delimiters out. -/
def MdPass.cut (p : MdPass) : Pass Char MdMatch where
  pattern := p.pattern
  start := fun found => (p.contentOf found).start
  size := fun found => (p.contentOf found).size

def utf16Width (c : Char) : Nat := if c.toNat ≤ 0xffff then 1 else 2

/-- The entity has the place of what is covered, the second part of the span, in the text. -/
def Covers (plain : List Char) (span : List Char × List Char) (entity : MessageEntity) : Prop :=
  (∃ after, plain = span.1 ++ span.2 ++ after) ∧
    entity.offset = utf16Len span.1 ∧ entity.length = utf16Len span.2

/-- Every entity covers what its pass matched, less what later passes take out. -/
def OffsetsRight (passes : List MdPass) (text : List Char)
    (parsed : List Char × List MessageEntity) : Prop :=
  List.Forall₂ (Covers parsed.1) (placed (passes.map MdPass.cut) text) parsed.2

/-- A match whose entity can be made: a block of code has a language, or no content. -/
def MdPass.Named (p : MdPass) : Token Char MdMatch → Prop
  | .plain _ => True
  | .found found raw =>
    p.entityType = .pre → (p.contentOf found).of raw ≠ [] → p.languageOf found raw ≠ none

/-- Every pass finds only such matches in the text that it is given. -/
def Named : List MdPass → List Char → Prop
  | [], _ => True
  | p :: ps, text => (∀ t ∈ tokens p.pattern none text, p.Named t) ∧ Named ps (p.cut.output text)

/-! ### Matches begin with a delimiter -/

def Opens (pattern : Pattern Char MdMatch) : Prop :=
  ∀ prev text found n, pattern prev text = some (found, n) →
    0 < n ∧ (∀ group ∈ found.first, 0 < group.start) ∧ ∀ group ∈ found.second, 0 < group.start

section

variable {p : MdPass} {text : List Char}

theorem Opens.group {pattern : Pattern Char MdMatch} (opens : Opens pattern) {prev : Option Char}
    {found : MdMatch} {n : Nat} (matched : pattern prev text = some (found, n)) {k : Nat}
    {group : Group} (is : found.group k = some group) : 0 < group.start := by
  obtain ⟨_, first, second⟩ := opens _ _ _ _ matched
  unfold MdMatch.group at is
  split at is
  case h_1 => exact first group is
  case h_2 => exact second group is
  case h_3 => cases is

theorem MdPass.removes (opens : Opens p.pattern) : p.cut.Removes := by
  intro prev text found n matched
  refine ⟨?_, (opens _ _ _ _ matched).1⟩
  have orNothing (group : Option Group) (is : ∀ g, group = some g → 0 < g.start) :
      0 < (group.getD ⟨1, 0⟩).start := by
    cases group with
    | none => exact Nat.one_pos
    | some group => exact is group rfl
  change 0 < (p.contentOf found).start
  rw [contentOf]
  split
  case isTrue => exact orNothing _ fun g is => opens.group matched is
  case isFalse =>
      split
      case isTrue => exact orNothing _ fun g is => opens.group matched is
      case isFalse =>
          refine orNothing _ fun g is => ?_
          obtain ⟨k, _, is⟩ := List.exists_of_findSome?_eq_some is
          exact opens.group matched (Option.eq_some_of_filter_eq_some is)

theorem delimited_opens {opening closing : List Char} {inner : Char → Bool} (some : opening ≠ []) :
    Opens (delimited opening inner closing) := by
  intro prev text found n matched
  have long := List.length_pos_iff.mpr some
  rw [delimited] at matched
  split at matched
  case isTrue =>
      cases matched
      exact ⟨by omega, fun group is => by cases is; exact long, fun _ is => (by cases is)⟩
  case isFalse => cases matched

theorem link_opens : Opens MD_LINK_RE := by
  intro prev text found n matched
  rw [MD_LINK_RE] at matched
  obtain ⟨rest, _, matched⟩ := Option.bind_eq_some_iff.mp matched
  obtain ⟨rest, _, matched⟩ := Option.bind_eq_some_iff.mp matched
  obtain ⟨rest, _, matched⟩ := Option.bind_eq_some_iff.mp matched
  obtain ⟨_, _, matched⟩ := Option.bind_eq_some_iff.mp matched
  split at matched
  case isTrue => cases matched
  case isFalse =>
      cases matched
      exact ⟨by omega, fun group is => by cases is; exact Nat.one_pos,
        fun group is => by cases is; exact Nat.succ_pos _⟩

theorem boldBetween_pos {d : Char} {group : Group} {n : Nat}
    (matched : boldBetween d text = some (group, n)) : 0 < n ∧ 0 < group.start := by
  obtain ⟨rest, _, matched⟩ := Option.bind_eq_some_iff.mp matched
  obtain ⟨rest, _, matched⟩ := Option.bind_eq_some_iff.mp matched
  obtain ⟨size, _, matched⟩ := Option.bind_eq_some_iff.mp matched
  cases matched
  exact ⟨Nat.succ_pos _, Nat.two_pos⟩

theorem italicBetween_pos {d : Char} {prev : Option Char} {group : Group} {n : Nat}
    (matched : italicBetween d prev text = some (group, n)) : 0 < n ∧ 0 < group.start := by
  obtain ⟨rest, _, matched⟩ := Option.bind_eq_some_iff.mp matched
  split at matched
  case isTrue => cases matched
  case isFalse =>
      obtain ⟨size, _, matched⟩ := Option.bind_eq_some_iff.mp matched
      cases matched
      exact ⟨Nat.succ_pos _, Nat.one_pos⟩

theorem alternatives_opens {first second : Option Char → List Char → Option (Group × Nat)}
    (firstPos : ∀ prev text group n, first prev text = some (group, n) → 0 < n ∧ 0 < group.start)
    (secondPos : ∀ prev text group n, second prev text = some (group, n) →
      0 < n ∧ 0 < group.start) :
    Opens fun prev text =>
      ((first prev text).map fun (group, n) => ({ first := some group }, n)).or
        ((second prev text).map fun (group, n) => ({ second := some group }, n)) := by
  intro prev text found n matched
  dsimp only at matched
  cases one : first prev text with
  | some match₁ =>
    rw [one] at matched
    cases matched
    obtain ⟨pos, start⟩ := firstPos prev text _ _ one
    exact ⟨pos, fun group is => by cases is; exact start, fun _ is => (by cases is)⟩
  | none =>
    cases two : second prev text with
    | none =>
      rw [one, two] at matched
      cases matched
    | some match₂ =>
      rw [one, two] at matched
      cases matched
      obtain ⟨pos, start⟩ := secondPos prev text _ _ two
      exact ⟨pos, fun _ is => (by cases is), fun group is => by cases is; exact start⟩

theorem bold_opens : Opens MD_BOLD_RE :=
  alternatives_opens (fun _ _ _ _ => boldBetween_pos) fun _ _ _ _ => boldBetween_pos

theorem italic_opens : Opens MD_ITALIC_RE :=
  alternatives_opens (fun _ _ _ _ => italicBetween_pos) fun _ _ _ _ => italicBetween_pos

theorem pre_opens : Opens MD_PRE_RE := by
  intro prev text found n matched
  rw [MD_PRE_RE] at matched
  split at matched
  case isTrue =>
      obtain ⟨size, _, same⟩ := Option.map_eq_some_iff.mp matched
      cases same
      refine ⟨by omega, fun group is => ?_, fun group is => ?_⟩
      · split at is
        case isTrue => cases is; exact Nat.succ_pos _
        case isFalse => cases is
      · cases is
        dsimp only
        split <;> omega
  case isFalse => cases matched

theorem pre2_opens : Opens MD2_PRE_RE := by
  intro prev text found n matched
  rw [MD2_PRE_RE] at matched
  split at matched
  case isTrue =>
      obtain ⟨size, _, same⟩ := Option.map_eq_some_iff.mp matched
      cases same
      refine ⟨by omega, fun group is => ?_, fun group is => ?_⟩
      · split at is
        case isTrue => cases is
        case isFalse => cases is; exact Nat.succ_pos _
      · cases is
        exact Nat.succ_pos _
  case isFalse => cases matched

theorem MD_PASSES_opens : ∀ p ∈ MD_PASSES, Opens p.pattern := by
  refine List.forall_mem_cons.mpr ⟨link_opens, ?_⟩
  refine List.forall_mem_cons.mpr ⟨pre_opens, ?_⟩
  refine List.forall_mem_cons.mpr ⟨delimited_opens (List.cons_ne_nil _ _), ?_⟩
  refine List.forall_mem_cons.mpr ⟨bold_opens, ?_⟩
  exact List.forall_mem_cons.mpr ⟨italic_opens, List.forall_mem_nil _⟩

theorem MD2_PASSES_opens : ∀ p ∈ MD2_PASSES, Opens p.pattern := by
  refine List.forall_mem_cons.mpr ⟨link_opens, ?_⟩
  refine List.forall_mem_cons.mpr ⟨pre2_opens, ?_⟩
  iterate 6 refine List.forall_mem_cons.mpr ⟨delimited_opens (List.cons_ne_nil _ _), ?_⟩
  exact List.forall_mem_nil _

/-! ### The entities of the passes -/

variable {passes : List MdPass} {s : MdState}

def MessageEntity.place (entity : MessageEntity) : Nat × Nat := (entity.offset, entity.length)

/-- The place of a find in the text of its pass. -/
def widths (span : List Char × List Char) : Nat × Nat := (utf16Len span.1, utf16Len span.2)

theorem map_place_appendEntity {entities after : List MessageEntity} {type : EntityType}
    {start : Nat} {content : List Char} {url language : Option (List Char)}
    {documentId : Option Nat}
    (ok : appendEntity entities type start (start + utf16Len content) url language documentId =
      .ok after) :
    after.map MessageEntity.place = entities.map MessageEntity.place ++
      if content.isEmpty then [] else [(start, utf16Len content)] := by
  rw [(appendEntity_eq_ok.mp ok).2, List.map_append]
  cases empty : content.isEmpty with
  | true =>
    rw [List.isEmpty_iff.mp empty, utf16Len_nil, if_pos (Nat.le_of_eq (Nat.add_zero _)),
      if_pos rfl, List.map_nil]
  | false =>
    have long : 0 < utf16Len content := utf16Len_pos fun same => by
      rw [same] at empty
      cases empty
    rw [if_neg (by omega), if_neg Bool.false_ne_true, Nat.add_sub_cancel_left]
    rfl

theorem MdPass.step_found {found : MdMatch} {raw : List Char} {next : MdState}
    (ok : p.step s (.found found raw) = .ok next) :
    next.plain = s.plain ++ p.cut.content found raw ∧
      next.offset = s.offset + utf16Len (p.cut.content found raw) ∧
      next.entities.map MessageEntity.place = s.entities.map MessageEntity.place ++
        if (p.cut.content found raw).isEmpty then []
        else [(s.offset, utf16Len (p.cut.content found raw))] := by
  obtain ⟨entities, appended, same⟩ := (bind_eq_ok _).mp ok
  cases same
  exact ⟨rfl, rfl, map_place_appendEntity appended⟩

theorem MdPass.exists_step_iff {t : Token Char MdMatch} :
    (∃ next, p.step s t = .ok next) ↔ p.Named t := by
  cases t with
  | plain c => exact iff_of_true ⟨_, rfl⟩ trivial
  | found found raw =>
    constructor
    · rintro ⟨next, ok⟩ pre some
      obtain ⟨entities, appended, _⟩ := (bind_eq_ok _).mp ok
      exact (appendEntity_eq_ok.mp appended).1 pre (Nat.lt_add_of_pos_right (utf16Len_pos some))
    · intro named
      have language (pre : p.entityType = .pre)
          (long : s.offset < s.offset + utf16Len ((p.contentOf found).of raw)) :
          p.languageOf found raw ≠ none :=
        named pre fun empty => by
          rw [empty, utf16Len_nil] at long
          exact absurd long (Nat.lt_irrefl _)
      exact ⟨_, (bind_eq_ok _).mpr ⟨_, appendEntity_eq_ok.mpr ⟨language, rfl⟩, rfl⟩⟩

theorem MdPass.exists_foldlM_iff {ts : List (Token Char MdMatch)} :
    (∃ last, ts.foldlM p.step s = .ok last) ↔ ∀ t ∈ ts, p.Named t := by
  induction ts generalizing s with
  | nil => exact iff_of_true ⟨s, rfl⟩ (List.forall_mem_nil _)
  | cons t ts ih =>
    rw [List.forall_mem_cons, List.foldlM_cons]
    constructor
    · rintro ⟨last, ok⟩
      obtain ⟨next, stepped, ok⟩ := (bind_eq_ok _).mp ok
      exact ⟨exists_step_iff.mp ⟨next, stepped⟩, ih.mp ⟨last, ok⟩⟩
    · rintro ⟨named, others⟩
      obtain ⟨next, stepped⟩ := exists_step_iff.mpr named
      obtain ⟨last, ok⟩ := ih.mpr others
      exact ⟨last, (bind_eq_ok _).mpr ⟨next, stepped, ok⟩⟩

theorem MdPass.foldlM_step {ts : List (Token Char MdMatch)} {last : MdState}
    (sync : s.offset = utf16Len s.plain) (ok : ts.foldlM p.step s = .ok last) :
    last.plain = s.plain ++ ts.flatMap p.cut.kept ∧
      last.entities.map MessageEntity.place =
        s.entities.map MessageEntity.place ++ (p.cut.spansFrom s.plain ts).map widths := by
  induction ts generalizing s with
  | nil =>
    cases ok
    exact ⟨(List.append_nil _).symm, (List.append_nil _).symm⟩
  | cons t ts ih =>
    rw [List.foldlM_cons] at ok
    obtain ⟨next, stepped, rest⟩ := (bind_eq_ok _).mp ok
    rw [List.flatMap_cons, ← List.append_assoc]
    cases t with
    | plain c =>
      cases stepped
      have sync : s.offset + utf16Len [c] = utf16Len (s.plain ++ [c]) := by
        rw [utf16Len_append, sync]
      exact ih sync rest
    | found found raw =>
      obtain ⟨plain, offset, added⟩ := step_found stepped
      have nextSync : next.offset = utf16Len next.plain := by
        rw [offset, plain, utf16Len_append, sync]
      obtain ⟨plains, places⟩ := ih nextSync rest
      rw [plain] at plains
      refine ⟨plains, places.trans ?_⟩
      rw [added, Pass.spansFrom, sync, plain, List.append_assoc]
      split
      case isTrue empty => rw [List.isEmpty_iff.mp empty, List.append_nil, List.nil_append]
      case isFalse => rfl

theorem parseMarkdownDelimited_spec {text : List Char} {p : MdPass}
    {parsed : List Char × List MessageEntity} (ok : parseMarkdownDelimited text p = .ok parsed) :
    parsed.1 = p.cut.output text ∧
      parsed.2.map MessageEntity.place = (p.cut.spans text).map widths := by
  obtain ⟨last, folded, rfl⟩ := map_eq_ok.mp ok
  have sync : ({} : MdState).offset = utf16Len ({} : MdState).plain := rfl
  exact MdPass.foldlM_step sync folded

theorem parsePasses_spec {passes : List MdPass} {text : List Char}
    {parsed : List Char × List MessageEntity} (ok : parsePasses passes text = .ok parsed) :
    parsed.1 = outputs (passes.map MdPass.cut) text ∧
      parsed.2.map MessageEntity.place = (found (passes.map MdPass.cut) text).map widths := by
  induction passes generalizing text parsed with
  | nil =>
    cases ok
    exact ⟨rfl, rfl⟩
  | cons p ps ih =>
    obtain ⟨first, one, ok⟩ := (bind_eq_ok _).mp ok
    obtain ⟨others, rest, same⟩ := (bind_eq_ok _).mp ok
    cases same
    obtain ⟨output, spans⟩ := parseMarkdownDelimited_spec one
    rw [output] at rest
    obtain ⟨outputs, finds⟩ := ih rest
    refine ⟨outputs, ?_⟩
    rw [List.map_append, spans, finds, List.map_cons, found, List.map_append]

/-- A text is parsed exactly when every block of code with content has a language. -/
theorem exists_parsePasses_iff {passes : List MdPass} {text : List Char} :
    (∃ parsed, parsePasses passes text = .ok parsed) ↔ Named passes text := by
  induction passes generalizing text with
  | nil => exact iff_of_true ⟨_, rfl⟩ trivial
  | cons p ps ih =>
    constructor
    · rintro ⟨parsed, ok⟩
      obtain ⟨first, one, ok⟩ := (bind_eq_ok _).mp ok
      obtain ⟨others, rest, _⟩ := (bind_eq_ok _).mp ok
      rw [(parseMarkdownDelimited_spec one).1] at rest
      obtain ⟨last, folded, _⟩ := map_eq_ok.mp one
      exact ⟨MdPass.exists_foldlM_iff.mp ⟨last, folded⟩, ih.mp ⟨others, rest⟩⟩
    · rintro ⟨named, others⟩
      obtain ⟨last, folded⟩ := MdPass.exists_foldlM_iff.mpr named
      have one : parseMarkdownDelimited text p = .ok (last.plain, last.entities) :=
        map_eq_ok.mpr ⟨last, folded, rfl⟩
      obtain ⟨rest, ok⟩ := ih.mpr others
      rw [← (parseMarkdownDelimited_spec one).1] at ok
      exact ⟨_, (bind_eq_ok _).mpr ⟨_, one, (bind_eq_ok _).mpr ⟨rest, ok, rfl⟩⟩⟩

theorem utf16Width_pos (c : Char) : 0 < utf16Width c := by
  rw [utf16Width]
  split <;> omega

theorem offsetsRight_iff {text : List Char} {parsed : List Char × List MessageEntity}
    (opens : ∀ p ∈ passes, Opens p.pattern) (ok : parsePasses passes text = .ok parsed) :
    OffsetsRight passes text parsed ↔ Undisturbed (passes.map MdPass.cut) text := by
  obtain ⟨plain, places⟩ := parsePasses_spec ok
  have removes : ∀ p ∈ passes.map MdPass.cut, p.Removes := fun _ mem => by
    obtain ⟨pass, listed, rfl⟩ := List.mem_map.mp mem
    exact MdPass.removes (opens pass listed)
  have inText : ∀ span ∈ placed (passes.map MdPass.cut) text,
      ∃ after, parsed.1 = span.1 ++ span.2 ++ after := fun span mem => by
    obtain ⟨after, whole⟩ := mem_placed mem
    exact ⟨after, by rw [plain, whole]⟩
  have same : List.Forall₂ (fun span entity =>
      entity.offset = utf16Len span.1 ∧ entity.length = utf16Len span.2)
      (placed (passes.map MdPass.cut) text) parsed.2 ↔
      List.Forall₂ (fun last first => widths last = widths first)
        (placed (passes.map MdPass.cut) text) (found (passes.map MdPass.cut) text) := by
    rw [← List.forall₂_map_right_iff (R := fun last place => widths last = place), ← places,
      List.forall₂_map_right_iff]
    have each (span : List Char × List Char) (entity : MessageEntity) :
        (entity.offset = utf16Len span.1 ∧ entity.length = utf16Len span.2) ↔
          widths span = entity.place := by
      rw [widths, MessageEntity.place, Prod.mk.injEq, eq_comm, eq_comm (b := utf16Len span.2)]
    simp only [each]
  have still : List.Forall₂ (fun last first => widths last = widths first)
      (placed (passes.map MdPass.cut) text) (found (passes.map MdPass.cut) text) ↔
      Undisturbed (passes.map MdPass.cut) text := by
    rw [← placed_iff utf16Width_pos removes]
    simp only [widths, Prod.mk.injEq]
    rfl
  rw [OffsetsRight, ← still, ← same]
  exact (List.forall₂_and_left _ _).trans (and_iff_right inText)

theorem returned_right_iff {text : List Char} (opens : ∀ p ∈ passes, Opens p.pattern) :
    (∀ parsed, parsePasses passes text = .ok parsed → OffsetsRight passes text parsed) ↔
      (Named passes text → Undisturbed (passes.map MdPass.cut) text) := by
  constructor
  · intro right named
    obtain ⟨parsed, ok⟩ := exists_parsePasses_iff.mpr named
    exact (offsetsRight_iff opens ok).mp (right parsed ok)
  · intro still parsed ok
    exact (offsetsRight_iff opens ok).mpr (still (exists_parsePasses_iff.mp ⟨parsed, ok⟩))

/-- In both modes entities are returned exactly when every block of code with content has a
language, and their offsets are right exactly when no pass finds a match that begins before the end
of the content of an entity that an earlier pass has found. -/
theorem offsets_right_iff (text : List Char) :
    ((∃ parsed, parseMarkdown text = .ok parsed) ↔ Named MD_PASSES text) ∧
    ((∀ parsed, parseMarkdown text = .ok parsed → OffsetsRight MD_PASSES text parsed) ↔
      (Named MD_PASSES text → Undisturbed (MD_PASSES.map MdPass.cut) text)) ∧
    ((∃ parsed, parseMarkdownV2 text = .ok parsed) ↔ Named MD2_PASSES (withoutEscapes text)) ∧
    ((∀ parsed, parseMarkdownV2 text = .ok parsed →
        OffsetsRight MD2_PASSES (withoutEscapes text) parsed) ↔
      (Named MD2_PASSES (withoutEscapes text) →
        Undisturbed (MD2_PASSES.map MdPass.cut) (withoutEscapes text))) :=
  ⟨exists_parsePasses_iff, returned_right_iff MD_PASSES_opens, exists_parsePasses_iff,
    returned_right_iff MD2_PASSES_opens⟩

end

/-! ### `**a** [x](u)` -/

private def boldThenLink : List Char :=
  ['*', '*', 'a', '*', '*', ' ', '[', 'x', ']', '(', 'u', ')']

/-- The link keeps the offset that it had before the four asterisks were taken out. -/
theorem link_shifted : ¬ ∀ text : List Char,
    (∀ parsed, parseMarkdown text = .ok parsed → OffsetsRight MD_PASSES text parsed) ∧
      ∀ parsed, parseMarkdownV2 text = .ok parsed →
        OffsetsRight MD2_PASSES (withoutEscapes text) parsed := by
  intro right
  have parsed : parseMarkdown boldThenLink = .ok (['a', ' ', 'x'],
      [⟨.textUrl, 6, 1, some ['u'], none, none⟩, ⟨.bold, 0, 1, none, none, none⟩]) := by rfl
  have covers := (right boldThenLink).1 _ parsed
  have spans : placed (MD_PASSES.map MdPass.cut) boldThenLink =
      [(['a', ' '], ['x']), ([], ['a'])] := by decide
  rw [OffsetsRight, spans, List.forall₂_cons] at covers
  exact absurd covers.1.2.1 (by decide)

end Piltover.BotApi
