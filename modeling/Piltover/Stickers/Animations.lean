/- source: piltover/app/handlers/stickers.py
   digest: Animated stickers: which documents are accepted, and what may still be in them. -/

import Piltover.Failure
import Piltover.Foundation.Collecting
import Piltover.Foundation.Json

set_option autoImplicit false

namespace Piltover.Stickers.Animations

open Piltover.Foundation
open Piltover.Foundation.Python

abbrev Fields := List (Text × Json)

/-- `item.get("ty") in ("rp", "sr", "mm", "gs")` -/
def isForbiddenItem (item : Fields) : Bool :=
  ["rp", "sr", "mm", "gs"].any fun type => (Json.get item "ty").eqStr type

/-- The attributes and types that a layer must not have. -/
def isForbiddenLayer (layer : Fields) : Bool :=
  (Json.get layer "ddd").truthy || !(Json.get layer "sr").eqInt 1 || !(Json.get layer "tm").isNull ||
    [1, 2, 5].any (fun type => (Json.get layer "ty").eqInt type) ||
    (Json.get layer "hasMask").truthy || !(Json.get layer "maskProperties").isNull ||
    !(Json.get layer "tt").isNull || (Json.get layer "ao").eqInt 1 || !(Json.get layer "ef").isNull

/-- Nothing is fine; otherwise each member has to be. -/
def validateEach (check : Json → Except PyError Bool) (members : Json) : Except PyError Bool :=
  if members.truthy then members.iterate.bind fun members => members.allM check else .ok true

/-- `get` is a method of dictionaries. -/
def onObject (check : Fields → Except PyError Bool) : Json → Except PyError Bool
  | .dict fields => check fields
  | _ => .error .attributeError

/-- `_validate_tgs_layer_items`, with what is done about the inside of an item. -/
def validateItems (inner : Json → Except PyError Bool) : Json → Except PyError Bool :=
  validateEach (onObject fun item =>
    andAlso (.ok !isForbiddenItem item) (inner (Json.get item "id")))

/-- With `shapes` it calls itself without. -/
def validateTgsLayerItems (shapes : Bool) : Json → Except PyError Bool :=
  validateItems (if shapes then validateItems fun _ => .ok true else fun _ => .ok true)

def validateTgsLayers : Json → Except PyError Bool :=
  validateEach (onObject fun layer =>
    andAlso (.ok !isForbiddenLayer layer) (validateTgsLayerItems true (Json.get layer "shapes")))

/-- `value[key]` has to be as required. -/
def requires (value : Json) (key : String) (check : Json → Bool) : Except PyError Bool :=
  (value.subscript key).map check

/-- `tgs.get(key)` for what has been subscripted already. -/
def getOf (value : Json) (key : String) : Json :=
  match value with
  | .dict fields => Json.get fields key
  | _ => .null

/-- `tgs["op"] - tgs["ip"]` -/
def duration (tgs : Json) : Except PyError Json :=
  (tgs.subscript "op").bind fun op => (tgs.subscript "ip").bind fun ip => subtract op ip

/-- The second `try` block; what it raises itself is false here. -/
def checkTgs (tgs : Json) : Except PyError Bool :=
  andAlso (requires tgs "tgs" (·.eqStr "1")) <|
  andAlso (requires tgs "fr" (·.eqInt 60)) <|
  andAlso (requires tgs "w" (·.eqInt 512)) <|
  andAlso (requires tgs "h" (·.eqInt 512)) <|
  andAlso ((duration tgs).map (!exceeds 180 ·)) <|
  andAlso (.ok !(getOf tgs "ddd").truthy) <|
  andAlso (validateEach (fun asset => (asset.subscript "layers").bind validateTgsLayers)
    (getOf tgs "assets")) <|
  (tgs.subscript "layers").bind validateTgsLayers

/-- What `gzip.decompress` and `json.loads` raise. -/
inductive LoadError
  | badGzipFile
  | jsonDecodeError
  | other
  deriving DecidableEq, Repr

/-- A stored file, and what its contents are loaded as. -/
structure File where
  size : Nat
  document : Except LoadError Json

/-- What the second `try` block catches. -/
def isCaught : PyError → Bool
  | .typeError | .valueError | .unicodeEncodeError | .keyError => true
  | .attributeError | .overflowError | .recursionError | .doesNotExist => false

def fileInvalid : Failure := .rpc 400 "STICKER_FILE_INVALID"

def notTgs : Failure := .rpc 400 "STICKER_TGS_NOTGS"

/-- What the second `try` block comes to. -/
def outcome : Except PyError Bool → Except Failure Unit
  | .ok true => .ok ()
  | .ok false => .error notTgs
  | .error e => .error (if isCaught e then notTgs else .other)

def validateTgs (file : File) : Except Failure Unit :=
  if file.size > 64 * 1024 then .error fileInvalid
  else
    match file.document with
    | .error .badGzipFile | .error .jsonDecodeError => .error notTgs
    | .error .other => .error .other
    | .ok tgs => outcome (checkTgs tgs)

/-! ### What passes, and what breaks -/

def Escapes (e : PyError) : Prop := isCaught e = false

structure Spec (check : Json → Except PyError Bool) (passes breaks : Json → Prop) : Prop where
  passes_iff : ∀ value, check value = .ok true ↔ passes value
  breaks_iff : ∀ value, Raises Escapes (check value) ↔ breaks value

def EachPasses (passes : Json → Prop) (members : Json) : Prop :=
  members.truthy → ∃ list, members.iterate = .ok list ∧ ∀ m ∈ list, passes m

def EachBreaks (passes breaks : Json → Prop) (members : Json) : Prop :=
  members.truthy ∧ ∃ list, members.iterate = .ok list ∧
    ∃ before m after, list = before ++ m :: after ∧ (∀ b ∈ before, passes b) ∧ breaks m

def ObjectPasses (bad : Fields → Bool) (key : String) (passes : Json → Prop) (value : Json) : Prop :=
  ∃ fields, value = .dict fields ∧ bad fields = false ∧ passes (Json.get fields key)

def ObjectBreaks (bad : Fields → Bool) (key : String) (breaks : Json → Prop) (value : Json) : Prop :=
  (∀ fields, value ≠ .dict fields) ∨
    ∃ fields, value = .dict fields ∧ bad fields = false ∧ breaks (Json.get fields key)

/-- `value["layers"]` is there. -/
def WithLayers (holds : Json → Prop) (value : Json) : Prop :=
  ∃ layers, value.subscript "layers" = .ok layers ∧ holds layers

variable {check : Json → Except PyError Bool} {passes breaks : Json → Prop}

theorem not_raises_subscript (value : Json) (key : String) :
    ¬ Raises Escapes (value.subscript key) := by
  unfold Json.subscript
  split
  · split <;> simp [Escapes, isCaught]
  · simp [Escapes, isCaught]

theorem not_raises_iterate (members : Json) : ¬ Raises Escapes members.iterate := by
  cases members <;> simp [Json.iterate, Escapes, isCaught]

theorem Spec.each (spec : Spec check passes breaks) :
    Spec (validateEach check) (EachPasses passes) (EachBreaks passes breaks) := by
  constructor <;> intro members
  · rw [validateEach, EachPasses]
    cases members.truthy with
    | false => simp
    | true =>
      cases members.iterate with
      | error e => simp [Except.bind]
      | ok list => simp [Except.bind, allM_eq_true, spec.passes_iff]
  · have never := not_raises_iterate members
    rw [validateEach, EachBreaks]
    cases members.truthy with
    | false => simp
    | true =>
      cases gone : members.iterate with
      | error e => simpa [Except.bind, gone] using never
      | ok list => simp [Except.bind, raises_allM, spec.passes_iff, spec.breaks_iff]

theorem Spec.object (bad : Fields → Bool) (key : String) (spec : Spec check passes breaks) :
    Spec (onObject fun fields => andAlso (.ok !bad fields) (check (Json.get fields key)))
      (ObjectPasses bad key passes) (ObjectBreaks bad key breaks) := by
  constructor <;> intro value
  · cases value <;> simp [onObject, ObjectPasses, andAlso_eq_true, spec.passes_iff]
  · cases value <;>
      simp [onObject, ObjectBreaks, raises_andAlso, spec.breaks_iff, Escapes, isCaught]

theorem Spec.layers (spec : Spec check passes breaks) :
    Spec (fun value => (value.subscript "layers").bind check) (WithLayers passes)
      (WithLayers breaks) := by
  constructor <;> intro value
  · rw [WithLayers]
    cases value.subscript "layers" with
    | error e => simp [Except.bind]
    | ok layers => simp [Except.bind, spec.passes_iff]
  · have never := not_raises_subscript value "layers"
    rw [WithLayers]
    cases found : value.subscript "layers" with
    | error e => simpa [Except.bind, found] using never
    | ok layers => simp [Except.bind, spec.breaks_iff]

theorem Spec.nothing : Spec (fun _ => .ok true) (fun _ => True) (fun _ => False) :=
  ⟨fun _ => by simp, fun _ => by simp⟩

/-- The items of a shape's item that has them under `id`. -/
abbrev InnerPass : Json → Prop := EachPasses (ObjectPasses isForbiddenItem "id" fun _ => True)

abbrev InnerBreak : Json → Prop :=
  EachBreaks (ObjectPasses isForbiddenItem "id" fun _ => True)
    (ObjectBreaks isForbiddenItem "id" fun _ => False)

abbrev ShapesPass : Json → Prop := EachPasses (ObjectPasses isForbiddenItem "id" InnerPass)

abbrev ShapesBreak : Json → Prop :=
  EachBreaks (ObjectPasses isForbiddenItem "id" InnerPass)
    (ObjectBreaks isForbiddenItem "id" InnerBreak)

abbrev LayersPass : Json → Prop := EachPasses (ObjectPasses isForbiddenLayer "shapes" ShapesPass)

abbrev LayersBreak : Json → Prop :=
  EachBreaks (ObjectPasses isForbiddenLayer "shapes" ShapesPass)
    (ObjectBreaks isForbiddenLayer "shapes" ShapesBreak)

theorem spec_validateTgsLayers : Spec validateTgsLayers LayersPass LayersBreak := by
  have inner := (Spec.nothing.object isForbiddenItem "id").each
  have shapes := (inner.object isForbiddenItem "id").each
  exact (shapes.object isForbiddenLayer "shapes").each

/-! ### Documents -/

def Has (tgs : Json) (key : String) (check : Json → Bool) : Prop :=
  ∃ value, tgs.subscript key = .ok value ∧ check value = true

def Described (tgs : Json) : Prop :=
  Has tgs "tgs" (·.eqStr "1") ∧ Has tgs "fr" (·.eqInt 60) ∧ Has tgs "w" (·.eqInt 512) ∧
    Has tgs "h" (·.eqInt 512)

def Short (tgs : Json) : Prop := ∃ time, duration tgs = .ok time ∧ exceeds 180 time = false

def TooLarge (value other : Json) : Prop :=
  ∃ n x, value.integer = some n ∧ other = .float x ∧ (Float.ofInt n).isInf = true

def Overflows (tgs : Json) : Prop :=
  ∃ op ip, tgs.subscript "op" = .ok op ∧ tgs.subscript "ip" = .ok ip ∧
    (TooLarge op ip ∨ TooLarge ip op)

/-- What the validator accepts. -/
def DocumentPasses (tgs : Json) : Prop :=
  Described tgs ∧ Short tgs ∧ (getOf tgs "ddd").truthy = false ∧
    EachPasses (WithLayers LayersPass) (getOf tgs "assets") ∧ WithLayers LayersPass tgs

/-- What it comes to that breaks. -/
def DocumentBreaks (tgs : Json) : Prop :=
  Described tgs ∧ (Overflows tgs ∨ Short tgs ∧ (getOf tgs "ddd").truthy = false ∧
    (EachBreaks (WithLayers LayersPass) (WithLayers LayersBreak) (getOf tgs "assets") ∨
      EachPasses (WithLayers LayersPass) (getOf tgs "assets") ∧ WithLayers LayersBreak tgs))

variable {tgs : Json}

theorem raises_subtract {a b : Json} :
    Raises Escapes (subtract a b) ↔ TooLarge a b ∨ TooLarge b a := by
  have of_float (n : Int) (g : Float → Json) :
      Raises Escapes ((floatOfInt n).map g) ↔ (Float.ofInt n).isInf = true := by
    rw [raises_map, floatOfInt]
    split <;> simp_all [Escapes, isCaught]
  cases a <;> cases b <;>
    simp [subtract, TooLarge, Json.integer, of_float, Escapes, isCaught]

theorem raises_duration : Raises Escapes (duration tgs) ↔ Overflows tgs := by
  have no_op := not_raises_subscript tgs "op"
  have no_ip := not_raises_subscript tgs "ip"
  rw [duration, Overflows]
  cases op : tgs.subscript "op" with
  | error e => simpa [Except.bind, op] using no_op
  | ok op =>
    cases ip : tgs.subscript "ip" with
    | error e => simpa [Except.bind, ip] using no_ip
    | ok ip => simp [Except.bind, raises_subtract]

theorem requires_eq_true {key : String} {check : Json → Bool} :
    requires tgs key check = .ok true ↔ Has tgs key check := by
  rw [requires, Has]
  cases tgs.subscript key <;> simp

theorem not_raises_requires {key : String} {check : Json → Bool} :
    ¬ Raises Escapes (requires tgs key check) := by
  rw [requires, raises_map]
  exact not_raises_subscript tgs key

theorem short_eq_true : (duration tgs).map (!exceeds 180 ·) = .ok true ↔ Short tgs := by
  rw [Short]
  cases duration tgs <;> simp

theorem spec_checkTgs : Spec checkTgs DocumentPasses DocumentBreaks := by
  have layers := spec_validateTgsLayers.layers
  have assets := layers.each
  constructor <;> intro tgs
  · simp only [checkTgs, andAlso_eq_true, requires_eq_true, short_eq_true, assets.passes_iff,
      layers.passes_iff, DocumentPasses, Described, and_assoc, Except.ok.injEq, Bool.not_eq_true']
  · simp only [checkTgs, raises_andAlso, requires_eq_true, not_raises_requires, short_eq_true,
      raises_map, raises_duration, not_raises_ok, assets.passes_iff, assets.breaks_iff,
      layers.breaks_iff, DocumentBreaks, Described, and_assoc, false_or, Except.ok.injEq,
      Bool.not_eq_true']

/-! ### What may still be in an accepted document -/

/-- An item at any depth, where groups have their items under `it`. -/
inductive Inside : Json → Fields → Prop
  | here {items : List Json} {item : Fields} : .dict item ∈ items → Inside (.list items) item
  | deeper {items : List Json} {group item : Fields} :
    .dict group ∈ items → Inside (Json.get group "it") item → Inside (.list items) item

def CleanItems (items : Json) : Prop := ∀ item, Inside items item → isForbiddenItem item = false

inductive IsLayer (tgs : Json) : Fields → Prop
  | own {layers : List Json} {layer : Fields} :
    tgs.subscript "layers" = .ok (.list layers) → .dict layer ∈ layers → IsLayer tgs layer
  | ofAsset {assets layers : List Json} {asset : Json} {layer : Fields} :
    getOf tgs "assets" = .list assets → asset ∈ assets →
      asset.subscript "layers" = .ok (.list layers) → .dict layer ∈ layers → IsLayer tgs layer

/-- No layer and no item at any depth is forbidden. -/
def Clean (tgs : Json) : Prop :=
  ∀ layer, IsLayer tgs layer →
    isForbiddenLayer layer = false ∧ CleanItems (Json.get layer "shapes")

/-- No item of a group is forbidden. -/
def GroupsClean (tgs : Json) : Prop :=
  ∀ layer, IsLayer tgs layer → ∀ items, Json.get layer "shapes" = .list items →
    ∀ group, .dict group ∈ items → CleanItems (Json.get group "it")

theorem eachPasses_list {items : List Json} :
    EachPasses passes (.list items) ↔ ∀ m ∈ items, passes m := by
  cases items <;> simp [EachPasses, Json.truthy, Json.iterate]

theorem cleanItems_list {items : List Json} :
    CleanItems (.list items) ↔ ∀ group, .dict group ∈ items →
      isForbiddenItem group = false ∧ CleanItems (Json.get group "it") := by
  constructor
  · intro clean group listed
    exact ⟨clean group (.here listed), fun item inside => clean item (.deeper listed inside)⟩
  · intro clean item inside
    cases inside with
    | here listed => exact (clean item listed).1
    | deeper listed inside => exact (clean _ listed).2 item inside

theorem cleanItems_of_not_list {items : Json} (other : ∀ list, items ≠ .list list) :
    CleanItems items := by
  intro item inside
  cases inside with
  | here _ => exact absurd rfl (other _)
  | deeper _ _ => exact absurd rfl (other _)

theorem layer_passes (accepted : DocumentPasses tgs) {layer : Fields} (there : IsLayer tgs layer) :
    isForbiddenLayer layer = false ∧ ShapesPass (Json.get layer "shapes") := by
  obtain ⟨-, -, -, assets, own⟩ := accepted
  have of_list {layers : List Json} (pass : LayersPass (.list layers)) (listed : .dict layer ∈ layers) :
      isForbiddenLayer layer = false ∧ ShapesPass (Json.get layer "shapes") := by
    obtain ⟨fields, same, allowed, shapes⟩ := eachPasses_list.mp pass _ listed
    cases same
    exact ⟨allowed, shapes⟩
  cases there with
  | own found listed =>
    obtain ⟨layers, same, pass⟩ := own
    cases found.symm.trans same
    exact of_list pass listed
  | ofAsset found among has_layers listed =>
    rw [found] at assets
    obtain ⟨layers, same, pass⟩ := eachPasses_list.mp assets _ among
    cases has_layers.symm.trans same
    exact of_list pass listed

theorem clean_iff (accepted : DocumentPasses tgs) : Clean tgs ↔ GroupsClean tgs := by
  refine forall₂_congr fun layer there => ?_
  obtain ⟨allowed, shapes⟩ := layer_passes accepted there
  constructor
  · rintro ⟨-, clean⟩ items same group listed
    rw [same, cleanItems_list] at clean
    exact (clean group listed).2
  · intro groups
    refine ⟨allowed, ?_⟩
    by_cases some_list : ∃ items, Json.get layer "shapes" = .list items
    · obtain ⟨items, same⟩ := some_list
      rw [same, cleanItems_list]
      rw [same] at shapes
      intro group listed
      obtain ⟨fields, same_item, fine, -⟩ := eachPasses_list.mp shapes _ listed
      cases same_item
      exact ⟨fine, groups items same group listed⟩
    · exact cleanItems_of_not_list fun list same => some_list ⟨list, same⟩

theorem validateTgs_of_loaded {file : File} (small : file.size ≤ 64 * 1024)
    (loaded : file.document = .ok tgs) :
    (validateTgs file ≠ .error .other ↔ ¬ DocumentBreaks tgs) ∧
      (validateTgs file = .ok () ↔ DocumentPasses tgs) := by
  have validated : validateTgs file = outcome (checkTgs tgs) := by
    rw [validateTgs, if_neg (Nat.not_lt.mpr small), loaded]
  rw [validated, ← spec_checkTgs.breaks_iff, ← spec_checkTgs.passes_iff]
  rcases checkTgs tgs with e | _ | _
  · cases caught : isCaught e <;> simp [outcome, Escapes, caught, notTgs]
  · simp [outcome, notTgs]
  · simp [outcome]

/-- The validator raises nothing but an `ErrorRpc` and lets only clean documents pass exactly when a
small file is loaded, or refused as none, and its document breaks nowhere and has clean groups if it
is accepted. -/
theorem validateTgs_iff (file : File) :
    (validateTgs file ≠ .error .other ∧
      ∀ tgs, file.document = .ok tgs → validateTgs file = .ok () → Clean tgs) ↔
    (file.size ≤ 64 * 1024 → file.document ≠ .error .other ∧
      ∀ tgs, file.document = .ok tgs →
        ¬ DocumentBreaks tgs ∧ (DocumentPasses tgs → GroupsClean tgs)) := by
  by_cases small : file.size ≤ 64 * 1024
  · simp only [small, forall_const]
    cases loaded : file.document with
    | error e =>
      rw [validateTgs, if_neg (Nat.not_lt.mpr small), loaded]
      cases e <;> simp [notTgs]
    | ok tgs =>
      obtain ⟨total, accepted⟩ := validateTgs_of_loaded small loaded
      have clean := @clean_iff tgs
      simp only [total, accepted, Except.ok.injEq, forall_eq', ne_eq, reduceCtorEq, not_false_eq_true,
        true_and]
      exact and_congr_right fun _ => forall_congr' clean
  · have refused : validateTgs file = .error fileInvalid := by
      rw [validateTgs, if_pos (Nat.lt_of_not_le small)]
    simp [refused, fileInvalid, small]

/-- A document with one layer, whose shapes are these. -/
def withShapes (shapes : Json) : Json :=
  .dict [(text "tgs", .str (text "1")), (text "fr", .int 60), (text "w", .int 512),
    (text "h", .int 512), (text "op", .int 180), (text "ip", .int 0),
    (text "layers", .list [.dict [(text "sr", .int 1), (text "shapes", shapes)]])]

/-- A repeater in a group is accepted, and shapes that are no objects raise an `AttributeError`. -/
theorem repeater_in_group_accepted :
    (validateTgs ⟨1000, .ok (withShapes (.list [.dict [(text "ty", .str (text "gr")),
        (text "it", .list [.dict [(text "ty", .str (text "rp"))]])]]))⟩ = .ok () ∧
      ¬ Clean (withShapes (.list [.dict [(text "ty", .str (text "gr")),
        (text "it", .list [.dict [(text "ty", .str (text "rp"))]])]]))) ∧
    validateTgs ⟨1000, .ok (withShapes (.list [.int 1]))⟩ = .error .other := by
  refine ⟨⟨rfl, ?_⟩, rfl⟩
  intro clean
  have layer := clean _ (.own rfl List.mem_cons_self)
  have item := layer.2 _ (.deeper List.mem_cons_self (.here List.mem_cons_self))
  revert item
  decide

end Piltover.Stickers.Animations
