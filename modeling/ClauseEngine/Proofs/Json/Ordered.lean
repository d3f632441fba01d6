/-
Module: ClauseEngine.Proofs.Json.Ordered
Purpose: The fields of every object that is read from a text ascend by name. Reading is a machine
  that takes one token at a time; each step keeps the fields of the open objects in order.
Main exports: Json.Ordered, Json.Expecting.Ordered, Json.Expecting.ordered_step?,
  Json.ordered_of_parse?
-/
import ClauseEngine.Json.Parser
import ClauseEngine.Proofs.Fields

namespace ClauseEngine

namespace Json

mutual

/-- Every object inside a value has its fields in order. -/
def Ordered : Json → Prop
  | .array items => OrderedItems items
  | .object fields => Fields.Ordered fields ∧ OrderedFields fields
  | _ => True

/-- Every value of a list has its fields in order. -/
def OrderedItems : List Json → Prop
  | [] => True
  | item :: rest => item.Ordered ∧ OrderedItems rest

/-- The value of every field has its own fields in order. -/
def OrderedFields : List (String × Json) → Prop
  | [] => True
  | (_, value) :: rest => value.Ordered ∧ OrderedFields rest

end

theorem orderedItems_iff {items : List Json} : OrderedItems items ↔ ∀ j ∈ items, j.Ordered := by
  induction items with
  | nil => simp [OrderedItems]
  | cons item rest ih => simp [OrderedItems, ih]

theorem orderedFields_iff {fields : List (String × Json)} :
    OrderedFields fields ↔ ∀ field ∈ fields, field.2.Ordered := by
  induction fields with
  | nil => simp [OrderedFields]
  | cons field rest ih =>
      obtain ⟨name, value⟩ := field
      simp only [OrderedFields, ih, List.mem_cons, forall_eq_or_imp]

/-- An object stays in order when a field is stored. -/
theorem ordered_object_insert {fields : List (String × Json)} (hfields : (object fields).Ordered)
    (name : String) {value : Json} (hvalue : value.Ordered) :
    (object (Fields.insert name value fields)).Ordered := by
  refine ⟨Fields.ordered_insert hfields.1 name value, orderedFields_iff.2 ?_⟩
  intro field hfield
  rcases Fields.mem_insert hfield with rfl | hfield
  · exact hvalue
  · exact orderedFields_iff.1 hfields.2 field hfield

/-- So it does when several fields are stored, or removed. -/
theorem ordered_object_overlay {base extra : List (String × Json)} (hbase : (object base).Ordered)
    (hextra : ∀ field ∈ extra, field.2.Ordered) : (object (Fields.overlay base extra)).Ordered := by
  induction extra generalizing base with
  | nil => exact hbase
  | cons field rest ih =>
      obtain ⟨hfield, hrest⟩ := List.forall_mem_cons.1 hextra
      exact ih (ordered_object_insert hbase field.1 hfield) hrest

/-- So do the fields that are left when some names are erased. -/
theorem ordered_object_foldl_erase {fields : List (String × Json)} (names : List String)
    (hfields : (object fields).Ordered) :
    (object (names.foldl (fun fields name => Fields.erase name fields) fields)).Ordered := by
  induction names generalizing fields with
  | nil => exact hfields
  | cons name rest ih =>
      refine ih ⟨hfields.1.filter _, orderedFields_iff.2 fun field hfield => ?_⟩
      exact orderedFields_iff.1 hfields.2 field (List.mem_filter.1 hfield).1

/-! ### One token

What the machine holds are a document or the fields of an object, and the containers that are open
around it. A token opens a container, closes one or stores what is done in one; storing a field
keeps the names ascending, whatever the name is. -/

/-- What an open container holds is in order. -/
def Frame.Ordered : Frame → Prop
  | .array items => ∀ item ∈ items, item.Ordered
  | .object fields _ => (Json.object fields).Ordered

namespace Expecting

/-- The containers around what is read next. -/
def stack : Expecting → List Frame
  | .value stack => stack
  | .firstItem stack => stack
  | .firstName stack => stack
  | .nextName _ stack => stack
  | .colon _ _ stack => stack
  | .continuation _ stack => stack

/-- The part of the innermost value that is not on the stack. -/
def held : Expecting → Json
  | .nextName fields _ => .object fields
  | .colon fields _ _ => .object fields
  | .continuation done _ => done
  | _ => .null

/-- All that has been read so far is in order. -/
def Ordered (state : Expecting) : Prop :=
  state.held.Ordered ∧ ∀ frame ∈ state.stack, frame.Ordered

end Expecting

/-- A bare word has no fields. -/
theorem ordered_of_ofWord? {word : List Char} {j : Json} (h : ofWord? word = some j) :
    j.Ordered := by
  unfold ofWord? at h
  split at h
  · cases h
    trivial
  · split at h
    · cases h
      trivial
    · split at h
      · cases h
        trivial
      · obtain ⟨literal, _, hliteral⟩ := Option.bind_eq_some_iff.1 h
        unfold Literal.toJson? at hliteral
        grind [Ordered]

namespace Expecting

/-- A token that begins a document keeps the order of the open objects. -/
theorem ordered_begin? {limit : Nat} {stack : List Frame} {token : Token} {next : Expecting}
    (hstack : ∀ frame ∈ stack, frame.Ordered) (h : begin? limit stack token = some next) :
    next.Ordered := by
  cases token with
  | mark c =>
      simp only [begin?] at h
      split at h
      · split at h
        · cases h
          exact ⟨trivial, hstack⟩
        · split at h
          · cases h
            exact ⟨trivial, hstack⟩
          · cases h
      · cases h
  | text s =>
      cases h
      exact ⟨trivial, hstack⟩
  | word chars =>
      obtain ⟨done, hdone, rfl⟩ := Option.map_eq_some_iff.1 h
      exact ⟨ordered_of_ofWord? hdone, hstack⟩

/-- Reading a token keeps everything in order. -/
theorem ordered_step? {limit : Nat} {state next : Expecting} {token : Token}
    (hstate : state.Ordered) (h : step? limit state token = some next) : next.Ordered := by
  obtain ⟨hheld, hstack⟩ := hstate
  have hempty : (Json.object []).Ordered := ⟨List.Pairwise.nil, trivial⟩
  unfold step? at h
  split at h
  · exact ordered_begin? hstack h
  · -- An array opens, or closes at once.
    split at h
    · cases h
      exact ⟨trivial, hstack⟩
    · have hopen : (Frame.array []).Ordered := by
        intro item hitem
        cases hitem
      exact ordered_begin? (List.forall_mem_cons.2 ⟨hopen, hstack⟩) h
  · split at h
    · split at h
      · cases h
        exact ⟨hempty, hstack⟩
      · cases h
    · cases h
      exact ⟨hempty, hstack⟩
    · cases h
  · split at h
    · cases h
      exact ⟨hheld, hstack⟩
    · cases h
  · split at h
    · cases h
      exact ⟨trivial, List.forall_mem_cons.2 ⟨hheld, hstack⟩⟩
    · cases h
  · -- An item is done.
    rename_i done items stack
    obtain ⟨hitems, hstack⟩ := List.forall_mem_cons.1 hstack
    have hdone : ∀ item ∈ done :: items, item.Ordered := List.forall_mem_cons.2 ⟨hheld, hitems⟩
    split at h
    · cases h
      exact ⟨trivial, List.forall_mem_cons.2 ⟨hdone, hstack⟩⟩
    · split at h
      · cases h
        refine ⟨orderedItems_iff.2 fun item hitem => ?_, hstack⟩
        exact hdone item (List.mem_reverse.1 hitem)
      · cases h
  · -- The value of a field is done.
    rename_i done fields name stack
    obtain ⟨hfields, hstack⟩ := List.forall_mem_cons.1 hstack
    have hinsert := ordered_object_insert hfields name hheld
    split at h
    · cases h
      exact ⟨hinsert, hstack⟩
    · split at h
      · cases h
        exact ⟨hinsert, hstack⟩
      · cases h
  · cases h

/-- The run lemma: so does a row of tokens. -/
theorem ordered_foldlM {limit : Nat} {tokens : List Token} {state final : Expecting}
    (hstate : state.Ordered) (h : tokens.foldlM (step? limit) state = some final) :
    final.Ordered := by
  induction tokens generalizing state with
  | nil =>
      cases h
      exact hstate
  | cons token rest ih =>
      rw [List.foldlM_cons] at h
      obtain ⟨next, hnext, hrest⟩ := Option.bind_eq_some_iff.1 h
      exact ih (ordered_step? hstate hnext) hrest

end Expecting

/-- The objects of a value that is read have their fields in order. -/
theorem ordered_of_parse? {limit : Nat} {text : String} {j : Json}
    (h : parse? limit text = some j) : j.Ordered := by
  obtain ⟨tokens, _, h⟩ := Option.bind_eq_some_iff.1 h
  obtain ⟨final, hfinal, h⟩ := Option.bind_eq_some_iff.1 h
  have hstart : (Expecting.value []).Ordered := ⟨trivial, nofun⟩
  have hordered := Expecting.ordered_foldlM hstart hfinal
  split at h
  · cases h
    exact hordered.1
  · cases h

end Json

end ClauseEngine
