/-
Module: ClauseEngine.Proofs.Value.Text
Purpose: The structural text of a value is longer than that of each of its parts. Quotation marks are
  added to every string and braces to every object, and no character is left out; so no string is the
  text of a record that holds it.
Main exports: Json.length_lt_quoted, Json.length_le_intercalate, Json.length_lt_render_object,
  Value.length_text_lt, Value.length_lt_text_of_str
-/
import ClauseEngine.Value.Wire

namespace ClauseEngine

namespace Json

/-! ### Strings

Every character is written as one character or more, between two quotation marks. -/

/-- No character is left out. -/
theorem escaped_ne_nil (c : Char) : escaped c ≠ [] := by
  fun_cases escaped c <;> simp

/-- No character is left out. -/
theorem length_le_flatMap_escaped (cs : List Char) : cs.length ≤ (cs.flatMap escaped).length := by
  induction cs with
  | nil => exact Nat.le_refl 0
  | cons c rest ih =>
      have hescaped : 0 < (escaped c).length := List.length_pos_iff.2 (escaped_ne_nil c)
      rw [List.flatMap_cons, List.length_append, List.length_cons]
      omega

/-- A quoted string is longer than the string. -/
theorem length_lt_quoted (s : String) : s.length < (quoted s).length := by
  have hle := length_le_flatMap_escaped s.toList
  rw [String.length_toList] at hle
  rw [quoted, String.length_ofList, List.length_cons, List.length_append]
  omega

/-! ### Objects

The text of a field stands whole in the text of its object, between braces. -/

/-- A text that is joined with others is no longer than the whole. -/
theorem length_le_intercalate (separator : String) {text : String} {texts : List String}
    (h : text ∈ texts) : text.length ≤ (separator.intercalate texts).length := by
  induction texts with
  | nil => cases h
  | cons first rest ih =>
      cases rest with
      | nil =>
          have hfirst : text = first := List.mem_singleton.1 h
          exact Nat.le_of_eq (by rw [hfirst, String.intercalate_singleton])
      | cons second others =>
          rw [String.intercalate_cons_cons, String.length_append, String.length_append]
          rcases List.mem_cons.1 h with rfl | hrest
          · omega
          · have hle := ih hrest
            omega

/-- The text of a field, as it stands in an object. -/
theorem mem_renderFields {fields : List (String × Json)} {name : String} {value : Json}
    (h : (name, value) ∈ fields) : quoted name ++ ":" ++ value.render ∈ renderFields fields := by
  induction fields with
  | nil => cases h
  | cons field rest ih =>
      obtain ⟨first, content⟩ := field
      rw [renderFields]
      rcases List.mem_cons.1 h with heq | hrest
      · cases heq
        exact List.mem_cons_self
      · exact List.mem_cons_of_mem _ (ih hrest)

/-- The text of a field is shorter than that of its object. -/
theorem length_lt_render_object {fields : List (String × Json)} {name : String} {value : Json}
    (h : (name, value) ∈ fields) : value.render.length < (render (.object fields)).length := by
  have hle := length_le_intercalate "," (mem_renderFields h)
  have hopen : "\x7b".length = 1 := rfl
  rw [String.length_append, String.length_append] at hle
  rw [render, String.length_append, String.length_append, hopen]
  omega

end Json

namespace Value

theorem mem_encodeFields {fields : List (String × Value)} {name : String} {value : Value}
    (h : (name, value) ∈ fields) : (name, value.encode) ∈ encodeFields fields := by
  induction fields with
  | nil => cases h
  | cons field rest ih =>
      obtain ⟨first, content⟩ := field
      rw [encodeFields]
      rcases List.mem_cons.1 h with heq | hrest
      · cases heq
        exact List.mem_cons_self
      · exact List.mem_cons_of_mem _ (ih hrest)

/-- The text of a field is shorter than that of its record, branded or not. -/
theorem length_text_lt {v value : Value} {fields : List (String × Value)} {name : String}
    (hfields : v.fields? = some fields) (h : fields.lookup name = some value) :
    value.text.length < v.text.length := by
  obtain ⟨before, after, hsplit, -⟩ := List.lookup_eq_some_iff.1 h
  have hmem : (name, value) ∈ fields := by simp [hsplit]
  have hinside : value.text.length < (Json.render (.object (encodeFields fields))).length :=
    Json.length_lt_render_object (mem_encodeFields hmem)
  unfold text at *
  cases v with
  | record own =>
      cases hfields
      rw [encode]
      split
      · exact Nat.lt_trans hinside (Json.length_lt_render_object List.mem_cons_self)
      · exact hinside
  | branded brand own =>
      cases hfields
      rw [encode]
      have hdata : (dataField, Json.object (encodeFields fields)) ∈
          [(classField, Json.string brand), (dataField, Json.object (encodeFields fields))] := by
        simp
      exact Nat.lt_trans hinside (Json.length_lt_render_object hdata)
  | _ => cases hfields

/-- A string in a field is shorter than the text of the record. -/
theorem length_lt_text_of_str {v : Value} {fields : List (String × Value)} {name s : String}
    (hfields : v.fields? = some fields) (h : fields.lookup name = some (.str s)) :
    s.length < v.text.length := by
  have hquoted : (Value.str s).text = Json.quoted s := by rw [text, encode, Json.render]
  have hlt := length_text_lt hfields h
  rw [hquoted] at hlt
  exact Nat.lt_trans (Json.length_lt_quoted s) hlt

end Value

end ClauseEngine
