/-
Module: ClauseEngine.Proofs.Value.Ordered
Purpose: Values that are read have their fields in order, and so do the wire forms of values. An
  object gives its fields to a record or a branded value one by one and under the same names, so
  their order is that of the object, and the other way round.
Main exports: Value.names_of_decodeFields, Value.ordered_of_decode, Value.ordered_of_text,
  Value.ordered_encode
-/
import ClauseEngine.Proofs.Json.Ordered
import ClauseEngine.Proofs.Result
import ClauseEngine.Proofs.Value.Basic
import ClauseEngine.Value.Wire

namespace ClauseEngine

namespace Value

/-! ### Collections -/

/-- Items that are read are in order if each item is. -/
theorem ordered_of_decodeItems {items : List Json} {values : List Value}
    (h : decodeItems items = .ok values)
    (hitems : ∀ item ∈ items, ∀ v, decode item = .ok v → v.Ordered) : OrderedItems values := by
  induction items generalizing values with
  | nil =>
      rw [decodeItems] at h
      cases h
      trivial
  | cons item rest ih =>
      rw [decodeItems] at h
      obtain ⟨value, hvalue, h⟩ := bind_eq_ok_iff.1 h
      obtain ⟨others, hothers, h⟩ := bind_eq_ok_iff.1 h
      cases h
      obtain ⟨hitem, hrest⟩ := List.forall_mem_cons.1 hitems
      exact ⟨hitem value hvalue, ih hothers hrest⟩

/-- The fields of a value have the names of the object they are read from. -/
theorem names_of_decodeFields {fields : List (String × Json)} {values : List (String × Value)}
    (h : decodeFields fields = .ok values) : values.map (·.1) = fields.map (·.1) := by
  induction fields generalizing values with
  | nil =>
      rw [decodeFields] at h
      cases h
      rfl
  | cons field rest ih =>
      rw [decodeFields] at h
      obtain ⟨value, hvalue, h⟩ := bind_eq_ok_iff.1 h
      obtain ⟨others, hothers, h⟩ := bind_eq_ok_iff.1 h
      cases h
      simp [ih hothers]

/-- The values of fields that are read are in order if each of them is. -/
theorem orderedFields_of_decodeFields {fields : List (String × Json)}
    {values : List (String × Value)} (h : decodeFields fields = .ok values)
    (hfields : ∀ field ∈ fields, ∀ v, decode field.2 = .ok v → v.Ordered) :
    OrderedFields values := by
  induction fields generalizing values with
  | nil =>
      rw [decodeFields] at h
      cases h
      trivial
  | cons field rest ih =>
      rw [decodeFields] at h
      obtain ⟨value, hvalue, h⟩ := bind_eq_ok_iff.1 h
      obtain ⟨others, hothers, h⟩ := bind_eq_ok_iff.1 h
      cases h
      obtain ⟨hfield, hrest⟩ := List.forall_mem_cons.1 hfields
      exact ⟨hfield value hvalue, ih hothers hrest⟩

/-- The data of a branded value are the fields of an object inside the one that names the brand. -/
theorem exists_of_decodeData {brand : String} {fields : List (String × Json)}
    {values : List (String × Value)} (h : decodeData brand fields = .ok values) :
    ∃ data, (dataField, Json.object data) ∈ fields ∧ decodeFields data = .ok values := by
  induction fields with
  | nil =>
      rw [decodeData] at h
      cases h
  | cons field rest ih =>
      obtain ⟨name, payload⟩ := field
      unfold decodeData at h
      split at h
      · rename_i hname
        subst hname
        split at h
        · exact ⟨_, List.mem_cons_self, h⟩
        · cases h
      · obtain ⟨data, hdata, hvalues⟩ := ih h
        exact ⟨data, List.mem_cons_of_mem _ hdata, hvalues⟩

/-- An object that names no brand is read as a scalar, as a sum, or field by field: its own fields,
    or those of the object it wraps. -/
theorem ordered_of_decodeObject {fields : List (String × Json)} {v : Value}
    (h : decodeObject fields = .ok v)
    (hpayload : ∀ field ∈ fields, ∀ value, decode field.2 = .ok value → value.Ordered)
    (hrecord : ∀ values, decodeFields fields = .ok values → (record values).Ordered)
    (hwrapped : ∀ name inner values, (name, Json.object inner) ∈ fields →
      decodeFields inner = .ok values → (record values).Ordered) : v.Ordered := by
  unfold decodeObject at h
  split at h
  · rename_i name payload
    have hpayload := hpayload (name, payload) List.mem_cons_self
    split at h
    · unfold decodeNat at h
      split at h <;> cases h
      trivial
    · obtain ⟨value, hvalue, rfl⟩ := map_eq_ok_iff.1 h
      exact hpayload value hvalue
    · obtain ⟨value, hvalue, rfl⟩ := map_eq_ok_iff.1 h
      exact hpayload value hvalue
    · unfold decodeDateTime at h
      split at h
      · obtain ⟨t, _, rfl⟩ := map_eq_ok_iff.1 h
        trivial
      · cases h
    · unfold decodeSpecial at h
      split at h <;> cases h
      trivial
    · split at h
      · obtain ⟨values, hvalues, rfl⟩ := map_eq_ok_iff.1 h
        exact hwrapped name _ values List.mem_cons_self hvalues
      · cases h
    · obtain ⟨value, hvalue, h⟩ := bind_eq_ok_iff.1 h
      cases h
      exact ⟨List.pairwise_singleton _ _, hpayload value hvalue, trivial⟩
  · obtain ⟨values, hvalues, rfl⟩ := map_eq_ok_iff.1 h
    exact hrecord values hvalues

/-! ### All values

The induction is on the size of the document. The fields of a record stand in the object itself or
one level inside it, and the argument about them is the same. -/

/-- A value that is read from objects in order has its fields in order. -/
theorem ordered_of_decode {j : Json} {v : Value} (hj : j.Ordered) (h : decode j = .ok v) :
    v.Ordered := by
  induction hsize : j.size using Nat.strongRecOn generalizing j v with
  | ind size ih =>
      subst hsize
      -- The fields of an object at whatever depth inside, for a record or a branded value.
      have hfields : ∀ {fields : List (String × Json)} {values : List (String × Value)},
          (Json.object fields).size ≤ j.size → (Json.object fields).Ordered →
            decodeFields fields = .ok values → Fields.Ordered values ∧ OrderedFields values := by
        intro fields values hle hordered hvalues
        constructor
        · have hnames := List.pairwise_map.2 hordered.1
          rw [← names_of_decodeFields hvalues] at hnames
          exact List.pairwise_map.1 hnames
        · refine orderedFields_of_decodeFields hvalues fun field hfield value hvalue => ?_
          have hlt := Json.size_le_of_field_mem hfield
          rw [Json.size] at hle
          exact ih _ (by omega) (Json.orderedFields_iff.1 hordered.2 field hfield) hvalue rfl
      cases j with
      | array items =>
          rw [decode] at h
          obtain ⟨values, hvalues, rfl⟩ := map_eq_ok_iff.1 h
          refine ordered_of_decodeItems hvalues fun item hitem value hvalue => ?_
          have hlt := Json.size_le_of_mem hitem
          rw [Json.size] at ih
          exact ih _ (by omega) (Json.orderedItems_iff.1 hj item hitem) hvalue rfl
      | object fields =>
          have hpayload : ∀ field ∈ fields,
              field.2.size < (Json.object fields).size ∧ field.2.Ordered := by
            intro field hfield
            have hle := Json.size_le_of_field_mem hfield
            rw [Json.size]
            exact ⟨by omega, Json.orderedFields_iff.1 hj.2 field hfield⟩
          have hinner : ∀ name inner values, (name, Json.object inner) ∈ fields →
              decodeFields inner = .ok values → (record values).Ordered :=
            fun name inner values hmem =>
              hfields (Nat.le_of_lt (hpayload _ hmem).1) (hpayload _ hmem).2
          rw [decode] at h
          split at h
          · obtain ⟨brand, _, h⟩ := bind_eq_ok_iff.1 h
            obtain ⟨values, hvalues, h⟩ := bind_eq_ok_iff.1 h
            cases h
            obtain ⟨data, hdata, hvalues⟩ := exists_of_decodeData hvalues
            exact hinner dataField data values hdata hvalues
          · refine ordered_of_decodeObject h (fun field hfield value hvalue => ?_)
              (fun values => hfields (Nat.le_refl _) hj) hinner
            exact ih _ (hpayload field hfield).1 (hpayload field hfield).2 hvalue rfl
      | _ =>
          rw [decode] at h
          cases h
          trivial

/-- So does a value that is read from a text. -/
theorem ordered_of_text {limit : Nat} {text : String} {j : Json} {v : Value}
    (hparse : Json.parse? limit text = some j) (hdecode : decode j = .ok v) : v.Ordered :=
  ordered_of_decode (Json.ordered_of_parse? hparse) hdecode

/-! ### Wire forms

A value in order is written as it is ordered: its fields keep their names and their places, and the
objects that stand for tagged and branded values are in order by themselves. -/

theorem encodeItems_eq_map (items : List Value) : encodeItems items = items.map encode := by
  induction items with
  | nil => rw [encodeItems, List.map_nil]
  | cons item rest ih => rw [encodeItems, List.map_cons, ih]

theorem encodeFields_eq_map (fields : List (String × Value)) :
    encodeFields fields = fields.map fun field => (field.1, field.2.encode) := by
  induction fields with
  | nil => rw [encodeFields, List.map_nil]
  | cons field rest ih =>
      obtain ⟨name, value⟩ := field
      rw [encodeFields, List.map_cons, ih]

/-- An object with the one field of a tag is in order. -/
theorem ordered_tagged (tag : Tag) {payload : Json} (h : payload.Ordered) :
    (tagged tag payload).Ordered :=
  ⟨List.pairwise_singleton _ _, h, trivial⟩

/-- Fields keep their names on the wire. -/
theorem ordered_encodeFields {fields : List (String × Value)} (hfields : Fields.Ordered fields)
    (hvalues : ∀ field ∈ fields, field.2.encode.Ordered) :
    (Json.object (encodeFields fields)).Ordered := by
  rw [encodeFields_eq_map]
  refine ⟨List.pairwise_map.2 hfields, Json.orderedFields_iff.2 ?_⟩
  exact List.forall_mem_map.2 hvalues

/-- The wire form of a value in order has its fields in order. -/
theorem ordered_encode {v : Value} (hv : v.Ordered) : v.encode.Ordered := by
  induction v using Value.induction with
  | seq items ih =>
      rw [encode, encodeItems_eq_map]
      refine Json.orderedItems_iff.2 (List.forall_mem_map.2 fun item hitem => ?_)
      exact ih item hitem (orderedItems_iff.1 hv item hitem)
  | record fields ih =>
      have hobject := ordered_encodeFields hv.1 fun field hfield =>
        ih field hfield (orderedFields_iff.1 hv.2 field hfield)
      rw [encode]
      split
      · exact ordered_tagged .record hobject
      · exact hobject
  | branded brand fields ih =>
      have hobject := ordered_encodeFields hv.1 fun field hfield =>
        ih field hfield (orderedFields_iff.1 hv.2 field hfield)
      have hnames : classField < dataField := by decide
      rw [encode]
      exact ⟨by simpa [Fields.Ordered] using hnames, trivial, hobject, trivial⟩
  | left payload ih =>
      rw [encode]
      exact ordered_tagged .left (ih hv)
  | right payload ih =>
      rw [encode]
      exact ordered_tagged .right (ih hv)
  | float x =>
      rw [encode]
      split
      · trivial
      · exact ordered_tagged .float trivial
  | nat n =>
      rw [encode]
      exact ordered_tagged .nat trivial
  | dateTime t =>
      rw [encode]
      exact ordered_tagged .dateTime trivial
  | _ =>
      rw [encode]
      trivial

end Value

end ClauseEngine
