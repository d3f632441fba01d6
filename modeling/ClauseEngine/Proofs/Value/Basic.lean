/-
Module: ClauseEngine.Proofs.Value.Basic
Purpose: The induction over values, packaged once: a property of values holds of all of them if it
  passes from the items of a sequence, the values of fields and the payload of a side to the whole.
Main exports: Value.induction, Value.orderedItems_iff, Value.orderedFields_iff
-/
import ClauseEngine.Value.Basic

namespace ClauseEngine

namespace Value

/-- Induction over values, with the parts of a collection reached by membership. -/
@[elab_as_elim]
theorem induction {motive : Value → Prop}
    (unit : motive .unit)
    (bool : ∀ b, motive (.bool b))
    (nat : ∀ n, motive (.nat n))
    (float : ∀ x, motive (.float x))
    (str : ∀ s, motive (.str s))
    (dateTime : ∀ t, motive (.dateTime t))
    (seq : ∀ items, (∀ item ∈ items, motive item) → motive (.seq items))
    (record : ∀ fields, (∀ field ∈ fields, motive field.2) → motive (.record fields))
    (left : ∀ payload, motive payload → motive (.left payload))
    (right : ∀ payload, motive payload → motive (.right payload))
    (branded : ∀ brand fields, (∀ field ∈ fields, motive field.2) →
      motive (.branded brand fields))
    (v : Value) : motive v := by
  refine @Value.rec motive (fun items => ∀ item ∈ items, motive item)
    (fun fields => ∀ field ∈ fields, motive field.2) (fun field => motive field.2)
    unit bool nat float str dateTime seq record left right branded ?_ ?_ ?_ ?_ ?_ v
  · intro item h
    cases h
  · intro head tail hhead htail item h
    rcases List.mem_cons.1 h with rfl | h
    · exact hhead
    · exact htail item h
  · intro field h
    cases h
  · intro head tail hhead htail field h
    rcases List.mem_cons.1 h with rfl | h
    · exact hhead
    · exact htail field h
  · intro name value h
    exact h

theorem orderedItems_iff {items : List Value} : OrderedItems items ↔ ∀ v ∈ items, v.Ordered := by
  induction items with
  | nil => simp [OrderedItems]
  | cons item rest ih => simp [OrderedItems, ih]

theorem orderedFields_iff {fields : List (String × Value)} :
    OrderedFields fields ↔ ∀ field ∈ fields, field.2.Ordered := by
  induction fields with
  | nil => simp [OrderedFields]
  | cons field rest ih =>
      obtain ⟨name, value⟩ := field
      simp only [OrderedFields, ih, List.mem_cons, forall_eq_or_imp]

end Value

end ClauseEngine
