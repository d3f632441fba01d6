/-
Module: ClauseEngine.Proofs.Fields
Purpose: Ascending fields as finite maps. A name finds at most one field, storing a field changes
  what its own name finds and nothing else, and the fields of two collections together ascend again.
Main exports: Fields.lookup_eq_some_iff, Fields.ext_lookup, Fields.lookup_mapValues,
  Fields.lookup_insert, Fields.ordered_insert, Fields.lookup_overlay, Fields.ordered_overlay,
  Fields.ofList_eq_self, Fields.mem_names
-/
import ClauseEngine.Fields
import Mathlib.Data.List.Sort
import Mathlib.Data.String.Basic

namespace ClauseEngine

namespace Fields

variable {α : Type}

/-! ### Looking up a name

Ascending names are distinct, so that being a field and being found under a name are the same.
Collections that ascend are therefore equal as soon as every name finds the same in both. -/

theorem lookup_cons {name key : String} {value : α} {rest : List (String × α)} :
    ((name, value) :: rest).lookup key = if key = name then some value else rest.lookup key := by
  rw [List.lookup_cons]
  by_cases h : key = name
  · simp [h]
  · rw [beq_false_of_ne h, if_neg h]

/-- No two fields of an ascending list share a name, so a field is what its name finds. -/
theorem lookup_eq_some_iff {fields : List (String × α)} (hfields : Ordered fields) {name : String}
    {value : α} : fields.lookup name = some value ↔ (name, value) ∈ fields := by
  constructor
  · intro h
    obtain ⟨before, after, rfl, -⟩ := List.lookup_eq_some_iff.1 h
    simp
  · intro h
    obtain ⟨before, after, rfl⟩ := List.append_of_mem h
    refine List.lookup_eq_some_iff.2 ⟨before, after, rfl, fun field hfield => ?_⟩
    have hlt : field.1 < name :=
      (List.pairwise_append.1 hfields).2.2 field hfield _ List.mem_cons_self
    simpa using hlt.ne'

/-- Fields in order are settled by what their names find. -/
theorem ext_lookup {fields fields' : List (String × α)} (hfields : Ordered fields)
    (hfields' : Ordered fields') (h : ∀ name, fields.lookup name = fields'.lookup name) :
    fields = fields' := by
  have hmem : ∀ field, field ∈ fields ↔ field ∈ fields' := by
    rintro ⟨name, value⟩
    rw [← lookup_eq_some_iff hfields, ← lookup_eq_some_iff hfields', h]
  have hirrefl : Std.Irrefl fun a b : String × α => a.1 < b.1 := ⟨fun a => lt_irrefl a.1⟩
  have hantisymm : Std.Antisymm fun a b : String × α => a.1 < b.1 :=
    ⟨fun a b hab hba => absurd hab hba.asymm⟩
  exact List.Pairwise.eq_of_mem_iff hfields hfields' hmem

/-- A name that comes before all others is not among them. -/
theorem lookup_eq_none_of_lt {fields : List (String × α)} {name : String}
    (h : ∀ field ∈ fields, name < field.1) : fields.lookup name = none := by
  rw [List.lookup_eq_none_iff]
  intro field hfield
  simpa using (h field hfield).ne

/-- Changing the values changes what a name finds, not whether it finds something. -/
theorem lookup_mapValues {β : Type} (f : α → β) {fields : List (String × α)} {key : String} :
    (fields.map fun field => (field.1, f field.2)).lookup key = (fields.lookup key).map f := by
  induction fields with
  | nil => rfl
  | cons field rest ih =>
      rw [List.map_cons, lookup_cons, lookup_cons]
      split
      · rfl
      · exact ih

/-- A name is in use exactly if it finds something. -/
theorem mem_names {fields : List (String × α)} {name : String} :
    name ∈ fields.map (·.1) ↔ (fields.lookup name).isSome := by
  rw [List.lookup_isSome_iff, List.mem_map]
  simp only [beq_iff_eq, @eq_comm _ name]

/-! ### Storing fields

Storing and erasing are described by what a name finds afterwards. That the names still ascend is
all that has to be known of the places where the fields are put. -/

/-- Storing a field changes what its own name finds and nothing else. -/
@[simp] theorem lookup_insert {fields : List (String × α)} {name key : String} {value : α} :
    (insert name value fields).lookup key =
      if key = name then some value else fields.lookup key := by
  induction fields with
  | nil => exact lookup_cons
  | cons field rest ih =>
      obtain ⟨first, old⟩ := field
      unfold insert
      split
      · exact lookup_cons
      · split
        · rename_i hname
          subst hname
          simp only [lookup_cons]
          split <;> rfl
        · rename_i hname
          simp only [lookup_cons, ih]
          by_cases hkey : key = first
          · have hne : key ≠ name := fun h => hname (h ▸ hkey)
            rw [if_pos hkey, if_neg hne, if_pos hkey]
          · rw [if_neg hkey, if_neg hkey]

/-- Erasing a field leaves nothing under its name and changes nothing else. -/
@[simp] theorem lookup_erase {fields : List (String × α)} {name key : String} :
    (erase name fields).lookup key = if key = name then none else fields.lookup key := by
  induction fields with
  | nil => simp [erase]
  | cons field rest ih =>
      obtain ⟨first, value⟩ := field
      rw [erase] at ih ⊢
      by_cases hfirst : first = name
      · subst hfirst
        rw [List.filter_cons_of_neg (by simp), ih, lookup_cons]
        split <;> rfl
      · rw [List.filter_cons_of_pos (by simpa using hfirst), lookup_cons, lookup_cons, ih]
        by_cases hkey : key = first
        · rw [if_pos hkey, if_neg (hkey ▸ hfirst), if_pos hkey]
        · rw [if_neg hkey, if_neg hkey]

/-- Removing several names removes what each of them finds. -/
theorem lookup_foldl_erase {fields : List (String × α)} {names : List String} {key : String} :
    (names.foldl (fun fields name => erase name fields) fields).lookup key =
      if key ∈ names then none else fields.lookup key := by
  induction names generalizing fields with
  | nil => simp
  | cons name rest ih =>
      rw [List.foldl_cons, ih, lookup_erase]
      by_cases hkey : key = name
      · simp [hkey]
      · simp [hkey]

/-- A field that is there after storing one is that field or was there before. -/
theorem mem_insert {fields : List (String × α)} {name : String} {value : α}
    {field : String × α} (h : field ∈ insert name value fields) :
    field = (name, value) ∨ field ∈ fields := by
  induction fields with
  | nil => exact Or.inl (List.mem_singleton.1 h)
  | cons first rest ih =>
      unfold insert at h
      split at h
      · exact List.mem_cons.1 h
      · split at h
        · rcases List.mem_cons.1 h with h | h
          · exact Or.inl h
          · exact Or.inr (List.mem_cons_of_mem _ h)
        · rcases List.mem_cons.1 h with h | h
          · exact Or.inr (h ▸ List.mem_cons_self)
          · exact (ih h).imp_right (List.mem_cons_of_mem _)

/-- Storing a field keeps the names ascending. -/
theorem ordered_insert {fields : List (String × α)} (hfields : Ordered fields) (name : String)
    (value : α) : Ordered (insert name value fields) := by
  induction fields with
  | nil => exact List.pairwise_singleton _ _
  | cons field rest ih =>
      obtain ⟨hbelow, hrest⟩ := List.pairwise_cons.1 hfields
      unfold insert
      split
      · rename_i hlt
        refine List.pairwise_cons.2 ⟨fun other hother => ?_, hfields⟩
        rcases List.mem_cons.1 hother with rfl | hother
        · exact hlt
        · exact hlt.trans (hbelow other hother)
      · split
        · rename_i hname
          subst hname
          exact List.pairwise_cons.2 ⟨hbelow, hrest⟩
        · rename_i hlt hne
          refine List.pairwise_cons.2 ⟨fun other hother => ?_, ih hrest⟩
          rcases mem_insert hother with rfl | hother
          · exact lt_of_le_of_ne (not_lt.1 hlt) (Ne.symm hne)
          · exact hbelow other hother

/-- A field of two collections together is a field of one of them. -/
theorem mem_overlay {base extra : List (String × α)} {field : String × α}
    (h : field ∈ overlay base extra) : field ∈ base ∨ field ∈ extra := by
  induction extra generalizing base with
  | nil => exact Or.inl h
  | cons first rest ih =>
      rcases ih h with h | h
      · rcases mem_insert h with rfl | h
        · exact Or.inr List.mem_cons_self
        · exact Or.inl h
      · exact Or.inr (List.mem_cons_of_mem _ h)

/-- The names of two collections together ascend, whatever the order of the second is. -/
theorem ordered_overlay {base : List (String × α)} (hbase : Ordered base)
    (extra : List (String × α)) : Ordered (overlay base extra) := by
  induction extra generalizing base with
  | nil => exact hbase
  | cons field rest ih => exact ih (ordered_insert hbase field.1 field.2)

/-- A name finds its field in the second collection if it is there, else in the first. -/
theorem lookup_overlay {base extra : List (String × α)} (hextra : Ordered extra) (key : String) :
    (overlay base extra).lookup key = (extra.lookup key).or (base.lookup key) := by
  induction extra generalizing base with
  | nil => rfl
  | cons field rest ih =>
      obtain ⟨name, value⟩ := field
      obtain ⟨hbelow, hrest⟩ := List.pairwise_cons.1 hextra
      have hstep : overlay base ((name, value) :: rest) = overlay (insert name value base) rest :=
        rfl
      rw [hstep, ih hrest, lookup_insert, lookup_cons]
      by_cases hkey : key = name
      · subst hkey
        simp [lookup_eq_none_of_lt hbelow]
      · simp [hkey]

/-- Fields that ascend already are stored as they are. -/
theorem ofList_eq_self {fields : List (String × α)} (h : Ordered fields) : ofList fields = fields := by
  apply ext_lookup (ordered_overlay List.Pairwise.nil fields) h
  intro name
  exact (lookup_overlay h name).trans Option.or_none

end Fields

end ClauseEngine
