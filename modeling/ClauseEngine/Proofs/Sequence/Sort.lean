/-
Module: ClauseEngine.Proofs.Sequence.Sort
Purpose: Sorting by criteria is a stable sort, and it fails only on criteria that cannot be read
  and items that lack a key. The order of two items is given by rules over the criteria and the
  fields of the items; lists of keys are not mentioned. A comparator of items that follows the rules
  is lawful, and sorting by it is what sorting by lists of keys comes to.
Main exports: Sequence.Criterion.Written, Sequence.Before, Sequence.Tie, Sequence.compareBy,
  Sequence.sort_eq_ok_iff, Sequence.sort_stable
-/
import ClauseEngine.Primitive.Sequence
import ClauseEngine.Proofs.Bag
import ClauseEngine.Proofs.Result
import ClauseEngine.Proofs.Value.Order

namespace ClauseEngine

/-! ### Reading fields

The conditions under which reading a field succeeds, as equivalences. -/

namespace Value

/-- The value of a field of a record, branded or not. -/
def field? (v : Value) (name : String) : Option Value :=
  v.fields?.bind fun fields => fields.lookup name

/-- A field is found in a value that has fields, under its name. -/
theorem field?_eq_some_iff {v value : Value} {name : String} :
    v.field? name = some value ↔
      ∃ fields, v.fields? = some fields ∧ fields.lookup name = some value :=
  Option.bind_eq_some_iff

theorem asStr_eq_ok_iff {v : Value} {s : String} : v.asStr = .ok s ↔ v = .str s := by
  cases v <;> simp [asStr, unexpected]

theorem fieldOf_eq_ok_iff {fields : List (String × Value)} {name : String} {value : Value} :
    fieldOf fields name = .ok value ↔ fields.lookup name = some value := by
  unfold fieldOf
  split
  · rename_i found hfound
    rw [hfound, Except.ok.injEq, Option.some.injEq]
  · rename_i hnone
    rw [hnone]
    constructor <;> rintro ⟨⟩

theorem dot_eq_ok_iff {v value : Value} {name : String} :
    v.dot name = .ok value ↔ ∃ fields, v = .record fields ∧ fields.lookup name = some value := by
  rw [dot, bind_eq_ok_iff]
  cases v <;> simp [asRecord, fieldOf_eq_ok_iff]

end Value

namespace Sequence

open Bag (StableSort)
open Value (order)

/-! ### Criteria as values

A criterion is written as a value in exactly one way up to fields that are not read. Reading it is
deciding whether it has been. -/

/-- The word for a direction. -/
def Direction.word : Direction → String
  | .ascending => "asc"
  | .descending => "desc"

namespace Criterion

/-- The value is an unbranded record that gives the field of the criterion and the word for its
    direction. Its other fields do not matter. -/
def Written (v : Value) (c : Criterion) : Prop :=
  ∃ fields, v = .record fields ∧ fields.lookup "field" = some (.str c.field) ∧
    fields.lookup "order" = some (.str c.direction.word)

/-- A criterion is read from a value exactly if it is written there. -/
theorem read_eq_ok_iff {v : Value} {c : Criterion} : read v = .ok c ↔ Written v c := by
  obtain ⟨field, direction⟩ := c
  simp only [read, bind_eq_ok_iff, Value.dot_eq_ok_iff, Value.asStr_eq_ok_iff]
  constructor
  · rintro ⟨_, ⟨fields, rfl, hfield⟩, _, rfl, _, ⟨_, heq, horder⟩, word, rfl, h⟩
    cases heq
    split at h
    · rename_i hword
      subst hword
      cases h
      exact ⟨fields, rfl, hfield, horder⟩
    · split at h
      · rename_i hword
        subst hword
        cases h
        exact ⟨fields, rfl, hfield, horder⟩
      · cases h
  · rintro ⟨fields, rfl, hfield, horder⟩
    refine ⟨_, ⟨fields, rfl, hfield⟩, field, rfl, _, ⟨fields, rfl, horder⟩, direction.word, rfl, ?_⟩
    cases direction <;> rfl

/-- A value writes at most one criterion. -/
theorem Written.unique {v : Value} {c c' : Criterion} (h : Written v c) (h' : Written v c') :
    c = c' :=
  Except.ok.inj ((read_eq_ok_iff.2 h).symm.trans (read_eq_ok_iff.2 h'))

/-- The key of an item is its field under the name of the criterion. -/
theorem key_eq_ok_iff {c : Criterion} {item value : Value} :
    c.key item = .ok value ↔ item.field? c.field = some value := by
  unfold key Value.field?
  split
  · rename_i fields hfields
    rw [hfields, Value.fieldOf_eq_ok_iff]
    rfl
  · rename_i hnone
    rw [hnone]
    constructor <;> rintro ⟨⟩

end Criterion

/-! ### The order that criteria give to items

The first criterion that tells two items apart decides. The rules say so without comparing keys of
items that lack them. -/

/-- Both items hold a field, and its values compare like this. -/
def FieldsCompare (name : String) (result : Ordering) (x y : Value) : Prop :=
  ∃ a b, x.field? name = some a ∧ y.field? name = some b ∧ order a b = result

/-- No criterion tells the items apart. -/
def Tie (criteria : List Criterion) (x y : Value) : Prop :=
  ∀ c ∈ criteria, FieldsCompare c.field .eq x y

/-- The first criterion that tells the items apart puts the first before the second: its value is
    the lesser one if the criterion ascends, and the greater one if it descends. -/
inductive Before : List Criterion → Value → Value → Prop
  | ascending {field : String} {x y : Value} (rest : List Criterion)
      (h : FieldsCompare field .lt x y) : Before (⟨field, .ascending⟩ :: rest) x y
  | descending {field : String} {x y : Value} (rest : List Criterion)
      (h : FieldsCompare field .gt x y) : Before (⟨field, .descending⟩ :: rest) x y
  | later {c : Criterion} {rest : List Criterion} {x y : Value}
      (htie : FieldsCompare c.field .eq x y) (h : Before rest x y) : Before (c :: rest) x y

/-- The item holds the field of every criterion. -/
def Keyed (criteria : List Criterion) (item : Value) : Prop :=
  ∀ c ∈ criteria, ∃ key, item.field? c.field = some key

/-- The value an item is compared by. It matters only where there is one. -/
def keyOf (c : Criterion) (item : Value) : Value := (item.field? c.field).getD .unit

/-- Compare two items by the first criterion that tells them apart. -/
def compareBy : List Criterion → Value → Value → Ordering
  | [], _, _ => .eq
  | c :: rest, x, y =>
      (c.direction.orient (order (keyOf c x) (keyOf c y))).then (compareBy rest x y)

/-! ### The comparator is lawful

Orienting a lawful comparison leaves it lawful, and comparing by one criterion after the other does
too. -/

/-- Either direction of a lawful comparison is lawful. -/
theorem Direction.transCmp_orient (direction : Direction) {α : Type} (cmp : α → α → Ordering)
    [Std.TransCmp cmp] : Std.TransCmp fun a b => direction.orient (cmp a b) := by
  cases direction with
  | ascending => exact inferInstanceAs (Std.TransCmp cmp)
  | descending =>
      have hswap : (fun a b => Direction.descending.orient (cmp a b)) = fun a b => cmp b a := by
        funext a b
        exact Std.OrientedCmp.eq_swap.symm
      rw [hswap]
      exact Std.TransCmp.opposite

instance (c : Criterion) : Std.TransCmp fun x y => order (keyOf c x) (keyOf c y) where
  eq_swap := Std.OrientedCmp.eq_swap
  isLE_trans := Std.TransCmp.isLE_trans

instance (criteria : List Criterion) : Std.TransCmp (compareBy criteria) := by
  induction criteria with
  | nil => exact { eq_swap := rfl, isLE_trans := fun _ _ => rfl }
  | cons c rest ih =>
      have horient := c.direction.transCmp_orient fun x y => order (keyOf c x) (keyOf c y)
      exact inferInstanceAs (Std.TransCmp (compareLex
        (fun x y => c.direction.orient (order (keyOf c x) (keyOf c y))) (compareBy rest)))

/-! ### The comparator follows the rules

On items that hold all keys, the three answers of the comparator are the three cases of the rules.
-/

/-- Where both items hold the field, comparing it is comparing their keys. -/
theorem fieldsCompare_iff {c : Criterion} {x y : Value} {result : Ordering}
    (hx : ∃ key, x.field? c.field = some key) (hy : ∃ key, y.field? c.field = some key) :
    FieldsCompare c.field result x y ↔ order (keyOf c x) (keyOf c y) = result := by
  obtain ⟨a, ha⟩ := hx
  obtain ⟨b, hb⟩ := hy
  simp [FieldsCompare, keyOf, ha, hb]

theorem orient_eq_eq_iff {direction : Direction} {result : Ordering} :
    direction.orient result = .eq ↔ result = .eq := by
  cases direction with
  | ascending => rfl
  | descending => exact Ordering.swap_eq_eq

/-- The comparator cannot tell items apart exactly if they tie in all criteria. -/
theorem compareBy_eq_iff_tie {criteria : List Criterion} {x y : Value} (hx : Keyed criteria x)
    (hy : Keyed criteria y) : compareBy criteria x y = .eq ↔ Tie criteria x y := by
  induction criteria with
  | nil => simp [compareBy, Tie]
  | cons c rest ih =>
      obtain ⟨hkey, hrest⟩ := List.forall_mem_cons.1 hx
      obtain ⟨hkey', hrest'⟩ := List.forall_mem_cons.1 hy
      rw [compareBy, Ordering.then_eq_eq, orient_eq_eq_iff, ← fieldsCompare_iff hkey hkey',
        ih hrest hrest', Tie, Tie, List.forall_mem_cons]

/-- An item that the comparator puts first is first by the rules. -/
theorem before_of_compareBy {criteria : List Criterion} {x y : Value} (hx : Keyed criteria x)
    (hy : Keyed criteria y) (h : compareBy criteria x y = .lt) : Before criteria x y := by
  induction criteria with
  | nil => cases h
  | cons c rest ih =>
      obtain ⟨hkey, hrest⟩ := List.forall_mem_cons.1 hx
      obtain ⟨hkey', hrest'⟩ := List.forall_mem_cons.1 hy
      rw [compareBy, Ordering.then_eq_lt] at h
      rcases h with hlt | ⟨heq, hlater⟩
      · obtain ⟨field, direction⟩ := c
        cases direction with
        | ascending => exact .ascending rest ((fieldsCompare_iff hkey hkey').2 hlt)
        | descending =>
            have hgt := Ordering.swap_eq_lt.1 hlt
            exact .descending rest ((fieldsCompare_iff hkey hkey').2 hgt)
      · have htie := (fieldsCompare_iff hkey hkey').2 (orient_eq_eq_iff.1 heq)
        exact .later htie (ih hrest hrest' hlater)

/-! ### Sorting

Each item is sorted together with its list of keys. As the order of the lists is the order of the
items, the keys can be dropped before sorting rather than after. -/

/-- The keys are those of the item, one for each criterion and in the same order. -/
def Aligned (criteria : List Criterion) (pair : List Value × Value) : Prop :=
  List.Forall₂ (fun c key => pair.2.field? c.field = some key) criteria pair.1

/-- Comparing aligned keys is comparing the items they belong to. -/
theorem orderKeys_eq_compareBy {criteria : List Criterion} {p q : List Value × Value}
    (hp : Aligned criteria p) (hq : Aligned criteria q) :
    Criterion.orderKeys criteria p.1 q.1 = compareBy criteria p.2 q.2 := by
  obtain ⟨as, x⟩ := p
  obtain ⟨bs, y⟩ := q
  simp only [Aligned] at hp hq ⊢
  induction hp generalizing bs with
  | nil => rfl
  | cons hkey _ ih =>
      cases hq with
      | cons hkey' hrest' => simp [Criterion.orderKeys, compareBy, keyOf, hkey, hkey', ih _ hrest']

/-- Pair an item with its keys. -/
def withKeys (criteria : List Criterion) (item : Value) : Result (List Value × Value) := do
  return ((← criteria.mapM fun c => c.key item), item)

/-- An item comes with the list of its keys, in the order of the criteria. -/
theorem withKeys_eq_ok_iff {criteria : List Criterion} {item : Value} {pair : List Value × Value} :
    withKeys criteria item = .ok pair ↔ pair.2 = item ∧ Aligned criteria pair := by
  obtain ⟨keys, owner⟩ := pair
  simp only [withKeys, Aligned, bind_eq_ok_iff, mapM_eq_ok_iff, Criterion.key_eq_ok_iff]
  constructor
  · rintro ⟨_, hkeys, h⟩
    cases h
    exact ⟨rfl, hkeys⟩
  · rintro ⟨rfl, hkeys⟩
    exact ⟨keys, hkeys, rfl⟩

/-- There is such a list exactly if no key is missing. -/
theorem exists_withKeys_iff {criteria : List Criterion} {item : Value} :
    (∃ pair, withKeys criteria item = .ok pair) ↔ Keyed criteria item := by
  have hkeys : (∃ keys, criteria.mapM (fun c => c.key item) = .ok keys) ↔ Keyed criteria item := by
    simp only [exists_mapM_eq_ok_iff, Criterion.key_eq_ok_iff, Keyed]
  rw [← hkeys]
  simp only [withKeys, bind_eq_ok_iff]
  constructor
  · rintro ⟨_, keys, h, _⟩
    exact ⟨keys, h⟩
  · rintro ⟨keys, h⟩
    exact ⟨_, keys, h, rfl⟩

/-- Sorting items with their keys and dropping the keys is sorting the items. -/
theorem map_mergeSort_of_withKeys {criteria : List Criterion} {items : List Value}
    {keyed : List (List Value × Value)} (h : items.mapM (withKeys criteria) = .ok keyed) :
    (keyed.mergeSort fun p q => (Criterion.orderKeys criteria p.1 q.1).isLE).map (·.2) =
      items.mergeSort fun x y => (compareBy criteria x y).isLE := by
  have haligned : ∀ pair ∈ keyed, Aligned criteria pair :=
    yields_mapM (fun _ _ pair hpair => (withKeys_eq_ok_iff.1 hpair).2) keyed h
  have hitems : items.map id = keyed.map (·.2) :=
    map_eq_of_mapM (fun _ _ hpair => (withKeys_eq_ok_iff.1 hpair).1.symm) h
  rw [List.map_id] at hitems
  rw [hitems]
  apply List.map_mergeSort
  intro p hp q hq
  rw [orderKeys_eq_compareBy (haligned p hp) (haligned q hq)]

theorem mapM_read_eq_ok_iff {criteria : List Value} {cs : List Criterion} :
    criteria.mapM Criterion.read = .ok cs ↔ List.Forall₂ Criterion.Written criteria cs := by
  simp only [mapM_eq_ok_iff, Criterion.read_eq_ok_iff]

/-- The operator on two sequences, in three steps: criteria, keys, sorting. -/
theorem sort_seq (criteria items : List Value) :
    sort (.seq criteria) (.seq items) = (do
      let cs ← criteria.mapM Criterion.read
      let keyed ← items.mapM (withKeys cs)
      let sorted := keyed.mergeSort fun p q => (Criterion.orderKeys cs p.1 q.1).isLE
      return .seq (sorted.map (·.2))) :=
  rfl

/-- What sorting gives, and when. -/
theorem sort_eq_ok_iff {criteria items : List Value} {result : Value} :
    sort (.seq criteria) (.seq items) = .ok result ↔
      ∃ cs, List.Forall₂ Criterion.Written criteria cs ∧ (∀ item ∈ items, Keyed cs item) ∧
        result = .seq (items.mergeSort fun x y => (compareBy cs x y).isLE) := by
  rw [sort_seq, bind_eq_ok_iff]
  apply exists_congr
  intro cs
  rw [mapM_read_eq_ok_iff]
  apply and_congr_right
  intro _
  rw [bind_eq_ok_iff]
  constructor
  · rintro ⟨keyed, hkeyed, h⟩
    have hall := exists_mapM_eq_ok_iff.1 ⟨keyed, hkeyed⟩
    cases h
    exact ⟨fun item hitem => exists_withKeys_iff.1 (hall item hitem),
      congrArg Value.seq (map_mergeSort_of_withKeys hkeyed)⟩
  · rintro ⟨hitems, rfl⟩
    obtain ⟨keyed, hkeyed⟩ := exists_mapM_eq_ok_iff.2 fun item hitem =>
      exists_withKeys_iff.2 (hitems item hitem)
    rw [← map_mergeSort_of_withKeys hkeyed]
    exact ⟨keyed, hkeyed, rfl⟩

/-! ### When sorting succeeds

The condition is stated on the criteria as they are written, with no list of read criteria in it. -/

/-- All criteria can be read together if each of them can. -/
theorem exists_written_iff {criteria : List Value} :
    (∃ cs, List.Forall₂ Criterion.Written criteria cs) ↔
      ∀ v ∈ criteria, ∃ c, Criterion.Written v c := by
  have h : (∃ cs, criteria.mapM Criterion.read = .ok cs) ↔
      ∀ v ∈ criteria, ∃ c, Criterion.read v = .ok c := exists_mapM_eq_ok_iff
  simpa only [mapM_read_eq_ok_iff, Criterion.read_eq_ok_iff] using h

/-- The keys that an item needs are the fields that the written criteria name. -/
theorem keyed_iff_of_written {criteria : List Value} {cs : List Criterion} {item : Value}
    (h : List.Forall₂ Criterion.Written criteria cs) :
    Keyed cs item ↔ ∀ v ∈ criteria, ∀ c, Criterion.Written v c →
      ∃ key, item.field? c.field = some key := by
  induction h with
  | nil => simp [Keyed]
  | cons hwritten _ ih =>
      rw [Keyed, List.forall_mem_cons, List.forall_mem_cons, ← ih]
      apply and_congr_left
      intro _
      constructor
      · intro hkey c hc
        rwa [hc.unique hwritten]
      · intro hkey
        exact hkey _ hwritten

/-- The item is a record, branded or not, and holds every field that the values name. -/
def HoldsFields (criteria : List Value) (item : Value) : Prop :=
  ∃ fields, item.fields? = some fields ∧
    ∀ v ∈ criteria, ∀ c, Criterion.Written v c → ∃ key, fields.lookup c.field = some key

/-- With at least one criterion, an item that has all keys is a record. -/
theorem keyed_iff_holdsFields {criteria : List Value} {cs : List Criterion} {item : Value}
    (h : List.Forall₂ Criterion.Written criteria cs) (hne : criteria ≠ []) :
    Keyed cs item ↔ HoldsFields criteria item := by
  rw [keyed_iff_of_written h]
  constructor
  · intro hkeys
    obtain ⟨v, hv⟩ := List.exists_mem_of_ne_nil criteria hne
    obtain ⟨c, hc⟩ := exists_written_iff.1 ⟨cs, h⟩ v hv
    obtain ⟨_, hfirst⟩ := hkeys v hv c hc
    obtain ⟨fields, hfields, _⟩ := Value.field?_eq_some_iff.1 hfirst
    refine ⟨fields, hfields, fun w hw d hd => ?_⟩
    obtain ⟨key, hkey⟩ := hkeys w hw d hd
    rw [Value.field?, hfields] at hkey
    exact ⟨key, hkey⟩
  · rintro ⟨fields, hfields, hall⟩ v hv c hc
    obtain ⟨key, hkey⟩ := hall v hv c hc
    exact ⟨key, Value.field?_eq_some_iff.2 ⟨fields, hfields, hkey⟩⟩

/-- Sorting succeeds exactly if every criterion is an unbranded record with the name of a field and
    an order, and, unless there are no criteria, every item is a record, branded or not, that holds
    the fields named. The items are then rearranged into the order of the criteria, the first of
    which counts most, and items that tie on all of them keep their order. -/
theorem sort_stable (criteria items : List Value) :
    ((∃ result, sort (.seq criteria) (.seq items) = .ok result) ↔
      (∀ v ∈ criteria, ∃ c, Criterion.Written v c) ∧
        (criteria ≠ [] → ∀ item ∈ items, HoldsFields criteria item)) ∧
    ∀ result, sort (.seq criteria) (.seq items) = .ok result →
      ∃ cs sorted, List.Forall₂ Criterion.Written criteria cs ∧ result = .seq sorted ∧
        StableSort (Before cs) (Tie cs) items sorted := by
  constructor
  · rw [← exists_written_iff]
    simp only [sort_eq_ok_iff]
    constructor
    · rintro ⟨_, cs, hcs, hitems, _⟩
      exact ⟨⟨cs, hcs⟩, fun hne item hitem => (keyed_iff_holdsFields hcs hne).1 (hitems item hitem)⟩
    · rintro ⟨⟨cs, hcs⟩, hitems⟩
      refine ⟨_, cs, hcs, fun item hitem => ?_, rfl⟩
      by_cases hne : criteria = []
      · subst hne
        cases hcs
        exact fun c hc => absurd hc List.not_mem_nil
      · exact (keyed_iff_holdsFields hcs hne).2 (hitems hne item hitem)
  · intro result h
    obtain ⟨cs, hcs, hitems, rfl⟩ := sort_eq_ok_iff.1 h
    refine ⟨cs, _, hcs, rfl, (Bag.stableSort_mergeSort items).congr ?_ ?_⟩
    · intro x hx y hy
      exact before_of_compareBy (hitems x hx) (hitems y hy)
    · intro x hx y hy
      exact compareBy_eq_iff_tie (hitems x hx) (hitems y hy)

end Sequence

end ClauseEngine
