/-
Module: ClauseEngine.Registry
Purpose: Which brand is a sub-brand of which. A registry holds the super-brands of every brand:
  those declared, or all that a path of declared edges leads to. Casts are answered from it.
Main exports: Subtyping, Supers, Supers.ofEdges, Supers.round, Supers.close, Registry,
  Registry.ofEdges, Registry.isSubBrand, Registry.brandMatches, Registry.accepts, Registry.cast,
  Registry.size
-/
import ClauseEngine.Value.Access

namespace ClauseEngine

/-- How declared edges are read. -/
inductive Subtyping where
  /-- Only the declared edges count. -/
  | declared
  /-- So does every path of declared edges. -/
  | transitive
deriving DecidableEq, Repr

/-- The super-brands of each brand that has some. The brands ascend, and so do the super-brands of
    each. -/
abbrev Supers : Type := List (String × List String)

namespace Supers

/-- Add a brand to ascending brands. -/
def insertBrand (brand : String) : List String → List String
  | [] => [brand]
  | first :: rest =>
      if brand < first then brand :: first :: rest
      else if brand = first then first :: rest
      else first :: insertBrand brand rest

/-- Add several brands to ascending brands. -/
def insertBrands (brands added : List String) : List String :=
  added.foldl (fun brands brand => insertBrand brand brands) brands

/-- The super-brands of a brand. -/
def of (supers : Supers) (brand : String) : List String := (supers.lookup brand).getD []

/-- Add the super-brand of an edge to those of its sub-brand. -/
def declare (supers : Supers) (edge : String × String) : Supers :=
  Fields.insert edge.1 (insertBrand edge.2 (supers.of edge.1)) supers

/-- The super-brands that edges declare. -/
def ofEdges (edges : List (String × String)) : Supers := edges.foldl declare []

/-- The super-brands of several brands. -/
def reachable (supers : Supers) (brands : List String) : List String := brands.flatMap supers.of

/-- Some super-brand of a super-brand of a brand is not yet among its own. -/
def changes (supers : Supers) : Bool :=
  supers.any fun entry => (supers.reachable entry.2).any fun brand => brand ∉ entry.2

/-- One round: the super-brands of the super-brands of every brand become its own. All are read as
    they were before the round. -/
def round (supers : Supers) : Supers :=
  supers.map fun entry => (entry.1, insertBrands entry.2 (supers.reachable entry.2))

theorem mem_insertBrand {brand other : String} {brands : List String} :
    other ∈ insertBrand brand brands ↔ other = brand ∨ other ∈ brands := by
  induction brands with
  | nil => simp [insertBrand]
  | cons first rest ih =>
      unfold insertBrand
      split
      · simp
      · split
        · rename_i hbrand
          simp [hbrand]
        · simp [ih, or_left_comm]

theorem mem_insertBrands {brand : String} {brands added : List String} :
    brand ∈ insertBrands brands added ↔ brand ∈ brands ∨ brand ∈ added := by
  induction added generalizing brands with
  | nil => simp [insertBrands]
  | cons first rest ih =>
      rw [insertBrands, List.foldl_cons]
      refine ih.trans ?_
      simp [mem_insertBrand, or_assoc, or_left_comm]

/-- A brand with a super-brand has an entry. -/
theorem entry_mem_of_mem_of {supers : Supers} {brand sup : String} (h : sup ∈ supers.of brand) :
    (brand, supers.of brand) ∈ supers := by
  unfold of at h ⊢
  cases hlookup : supers.lookup brand with
  | none => simp [hlookup] at h
  | some sups =>
      obtain ⟨before, after, rfl, _⟩ := List.lookup_eq_some_iff.1 hlookup
      simp

/-! ### The rounds come to an end -/

/-- Every super-brand is one of some brands. -/
def Within (supers : Supers) (brands : List String) : Prop :=
  ∀ entry ∈ supers, ∀ sup ∈ entry.2, sup ∈ brands

theorem within_self (supers : Supers) : supers.Within (supers.flatMap (·.2)) :=
  fun entry hentry _ hsup => List.mem_flatMap.2 ⟨entry, hentry, hsup⟩

theorem Within.of_mem_reachable {supers : Supers} {brands : List String} (h : supers.Within brands)
    {sup : String} {sups : List String} (hsup : sup ∈ supers.reachable sups) : sup ∈ brands := by
  obtain ⟨brand, _, hsup⟩ := List.mem_flatMap.1 hsup
  exact h _ (entry_mem_of_mem_of hsup) sup hsup

theorem Within.round {supers : Supers} {brands : List String} (h : supers.Within brands) :
    supers.round.Within brands := by
  intro entry hentry sup hsup
  obtain ⟨old, hold, rfl⟩ := List.mem_map.1 hentry
  rcases mem_insertBrands.1 hsup with hsup | hsup
  · exact h old hold sup hsup
  · exact h.of_mem_reachable hsup

/-- The number of pairs of a brand and one of some brands that is not among its super-brands. -/
def missing (brands : List String) : Supers → Nat
  | [] => 0
  | (_, sups) :: rest => (brands.filter (· ∉ sups)).length + missing brands rest

section Growth

variable {brands sups sups' : List String}

theorem filter_not_mem_of_subset (h : ∀ sup ∈ sups, sup ∈ sups') :
    brands.filter (· ∉ sups') = (brands.filter (· ∉ sups)).filter (· ∉ sups') := by
  rw [List.filter_filter]
  apply List.filter_congr
  intro brand _
  by_cases hbrand : brand ∈ sups
  · simp [hbrand, h brand hbrand]
  · simp [hbrand]

theorem length_filter_le_of_subset (h : ∀ sup ∈ sups, sup ∈ sups') :
    (brands.filter (· ∉ sups')).length ≤ (brands.filter (· ∉ sups)).length := by
  rw [filter_not_mem_of_subset h]
  exact List.length_filter_le _ _

theorem length_filter_lt_of_subset (h : ∀ sup ∈ sups, sup ∈ sups') {sup : String}
    (hsup : sup ∈ brands) (hold : sup ∉ sups) (hnew : sup ∈ sups') :
    (brands.filter (· ∉ sups')).length < (brands.filter (· ∉ sups)).length := by
  rw [filter_not_mem_of_subset h]
  refine List.length_filter_lt_length_iff_exists.2 ⟨sup, ?_, by simpa using hnew⟩
  simp [hsup, hold]

variable {supers : Supers} {f : String × List String → String × List String}

theorem missing_map_le (hgrow : ∀ entry ∈ supers, ∀ sup ∈ entry.2, sup ∈ (f entry).2) :
    missing brands (supers.map f) ≤ missing brands supers := by
  induction supers with
  | nil => exact Nat.le_refl _
  | cons entry rest ih =>
      obtain ⟨hentry, hrest⟩ := List.forall_mem_cons.1 hgrow
      exact Nat.add_le_add (length_filter_le_of_subset hentry) (ih hrest)

/-- If no brand loses a super-brand and one gains one, fewer are missing. -/
theorem missing_map_lt (hgrow : ∀ entry ∈ supers, ∀ sup ∈ entry.2, sup ∈ (f entry).2)
    (hgain : ∃ entry ∈ supers, ∃ sup ∈ brands, sup ∉ entry.2 ∧ sup ∈ (f entry).2) :
    missing brands (supers.map f) < missing brands supers := by
  induction supers with
  | nil =>
      obtain ⟨entry, hentry, _⟩ := hgain
      cases hentry
  | cons entry rest ih =>
      obtain ⟨hentry, hrest⟩ := List.forall_mem_cons.1 hgrow
      obtain ⟨gaining, hgaining, sup, hsup, hold, hnew⟩ := hgain
      rcases List.mem_cons.1 hgaining with rfl | hgaining
      · apply Nat.add_lt_add_of_lt_of_le
        · exact length_filter_lt_of_subset hentry hsup hold hnew
        · exact missing_map_le hrest
      · apply Nat.add_lt_add_of_le_of_lt
        · exact length_filter_le_of_subset hentry
        · exact ih hrest ⟨gaining, hgaining, sup, hsup, hold, hnew⟩

end Growth

/-- A round that changes something leaves fewer super-brands missing. -/
theorem missing_round_lt {brands : List String} {supers : Supers} (h : supers.Within brands)
    (hchanges : supers.changes = true) : missing brands supers.round < missing brands supers := by
  apply missing_map_lt
  · intro entry _ sup hsup
    exact mem_insertBrands.2 (.inl hsup)
  · obtain ⟨entry, hentry, hnew⟩ := List.any_eq_true.1 hchanges
    obtain ⟨sup, hsup, hnew⟩ := List.any_eq_true.1 hnew
    refine ⟨entry, hentry, sup, h.of_mem_reachable hsup, of_decide_eq_true hnew, ?_⟩
    exact mem_insertBrands.2 (.inr hsup)

/-- Rounds until one changes nothing. -/
def closeWithin (brands : List String) (supers : Supers) (h : supers.Within brands) : Supers :=
  if supers.changes then closeWithin brands supers.round h.round else supers
termination_by missing brands supers
decreasing_by exact missing_round_lt h ‹_›

/-- The super-brands that a path of one or more edges leads to. -/
def close (supers : Supers) : Supers :=
  closeWithin (supers.flatMap (·.2)) supers supers.within_self

end Supers

/-- The super-brands that count, and whether a cast may name several target brands. -/
structure Registry where
  supers : Supers
  multiBrandCast : Bool
deriving DecidableEq, Repr

namespace Registry

/-- The brand that every value has. -/
def anyBrand : String := "Any"

/-- The registry of some declared edges. -/
def ofEdges (edges : List (String × String)) (subtyping : Subtyping) (multiBrandCast : Bool) :
    Registry :=
  match subtyping with
  | .declared => ⟨Supers.ofEdges edges, multiBrandCast⟩
  | .transitive => ⟨(Supers.ofEdges edges).close, multiBrandCast⟩

/-- One brand is below another by an edge that counts. No brand is below itself without one. -/
def isSubBrand (r : Registry) (sub sup : String) : Bool := sup ∈ r.supers.of sub

/-- A value of a brand satisfies one target. -/
def brandSatisfies (r : Registry) (brand target : String) : Bool :=
  target = anyBrand || target = brand || r.isSubBrand brand target

/-- A value of a brand satisfies every target. -/
def brandMatches (r : Registry) (brand : String) (targets : List String) : Bool :=
  targets.all (r.brandSatisfies brand)

/-- A value satisfies every target. One without a brand satisfies the universal target only. -/
def accepts (r : Registry) (targets : List String) (v : Value) : Bool :=
  match v.brand? with
  | some brand => r.brandMatches brand targets
  | none => targets.all (· = anyBrand)

/-- Cast a value: itself on the left if it satisfies the targets, unit on the right if not. Any
    number of targets other than one has to be enabled. -/
def cast (r : Registry) (targets : List String) (v : Value) : Result Value :=
  if targets.length ≠ 1 ∧ r.multiBrandCast = false then .error (.unsupportedCast targets.length)
  else if r.accepts targets v then .ok (.left v)
  else .ok (.right .unit)

/-- The number of brands with a super-brand. -/
def size (r : Registry) : Nat := r.supers.length

end Registry

end ClauseEngine
