/-
Module: ClauseEngine.Proofs.Registry
Purpose: Sub-brands as paths. The rounds that close the declared edges only ever add super-brands
  that a path leads to, and they go on until the super-brands of super-brands are all there; what
  they end with is therefore exactly the transitive closure of the edges, on cyclic graphs too.
  How often and in what order edges are declared leaves no trace in a registry.
Main exports: Supers.mem_of_ofEdges, Supers.Canonical, Supers.ofEdges_eq_of_mem_iff,
  Supers.mem_of_round, Supers.close_eq_iterate_round, Supers.mem_of_close,
  Registry.ofEdges_eq_of_mem_iff, Registry.isSubBrand_iff_path
-/
import ClauseEngine.Proofs.Fields
import ClauseEngine.Registry
import Mathlib.Logic.Function.Iterate
import Mathlib.Logic.Relation

namespace ClauseEngine

namespace Supers

/-! ### Declared edges

Declaring an edge adds one super-brand to one brand. The super-brands of a brand are then those of
its edges. -/

/-- A declared edge is there along with the edges from before. -/
theorem mem_of_declare {supers : Supers} {edge : String × String} {sub sup : String} :
    sup ∈ (supers.declare edge).of sub ↔ (sub, sup) = edge ∨ sup ∈ supers.of sub := by
  obtain ⟨start, stop⟩ := edge
  rw [of, declare, Fields.lookup_insert]
  by_cases hsub : sub = start
  · subst hsub
    simp [mem_insertBrand]
  · simp [hsub, of]

/-- The edges of a list are there along with those from before. -/
theorem mem_of_foldl_declare {edges : List (String × String)} {supers : Supers} {sub sup : String} :
    sup ∈ (edges.foldl declare supers).of sub ↔ (sub, sup) ∈ edges ∨ sup ∈ supers.of sub := by
  induction edges generalizing supers with
  | nil => simp
  | cons edge rest ih =>
      rw [List.foldl_cons, ih, mem_of_declare, List.mem_cons, or_left_comm, or_assoc]

/-- The super-brands of a brand are the ends of the edges that start at it. -/
theorem mem_of_ofEdges {edges : List (String × String)} {sub sup : String} :
    sup ∈ (ofEdges edges).of sub ↔ (sub, sup) ∈ edges := by
  rw [ofEdges, mem_of_foldl_declare]
  simp [of]

/-! ### Edges as a set

Brands ascend and so do the super-brands of each. A collection of this form is determined by its
edges as a set, because ascending lists with the same members are equal. -/

theorem ascending_insertBrand {brands : List String} (h : brands.Pairwise (· < ·))
    (brand : String) : (insertBrand brand brands).Pairwise (· < ·) := by
  induction brands with
  | nil => exact List.pairwise_singleton _ _
  | cons first rest ih =>
      obtain ⟨hbelow, hrest⟩ := List.pairwise_cons.1 h
      unfold insertBrand
      split
      · rename_i hlt
        apply List.pairwise_cons.2
        constructor
        · intro other hother
          rcases List.mem_cons.1 hother with rfl | hother
          · exact hlt
          · exact hlt.trans (hbelow other hother)
        · exact h
      · split
        · exact h
        · rename_i hlt hne
          apply List.pairwise_cons.2
          constructor
          · intro other hother
            rcases mem_insertBrand.1 hother with rfl | hother
            · exact lt_of_le_of_ne (not_lt.1 hlt) (Ne.symm hne)
            · exact hbelow other hother
          · exact ih hrest

/-- The brands ascend, and so do the super-brands of each. A brand without super-brands has no
    entry. -/
structure Canonical (supers : Supers) : Prop where
  brands : Fields.Ordered supers
  nonempty : ∀ entry ∈ supers, entry.2 ≠ []
  ascending : ∀ entry ∈ supers, entry.2.Pairwise (· < ·)

namespace Canonical

variable {supers supers' : Supers}

theorem ascending_of (h : supers.Canonical) (brand : String) :
    (supers.of brand).Pairwise (· < ·) := by
  by_cases hempty : supers.of brand = []
  · rw [hempty]
    exact .nil
  · obtain ⟨sup, hsup⟩ := List.exists_mem_of_ne_nil _ hempty
    exact h.ascending _ (entry_mem_of_mem_of hsup)

/-- What a brand finds can be told from its super-brands. -/
theorem lookup_eq (h : supers.Canonical) (brand : String) :
    supers.lookup brand = if supers.of brand = [] then none else some (supers.of brand) := by
  cases hlookup : supers.lookup brand with
  | none => simp [of, hlookup]
  | some sups =>
      have hmem := (Fields.lookup_eq_some_iff h.brands).1 hlookup
      simp [of, hlookup, h.nonempty _ hmem]

/-- Declaring an edge keeps the form. -/
theorem declare (h : supers.Canonical) (edge : String × String) :
    (supers.declare edge).Canonical where
  brands := Fields.ordered_insert h.brands _ _
  nonempty entry hentry := by
    rcases Fields.mem_insert hentry with rfl | hentry
    · exact List.ne_nil_of_mem (mem_insertBrand.2 (.inl rfl))
    · exact h.nonempty entry hentry
  ascending entry hentry := by
    rcases Fields.mem_insert hentry with rfl | hentry
    · exact ascending_insertBrand (h.ascending_of edge.1) edge.2
    · exact h.ascending entry hentry

/-- Brands with the same super-brands are held in the same way. -/
theorem ext (h : supers.Canonical) (h' : supers'.Canonical)
    (hmem : ∀ sub sup, sup ∈ supers.of sub ↔ sup ∈ supers'.of sub) : supers = supers' := by
  apply Fields.ext_lookup h.brands h'.brands
  intro brand
  have hof : supers.of brand = supers'.of brand :=
    List.Pairwise.eq_of_mem_iff (h.ascending_of brand) (h'.ascending_of brand) (hmem brand)
  rw [h.lookup_eq, h'.lookup_eq, hof]

end Canonical

theorem canonical_ofEdges (edges : List (String × String)) : (ofEdges edges).Canonical := by
  have hstep : ∀ supers : Supers, supers.Canonical → (edges.foldl declare supers).Canonical := by
    induction edges with
    | nil => exact fun supers h => h
    | cons edge rest ih => exact fun supers h => ih _ (h.declare edge)
  exact hstep [] ⟨.nil, by simp, by simp⟩

/-- The order and the number of times in which edges are declared leave no trace. -/
theorem ofEdges_eq_of_mem_iff {edges edges' : List (String × String)}
    (h : ∀ edge, edge ∈ edges ↔ edge ∈ edges') : ofEdges edges = ofEdges edges' := by
  apply (canonical_ofEdges edges).ext (canonical_ofEdges edges')
  intro sub sup
  rw [mem_of_ofEdges, mem_of_ofEdges]
  exact h (sub, sup)

/-! ### One round

A round adds what is two edges away. Once a round changes nothing, the super-brands of super-brands
are super-brands already. -/

theorem of_round (supers : Supers) (brand : String) :
    supers.round.of brand =
      insertBrands (supers.of brand) (supers.reachable (supers.of brand)) := by
  rw [of, round, Fields.lookup_mapValues fun sups => insertBrands sups (supers.reachable sups), of]
  cases supers.lookup brand with
  | none => rfl
  | some sups => rfl

/-- After a round a brand has the super-brands it had and theirs. -/
theorem mem_of_round {supers : Supers} {sub sup : String} :
    sup ∈ supers.round.of sub ↔
      sup ∈ supers.of sub ∨ ∃ brand ∈ supers.of sub, sup ∈ supers.of brand := by
  rw [of_round, mem_insertBrands, reachable, List.mem_flatMap]

/-- Where a round would change nothing, the super-brands of super-brands are all there. -/
theorem mem_of_trans {supers : Supers} (h : supers.changes = false) {a b c : String}
    (hab : b ∈ supers.of a) (hbc : c ∈ supers.of b) : c ∈ supers.of a := by
  have hentry := List.any_eq_false.1 h _ (entry_mem_of_mem_of hab)
  have hreachable : c ∈ supers.reachable (supers.of a) := List.mem_flatMap.2 ⟨b, hab, hbc⟩
  have hsup := List.any_eq_false.1 (Bool.eq_false_iff.2 hentry) c hreachable
  simpa using hsup

/-! ### All rounds

Every round adds only what a path leads to, and the last one leaves a transitive relation. The two
together are the closure; how many rounds it takes is not needed. -/

/-- Closing repeats the round and stops at the first one without a change. The induction is that of
    the closing itself, whose measure is the edges that are still missing. -/
theorem closeWithin_eq_iterate_round (brands : List String) (supers : Supers)
    (h : supers.Within brands) :
    ∃ rounds, (∀ earlier < rounds, (round^[earlier] supers).changes = true) ∧
      (round^[rounds] supers).changes = false ∧
      closeWithin brands supers h = round^[rounds] supers := by
  fun_induction closeWithin brands supers h with
  | case1 supers h hchanges ih =>
      obtain ⟨rounds, hearlier, hlast, hclose⟩ := ih
      refine ⟨rounds + 1, ?_, hlast, hclose⟩
      intro earlier hlt
      cases earlier with
      | zero => exact hchanges
      | succ earlier => exact hearlier earlier (Nat.lt_of_succ_lt_succ hlt)
  | case2 supers h hchanges =>
      exact ⟨0, nofun, Bool.eq_false_iff.2 hchanges, rfl⟩

/-- The rounds come to an end: there is a first one that would change nothing, and the closure is
    what the rounds before it have made. -/
theorem close_eq_iterate_round (supers : Supers) :
    ∃ rounds, (∀ earlier < rounds, (round^[earlier] supers).changes = true) ∧
      (round^[rounds] supers).changes = false ∧ supers.close = round^[rounds] supers :=
  closeWithin_eq_iterate_round _ supers supers.within_self

/-- Every super-brand after some rounds is one that a path leads to. -/
theorem path_of_mem_iterate_round {supers : Supers} (rounds : Nat) {sub sup : String}
    (h : sup ∈ (round^[rounds] supers).of sub) :
    Relation.TransGen (fun a b => b ∈ supers.of a) sub sup := by
  induction rounds generalizing sub sup with
  | zero => exact .single h
  | succ rounds ih =>
      rw [Function.iterate_succ_apply', mem_of_round] at h
      rcases h with h | ⟨brand, hbrand, hsup⟩
      · exact ih h
      · exact (ih hbrand).trans (ih hsup)

/-- No round loses a super-brand. -/
theorem mem_iterate_round_of_mem {supers : Supers} (rounds : Nat) {sub sup : String}
    (h : sup ∈ supers.of sub) : sup ∈ (round^[rounds] supers).of sub := by
  induction rounds with
  | zero => exact h
  | succ rounds ih =>
      rw [Function.iterate_succ_apply', mem_of_round]
      exact .inl ih

/-- Closing gives every brand the super-brands that a path leads to, and no others. -/
theorem mem_of_close {supers : Supers} {sub sup : String} :
    sup ∈ supers.close.of sub ↔ Relation.TransGen (fun a b => b ∈ supers.of a) sub sup := by
  obtain ⟨rounds, -, hlast, hclose⟩ := supers.close_eq_iterate_round
  rw [hclose]
  constructor
  · intro h
    exact path_of_mem_iterate_round rounds h
  · intro h
    induction h with
    | single hedge => exact mem_iterate_round_of_mem rounds hedge
    | tail _ hedge ih => exact mem_of_trans hlast ih (mem_iterate_round_of_mem rounds hedge)

end Supers

namespace Registry

/-- A registry depends on the set of its edges only, in both modes. -/
theorem ofEdges_eq_of_mem_iff {edges edges' : List (String × String)}
    (h : ∀ edge, edge ∈ edges ↔ edge ∈ edges') (subtyping : Subtyping) (multiBrandCast : Bool) :
    ofEdges edges subtyping multiBrandCast = ofEdges edges' subtyping multiBrandCast := by
  unfold ofEdges
  rw [Supers.ofEdges_eq_of_mem_iff h]

/-- Without the closure, a sub-brand is one that an edge declares. -/
theorem isSubBrand_declared {edges : List (String × String)} {multiBrandCast : Bool}
    {sub sup : String} :
    (ofEdges edges .declared multiBrandCast).isSubBrand sub sup = true ↔ (sub, sup) ∈ edges := by
  rw [isSubBrand, decide_eq_true_iff]
  exact Supers.mem_of_ofEdges

/-- With the closure, a sub-brand is one that a path of edges leads from. -/
theorem isSubBrand_transitive {edges : List (String × String)} {multiBrandCast : Bool}
    {sub sup : String} :
    (ofEdges edges .transitive multiBrandCast).isSubBrand sub sup = true ↔
      Relation.TransGen (fun a b => (a, b) ∈ edges) sub sup := by
  rw [isSubBrand, decide_eq_true_iff]
  refine Supers.mem_of_close.trans ?_
  simp only [Supers.mem_of_ofEdges]

/-- Sub-brands are paths. However the edges are declared, with repetitions, loops and cycles, the
    rounds that close them come to an end; in transitive mode one brand is then below another
    exactly if a path of one or more edges leads from it to the other, and in declared mode exactly
    if there is such an edge. Neither depends on more than the set of edges. -/
theorem isSubBrand_iff_path (edges : List (String × String)) (multiBrandCast : Bool) :
    (∃ rounds,
      (∀ earlier < rounds, (Supers.round^[earlier] (Supers.ofEdges edges)).changes = true) ∧
      (Supers.round^[rounds] (Supers.ofEdges edges)).changes = false ∧
      (ofEdges edges .transitive multiBrandCast).supers =
        Supers.round^[rounds] (Supers.ofEdges edges)) ∧
    (∀ sub sup, (ofEdges edges .transitive multiBrandCast).isSubBrand sub sup = true ↔
      Relation.TransGen (fun a b => (a, b) ∈ edges) sub sup) ∧
    (∀ sub sup, (ofEdges edges .declared multiBrandCast).isSubBrand sub sup = true ↔
      (sub, sup) ∈ edges) ∧
    ∀ edges' : List (String × String), (∀ edge, edge ∈ edges' ↔ edge ∈ edges) →
      ∀ subtyping multiBrandCast' sub sup,
        (ofEdges edges' subtyping multiBrandCast').isSubBrand sub sup =
          (ofEdges edges subtyping multiBrandCast).isSubBrand sub sup := by
  refine ⟨Supers.close_eq_iterate_round _, fun _ _ => isSubBrand_transitive,
    fun _ _ => isSubBrand_declared, ?_⟩
  intro edges' hedges subtyping multiBrandCast' sub sup
  rw [Bool.eq_iff_iff]
  cases subtyping with
  | declared => rw [isSubBrand_declared, isSubBrand_declared, hedges]
  | transitive =>
      rw [isSubBrand_transitive, isSubBrand_transitive]
      simp only [hedges]

/-- On a cycle a brand is below itself, and declaring one of its edges twice makes no difference. -/
theorem isSubBrand_iff_path_of_cycle :
    (ofEdges [("A", "B"), ("B", "A")] .transitive false).isSubBrand "A" "A" = true ∧
    (∀ edge, edge ∈ [("B", "A"), ("A", "B"), ("B", "A")] ↔ edge ∈ [("A", "B"), ("B", "A")]) ∧
    (ofEdges [("B", "A"), ("A", "B"), ("B", "A")] .transitive true).isSubBrand "A" "A" =
      (ofEdges [("A", "B"), ("B", "A")] .transitive false).isSubBrand "A" "A" := by
  obtain ⟨-, htransitive, -, hset⟩ := isSubBrand_iff_path [("A", "B"), ("B", "A")] false
  have hedges : ∀ edge, edge ∈ [("B", "A"), ("A", "B"), ("B", "A")] ↔
      edge ∈ [("A", "B"), ("B", "A")] := by
    intro edge
    simp only [List.mem_cons, List.not_mem_nil, or_false]
    constructor
    · rintro (rfl | rfl | rfl) <;> simp
    · rintro (rfl | rfl) <;> simp
  refine ⟨(htransitive "A" "A").2 ?_, hedges, hset _ hedges .transitive true "A" "A"⟩
  exact .tail (.single (by simp : ("A", "B") ∈ [("A", "B"), ("B", "A")])) (by simp)

end Registry

end ClauseEngine
