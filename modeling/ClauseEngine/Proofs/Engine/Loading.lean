/-
Module: ClauseEngine.Proofs.Engine.Loading
Purpose: What loading keeps of a bundle. A contract that has been read holds the clauses in their
  order, the edges, and the last init body and error brand, each as it is read off the document; an
  engine is made of nothing else, and of the edges it keeps the set only. Bundles that mean the same
  therefore load to the same engine.
Main exports: Contract.Holds, Contract.holds_of_read, Contract.Alike, Engine.maxDepth_pos,
  Engine.ofContract_congr, Engine.load_eq_of_sameMeaning, Engine.load_depends_on_meaning
-/
import ClauseEngine.Engine.Basic
import ClauseEngine.Proofs.Bundle
import ClauseEngine.Proofs.Registry

namespace ClauseEngine

/-! ### Bundles

The readings of the document and those of the constructs that were read are the same list, which can
be taken apart by kind. -/

namespace Bundle

open Construct (Reading)

/-- A bundle holds what is read of its document. -/
theorem of_read {document : Json} {bundle : Bundle} (h : read document = .ok bundle) :
    document.get? "id" = some (.string bundle.id) ∧
      readings document = bundle.constructs.map Construct.reading := by
  obtain ⟨hid, items, hitems, hconstructs⟩ := exists_of_read h
  refine ⟨hid, ?_⟩
  rw [readings, hitems]
  exact Construct.readings_of_readAll hconstructs

/-- What is read of the constructs of one kind, where they are selected and their content kept. -/
theorem ofKind_map_reading {α : Type} {kind : Construct.Kind} {select : Construct → Option α}
    {write : α → Reading}
    (h : ∀ c : Construct, Option.guard (·.kind = kind) c.reading = (select c).map write)
    (constructs : List Construct) :
    ofKind kind (constructs.map Construct.reading) = (constructs.filterMap select).map write := by
  calc ofKind kind (constructs.map Construct.reading)
      = constructs.filterMap fun c => Option.guard (·.kind = kind) c.reading := by
        rw [ofKind, ← List.filterMap_eq_filter, List.filterMap_map]
        rfl
    _ = constructs.filterMap fun c => (select c).map write := by simp only [h]
    _ = (constructs.filterMap select).map write := (List.map_filterMap ..).symm

end Bundle

/-! ### Contracts

A contract keeps one part for each kind of construct. Readings determine these parts, since nothing
is lost in a reading that a contract holds. -/

/-- What is read of a clause. -/
def Clause.reading (clause : Clause) : Construct.Reading :=
  ⟨.clause, [some (.string clause.id), some (.string clause.request)], some (.ok clause.body)⟩

namespace Contract

open ClauseEngine.Bundle (ofKind readings)

/-- What is read of an edge. -/
def edgeReading (edge : String × String) : Construct.Reading :=
  ⟨.subtype, [some (.string edge.1), some (.string edge.2)], none⟩

/-- What is read of an init body. -/
def initReading (body : Expr) : Construct.Reading := ⟨.init, [], some (.ok body)⟩

/-- What is read of an error brand. -/
def errorBrandReading (brand : String) : Construct.Reading :=
  ⟨.errorBrand, [some (.string brand)], none⟩

/-- A contract holds what counts of a bundle. -/
structure Holds (contract : Contract) (document : Json) : Prop where
  id : document.get? "id" = some (.string contract.id)
  clauses : ofKind .clause (readings document) = contract.clauses.map Clause.reading
  edges : ofKind .subtype (readings document) = contract.edges.map edgeReading
  init : (ofKind .init (readings document)).getLast? = contract.init.map initReading
  errorBrand :
    (ofKind .errorBrand (readings document)).getLast? = contract.errorBrand.map errorBrandReading

/-- Where a construct stands decides the wording of its errors and nothing else. -/
theorem eq_ok_of_inConstruct {α : Type} {kind id : String} {provenance : Option Provenance}
    {r : Result α} {a : α} (h : inConstruct kind id provenance r = .ok a) : r = .ok a := by
  unfold inConstruct at h
  split at h
  · cases h
  · exact h

/-- A clause that is read has the reading of its declaration. -/
theorem reading_of_readClause {declaration : ClauseDeclaration} {clause : Clause}
    (h : readClause declaration = .ok clause) :
    (Construct.clause declaration).reading = clause.reading := by
  obtain ⟨body, hbody, h⟩ := bind_eq_ok_iff.1 h
  cases h
  rw [Construct.reading, eq_ok_of_inConstruct hbody]
  rfl

theorem reading_of_readInit {declaration : InitDeclaration} {body : Expr}
    (h : readInit declaration = .ok body) :
    (Construct.init declaration).reading = initReading body := by
  rw [Construct.reading, eq_ok_of_inConstruct h]
  rfl

/-- A contract that has been read holds what counts of its bundle. -/
theorem holds_of_read {document : Json} {contract : Contract}
    (h : read document = .ok contract) : contract.Holds document := by
  unfold read at h
  split at h
  · rename_i bundle hbundle
    obtain ⟨hid, hreadings⟩ := Bundle.of_read hbundle
    obtain ⟨clauses, hclauses, h⟩ := bind_eq_ok_iff.1 h
    obtain ⟨init, hinit, h⟩ := bind_eq_ok_iff.1 h
    cases h
    constructor
    · exact hid
    · rw [hreadings]
      calc ofKind .clause (bundle.constructs.map Construct.reading)
          = bundle.clauses.map fun declaration => (Construct.clause declaration).reading :=
            Bundle.ofKind_map_reading (fun c => by cases c <;> rfl) _
        _ = clauses.map Clause.reading :=
            map_eq_of_mapM (fun _ _ => reading_of_readClause) hclauses
    · rw [hreadings]
      exact Bundle.ofKind_map_reading (fun c => by cases c <;> rfl) _
    · rw [hreadings]
      calc (ofKind .init (bundle.constructs.map Construct.reading)).getLast?
          = ((bundle.constructs.filterMap Construct.init?).map fun declaration =>
              (Construct.init declaration).reading).getLast? :=
            congrArg List.getLast? (Bundle.ofKind_map_reading (fun c => by cases c <;> rfl) _)
        _ = bundle.init.map fun declaration => (Construct.init declaration).reading :=
            List.getLast?_map
        _ = init.map initReading := map_eq_of_optionMapM (fun _ _ => reading_of_readInit) hinit
    · rw [hreadings]
      calc (ofKind .errorBrand (bundle.constructs.map Construct.reading)).getLast?
          = ((bundle.constructs.filterMap Construct.errorBrand?).map errorBrandReading).getLast? :=
            congrArg List.getLast? (Bundle.ofKind_map_reading (fun c => by cases c <;> rfl) _)
        _ = bundle.errorBrand.map errorBrandReading := List.getLast?_map
  · cases h

/-- Two contracts that differ at most in the order and repetition of their edges. -/
structure Alike (contract contract' : Contract) : Prop where
  id : contract.id = contract'.id
  clauses : contract.clauses = contract'.clauses
  edges : ∀ edge, edge ∈ contract.edges ↔ edge ∈ contract'.edges
  init : contract.init = contract'.init
  errorBrand : contract.errorBrand = contract'.errorBrand

/-- Clauses are told apart by their readings. -/
theorem clauseReading_injective : Function.Injective Clause.reading := by
  rintro ⟨id, request, body⟩ ⟨id', request', body'⟩ h
  simpa [Clause.reading, and_assoc] using h

theorem edgeReading_injective : Function.Injective edgeReading := by
  rintro ⟨sub, sup⟩ ⟨sub', sup'⟩ h
  simpa [edgeReading] using h

theorem initReading_injective : Function.Injective initReading := by
  intro body body' h
  simpa [initReading] using h

theorem errorBrandReading_injective : Function.Injective errorBrandReading := by
  intro brand brand' h
  simpa [errorBrandReading] using h

/-- What is held of bundles that mean the same is alike. -/
theorem alike_of_sameMeaning {document document' : Json} {contract contract' : Contract}
    (h : contract.Holds document) (h' : contract'.Holds document')
    (hmeaning : Bundle.SameMeaning document document') : contract.Alike contract' := by
  have hreadings := hmeaning.readings
  constructor
  · have hid := hmeaning.id
    rw [h.id, h'.id] at hid
    simpa using hid
  · have hclauses := hreadings.clauses
    rw [h.clauses, h'.clauses] at hclauses
    exact List.map_injective_iff.2 clauseReading_injective hclauses
  · intro edge
    have hedges := hreadings.edges (edgeReading edge)
    rw [h.edges, h'.edges] at hedges
    rwa [List.mem_map_of_injective edgeReading_injective,
      List.mem_map_of_injective edgeReading_injective] at hedges
  · have hinit := hreadings.init
    rw [h.init, h'.init] at hinit
    exact Option.map_injective initReading_injective hinit
  · have hbrand := hreadings.errorBrand
    rw [h.errorBrand, h'.errorBrand] at hbrand
    exact Option.map_injective errorBrandReading_injective hbrand

end Contract

/-! ### Engines

Of the edges an engine keeps the registry, which depends on the set of edges only. All other parts
of a contract go into the engine as they are. -/

namespace Engine

/-- Loading reads a contract and makes an engine of it. -/
theorem exists_of_load {document : Json} {config : Config} {e : Engine}
    (h : load document config = .ok e) :
    ∃ contract, Contract.read document = .ok contract ∧ ofContract contract config = .ok e := by
  obtain ⟨_, _, h⟩ := bind_eq_ok_iff.1 h
  exact bind_eq_ok_iff.1 h

/-- An engine that is made has a level to evaluate at. -/
theorem maxDepth_pos {contract : Contract} {config : Config} {e : Engine}
    (h : ofContract contract config = .ok e) : 0 < e.maxDepth := by
  obtain ⟨_, hvalid, h⟩ := bind_eq_ok_iff.1 h
  dsimp only at h
  split at h
  · cases h
  · cases h
    apply Nat.pos_of_ne_zero
    intro hzero
    rw [Config.validate, if_pos hzero] at hvalid
    cases hvalid

/-- Contracts that are alike make the same engine. -/
theorem ofContract_congr {contract contract' : Contract} (h : contract.Alike contract')
    (config : Config) : ofContract contract config = ofContract contract' config := by
  rw [ofContract, ofContract, h.id, h.clauses, h.init, h.errorBrand,
    Registry.ofEdges_eq_of_mem_iff h.edges]

/-- Two bundles that mean the same and both load, load to the same engine. -/
theorem load_eq_of_sameMeaning {document document' : Json} {config : Config} {e e' : Engine}
    (hload : load document config = .ok e) (hload' : load document' config = .ok e')
    (h : Bundle.SameMeaning document document') : e = e' := by
  obtain ⟨contract, hread, hmade⟩ := exists_of_load hload
  obtain ⟨contract', hread', hmade'⟩ := exists_of_load hload'
  have halike := Contract.alike_of_sameMeaning (Contract.holds_of_read hread)
    (Contract.holds_of_read hread') h
  rw [ofContract_congr halike, hmade'] at hmade
  cases hmade
  rfl

/-- A loaded engine depends on the meaning of its bundle only. Two bundles that load under the same
    settings and mean the same answer every call alike, with the same result and the same log; so do
    two of which one comes from the other by edits: constructs of unknown kinds put in, edges
    permuted or repeated, edges, init bodies and error brands moved past clauses, overridden ones
    added, and changes to what is not read, each made or taken back. -/
theorem load_depends_on_meaning {document document' : Json} {config : Config} {e e' : Engine}
    (hload : load document config = .ok e) (hload' : load document' config = .ok e')
    (h : Bundle.SameMeaning document document' ∨ Bundle.Edited document document') :
    (∀ inv, e'.invoke inv = e.invoke inv) ∧
      ∀ contract now, e'.init contract now = e.init contract now := by
  have hmeaning : Bundle.SameMeaning document document' := by
    rcases h with h | h
    · exact h
    · exact h.sameMeaning
  obtain rfl := load_eq_of_sameMeaning hload hload' hmeaning
  exact ⟨fun _ => rfl, fun _ _ => rfl⟩

/-- A construct of a kind that is not known. -/
def noteConstruct : Json := .object [("kind", .string "Note")]

/-- The edge from late orders to orders. -/
def lateOrderEdge : Json :=
  .object [("kind", .string "Subtype"), ("sub", .string "LateOrder"), ("sup", .string "Order")]

/-- A clause that answers orders with themselves, along with what is not read of it. -/
def orderClause (unread : List (String × Json)) : Json :=
  .object ([("body", .object [("expr", .string "var"), ("name", .string "request")]),
    ("id", .string "order"), ("kind", .string "Clause")] ++ unread ++
    [("request", .string "Order")])

/-- An init body that is a variable. -/
def initConstruct (name : String) : Json :=
  .object [("body", .object [("expr", .string "var"), ("name", .string name)]),
    ("kind", .string "Init")]

/-- A bundle of constructs. -/
def deskDocument (constructs : List Json) : Json :=
  .object [("constructs", .array constructs), ("id", .string "desk")]

/-- The place of a clause. -/
def deskPlace : List (String × Json) :=
  [("provenance", .object [("file", .string "desk"), ("line", .int 7)])]

/-- The engine of an edge, a clause and an init body. -/
def desk : Engine where
  id := "desk"
  clauses := [⟨"order", "Order", .var "request"⟩]
  initBody := some (.var "contract")
  registry := ⟨[("LateOrder", ["Order"])], false⟩
  errorBrand := "Error"
  maxDepth := 8

/-- The clause moves before the edge and gets its place, the edge is repeated, an init body that is
    overridden and a note are put in front. -/
theorem load_depends_on_meaning_of_edits :
    let plain := deskDocument [lateOrderEdge, orderClause [], initConstruct "contract"]
    let edited := deskDocument [noteConstruct, initConstruct "now", orderClause deskPlace,
      lateOrderEdge, lateOrderEdge, initConstruct "contract"]
    ∃ e e' : Engine, load plain ⟨.transitive, false, 8, "Error"⟩ = .ok e ∧
      load edited ⟨.transitive, false, 8, "Error"⟩ = .ok e' ∧ Bundle.Edited plain edited ∧
      (∀ inv, e'.invoke inv = e.invoke inv) ∧
      ∀ contract now, e'.init contract now = e.init contract now := by
  intro plain edited
  have hplain : load plain ⟨.transitive, false, 8, "Error"⟩ = .ok desk := by
    with_unfolding_all rfl
  have hedited : load edited ⟨.transitive, false, 8, "Error"⟩ = .ok desk := by
    with_unfolding_all rfl
  have hmove : Bundle.Edit ([] ++ lateOrderEdge :: orderClause [] :: [initConstruct "contract"])
      ([] ++ orderClause [] :: lateOrderEdge :: [initConstruct "contract"]) :=
    .swap (.inr rfl)
  have hplace : Bundle.Edit ([] ++ orderClause [] :: [lateOrderEdge, initConstruct "contract"])
      ([] ++ orderClause deskPlace :: [lateOrderEdge, initConstruct "contract"]) :=
    .rewrite rfl
  have hrepeat : Bundle.Edit ([orderClause deskPlace] ++ [lateOrderEdge, initConstruct "contract"])
      ([orderClause deskPlace] ++ lateOrderEdge :: [lateOrderEdge, initConstruct "contract"]) :=
    .repeatEdge rfl (List.mem_cons_of_mem _ List.mem_cons_self) rfl
  have hinit : Bundle.Edit
      ([] ++ [orderClause deskPlace, lateOrderEdge, lateOrderEdge, initConstruct "contract"])
      ([] ++ initConstruct "now" ::
        [orderClause deskPlace, lateOrderEdge, lateOrderEdge, initConstruct "contract"]) :=
    .insertOverridden (.inl rfl) rfl (.tail _ (.tail _ (.tail _ (.head _)))) rfl
  have hnote : Bundle.Edit
      ([] ++ [initConstruct "now", orderClause deskPlace, lateOrderEdge, lateOrderEdge,
        initConstruct "contract"])
      ([] ++ noteConstruct :: [initConstruct "now", orderClause deskPlace, lateOrderEdge,
        lateOrderEdge, initConstruct "contract"]) :=
    .insertUnknown rfl
  have hedits : Bundle.Edited plain edited := by
    refine ⟨rfl, _, _, rfl, rfl, .trans _ _ _ (.rel _ _ hmove) ?_⟩
    refine .trans _ _ _ (.rel _ _ hplace) (.trans _ _ _ (.rel _ _ hrepeat) ?_)
    exact .trans _ _ _ (.rel _ _ hinit) (.rel _ _ hnote)
  exact ⟨desk, desk, hplain, hedited, hedits, load_depends_on_meaning hplain hedited (.inr hedits)⟩

end Engine

end ClauseEngine
