/-
Module: ClauseEngine.Proofs.Engine.Subtyping
Purpose: The two ways of reading declared edges compared. Closing edges that are transitive already
  takes no round, so that a registry with the closure and one without hold the same super-brands, and
  the engines made of them are one and the same; edges that are not transitive tell the two apart.
  On any edges at all the closure only adds super-brands, hence it keeps every cast that succeeds.
Main exports: Bundle.EdgesTransitive, Supers.close_eq_self, Registry.ofEdges_transitive_eq_declared,
  Registry.cast_left_mono, Engine.load_with_subtyping, Engine.AnswersAlike,
  Engine.subtyping_modes_agree_iff
-/
import ClauseEngine.Proofs.Engine.Loading

namespace ClauseEngine

/-- Wherever two declared edges follow each other, the edge from the first brand to the last is
    declared as well. -/
def Bundle.EdgesTransitive (b : Bundle) : Prop :=
  ∀ x y z, (x, y) ∈ b.edges → (y, z) ∈ b.edges → (x, z) ∈ b.edges

instance (b : Bundle) : Decidable b.EdgesTransitive :=
  decidable_of_iff
    (∀ edge ∈ b.edges, ∀ next ∈ b.edges, edge.2 = next.1 → (edge.1, next.2) ∈ b.edges)
    ⟨fun h x y z hxy hyz => h (x, y) hxy (y, z) hyz rfl,
      fun h edge hedge next hnext hmeet => h edge.1 edge.2 next.2 hedge (hmeet ▸ hnext)⟩

/-! ### Closing what is closed

A round adds the super-brands of super-brands. On transitive edges there are none to add, so that no
round is made. -/

namespace Supers

variable {supers : Supers}

/-- A round would change nothing if the super-brands of super-brands are all there. -/
theorem changes_eq_false (hcanonical : supers.Canonical)
    (htrans : ∀ x y z, y ∈ supers.of x → z ∈ supers.of y → z ∈ supers.of x) :
    supers.changes = false := by
  apply Bool.eq_false_iff.2
  intro hchanges
  obtain ⟨⟨brand, sups⟩, hentry, hnew⟩ := List.any_eq_true.1 hchanges
  obtain ⟨sup, hsup, hnew⟩ := List.any_eq_true.1 hnew
  obtain ⟨between, hbetween, hsup⟩ := List.mem_flatMap.1 hsup
  have hof : supers.of brand = sups := by
    rw [of, (Fields.lookup_eq_some_iff hcanonical.brands).2 hentry]
    rfl
  have hmem : sup ∈ supers.of brand := by
    apply htrans brand between sup
    · rw [hof]
      exact hbetween
    · exact hsup
  rw [hof] at hmem
  exact of_decide_eq_true hnew hmem

/-- Closing takes no round where none would change anything. -/
theorem close_eq_self (h : supers.changes = false) : supers.close = supers := by
  rw [close, closeWithin, h]
  rfl

end Supers

/-! ### Registries in the two modes

Where the edges are transitive the two registries are equal. Where they are not, a chain of two
edges without the third tells them apart; and in any case a cast that succeeds without the closure
succeeds with it. -/

namespace Registry

variable {edges : List (String × String)}

/-- On transitive edges the two modes make the same registry. -/
theorem ofEdges_transitive_eq_declared
    (h : ∀ x y z, (x, y) ∈ edges → (y, z) ∈ edges → (x, z) ∈ edges) (multiBrandCast : Bool) :
    ofEdges edges .transitive multiBrandCast = ofEdges edges .declared multiBrandCast := by
  have hclosed : (Supers.ofEdges edges).changes = false := by
    apply Supers.changes_eq_false (Supers.canonical_ofEdges edges)
    simp only [Supers.mem_of_ofEdges]
    exact h
  rw [ofEdges, ofEdges, Supers.close_eq_self hclosed]

/-- Where the two modes find the same sub-brands, the edges are transitive. -/
theorem transitive_of_isSubBrand_eq {multiBrandCast : Bool}
    (h : ∀ sub sup, (ofEdges edges .declared multiBrandCast).isSubBrand sub sup =
      (ofEdges edges .transitive multiBrandCast).isSubBrand sub sup) (x y z : String)
    (hxy : (x, y) ∈ edges) (hyz : (y, z) ∈ edges) : (x, z) ∈ edges := by
  apply (@isSubBrand_declared edges multiBrandCast x z).1
  rw [h, isSubBrand_transitive]
  exact .tail (.single hxy) hyz

/-- A declared sub-brand is one in transitive mode too. -/
theorem isSubBrand_transitive_of_declared {multiBrandCast : Bool} {sub sup : String}
    (h : (ofEdges edges .declared multiBrandCast).isSubBrand sub sup = true) :
    (ofEdges edges .transitive multiBrandCast).isSubBrand sub sup = true := by
  rw [isSubBrand_transitive]
  exact .single (isSubBrand_declared.1 h)

section Growth

variable {r r' : Registry} {targets : List String} {v w : Value}

/-- With more sub-brands a value satisfies no target less. -/
theorem accepts_mono
    (hsub : ∀ sub sup, r.isSubBrand sub sup = true → r'.isSubBrand sub sup = true)
    (h : r.accepts targets v = true) : r'.accepts targets v = true := by
  unfold accepts at h ⊢
  cases hbrand : v.brand? with
  | none =>
      rw [hbrand] at h
      exact h
  | some brand =>
      rw [hbrand] at h
      apply List.all_eq_true.2
      intro target htarget
      have hsatisfies := List.all_eq_true.1 h target htarget
      simp only [brandSatisfies, Bool.or_eq_true] at hsatisfies ⊢
      exact hsatisfies.imp_right (hsub brand target)

/-- A cast to the left gives the value itself, which satisfies the targets. -/
theorem cast_eq_left_iff :
    r.cast targets v = .ok (.left w) ↔
      (targets.length = 1 ∨ r.multiBrandCast = true) ∧ r.accepts targets v = true ∧ w = v := by
  unfold cast
  split
  · rename_i hunsupported
    constructor
    · rintro ⟨⟩
    · rintro ⟨hsupported | hsupported, -⟩
      · exact absurd hsupported hunsupported.1
      · rw [hunsupported.2] at hsupported
        cases hsupported
  · rename_i hsupported
    have hsupported : targets.length = 1 ∨ r.multiBrandCast = true := by
      rcases Decidable.em (targets.length = 1) with hone | hmany
      · exact .inl hone
      · exact .inr (Bool.eq_true_of_not_eq_false fun hmulti => hsupported ⟨hmany, hmulti⟩)
    cases haccepts : r.accepts targets v with
    | true => simp [hsupported, @eq_comm _ w v]
    | false => simp

/-- With more sub-brands a cast that succeeds still does. -/
theorem cast_left_mono (hmulti : r'.multiBrandCast = r.multiBrandCast)
    (hsub : ∀ sub sup, r.isSubBrand sub sup = true → r'.isSubBrand sub sup = true)
    (h : r.cast targets v = .ok (.left w)) : r'.cast targets v = .ok (.left w) := by
  obtain ⟨hsupported, haccepts, hvalue⟩ := cast_eq_left_iff.1 h
  rw [← hmulti] at hsupported
  exact cast_eq_left_iff.2 ⟨hsupported, accepts_mono hsub haccepts, hvalue⟩

end Growth

end Registry

/-! ### Engines in the two modes

The mode enters into an engine through its registry and into nothing else, not even into the errors
of loading. -/

namespace Engine

/-- The mode goes into the registry of an engine and nowhere else. -/
theorem ofContract_with_subtyping (contract : Contract) (config : Config) (subtyping : Subtyping) :
    ofContract contract { config with subtyping := subtyping } =
      (fun e => { e with
        registry := Registry.ofEdges contract.edges subtyping config.multiBrandCast }) <$>
        ofContract contract config := by
  have hvalidate : { config with subtyping := subtyping }.validate = config.validate := rfl
  unfold ofContract
  rw [hvalidate]
  cases config.validate with
  | error error => rfl
  | ok _ =>
      dsimp only [checked, bind, Except.bind]
      split
      · rfl
      · rfl

/-- The registry of an engine is made of the edges and the settings. -/
theorem registry_of_ofContract {contract : Contract} {config : Config} {e : Engine}
    (h : ofContract contract config = .ok e) :
    e.registry = Registry.ofEdges contract.edges config.subtyping config.multiBrandCast := by
  obtain ⟨_, _, h⟩ := bind_eq_ok_iff.1 h
  dsimp only at h
  split at h
  · cases h
  · cases h
    rfl

/-- A contract that has been read has the edges of its bundle. -/
theorem edges_of_read {document : Json} {bundle : Bundle} {contract : Contract}
    (hbundle : Bundle.read document = .ok bundle) (h : Contract.read document = .ok contract) :
    contract.edges = bundle.edges := by
  rw [Contract.read, hbundle] at h
  obtain ⟨clauses, _, h⟩ := bind_eq_ok_iff.1 h
  obtain ⟨init, _, h⟩ := bind_eq_ok_iff.1 h
  cases h
  rfl

/-- A bundle that is refused is refused in every mode, for the same reason. -/
theorem load_error_with_subtyping (document : Json) (config : Config) (subtyping : Subtyping)
    (error : EvalError) :
    load document { config with subtyping := subtyping } = .error error ↔
      load document config = .error error := by
  have hvalidate : { config with subtyping := subtyping }.validate = config.validate := rfl
  unfold load
  simp only [ofContract_with_subtyping, hvalidate]
  cases checked config.validate with
  | error refusal => rfl
  | ok _ =>
      dsimp only [bind, Except.bind]
      cases Contract.read document with
      | error refusal => rfl
      | ok contract =>
          dsimp only
          cases ofContract contract config with
          | error refusal => rfl
          | ok e =>
              constructor
              · rintro ⟨⟩
              · rintro ⟨⟩

/-- In every mode the registry is made of the edges of the bundle. -/
theorem registry_of_load {document : Json} {config : Config} {bundle : Bundle} {e : Engine}
    (hbundle : Bundle.read document = .ok bundle) (h : load document config = .ok e) :
    e.registry = Registry.ofEdges bundle.edges config.subtyping config.multiBrandCast := by
  obtain ⟨contract, hread, hmade⟩ := exists_of_load h
  rw [registry_of_ofContract hmade, edges_of_read hbundle hread]

/-- Engines of one bundle in two modes differ in their registries at most. -/
theorem load_with_subtyping {document : Json} {config : Config} {subtyping : Subtyping}
    {e e' : Engine} (h : load document config = .ok e)
    (h' : load document { config with subtyping := subtyping } = .ok e') :
    e' = { e with registry := e'.registry } := by
  obtain ⟨contract, hread, hmade⟩ := exists_of_load h
  obtain ⟨contract', hread', hmade'⟩ := exists_of_load h'
  rw [hread] at hread'
  cases hread'
  rw [ofContract_with_subtyping, hmade] at hmade'
  cases hmade'
  rfl

/-- Two engines give the same answers: about the size of their registries, about brands and casts,
    and to every call, with the same log. -/
structure AnswersAlike (e e' : Engine) : Prop where
  size : e.registry.size = e'.registry.size
  isSubBrand : ∀ sub sup, e.registry.isSubBrand sub sup = e'.registry.isSubBrand sub sup
  brandMatches : ∀ brand targets,
    e.registry.brandMatches brand targets = e'.registry.brandMatches brand targets
  cast : ∀ targets v, e.registry.cast targets v = e'.registry.cast targets v
  invoke : ∀ inv, e.invoke inv = e'.invoke inv
  init : ∀ contract now, e.init contract now = e'.init contract now

theorem AnswersAlike.refl (e : Engine) : e.AnswersAlike e where
  size := rfl
  isSubBrand _ _ := rfl
  brandMatches _ _ := rfl
  cast _ _ := rfl
  invoke _ := rfl
  init _ _ := rfl

/-- The two modes of subtyping agree exactly on edges that are transitive. A bundle loads in one mode
    if it does in the other, and is refused for the same reason if not. The engines of the two modes
    give the same answers, about brands and casts as well as to calls, if the declared edges are
    transitive, with loops and cycles as they may have, and only then. Whatever the edges are, a cast
    that succeeds in declared mode gives the same in transitive mode. -/
theorem subtyping_modes_agree_iff (document : Json) (config : Config) :
    (∀ error, load document { config with subtyping := .declared } = .error error ↔
      load document { config with subtyping := .transitive } = .error error) ∧
    ∀ bundle declared transitive, Bundle.read document = .ok bundle →
      load document { config with subtyping := .declared } = .ok declared →
      load document { config with subtyping := .transitive } = .ok transitive →
        (bundle.EdgesTransitive ↔ declared.AnswersAlike transitive) ∧
        ∀ targets v w, declared.registry.cast targets v = .ok (.left w) →
          transitive.registry.cast targets v = .ok (.left w) := by
  constructor
  · intro error
    have hdeclared := load_error_with_subtyping document config .declared error
    have htransitive := load_error_with_subtyping document config .transitive error
    exact hdeclared.trans htransitive.symm
  intro bundle declared transitive hbundle hdeclared htransitive
  have hregistry : declared.registry =
      Registry.ofEdges bundle.edges .declared config.multiBrandCast :=
    registry_of_load hbundle hdeclared
  have hregistry' : transitive.registry =
      Registry.ofEdges bundle.edges .transitive config.multiBrandCast :=
    registry_of_load hbundle htransitive
  constructor
  · constructor
    · intro hedges
      have hengine : transitive = { declared with registry := transitive.registry } :=
        load_with_subtyping hdeclared htransitive
      rw [hregistry', Registry.ofEdges_transitive_eq_declared hedges, ← hregistry] at hengine
      rw [hengine]
      exact .refl declared
    · intro halike
      apply Registry.transitive_of_isSubBrand_eq
      rw [← hregistry, ← hregistry']
      exact halike.isSubBrand
  · intro targets v w hcast
    have hmulti : transitive.registry.multiBrandCast = declared.registry.multiBrandCast := by
      rw [hregistry, hregistry']
      rfl
    apply Registry.cast_left_mono hmulti _ hcast
    rw [hregistry, hregistry']
    intro sub sup hsub
    exact Registry.isSubBrand_transitive_of_declared hsub

/-- A bundle that declares some edges before its clause. -/
def edgesDocument (edges : List (String × String)) : Json :=
  deskDocument (edges.map (fun edge => .object [("kind", .string "Subtype"),
    ("sub", .string edge.1), ("sup", .string edge.2)]) ++ [orderClause []])

/-- That bundle as it is read. -/
def edgesBundle (edges : List (String × String)) : Bundle :=
  ⟨"desk", edges.map (fun edge => .subtype edge.1 edge.2) ++ [.clause ⟨"order", "Order",
    .object [("expr", .string "var"), ("name", .string "request")], none⟩]⟩

/-- An engine with its clause and some super-brands. -/
def edgesDesk (supers : Supers) : Engine :=
  { desk with initBody := none, registry := ⟨supers, false⟩ }

/-- On a cycle with its loops the two modes agree. On a chain without the edge from end to end they
    do not, but what is cast along an edge in one mode is cast in the other. -/
theorem subtyping_modes_agree_iff_of_cycle_and_chain :
    let config : Config := ⟨.declared, false, 8, "Error"⟩
    let cycle := [("A", "B"), ("B", "A"), ("A", "A"), ("B", "B")]
    let chain := [("A", "B"), ("B", "C")]
    (∃ declared transitive,
      load (edgesDocument cycle) { config with subtyping := .declared } = .ok declared ∧
      load (edgesDocument cycle) { config with subtyping := .transitive } = .ok transitive ∧
      (edgesBundle cycle).EdgesTransitive ∧ declared.AnswersAlike transitive) ∧
    ∃ declared transitive,
      load (edgesDocument chain) { config with subtyping := .declared } = .ok declared ∧
      load (edgesDocument chain) { config with subtyping := .transitive } = .ok transitive ∧
      ¬ (edgesBundle chain).EdgesTransitive ∧ ¬ declared.AnswersAlike transitive ∧
      declared.registry.cast ["B"] (.branded "A" []) = .ok (.left (.branded "A" [])) ∧
      transitive.registry.cast ["B"] (.branded "A" []) = .ok (.left (.branded "A" [])) := by
  intro config cycle chain
  constructor
  · have hdeclared : load (edgesDocument cycle) { config with subtyping := .declared } =
        .ok (edgesDesk [("A", ["A", "B"]), ("B", ["A", "B"])]) := by with_unfolding_all rfl
    have htransitive : load (edgesDocument cycle) { config with subtyping := .transitive } =
        .ok (edgesDesk [("A", ["A", "B"]), ("B", ["A", "B"])]) := by with_unfolding_all rfl
    have hedges : (edgesBundle cycle).EdgesTransitive := by decide
    obtain ⟨hagree, -⟩ := (subtyping_modes_agree_iff (edgesDocument cycle) config).2
      (edgesBundle cycle) _ _ (by with_unfolding_all rfl) hdeclared htransitive
    exact ⟨_, _, hdeclared, htransitive, hedges, hagree.1 hedges⟩
  · have hdeclared : load (edgesDocument chain) { config with subtyping := .declared } =
        .ok (edgesDesk [("A", ["B"]), ("B", ["C"])]) := by with_unfolding_all rfl
    have htransitive : load (edgesDocument chain) { config with subtyping := .transitive } =
        .ok (edgesDesk [("A", ["B", "C"]), ("B", ["C"])]) := by with_unfolding_all rfl
    have hedges : ¬ (edgesBundle chain).EdgesTransitive := by decide
    have hcast : (edgesDesk [("A", ["B"]), ("B", ["C"])]).registry.cast ["B"] (.branded "A" []) =
        .ok (.left (.branded "A" [])) := rfl
    obtain ⟨hagree, hleft⟩ := (subtyping_modes_agree_iff (edgesDocument chain) config).2
      (edgesBundle chain) _ _ (by with_unfolding_all rfl) hdeclared htransitive
    refine ⟨_, _, hdeclared, htransitive, hedges, ?_, hcast, hleft _ _ _ hcast⟩
    intro halike
    exact hedges (hagree.2 halike)

end Engine

end ClauseEngine
