/-
Module: ClauseEngine.Proofs.Engine.Acceptance
Purpose: Which bundles load, and with what error the others are refused. Loading is a row of checks,
  each of which can be decided on the document and the settings alone: the settings, the id, the list
  of constructs, the constructs one by one, the clause bodies, the last init body and the last error
  brand. A bundle loads exactly if it passes all of them, and is refused with the first fault of the
  first check that it does not pass.
Main exports: Contract.bodyFaults, Contract.read_reports, Engine.Check, Engine.Check.Passes,
  Engine.Check.faults, Engine.Check.faults_eq_nil_iff, Engine.load_reports, Engine.load_by_checks
-/
import ClauseEngine.Proofs.Bundle.Faults
import ClauseEngine.Proofs.Engine.Loading

namespace ClauseEngine

/-! ### The bodies of a contract

Bodies are read after the whole bundle has been: first those of all clauses, then the last init
body. A body that cannot be read is a fault of the document of its construct. -/

namespace Contract

/-- The fault of a body that is no expression, with the construct it is in. -/
def bodyFaults (kind : Construct.Kind) (construct : Json) : List EvalError :=
  match construct.get? "body" with
  | some body =>
      faultOf (inConstruct kind.name (Construct.label kind construct)
        (Provenance.read? construct) (Expr.read body))
  | none => []

/-- Saying where an error arose neither makes nor removes it. -/
theorem faultOf_inConstruct_eq_nil_iff {α : Type} {kind id : String}
    {provenance : Option Provenance} {r : Result α} :
    faultOf (inConstruct kind id provenance r) = [] ↔ ∃ a, r = .ok a := by
  rw [← (reports_faultOf (inConstruct kind id provenance r)).exists_ok_iff]
  constructor
  · rintro ⟨a, ha⟩
    exact ⟨a, eq_ok_of_inConstruct ha⟩
  · rintro ⟨a, rfl⟩
    exact ⟨a, rfl⟩

/-- A construct has no fault of its body exactly if its body, where it has one, can be read. -/
theorem bodyFaults_eq_nil_iff {kind : Construct.Kind} {construct : Json} :
    bodyFaults kind construct = [] ↔
      ∀ body ∈ construct.get? "body", ∃ e, Expr.read body = .ok e := by
  unfold bodyFaults
  split
  · rename_i body hbody
    rw [faultOf_inConstruct_eq_nil_iff, hbody]
    simp
  · rename_i hnone
    simp [hnone]

/-- The body of a clause is at fault in the document that declares the clause. -/
theorem readClause_reports {construct : Json} {declaration : ClauseDeclaration}
    (h : Construct.DeclaredBy construct (.clause declaration)) :
    Reports (bodyFaults .clause construct) (readClause declaration) := by
  obtain ⟨-, hlabel, hbody, hprovenance⟩ := h
  rw [bodyFaults, hbody, hlabel, hprovenance]
  exact (reports_faultOf _).map fun body => Clause.mk declaration.id declaration.request body

theorem readInit_reports {construct : Json} {declaration : InitDeclaration}
    (h : Construct.DeclaredBy construct (.init declaration)) :
    Reports (bodyFaults .init construct) (readInit declaration) := by
  obtain ⟨-, hbody, hprovenance⟩ := h
  rw [bodyFaults, hbody, hprovenance]
  exact reports_faultOf _

/-- The clause bodies are read in order, and of the init bodies the last. -/
theorem ofBundle_reports {document : Json} {bundle : Bundle}
    (h : Bundle.read document = .ok bundle) :
    Reports ((Bundle.itemsOf .clause document).flatMap (bodyFaults .clause) ++
      (Bundle.itemsOf .init document).getLast?.toList.flatMap (bodyFaults .init))
      (ofBundle bundle) := by
  have hclauses : List.Forall₂ (fun item declaration =>
      Reports (bodyFaults .clause item) (readClause declaration))
      (Bundle.itemsOf .clause document) bundle.clauses := by
    refine Bundle.forall₂_itemsOf (fun item construct hdeclared => ?_) h
    cases construct with
    | clause declaration => exact .inr ⟨declaration, rfl, rfl, readClause_reports hdeclared⟩
    | _ => exact .inl ⟨rfl, by simp [Construct.reading]⟩
  have hinits : List.Forall₂ (fun item declaration =>
      Reports (bodyFaults .init item) (readInit declaration))
      (Bundle.itemsOf .init document) (bundle.constructs.filterMap Construct.init?) := by
    refine Bundle.forall₂_itemsOf (fun item construct hdeclared => ?_) h
    cases construct with
    | init declaration => exact .inr ⟨declaration, rfl, rfl, readInit_reports hdeclared⟩
    | _ => exact .inl ⟨rfl, by simp [Construct.reading]⟩
  refine (Reports.mapM hclauses).bind fun clauses _ => Reports.map _ ?_
  rw [Bundle.init]
  have hlast := forall₂_getLast? hinits
  generalize (Bundle.itemsOf .init document).getLast? = last,
    (bundle.constructs.filterMap Construct.init?).getLast? = declaration at hlast
  cases hlast with
  | none => exact .success none
  | some hinit => simpa using hinit.map some

/-- A fault of a bundle, as loading reports it. -/
def ofBundleError (error : BundleError) : EvalError := .unreadable (.bundle error)

/-- The faults of the bundle come before those of its bodies. -/
theorem read_reports (document : Json) :
    Reports ((Bundle.faults document).map ofBundleError ++
      ((Bundle.itemsOf .clause document).flatMap (bodyFaults .clause) ++
        (Bundle.itemsOf .init document).getLast?.toList.flatMap (bodyFaults .init)))
      (read document) := by
  have hbundle := Bundle.read_reports document
  unfold read
  cases hread : Bundle.read document with
  | ok bundle =>
      rw [hread] at hbundle
      rw [hbundle.exists_ok_iff.1 ⟨bundle, rfl⟩]
      exact ofBundle_reports hread
  | error error =>
      rw [hread] at hbundle
      generalize Bundle.faults document = faults at hbundle
      cases hbundle with
      | failure _ others => exact .failure _ _

/-- A contract is read from a bundle that is read. -/
theorem exists_bundle_of_read {document : Json} {contract : Contract}
    (h : read document = .ok contract) :
    ∃ bundle, Bundle.read document = .ok bundle ∧ ofBundle bundle = .ok contract := by
  unfold read at h
  split at h
  · rename_i bundle hbundle
    exact ⟨bundle, hbundle, h⟩
  · cases h

/-- The error brand of a contract is the brand of the last such construct. -/
theorem errorBrand_of_read {document : Json} {contract : Contract}
    (h : read document = .ok contract) :
    contract.errorBrand = (Bundle.itemsOf .errorBrand document).getLast?.bind fun item =>
      (item.get? "brand").bind Json.string? := by
  obtain ⟨bundle, hbundle, h⟩ := exists_bundle_of_read h
  obtain ⟨clauses, -, h⟩ := bind_eq_ok_iff.1 h
  obtain ⟨init, -, h⟩ := bind_eq_ok_iff.1 h
  cases h
  have hbrands : List.Forall₂ (fun item brand => Json.get? "brand" item = some (.string brand))
      (Bundle.itemsOf .errorBrand document) (bundle.constructs.filterMap Construct.errorBrand?) := by
    refine Bundle.forall₂_itemsOf (fun item construct hdeclared => ?_) hbundle
    cases construct with
    | errorBrand brand => exact .inr ⟨brand, rfl, rfl, hdeclared.2⟩
    | _ => exact .inl ⟨rfl, by simp [Construct.reading]⟩
  have hlast := forall₂_getLast? hbrands
  show bundle.errorBrand = _
  rw [Bundle.errorBrand]
  generalize (Bundle.itemsOf .errorBrand document).getLast? = last,
    (bundle.constructs.filterMap Construct.errorBrand?).getLast? = brand at hlast
  cases hlast with
  | none => rfl
  | some hbrand =>
      rw [Option.bind_some, hbrand]
      rfl

end Contract

/-! ### Loading

The checks are run in a fixed order, each on what the ones before have let through. The result
reports the first fault of all of them together. -/

namespace Engine

/-- What is checked of a bundle and its settings, in this order. -/
inductive Check where
  | settings
  | id
  | constructs
  | eachConstruct
  | clauseBodies
  | initBody
  | errorBrand
deriving DecidableEq, Repr

namespace Check

def all : List Check :=
  [.settings, .id, .constructs, .eachConstruct, .clauseBodies, .initBody, .errorBrand]

theorem mem_all (check : Check) : check ∈ all := by
  cases check <;> decide

/-- A bundle and its settings pass a check. Of several init bodies and several error brands only the
    last has to be acceptable. -/
def Passes (document : Json) (config : Config) : Check → Prop
  | .settings => 1 ≤ config.maxDepth ∧ config.errorBrand ≠ ""
  | .id => ∃ id, document.get? "id" = some (.string id)
  | .constructs => ∃ items, document.get? "constructs" = some (.array items)
  | .eachConstruct => ∀ item ∈ Bundle.items document, Construct.Complete item
  | .clauseBodies =>
      ∀ item ∈ Bundle.itemsOf .clause document, ∀ body ∈ item.get? "body",
        ∃ e, Expr.read body = .ok e
  | .initBody =>
      ∀ item ∈ (Bundle.itemsOf .init document).getLast?, ∀ body ∈ item.get? "body",
        ∃ e, Expr.read body = .ok e
  | .errorBrand =>
      ∀ item ∈ (Bundle.itemsOf .errorBrand document).getLast?,
        item.get? "brand" ≠ some (.string "")

/-- The faults that a check finds, in the order in which they stand in the bundle. -/
def faults (document : Json) (config : Config) : Check → List EvalError
  | .settings =>
      (if config.maxDepth = 0 then [.config .zeroDepth] else []) ++
        if config.errorBrand = "" then [.config .emptyErrorBrand] else []
  | .id =>
      (Bundle.fieldFaults "id" ((document.get? "id").bind Json.string?)).map
        Contract.ofBundleError
  | .constructs =>
      (Bundle.fieldFaults "constructs" ((document.get? "constructs").bind Json.array?)).map
        Contract.ofBundleError
  | .eachConstruct =>
      ((Bundle.items document).zipIdx.flatMap fun entry =>
        Construct.faults entry.2 entry.1).map Contract.ofBundleError
  | .clauseBodies => (Bundle.itemsOf .clause document).flatMap (Contract.bodyFaults .clause)
  | .initBody =>
      (Bundle.itemsOf .init document).getLast?.toList.flatMap (Contract.bodyFaults .init)
  | .errorBrand =>
      if (Bundle.itemsOf .errorBrand document).getLast?.bind (fun item =>
          (item.get? "brand").bind Json.string?) = some "" then
        [.config (.emptyContractErrorBrand (((document.get? "id").bind Json.string?).getD ""))]
      else []

/-- A check that is passed finds no faults, and one that is not finds some. -/
theorem faults_eq_nil_iff {document : Json} {config : Config} (check : Check) :
    check.faults document config = [] ↔ check.Passes document config := by
  cases check with
  | settings => simp [faults, Passes, Nat.one_le_iff_ne_zero]
  | id =>
      simp only [faults, Passes, List.map_eq_nil_iff, Bundle.fieldFaults_eq_nil_iff,
        Json.bind_string?_eq_some_iff]
  | constructs =>
      simp only [faults, Passes, List.map_eq_nil_iff, Bundle.fieldFaults_eq_nil_iff,
        Json.bind_array?_eq_some_iff]
  | eachConstruct =>
      simp only [faults, Passes, List.map_eq_nil_iff, List.flatMap_eq_nil_iff,
        Construct.faults_eq_nil_iff]
      constructor
      · intro h item hitem
        obtain ⟨index, hindex⟩ := List.getElem?_of_mem hitem
        exact h (item, index) (List.mem_zipIdx_iff_getElem?.2 hindex)
      · intro h entry hentry
        exact h entry.1 (List.mem_of_getElem? (List.mem_zipIdx_iff_getElem?.1 hentry))
  | clauseBodies =>
      simp only [faults, Passes, List.flatMap_eq_nil_iff, Contract.bodyFaults_eq_nil_iff]
  | initBody =>
      simp only [faults, Passes, List.flatMap_eq_nil_iff, Contract.bodyFaults_eq_nil_iff,
        Option.mem_toList, Option.mem_def]
  | errorBrand =>
      simp only [faults, Passes, ite_eq_right_iff, reduceCtorEq, imp_false, ne_eq]
      rw [Option.bind_eq_some_iff]
      simp only [Json.bind_string?_eq_some_iff, not_exists, not_and, Option.mem_def]

end Check

/-- The settings are at fault by themselves, whatever the document is. -/
theorem validate_reports (document : Json) (config : Config) :
    Reports (Check.settings.faults document config) (checked config.validate) := by
  unfold Check.faults Config.validate
  by_cases hdepth : config.maxDepth = 0
  · rw [if_pos hdepth, if_pos hdepth]
    exact .failure _ _
  · rw [if_neg hdepth, if_neg hdepth]
    by_cases hbrand : config.errorBrand = ""
    · rw [if_pos hbrand, if_pos (String.isEmpty_iff.2 hbrand)]
      exact .failure _ []
    · rw [if_neg hbrand, if_neg (mt String.isEmpty_iff.1 hbrand)]
      exact .success ()

/-- An engine is made of a contract unless it declares an empty error brand. -/
theorem ofContract_reports {document : Json} {config : Config} {contract : Contract}
    (hsettings : Check.settings.Passes document config) (hvalid : checked config.validate = .ok ())
    (hread : Contract.read document = .ok contract) :
    Reports (Check.errorBrand.faults document config) (ofContract contract config) := by
  have hid := (Contract.holds_of_read hread).id
  unfold Check.faults ofContract
  rw [← Contract.errorBrand_of_read hread, hid, hvalid]
  have hbrand : (contract.errorBrand.getD config.errorBrand).isEmpty = true ↔
      contract.errorBrand = some "" := by
    rw [String.isEmpty_iff]
    cases contract.errorBrand with
    | none => simpa using hsettings.2
    | some brand => simp
  show Reports _ (if (contract.errorBrand.getD config.errorBrand).isEmpty = true then _ else _)
  by_cases hempty : contract.errorBrand = some ""
  · rw [if_pos hempty, if_pos (hbrand.2 hempty)]
    exact .failure _ []
  · rw [if_neg hempty, if_neg (mt hbrand.1 hempty)]
    exact .success _

/-- Loading reports the faults of all checks, in their order. -/
theorem load_reports (document : Json) (config : Config) :
    Reports (Check.all.flatMap (Check.faults document config)) (load document config) := by
  have hsettings := validate_reports document config
  have hfaults : Check.all.flatMap (Check.faults document config) =
      Check.settings.faults document config ++
        (((Bundle.faults document).map Contract.ofBundleError ++
          (Check.clauseBodies.faults document config ++ Check.initBody.faults document config)) ++
        Check.errorBrand.faults document config) := by
    simp [Check.all, Check.faults, Bundle.faults]
  rw [hfaults]
  refine hsettings.bind fun _ hvalid => ?_
  refine (Contract.read_reports document).bind fun contract hread => ?_
  have hpasses := (Check.faults_eq_nil_iff .settings).1 (hsettings.exists_ok_iff.1 ⟨(), hvalid⟩)
  exact ofContract_reports hpasses hvalid hread

/-- A bundle loads exactly if it and the settings pass every check. Otherwise it is refused with the
    first fault of the first check that it does not pass, whatever is wrong besides. -/
theorem load_by_checks (document : Json) (config : Config) :
    ((∃ e, load document config = .ok e) ↔ ∀ check, Check.Passes document config check) ∧
      ∀ before check after, Check.all = before ++ check :: after →
        (∀ earlier ∈ before, Check.Passes document config earlier) →
        ¬ Check.Passes document config check →
        ∃ error others, Check.faults document config check = error :: others ∧
          load document config = .error error := by
  have hload := load_reports document config
  constructor
  · rw [hload.exists_ok_iff, List.flatMap_eq_nil_iff]
    constructor
    · intro h check
      exact check.faults_eq_nil_iff.1 (h check check.mem_all)
    · intro h check _
      exact check.faults_eq_nil_iff.2 (h check)
  · intro before check after hall hbefore hcheck
    obtain ⟨error, others, hfaults⟩ :=
      List.exists_cons_of_ne_nil (mt check.faults_eq_nil_iff.1 hcheck)
    have hnone : before.flatMap (Check.faults document config) = [] :=
      List.flatMap_eq_nil_iff.2 fun earlier hearlier =>
        earlier.faults_eq_nil_iff.2 (hbefore earlier hearlier)
    rw [hall, List.flatMap_append, hnone, List.nil_append, List.flatMap_cons, hfaults,
      List.cons_append] at hload
    exact ⟨error, others, hfaults, hload.eq_error⟩

/-- An empty error brand does no harm if another one follows. An item that is no object is reported
    before an empty error brand. -/
theorem load_by_checks_of_error_brands :
    let brand (name : String) : Json :=
      .object [("brand", .string name), ("kind", .string "ErrorBrand")]
    let bundle (constructs : List Json) : Json :=
      .object [("constructs", .array constructs), ("id", .string "desk")]
    (∃ e, load (bundle [brand "", brand "Fault"]) .standard = .ok e) ∧
      load (bundle [brand "Fault", brand "", .null]) .standard =
        .error (Contract.ofBundleError (.notAnObject 2)) := by
  intro brand bundle
  constructor
  · refine (load_by_checks (bundle [brand "", brand "Fault"]) .standard).1.2 fun check => ?_
    refine check.faults_eq_nil_iff.1 ?_
    cases check <;> rfl
  · have hfaults : Check.eachConstruct.faults (bundle [brand "Fault", brand "", .null]) .standard =
        [Contract.ofBundleError (.notAnObject 2)] := rfl
    have hearlier : ∀ check ∈ [Check.settings, .id, .constructs],
        check.Passes (bundle [brand "Fault", brand "", .null]) .standard := by
      simp only [List.forall_mem_cons, ← Check.faults_eq_nil_iff]
      exact ⟨rfl, rfl, rfl, by simp⟩
    have hfails : ¬ Check.eachConstruct.Passes (bundle [brand "Fault", brand "", .null]) .standard := by
      rw [← Check.faults_eq_nil_iff, hfaults]
      simp
    obtain ⟨error, others, herror, hload⟩ :=
      (load_by_checks (bundle [brand "Fault", brand "", .null]) .standard).2 _ .eachConstruct _ rfl
        hearlier hfails
    rw [hfaults] at herror
    cases herror
    exact hload

end Engine

end ClauseEngine
