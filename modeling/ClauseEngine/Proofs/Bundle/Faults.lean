/-
Module: ClauseEngine.Proofs.Bundle.Faults
Purpose: What keeps a document from being a bundle. The faults of a construct are told from its document
  alone: it is no object, or lacks a name or a body that its kind asks for. Reading reports the first
  fault of a bundle and succeeds if there is none; what has then been read of each kind stands in the
  order of the documents that declare it.
Main exports: Construct.Complete, Construct.label, Construct.faults, Construct.faults_eq_nil_iff,
  Construct.readAll_reports, Construct.DeclaredBy, Bundle.items, Bundle.itemsOf, Bundle.faults,
  Bundle.read_reports, Bundle.forall₂_itemsOf
-/
import ClauseEngine.Proofs.Bundle

namespace ClauseEngine

namespace Json

theorem bind_string?_eq_some_iff {found : Option Json} {s : String} :
    found.bind string? = some s ↔ found = some (.string s) := by
  constructor
  · exact eq_some_string
  · rintro rfl
    rfl

theorem bind_array?_eq_some_iff {found : Option Json} {items : List Json} :
    found.bind array? = some items ↔ found = some (.array items) := by
  cases found with
  | none => simp
  | some j => cases j <;> simp [array?]

end Json

/-! ### One construct

The faults of a construct are computed from its document, in the order in which they would be met. A
document has none exactly if it is complete, which is said without mention of any order. -/

namespace Construct

/-- The name of a kind of construct. -/
def Kind.name : Kind → String
  | .subtype => "Subtype"
  | .clause => "Clause"
  | .init => "Init"
  | .errorBrand => "ErrorBrand"

/-- A construct is an object. If its kind is known, it gives its names as strings, and a body that
    is not null where its kind has one. -/
structure Complete (construct : Json) : Prop where
  object : ∃ fields, construct = .object fields
  names : ∀ kind ∈ kind? construct, ∀ key ∈ kind.keys,
    ∃ name, construct.get? key = some (.string name)
  body : ∀ kind ∈ kind? construct, kind.hasBody = true →
    ∃ body, construct.get? "body" = some body ∧ body ≠ .null

/-- What a construct is called in messages: by the first of its names. -/
def label (kind : Kind) (construct : Json) : String :=
  match kind with
  | .init => "init"
  | _ => ((kind.keys.head?.bind fun key => construct.get? key).bind Json.string?).getD "?"

/-- The fault of a name that is not given as a string. -/
def nameFaults (kind : Kind) (construct : Json) (key : String) : List BundleError :=
  match (construct.get? key).bind Json.string? with
  | some _ => []
  | none => [.missingConstructField kind.name (label kind construct) key]

/-- The fault of a body that is missing or null. -/
def bodyFaults (kind : Kind) (construct : Json) : List BundleError :=
  match construct.get? "body" with
  | none | some .null => [.missingConstructField kind.name (label kind construct) "body"]
  | some _ => []

/-- Everything that keeps a construct from being complete. -/
def faults (index : Nat) (construct : Json) : List BundleError :=
  match construct with
  | .object _ =>
      match kind? construct with
      | some kind =>
          kind.keys.flatMap (nameFaults kind construct) ++
            if kind.hasBody then bodyFaults kind construct else []
      | none => []
  | _ => [.notAnObject index]

theorem nameFaults_eq_nil_iff {kind : Kind} {construct : Json} {key : String} :
    nameFaults kind construct key = [] ↔ ∃ name, construct.get? key = some (.string name) := by
  unfold nameFaults
  split
  · rename_i name hname
    exact ⟨fun _ => ⟨name, Json.eq_some_string hname⟩, fun _ => rfl⟩
  · rename_i hnone
    constructor
    · rintro ⟨⟩
    · rintro ⟨name, hname⟩
      rw [hname] at hnone
      cases hnone

/-- A null body counts as none. -/
theorem bodyFaults_eq_nil_iff {kind : Kind} {construct : Json} :
    bodyFaults kind construct = [] ↔
      ∃ body, construct.get? "body" = some body ∧ body ≠ .null := by
  unfold bodyFaults
  split
  · rename_i hnone
    simp [hnone]
  · rename_i hnull
    simp [hnull]
  · rename_i body hnotNull hbody
    exact ⟨fun _ => ⟨body, hbody, hnotNull⟩, fun _ => rfl⟩

/-- A construct has no faults exactly if it is complete. -/
theorem faults_eq_nil_iff {index : Nat} {construct : Json} :
    faults index construct = [] ↔ Complete construct := by
  unfold faults
  split
  · rename_i fields
    split
    · rename_i kind hkind
      have hbody : (if kind.hasBody then bodyFaults kind (.object fields) else []) = [] ↔
          (kind.hasBody = true →
            ∃ body, (Json.object fields).get? "body" = some body ∧ body ≠ .null) := by
        rw [← @bodyFaults_eq_nil_iff kind]
        split <;> simp [*]
      rw [List.append_eq_nil_iff, List.flatMap_eq_nil_iff, hbody]
      simp only [nameFaults_eq_nil_iff]
      constructor
      · rintro ⟨hnames, hbody⟩
        refine ⟨⟨fields, rfl⟩, ?_, ?_⟩
        · simpa [hkind] using hnames
        · simpa [hkind] using hbody
      · intro h
        exact ⟨h.names kind hkind, h.body kind hkind⟩
    · rename_i hkind
      simp only [true_iff]
      exact ⟨⟨fields, rfl⟩, by simp [hkind], by simp [hkind]⟩
  · rename_i hobject
    constructor
    · rintro ⟨⟩
    · rintro ⟨⟨fields, rfl⟩, -, -⟩
      exact absurd rfl (hobject fields)

/-! ### Reading one construct

Each reader asks for its fields one after the other, and stops at the first that is missing. So what
it reports is the head of the faults of these fields, put together in the same order. The name of a
construct labels the later faults and is itself read first. -/

section Reading

variable {construct : Json} {kind : Kind}

/-- Reading a name reports that it is missing, under the label of the construct. -/
theorem readString_reports {key id : String}
    (hid : (construct.get? key).bind Json.string? = none → label kind construct = id) :
    Reports (nameFaults kind construct key) (readString construct kind.name id key) := by
  unfold nameFaults readString
  cases hname : (construct.get? key).bind Json.string? with
  | some name => exact .success name
  | none =>
      rw [hid hname]
      exact .failure _ []

/-- Reading a body reports that it is missing, under the label of the construct. -/
theorem readBody_reports :
    Reports (bodyFaults kind construct)
      (readBody construct kind.name (label kind construct)) := by
  unfold bodyFaults readBody
  cases construct.get? "body" with
  | none => exact .failure _ []
  | some body =>
      cases body with
      | null => exact .failure _ []
      | _ => exact .success _

section Label

variable {key : String} (hkey : kind.keys.head? = some key) (hinit : kind ≠ .init)

include hkey hinit

/-- The label of a construct is its first name, or a question mark for want of one. -/
theorem label_eq : label kind construct = ((construct.get? key).bind Json.string?).getD "?" := by
  cases kind with
  | init => exact absurd rfl hinit
  | _ => simp only [label, hkey, Option.bind_some]

/-- The first name has no label to be reported under but the question mark. -/
theorem readString_first_reports :
    Reports (nameFaults kind construct key) (readString construct kind.name "?" key) := by
  apply readString_reports
  intro hnone
  rw [label_eq hkey hinit, hnone]
  rfl

/-- The first name, once it has been read, is the label in what follows. -/
theorem label_of_readString {kindName id name : String}
    (h : readString construct kindName id key = .ok name) : label kind construct = name := by
  rw [label_eq hkey hinit, get?_of_readString h]
  rfl

end Label

end Reading

theorem readSubtype_reports (construct : Json) :
    Reports (nameFaults .subtype construct "sub" ++ nameFaults .subtype construct "sup")
      (readSubtype construct) := by
  have hfirst : Reports (nameFaults .subtype construct "sub")
      (readString construct "Subtype" "?" "sub") := readString_first_reports rfl (by simp)
  refine hfirst.bind fun sub hsub => ?_
  have hlabel : label .subtype construct = sub := label_of_readString rfl (by simp) hsub
  have hsecond : Reports (nameFaults .subtype construct "sup")
      (readString construct "Subtype" sub "sup") := readString_reports fun _ => hlabel
  exact hsecond.map (Construct.subtype sub)

/-- A clause is asked for its id, its request brand and its body, in this order. -/
theorem readClause_reports (construct : Json) :
    Reports (nameFaults .clause construct "id" ++ (nameFaults .clause construct "request" ++
      bodyFaults .clause construct)) (readClause construct) := by
  have hfirst : Reports (nameFaults .clause construct "id")
      (readString construct "Clause" "?" "id") := readString_first_reports rfl (by simp)
  refine hfirst.bind fun id hid => ?_
  have hlabel : label .clause construct = id := label_of_readString rfl (by simp) hid
  have hsecond : Reports (nameFaults .clause construct "request")
      (readString construct "Clause" id "request") := readString_reports fun _ => hlabel
  refine hsecond.bind fun request _ => ?_
  have hbody : Reports (bodyFaults .clause construct) (readBody construct "Clause" id) := by
    rw [← hlabel]
    exact readBody_reports
  exact hbody.map fun body => Construct.clause ⟨id, request, body, Provenance.read? construct⟩

theorem readInit_reports (construct : Json) :
    Reports (bodyFaults .init construct) (readInit construct) := by
  have hbody : Reports (bodyFaults .init construct) (readBody construct "Init" "init") :=
    readBody_reports
  exact hbody.map fun body => Construct.init ⟨body, Provenance.read? construct⟩

theorem readErrorBrand_reports (construct : Json) :
    Reports (nameFaults .errorBrand construct "brand") (readErrorBrand construct) := by
  have hbrand : Reports (nameFaults .errorBrand construct "brand")
      (readString construct "ErrorBrand" "?" "brand") := readString_first_reports rfl (by simp)
  exact hbrand.map Construct.errorBrand

/-- Reading a construct reports what keeps it from being complete. -/
theorem read_reports (index : Nat) (construct : Json) :
    Reports (faults index construct) (read index construct) := by
  unfold faults read
  split
  · rename_i fields
    rw [← kind?]
    cases kind? (.object fields) with
    | none => exact .success none
    | some kind =>
        cases kind with
        | subtype =>
            simpa [Kind.keys, Kind.hasBody] using (readSubtype_reports (.object fields)).map some
        | clause =>
            simpa [Kind.keys, Kind.hasBody] using (readClause_reports (.object fields)).map some
        | init =>
            simpa [Kind.keys, Kind.hasBody] using (readInit_reports (.object fields)).map some
        | errorBrand =>
            simpa [Kind.keys, Kind.hasBody] using (readErrorBrand_reports (.object fields)).map some
  · rename_i hobject
    cases construct with
    | object fields => exact absurd rfl (hobject fields)
    | _ => exact .failure _ []

/-- So does reading all constructs, in their order. -/
theorem readAll_reports (index : Nat) (items : List Json) :
    Reports ((items.zipIdx index).flatMap fun entry => faults entry.2 entry.1)
      (readAll index items) := by
  induction items generalizing index with
  | nil => exact .success []
  | cons item rest ih =>
      rw [List.zipIdx_cons, List.flatMap_cons]
      exact (read_reports index item).bind fun first _ => (ih (index + 1)).map (first.toList ++ ·)

/-! ### What has been read

Where there are no faults, each construct stands for its document, and the constructs stand in the
order of their documents. -/

/-- A construct holds what its document declares. -/
def DeclaredBy (document : Json) : Construct → Prop
  | .subtype _ _ => kind? document = some .subtype
  | .clause declaration =>
      kind? document = some .clause ∧ label .clause document = declaration.id ∧
        document.get? "body" = some declaration.body ∧
        Provenance.read? document = declaration.provenance
  | .init declaration =>
      kind? document = some .init ∧ document.get? "body" = some declaration.body ∧
        Provenance.read? document = declaration.provenance
  | .errorBrand brand =>
      kind? document = some .errorBrand ∧ document.get? "brand" = some (.string brand)

/-- A document that is read declares a construct, or is of no known kind. -/
theorem declaredBy_of_read {index : Nat} {document : Json} {answer : Option Construct}
    (h : read index document = .ok answer) :
    (answer = none ∧ kind? document = none) ∨
      ∃ construct, answer = some construct ∧ DeclaredBy document construct := by
  unfold read at h
  split at h
  · rw [← kind?] at h
    split at h
    · rename_i hkind
      obtain ⟨c, hc, rfl⟩ := map_eq_ok_iff.1 h
      obtain ⟨sub, -, hc⟩ := bind_eq_ok_iff.1 hc
      obtain ⟨sup, -, hc⟩ := bind_eq_ok_iff.1 hc
      cases hc
      exact .inr ⟨_, rfl, hkind⟩
    · rename_i hkind
      obtain ⟨c, hc, rfl⟩ := map_eq_ok_iff.1 h
      obtain ⟨id, hid, hc⟩ := bind_eq_ok_iff.1 hc
      obtain ⟨request, -, hc⟩ := bind_eq_ok_iff.1 hc
      obtain ⟨body, hbody, hc⟩ := bind_eq_ok_iff.1 hc
      cases hc
      exact .inr ⟨_, rfl, hkind, label_of_readString rfl (by simp) hid, get?_of_readBody hbody, rfl⟩
    · rename_i hkind
      obtain ⟨c, hc, rfl⟩ := map_eq_ok_iff.1 h
      obtain ⟨body, hbody, hc⟩ := bind_eq_ok_iff.1 hc
      cases hc
      exact .inr ⟨_, rfl, hkind, get?_of_readBody hbody, rfl⟩
    · rename_i hkind
      obtain ⟨c, hc, rfl⟩ := map_eq_ok_iff.1 h
      obtain ⟨brand, hbrand, rfl⟩ := map_eq_ok_iff.1 hc
      exact .inr ⟨_, rfl, hkind, get?_of_readString hbrand⟩
    · rename_i hkind
      cases h
      exact .inl ⟨rfl, hkind⟩
  · cases h

/-- A construct has the kind that its document declares. -/
theorem DeclaredBy.kind_eq {document : Json} {construct : Construct}
    (h : DeclaredBy document construct) : kind? document = some construct.reading.kind := by
  cases construct with
  | subtype sub sup => exact h
  | clause declaration => exact h.1
  | init declaration => exact h.1
  | errorBrand brand => exact h.1

/-- The constructs of one kind are those that the documents of that kind declare, in their order. -/
theorem forall₂_of_readAll {α : Type} {kind : Kind} {select : Construct → Option α}
    {R : Json → α → Prop}
    (h : ∀ document construct, DeclaredBy document construct →
      (select construct = none ∧ construct.reading.kind ≠ kind) ∨
        ∃ a, select construct = some a ∧ construct.reading.kind = kind ∧ R document a)
    {index : Nat} {items : List Json} {constructs : List Construct}
    (hread : readAll index items = .ok constructs) :
    List.Forall₂ R (items.filter fun item => kind? item = some kind)
      (constructs.filterMap select) := by
  induction items generalizing index constructs with
  | nil =>
      cases hread
      exact .nil
  | cons item rest ih =>
      obtain ⟨first, hfirst, hread⟩ := bind_eq_ok_iff.1 hread
      obtain ⟨others, hothers, hread⟩ := bind_eq_ok_iff.1 hread
      cases hread
      rw [List.filterMap_append]
      rcases declaredBy_of_read hfirst with ⟨rfl, hnone⟩ | ⟨construct, rfl, hdeclared⟩
      · rw [List.filter_cons_of_neg (by simp [hnone])]
        exact ih hothers
      · rcases h item construct hdeclared with ⟨hselect, hkind⟩ | ⟨a, hselect, hkind, hR⟩
        · rw [List.filter_cons_of_neg (by simp [hdeclared.kind_eq, hkind])]
          simpa [hselect] using ih hothers
        · rw [List.filter_cons_of_pos (by simp [hdeclared.kind_eq, hkind])]
          simpa [hselect] using And.intro hR (ih hothers)

end Construct

/-! ### The constructs of a bundle

A bundle lacks its id, or its list, or has a faulty construct. Reading it reports the first of
these, and the items of one kind are paired with the constructs read from them. -/

namespace Bundle

open Construct (kind?)

/-- The documents of the constructs. -/
def items (document : Json) : List Json :=
  ((document.get? "constructs").bind Json.array?).getD []

/-- The documents of the constructs of one kind. -/
def itemsOf (kind : Construct.Kind) (document : Json) : List Json :=
  (items document).filter fun item => kind? item = some kind

/-- The fault of a field that is not there, or not of the right type. -/
def fieldFaults {α : Type} (name : String) : Option α → List BundleError
  | some _ => []
  | none => [.missingField name]

/-- Everything that keeps a document from being a bundle. -/
def faults (document : Json) : List BundleError :=
  fieldFaults "id" ((document.get? "id").bind Json.string?) ++
    (fieldFaults "constructs" ((document.get? "constructs").bind Json.array?) ++
      (items document).zipIdx.flatMap fun entry => Construct.faults entry.2 entry.1)

theorem fieldFaults_eq_nil_iff {α : Type} {name : String} {found : Option α} :
    fieldFaults name found = [] ↔ ∃ a, found = some a := by
  cases found with
  | none => simp [fieldFaults]
  | some a => simp [fieldFaults]

/-- Reading a bundle reports the first of its faults, and succeeds if it has none. -/
theorem read_reports (document : Json) : Reports (faults document) (read document) := by
  unfold faults read items
  cases (document.get? "id").bind Json.string? with
  | none => exact .failure _ _
  | some id =>
      cases (document.get? "constructs").bind Json.array? with
      | none => exact .failure _ _
      | some items => exact (Construct.readAll_reports 0 items).map (Bundle.mk id)

/-- The constructs of one kind are read from the documents of that kind. -/
theorem forall₂_itemsOf {α : Type} {kind : Construct.Kind} {select : Construct → Option α}
    {R : Json → α → Prop}
    (h : ∀ item construct, Construct.DeclaredBy item construct →
      (select construct = none ∧ construct.reading.kind ≠ kind) ∨
        ∃ a, select construct = some a ∧ construct.reading.kind = kind ∧ R item a)
    {document : Json} {bundle : Bundle} (hread : read document = .ok bundle) :
    List.Forall₂ R (itemsOf kind document) (bundle.constructs.filterMap select) := by
  obtain ⟨-, found, hfound, hread⟩ := exists_of_read hread
  rw [itemsOf, items, hfound]
  exact Construct.forall₂_of_readAll h hread

end Bundle

/-- The last of two lists that match one by one match. -/
theorem forall₂_getLast? {α β : Type} {R : α → β → Prop} {xs : List α} {ys : List β}
    (h : List.Forall₂ R xs ys) : Option.Rel R xs.getLast? ys.getLast? := by
  induction h with
  | nil => exact .none
  | @cons x y xs ys hhead _ ih =>
      rw [List.getLast?_cons, List.getLast?_cons]
      generalize xs.getLast? = last, ys.getLast? = last' at ih
      cases ih with
      | none => exact .some hhead
      | some hlast => exact .some hlast

end ClauseEngine
