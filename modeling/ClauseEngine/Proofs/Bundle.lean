/-
Module: ClauseEngine.Proofs.Bundle
Purpose: What of a bundle counts. Of each construct only its kind, its names and its body are read,
  and a construct of an unknown kind is not read at all; of what is read, the clauses count in their
  order, the edges as a set, and of the init bodies and error brands the last. Two bundles that
  agree on this mean the same, and edits that leave it alone can be told from the documents.
Main exports: Construct.Reading, Construct.reading?, Construct.readings_of_readAll,
  Bundle.exists_of_read, Bundle.readings, Bundle.SameReadings, Bundle.SameMeaning, Bundle.Edit, Bundle.Edited,
  Bundle.sameReadings_of_edits, Bundle.Edited.sameMeaning
-/
import ClauseEngine.Contract
import ClauseEngine.Proofs.Result
import Mathlib.Logic.Relation

namespace ClauseEngine

/-- A field that is read as a string is one. -/
theorem Json.eq_some_string {found : Option Json} {s : String}
    (h : found.bind Json.string? = some s) : found = some (.string s) := by
  obtain ⟨j, rfl, hstring⟩ := Option.bind_eq_some_iff.1 h
  unfold Json.string? at hstring
  split at hstring
  · cases hstring
    rfl
  · cases hstring

namespace Construct

/-! ### Reading one construct

A construct that is read agrees with its document on three things: its kind, the names under the
keys of that kind, and the expression its body stands for. Nothing else of the document reaches the
bundle, so these readings are all that later sections compare. -/

/-- The keys under which a construct of some kind gives its names. -/
def Kind.keys : Kind → List String
  | .subtype => ["sub", "sup"]
  | .clause => ["id", "request"]
  | .init => []
  | .errorBrand => ["brand"]

/-- Whether constructs of some kind have a body. -/
def Kind.hasBody : Kind → Bool
  | .clause => true
  | .init => true
  | _ => false

/-- What is read of a construct: its kind, its names, and the expression its body stands for. -/
structure Reading where
  kind : Kind
  names : List (Option Json)
  body : Option (Result Expr)

/-- The kind of a construct by its document, if it is known. -/
def kind? (construct : Json) : Option Kind :=
  ((construct.get? "kind").bind Json.string?).bind Kind.ofName?

/-- What is read of the document of a construct, which is nothing if its kind is not known. -/
def reading? (construct : Json) : Option Reading :=
  (kind? construct).map fun kind =>
    { kind := kind
      names := kind.keys.map fun key => construct.get? key
      body := if kind.hasBody then (construct.get? "body").map Expr.read else none }

/-- What was read of a construct. -/
def reading : Construct → Reading
  | .subtype sub sup => ⟨.subtype, [some (.string sub), some (.string sup)], none⟩
  | .clause declaration =>
      ⟨.clause, [some (.string declaration.id), some (.string declaration.request)],
        some (Expr.read declaration.body)⟩
  | .init declaration => ⟨.init, [], some (Expr.read declaration.body)⟩
  | .errorBrand brand => ⟨.errorBrand, [some (.string brand)], none⟩

/-- A name that is read is the string under its key. -/
theorem get?_of_readString {construct : Json} {kind id name s : String}
    (h : readString construct kind id name = .ok s) : construct.get? name = some (.string s) := by
  unfold readString at h
  split at h
  · rename_i hfound
    cases h
    exact Json.eq_some_string hfound
  · cases h

/-- A body that is read is what the document has under its key. -/
theorem get?_of_readBody {construct body : Json} {kind id : String}
    (h : readBody construct kind id = .ok body) : construct.get? "body" = some body := by
  unfold readBody at h
  split at h
  · cases h
  · cases h
  · rename_i hbody
    cases h
    exact hbody

/-- A construct holds what is read of its document. -/
theorem reading?_of_read {index : Nat} {construct : Json} {answer : Option Construct}
    (h : read index construct = .ok answer) : reading? construct = answer.map reading := by
  unfold read at h
  unfold reading? kind?
  split at h
  · split at h
    · rename_i hkind
      obtain ⟨c, hc, rfl⟩ := map_eq_ok_iff.1 h
      obtain ⟨sub, hsub, hc⟩ := bind_eq_ok_iff.1 hc
      obtain ⟨sup, hsup, hc⟩ := bind_eq_ok_iff.1 hc
      cases hc
      simp [hkind, reading, Kind.keys, Kind.hasBody, get?_of_readString hsub,
        get?_of_readString hsup]
    · rename_i hkind
      obtain ⟨c, hc, rfl⟩ := map_eq_ok_iff.1 h
      obtain ⟨id, hid, hc⟩ := bind_eq_ok_iff.1 hc
      obtain ⟨request, hrequest, hc⟩ := bind_eq_ok_iff.1 hc
      obtain ⟨body, hbody, hc⟩ := bind_eq_ok_iff.1 hc
      cases hc
      simp [hkind, reading, Kind.keys, Kind.hasBody, get?_of_readString hid,
        get?_of_readString hrequest, get?_of_readBody hbody]
    · rename_i hkind
      obtain ⟨c, hc, rfl⟩ := map_eq_ok_iff.1 h
      obtain ⟨body, hbody, hc⟩ := bind_eq_ok_iff.1 hc
      cases hc
      simp [hkind, reading, Kind.keys, Kind.hasBody, get?_of_readBody hbody]
    · rename_i hkind
      obtain ⟨c, hc, rfl⟩ := map_eq_ok_iff.1 h
      obtain ⟨brand, hbrand, rfl⟩ := map_eq_ok_iff.1 hc
      simp [hkind, reading, Kind.keys, Kind.hasBody, get?_of_readString hbrand]
    · rename_i hkind
      cases h
      simp [hkind]
  · cases h

/-- So do all constructs, in the order of their documents. -/
theorem readings_of_readAll {index : Nat} {items : List Json} {constructs : List Construct}
    (h : readAll index items = .ok constructs) :
    items.filterMap reading? = constructs.map reading := by
  induction items generalizing index constructs with
  | nil =>
      cases h
      rfl
  | cons item rest ih =>
      obtain ⟨first, hfirst, h⟩ := bind_eq_ok_iff.1 h
      obtain ⟨others, hothers, h⟩ := bind_eq_ok_iff.1 h
      cases h
      rw [List.map_append, ← ih hothers, List.filterMap_cons, reading?_of_read hfirst]
      cases first <;> rfl

end Construct

namespace Bundle

open Construct (Reading reading? kind?)

/-- A bundle that is read has an id and a list of constructs, which are read in order. -/
theorem exists_of_read {document : Json} {bundle : Bundle} (h : read document = .ok bundle) :
    document.get? "id" = some (.string bundle.id) ∧
      ∃ items, (document.get? "constructs").bind Json.array? = some items ∧
        Construct.readAll 0 items = .ok bundle.constructs := by
  unfold read at h
  split at h
  · rename_i items hitems
    split at h
    · rename_i id hid
      obtain ⟨constructs, hconstructs, h⟩ := (bind_eq_ok_iff (x := Construct.readAll 0 items)).1 h
      cases h
      exact ⟨Json.eq_some_string hid, items, hitems, hconstructs⟩
    · cases h
  · split at h
    · cases h
    · cases h

/-! ### Bundles that mean the same

Clauses are tried in order, edges make a set, and of init bodies and error brands the last one
counts. Two lists of readings mean the same if they agree on this; the relation is an equivalence,
which lets edits be chained. -/

/-- All that is read of the constructs of a bundle. -/
def readings (document : Json) : List Reading :=
  (((document.get? "constructs").bind Json.array?).getD []).filterMap reading?

/-- What is read of the constructs of one kind. -/
def ofKind (kind : Construct.Kind) (readings : List Reading) : List Reading :=
  readings.filter (·.kind = kind)

/-- The same clauses in the same order, the same set of edges, and the same last init body and error
    brand, where there are any. -/
structure SameReadings (readings readings' : List Reading) : Prop where
  clauses : ofKind .clause readings = ofKind .clause readings'
  edges : ∀ edge, edge ∈ ofKind .subtype readings ↔ edge ∈ ofKind .subtype readings'
  init : (ofKind .init readings).getLast? = (ofKind .init readings').getLast?
  errorBrand : (ofKind .errorBrand readings).getLast? = (ofKind .errorBrand readings').getLast?

/-- Two documents agree on all that counts of a bundle. -/
structure SameMeaning (document document' : Json) : Prop where
  id : document.get? "id" = document'.get? "id"
  readings : SameReadings (readings document) (readings document')

namespace SameReadings

variable {first second third : List Reading}

theorem refl (readings : List Reading) : SameReadings readings readings :=
  ⟨rfl, fun _ => .rfl, rfl, rfl⟩

theorem symm (h : SameReadings first second) : SameReadings second first :=
  ⟨h.clauses.symm, fun edge => (h.edges edge).symm, h.init.symm, h.errorBrand.symm⟩

theorem trans (h : SameReadings first second) (h' : SameReadings second third) :
    SameReadings first third :=
  ⟨h.clauses.trans h'.clauses, fun edge => (h.edges edge).trans (h'.edges edge),
    h.init.trans h'.init, h.errorBrand.trans h'.errorBrand⟩

end SameReadings

/-! ### Edits that leave the meaning alone

Each edit is seen on the readings of one kind at a time. An inserted reading shows under its own
kind only, and there it is a member that was there before or is overridden by a later one; two
readings of different kinds can change places unseen. -/

/-- One change to the constructs of a bundle that leaves its meaning alone. -/
inductive Edit : List Json → List Json → Prop
  /-- A construct of a kind that is not known is put anywhere. -/
  | insertUnknown {before after : List Json} {construct : Json} (h : kind? construct = none) :
      Edit (before ++ after) (before ++ construct :: after)
  /-- A construct changes in what is not read, such as its provenance. -/
  | rewrite {before after : List Json} {construct construct' : Json}
      (h : reading? construct = reading? construct') :
      Edit (before ++ construct :: after) (before ++ construct' :: after)
  /-- Two neighbours change places. They are of different kinds, or both are edges. -/
  | swap {before after : List Json} {left right : Json}
      (h : kind? left ≠ kind? right ∨ kind? left = some .subtype) :
      Edit (before ++ left :: right :: after) (before ++ right :: left :: after)
  /-- An edge is declared once more. -/
  | repeatEdge {before after : List Json} {edge other : Json} (hkind : kind? edge = some .subtype)
      (hother : other ∈ before ++ after) (hsame : reading? edge = reading? other) :
      Edit (before ++ after) (before ++ edge :: after)
  /-- An init body or an error brand is declared before another one, which overrides it. -/
  | insertOverridden {before after : List Json} {construct later : Json} {kind : Construct.Kind}
      (hkind : kind = .init ∨ kind = .errorBrand) (hconstruct : kind? construct = some kind)
      (hlater : later ∈ after) (hsame : kind? later = some kind) :
      Edit (before ++ after) (before ++ construct :: after)

/-- A bundle after any number of such changes, made or taken back. What is not read of the bundle
    itself may be anything. -/
structure Edited (document document' : Json) : Prop where
  id : document.get? "id" = document'.get? "id"
  constructs : ∃ items items', document.get? "constructs" = some (.array items) ∧
    document'.get? "constructs" = some (.array items') ∧ Relation.EqvGen Edit items items'

section Insertion

variable {before after : List Reading} {reading : Reading}

/-- An inserted reading is not seen among those of another kind. -/
theorem ofKind_insert_of_ne {kind : Construct.Kind} (h : reading.kind ≠ kind) :
    ofKind kind (before ++ reading :: after) = ofKind kind (before ++ after) := by
  simp [ofKind, h]

/-- What is read once more is no new member. -/
theorem mem_ofKind_insert {kind : Construct.Kind} (h : reading ∈ before ++ after)
    (other : Reading) :
    other ∈ ofKind kind (before ++ reading :: after) ↔ other ∈ ofKind kind (before ++ after) := by
  have hmem : other ∈ before ++ reading :: after ↔ other ∈ before ++ after := by
    constructor
    · intro hother
      rcases List.mem_append.1 hother with hother | hother
      · exact List.mem_append_left _ hother
      · rcases List.mem_cons.1 hother with rfl | hother
        · exact h
        · exact List.mem_append_right _ hother
    · intro hother
      rcases List.mem_append.1 hother with hother | hother
      · exact List.mem_append_left _ hother
      · exact List.mem_append_right _ (List.mem_cons_of_mem _ hother)
  rw [ofKind, ofKind, List.mem_filter, List.mem_filter, hmem]

/-- What is overridden by something later is not the last. -/
theorem getLast?_ofKind_insert (kind : Construct.Kind)
    (h : ∃ later ∈ after, later.kind = reading.kind) :
    (ofKind kind (before ++ reading :: after)).getLast? =
      (ofKind kind (before ++ after)).getLast? := by
  by_cases hkind : reading.kind = kind
  · obtain ⟨last, hlast⟩ : ∃ last, (ofKind kind after).getLast? = some last := by
      obtain ⟨later, hlater, hsame⟩ := h
      have hmem : later ∈ ofKind kind after :=
        List.mem_filter.2 ⟨hlater, by simpa [hkind] using hsame⟩
      exact Option.isSome_iff_exists.1 (List.getLast?_isSome.2 (List.ne_nil_of_mem hmem))
    have hsplit : ofKind kind (before ++ reading :: after) =
        (ofKind kind before ++ [reading]) ++ ofKind kind after := by
      simp [ofKind, hkind]
    have hsplit' : ofKind kind (before ++ after) = ofKind kind before ++ ofKind kind after :=
      List.filter_append _ _
    simp only [hsplit, hsplit', List.getLast?_append, hlast, Option.some_or]
  · rw [ofKind_insert_of_ne hkind]

/-- An edge that is declared already may be declared again, anywhere. -/
theorem sameReadings_insert_edge (hkind : reading.kind = .subtype)
    (h : reading ∈ before ++ after) :
    SameReadings (before ++ after) (before ++ reading :: after) where
  clauses := (ofKind_insert_of_ne (by simp [hkind])).symm
  edges other := (mem_ofKind_insert h other).symm
  init := by rw [ofKind_insert_of_ne (by simp [hkind])]
  errorBrand := by rw [ofKind_insert_of_ne (by simp [hkind])]

/-- An init body or an error brand may be put in front of a later one. -/
theorem sameReadings_insert_overridden
    (hkind : reading.kind = .init ∨ reading.kind = .errorBrand)
    (h : ∃ later ∈ after, later.kind = reading.kind) :
    SameReadings (before ++ after) (before ++ reading :: after) where
  clauses := by
    rw [ofKind_insert_of_ne]
    rcases hkind with hkind | hkind <;> simp [hkind]
  edges other := by
    rw [ofKind_insert_of_ne]
    rcases hkind with hkind | hkind <;> simp [hkind]
  init := (getLast?_ofKind_insert .init h).symm
  errorBrand := (getLast?_ofKind_insert .errorBrand h).symm

/-- Neighbours of different kinds are never seen together. -/
theorem ofKind_swap {other : Reading} (h : reading.kind ≠ other.kind) (kind : Construct.Kind) :
    ofKind kind (before ++ reading :: other :: after) =
      ofKind kind (before ++ other :: reading :: after) := by
  by_cases hkind : reading.kind = kind
  · have hother : other.kind ≠ kind := fun hother => h (hkind.trans hother.symm)
    simp [ofKind, hkind, hother]
  · by_cases hother : other.kind = kind
    · simp [ofKind, hkind, hother]
    · simp [ofKind, hkind, hother]

/-- Neighbours change places if their kinds differ, or if both are edges. -/
theorem sameReadings_swap {other : Reading}
    (h : reading.kind ≠ other.kind ∨ reading.kind = .subtype) :
    SameReadings (before ++ reading :: other :: after) (before ++ other :: reading :: after) := by
  by_cases hkind : reading.kind = other.kind
  · -- Both are edges: no other kind sees them, and edges are compared as a set.
    have hedge : reading.kind = .subtype := h.resolve_left fun hne => hne hkind
    have hedge' : other.kind = .subtype := hkind ▸ hedge
    have hperm : (before ++ reading :: other :: after).Perm (before ++ other :: reading :: after) :=
      (List.Perm.swap other reading after).append_left before
    constructor
    · simp [ofKind, hedge, hedge']
    · intro edge
      exact (hperm.filter _).mem_iff
    · simp [ofKind, hedge, hedge']
    · simp [ofKind, hedge, hedge']
  · have hsame (kind : Construct.Kind) : ofKind kind (before ++ reading :: other :: after) =
        ofKind kind (before ++ other :: reading :: after) := ofKind_swap hkind kind
    exact ⟨hsame _, fun _ => by rw [hsame], by rw [hsame], by rw [hsame]⟩

end Insertion

theorem kind_of_reading? {construct : Json} {reading : Reading}
    (h : reading? construct = some reading) : kind? construct = some reading.kind := by
  obtain ⟨kind, hkind, rfl⟩ := Option.map_eq_some_iff.1 h
  exact hkind

/-- A construct of a known kind has a reading, of that kind. -/
theorem exists_reading? {construct : Json} {kind : Construct.Kind}
    (h : kind? construct = some kind) :
    ∃ reading, reading? construct = some reading ∧ reading.kind = kind := by
  rw [reading?, h]
  exact ⟨_, rfl, rfl⟩

/-- An edit leaves alone what counts. -/
theorem sameReadings_of_edit {items items' : List Json} (h : Edit items items') :
    SameReadings (items.filterMap reading?) (items'.filterMap reading?) := by
  cases h with
  | @insertUnknown before after construct hkind =>
      have hnone : reading? construct = none := by rw [reading?, hkind, Option.map_none]
      rw [List.filterMap_append, List.filterMap_append, List.filterMap_cons_none hnone]
      exact .refl _
  | @rewrite before after construct construct' hsame =>
      simp only [List.filterMap_append, List.filterMap_cons, hsame]
      exact .refl _
  | @swap before after left right hkind =>
      simp only [List.filterMap_append, List.filterMap_cons]
      cases hleft : reading? left with
      | none => exact .refl _
      | some reading =>
          cases hright : reading? right with
          | none => exact .refl _
          | some other =>
              apply sameReadings_swap
              rw [kind_of_reading? hleft, kind_of_reading? hright] at hkind
              simpa using hkind
  | @repeatEdge before after edge other hkind hother hsame =>
      obtain ⟨reading, hreading, hedge⟩ := exists_reading? hkind
      rw [List.filterMap_append, List.filterMap_append, List.filterMap_cons_some hreading]
      apply sameReadings_insert_edge hedge
      rw [← List.filterMap_append]
      exact List.mem_filterMap.2 ⟨other, hother, hsame ▸ hreading⟩
  | @insertOverridden before after construct later kind hkind hconstruct hlater hsame =>
      obtain ⟨reading, hreading, rfl⟩ := exists_reading? hconstruct
      obtain ⟨other, hother, hotherKind⟩ := exists_reading? hsame
      rw [List.filterMap_append, List.filterMap_append, List.filterMap_cons_some hreading]
      apply sameReadings_insert_overridden hkind
      exact ⟨other, List.mem_filterMap.2 ⟨later, hlater, hother⟩, hotherKind⟩

/-- So does any number of edits, made or taken back. -/
theorem sameReadings_of_edits {items items' : List Json} (h : Relation.EqvGen Edit items items') :
    SameReadings (items.filterMap reading?) (items'.filterMap reading?) := by
  induction h with
  | rel _ _ hedit => exact sameReadings_of_edit hedit
  | refl _ => exact .refl _
  | symm _ _ _ ih => exact ih.symm
  | trans _ _ _ _ _ ih ih' => exact ih.trans ih'

/-- Documents that differ by edits only mean the same. -/
theorem Edited.sameMeaning {document document' : Json} (h : Edited document document') :
    SameMeaning document document' := by
  obtain ⟨items, items', hitems, hitems', hedits⟩ := h.constructs
  constructor
  · exact h.id
  · rw [Bundle.readings, Bundle.readings, hitems, hitems']
    exact sameReadings_of_edits hedits

end Bundle

end ClauseEngine
