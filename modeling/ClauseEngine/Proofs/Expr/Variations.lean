/-
Module: ClauseEngine.Proofs.Expr.Variations
Purpose: The freedom that the format of expressions leaves. An object of the format may have fields that
  nothing reads, and a single target brand may stand in an array. A document that is changed in such
  ways, at any depth, stands for the same expressions as before. What is read in turn has all the
  arguments of its operators and records whose names ascend.
Main exports: Expr.Form, Expr.Content, Expr.Form.fields, Expr.Variation, Expr.keeps_of_variation,
  Expr.NamesAscend, Expr.read_namesAscend, Expr.read_inverts_format
-/
import ClauseEngine.Proofs.Expr.Ordered
import ClauseEngine.Proofs.Expr.Written
import Mathlib.Logic.Relation

namespace ClauseEngine

namespace Expr

/-! ### The fields that are read

A table says which fields of an object are read and what they hold. It depends on the object only
through its tag and through the field that gives its target brands. -/

/-- The objects of the format: nodes, the two branches that a side is chosen from, and the cases of a
    match. -/
inductive Form where
  | node
  | branch
  | case
deriving DecidableEq, Repr

/-- What a field that is read holds: data that means nothing but itself, target brands, an object of
    the format, an array of such objects, or an object with a node under each name. -/
inductive Content where
  | data
  | target
  | one (form : Form)
  | list (form : Form)
  | named
deriving DecidableEq, Repr

/-- The fields of target brands. Several of them are looked for only where there is no single one. -/
def targetFields (j : Json) : List (String × Content) :=
  ("brand", .target) :: if (j.get? "brand").isSome then [] else [("brands", .target)]

/-- The fields that are read of a node, besides its tag. -/
def Node.fields (j : Json) : Node → List (String × Content)
  | .const => [("value", .data)]
  | .var => [("name", .data)]
  | .bind => [("name", .data), ("value", .one .node), ("body", .one .node)]
  | .dot => [("record", .one .node), ("field", .data)]
  | .record => [("fields", .named)]
  | .concat => [("left", .one .node), ("right", .one .node)]
  | .brand => [("brand", .data), ("value", .one .node)]
  | .unbrand | .left | .right => [("value", .one .node)]
  | .cast => ("value", .one .node) :: targetFields j
  | .either => [("value", .one .node), ("left", .one .branch), ("right", .one .branch)]
  | .cond => [("cond", .one .node), ("then", .one .node), ("else", .one .node)]
  | .apply => [("op", .data), ("args", .list .node)]
  | .seq => [("items", .list .node)]
  | .map | .filter => [("var", .data), ("over", .one .node), ("body", .one .node)]
  | .choose => [("value", .one .node), ("cases", .list .case), ("otherwise", .one .node)]

/-- The fields that are read of an object of the format. -/
def Form.fields (j : Json) : Form → List (String × Content)
  | .node =>
      ("expr", .data) ::
        (((j.get? "expr").bind Json.string?).bind Node.ofTag?).elim [] (Node.fields j)
  | .branch => [("var", .data), ("body", .one .node)]
  | .case => ("var", .data) :: ("body", .one .node) :: targetFields j

/-! ### Variations

One variation changes one place of a document, at any depth. The table decides which changes are
allowed there. -/

/-- One change to a document: a field that is not read, or an array in place of a single target brand,
    in an object of the format or in one inside it. -/
inductive Variation : Content → Json → Json → Prop
  | further {form : Form} {fields : List (String × Json)} {key : String} (value : Json)
      (hkey : (form.fields (.object fields)).lookup key = none) :
      Variation (.one form) (.object fields) (.object (Fields.insert key value fields))
  | spread {form : Form} {fields : List (String × Json)} {name : String}
      (htarget : (form.fields (.object fields)).lookup "brand" = some .target)
      (hname : fields.lookup "brand" = some (.string name)) :
      Variation (.one form) (.object fields)
        (.object (Fields.insert "brands" (.array [.string name]) (Fields.erase "brand" fields)))
  | inside {form : Form} {content : Content} {fields : List (String × Json)} {key : String}
      {part part' : Json} (hkey : (form.fields (.object fields)).lookup key = some content)
      (hpart : fields.lookup key = some part) (h : Variation content part part') :
      Variation (.one form) (.object fields) (.object (Fields.insert key part' fields))
  | item {form : Form} {before after : List Json} {item item' : Json}
      (h : Variation (.one form) item item') :
      Variation (.list form) (.array (before ++ item :: after)) (.array (before ++ item' :: after))
  | named {before after : List (String × Json)} {name : String} {part part' : Json}
      (h : Variation (.one .node) part part') :
      Variation .named (.object (before ++ (name, part) :: after))
        (.object (before ++ (name, part') :: after))

/-! ### What a document stands for

A change keeps an object of the format if whatever the object stands for is also stood for by the
changed object. This is what an induction over variations carries. -/

/-- A document stands for the variable and the body of a branch. -/
def WrittenBranch (j : Json) (name : String) (e : Expr) : Prop :=
  j.get? "var" = some (.string name) ∧ ∃ body, j.get? "body" = some body ∧ Written body e

/-- A document stands for a case: a branch with target brands. -/
def WrittenCase (j : Json) (case : Case Expr) : Prop :=
  WrittenBrands j case.brands ∧ WrittenBranch j case.var case.body

theorem writtenCases_iff {items : List Json} {cases : List (Case Expr)} :
    ((∀ pair ∈ items.zip cases, WrittenBrands pair.1 pair.2.brands ∧
        pair.1.get? "var" = some (.string pair.2.var) ∧ (pair.1.get? "body").isSome) ∧
      ∀ pair ∈ items.zip cases, ∀ body, pair.1.get? "body" = some body →
        Written body pair.2.body) ↔
      ∀ pair ∈ items.zip cases, WrittenCase pair.1 pair.2 := by
  constructor
  · rintro ⟨hcase, hbody⟩ pair hpair
    obtain ⟨hbrands, hvar, hsome⟩ := hcase pair hpair
    obtain ⟨body, hget⟩ := Option.isSome_iff_exists.1 hsome
    exact ⟨hbrands, hvar, body, hget, hbody pair hpair body hget⟩
  · intro h
    constructor
    · intro pair hpair
      obtain ⟨hbrands, hvar, body, hget, _⟩ := h pair hpair
      exact ⟨hbrands, hvar, hget ▸ rfl⟩
    · intro pair hpair body hbody
      obtain ⟨_, _, body', hget, hwritten⟩ := h pair hpair
      rw [hget] at hbody
      cases hbody
      exact hwritten

/-- Whatever one object of the format stands for, another one does too. -/
def Form.Keeps (form : Form) (j j' : Json) : Prop :=
  match form with
  | .node => ∀ e, Written j e → Written j' e
  | .branch => ∀ name e, WrittenBranch j name e → WrittenBranch j' name e
  | .case => ∀ case, WrittenCase j case → WrittenCase j' case

/-- Whatever the content of one field stands for, that of another does too. -/
def Content.Keeps (content : Content) (j j' : Json) : Prop :=
  match content with
  | .data | .target => j' = j
  | .one form => form.Keeps j j'
  | .list form => ∀ items, j = .array items →
      ∃ items', j' = .array items' ∧ List.Forall₂ form.Keeps items items'
  | .named => ∀ fields, j = .object fields →
      ∃ fields', j' = .object fields' ∧
        List.Forall₂ (fun a b => b.1 = a.1 ∧ Form.node.Keeps a.2 b.2) fields fields'

theorem Form.Keeps.refl (form : Form) (j : Json) : form.Keeps j j := by
  cases form with
  | node => exact fun _ h => h
  | branch => exact fun _ _ h => h
  | case => exact fun _ h => h

theorem Content.Keeps.refl (content : Content) (j : Json) : content.Keeps j j := by
  cases content with
  | data => rfl
  | target => rfl
  | one form => exact Form.Keeps.refl form j
  | list form =>
      intro items hitems
      exact ⟨items, hitems, List.forall₂_same.2 fun item _ => .refl form item⟩
  | named =>
      intro fields hfields
      exact ⟨fields, hfields, List.forall₂_same.2 fun field _ => ⟨rfl, .refl .node field.2⟩⟩

/-- Items that stand for whatever others do stand for the list that the others stand for. -/
theorem zip_of_keeps {α β : Type} {R : α → β → Prop} {items items' : List α} {values : List β}
    (hitems : List.Forall₂ (fun a a' => ∀ b, R a b → R a' b) items items')
    (hlength : items.length = values.length) (h : ∀ pair ∈ items.zip values, R pair.1 pair.2) :
    items'.length = values.length ∧ ∀ pair ∈ items'.zip values, R pair.1 pair.2 := by
  induction hitems generalizing values with
  | nil => exact ⟨hlength, h⟩
  | cons hitem _ ih =>
      cases values with
      | nil => cases hlength
      | cons value rest =>
          rw [List.zip_cons_cons, List.forall_mem_cons] at h ⊢
          obtain ⟨hlength, hrest⟩ := ih (Nat.succ.inj hlength) h.2
          exact ⟨congrArg Nat.succ hlength, hitem value h.1, hrest⟩

/-- One item of a list is replaced. -/
theorem forall₂_replace {α : Type} {R : α → α → Prop} (hrefl : ∀ a, R a a) {before after : List α}
    {item item' : α} (h : R item item') :
    List.Forall₂ R (before ++ item :: after) (before ++ item' :: after) := by
  have hsame (items : List α) : List.Forall₂ R items items := List.forall₂_same.2 fun a _ => hrefl a
  exact List.rel_append (hsame before) (.cons h (hsame after))

/-! ### Agreement on the fields that are read

Two objects agree if every field in the table is kept from one to the other. Agreement is enough for
standing for the same, which is seen kind by kind, and every variation leaves objects that agree. -/

@[simp] theorem lookup_targetFields {j : Json} {key : String} :
    (targetFields j).lookup key =
      if key = "brand" ∨ key = "brands" ∧ j.get? "brand" = none then some .target else none := by
  unfold targetFields
  rw [Fields.lookup_cons]
  by_cases hkey : key = "brand"
  · simp [hkey]
  · cases j.get? "brand" <;> simp [hkey, Fields.lookup_cons]

/-- The tag is none of the other fields of a node. -/
theorem Node.lookup_expr (j : Json) (node : Node) : (node.fields j).lookup "expr" = none := by
  cases node <;> simp [Node.fields, Fields.lookup_cons]

/-- An object with a tag has the fields of that kind of node in the table. -/
theorem Form.lookup_of_tagged {j : Json} {node : Node} (hnode : Tagged j node) {key : String}
    {content : Content} (hkey : (node.fields j).lookup key = some content) :
    (Form.node.fields j).lookup key = some content := by
  have hne : key ≠ "expr" := by
    rintro rfl
    rw [node.lookup_expr j] at hkey
    cases hkey
  rw [Form.fields, tag_of_tagged hnode, Option.bind_some, Node.ofTag?_tag, Fields.lookup_cons,
    if_neg hne]
  exact hkey

/-- Where target brands are read, the array of them is read if and only if there is no single one. -/
theorem Form.lookup_brands {form : Form} {j : Json}
    (h : (form.fields j).lookup "brand" = some .target) :
    (form.fields j).lookup "brands" = if j.get? "brand" = none then some .target else none := by
  cases form with
  | node =>
      unfold Form.fields at h ⊢
      generalize ((j.get? "expr").bind Json.string?).bind Node.ofTag? = node at h ⊢
      rcases node with _ | node
      · simp [Fields.lookup_cons] at h
      · cases node <;> simp [Node.fields, Fields.lookup_cons] at h ⊢
  | branch => simp [Form.fields, Fields.lookup_cons] at h
  | case => simp [Form.fields, Fields.lookup_cons]

/-- Two objects agree on what is read of the first one: its target brands are those of the other, and
    the other has all its other fields, with content that keeps theirs. -/
structure Form.Agree (form : Form) (j j' : Json) : Prop where
  part {key : String} {content : Content} {part : Json} :
    (form.fields j).lookup key = some content → content ≠ .target → j.get? key = some part →
      ∃ part', j'.get? key = some part' ∧ content.Keeps part part'
  target {names : List String} :
    (form.fields j).lookup "brand" = some .target → WrittenBrands j names → WrittenBrands j' names

namespace Form.Agree

variable {form : Form} {j j' : Json}

/-- Data are kept as they are. -/
theorem data (h : form.Agree j j') {key : String} {value : Json}
    (hkey : (form.fields j).lookup key = some .data) (hvalue : j.get? key = some value) :
    j'.get? key = some value := by
  obtain ⟨value', hvalue', rfl⟩ := h.part hkey (by simp) hvalue
  exact hvalue'

/-- Agreement field by field. -/
theorem of_fields (h : ∀ key content, (form.fields j).lookup key = some content →
    Option.Rel content.Keeps (j.get? key) (j'.get? key)) : form.Agree j j' where
  part {key content part} hkey _ hpart := by
    have hrel := h key content hkey
    rw [hpart] at hrel
    generalize j'.get? key = found at hrel ⊢
    cases hrel with
    | some hkeeps => exact ⟨_, rfl, hkeeps⟩
  target {names} htarget hnames := by
    have hsame {key : String} (hkey : (form.fields j).lookup key = some .target) :
        j'.get? key = j.get? key := by
      have hrel := h key .target hkey
      generalize j.get? key = found, j'.get? key = found' at hrel ⊢
      cases hrel with
      | some hkeeps => exact congrArg some hkeeps
      | none => rfl
    cases hnames with
    | single hname => exact .single ((hsame htarget).trans hname)
    | several hnone hnames =>
        -- An array of brands counts only as long as there is no single brand before it.
        have hbrands := lookup_brands htarget
        rw [if_pos hnone] at hbrands
        exact .several ((hsame htarget).trans hnone) ((hsame hbrands).trans hnames)

/-- Objects that agree stand for the same branch. -/
theorem writtenBranch (h : form.Agree j j') (hvar : (form.fields j).lookup "var" = some .data)
    (hbody : (form.fields j).lookup "body" = some (.one .node)) {name : String} {e : Expr}
    (hbranch : WrittenBranch j name e) : WrittenBranch j' name e := by
  obtain ⟨hname, body, hget, he⟩ := hbranch
  obtain ⟨body', hget', hkeeps⟩ := h.part hbody (by simp) hget
  exact ⟨h.data hvar hname, body', hget', hkeeps e he⟩

section Nodes

variable {node : Node} (h : Form.node.Agree j j') (hnode : Tagged j node) {key : String}

include h hnode

theorem tagged : Tagged j' node := h.data rfl hnode

theorem dataOf {value : Json} (hvalue : j.get? key = some value)
    (hkey : (node.fields j).lookup key = some .data) : j'.get? key = some value :=
  h.data (lookup_of_tagged hnode hkey) hvalue

/-- A part that is an object of the format is kept by some object in its place. -/
theorem oneOf {form : Form} {part : Json} (hpart : j.get? key = some part)
    (hkey : (node.fields j).lookup key = some (.one form)) :
    ∃ part', j'.get? key = some part' ∧ form.Keeps part part' :=
  h.part (lookup_of_tagged hnode hkey) (by simp) hpart

/-- Parts in an array are kept one by one. -/
theorem listOf {form : Form} {items : List Json} (hitems : j.get? key = some (.array items))
    (hkey : (node.fields j).lookup key = some (.list form)) :
    ∃ items', j'.get? key = some (.array items') ∧ List.Forall₂ form.Keeps items items' := by
  obtain ⟨part, hpart, hkeeps⟩ := h.part (lookup_of_tagged hnode hkey) (by simp) hitems
  obtain ⟨items', rfl, hitems'⟩ := hkeeps items rfl
  exact ⟨items', hpart, hitems'⟩

/-- The parts of a record keep their names and what they stand for. -/
theorem namedOf {parts : List (String × Json)} (hparts : j.get? key = some (.object parts))
    (hkey : (node.fields j).lookup key = some .named) :
    ∃ parts', j'.get? key = some (.object parts') ∧
      List.Forall₂ (fun part part' : String × Json => ∀ field : String × Expr,
        part.1 = field.1 ∧ Written part.2 field.2 → part'.1 = field.1 ∧ Written part'.2 field.2)
        parts parts' := by
  obtain ⟨_, hget, hkeeps⟩ := h.part (lookup_of_tagged hnode hkey) (by simp) hparts
  obtain ⟨parts', rfl, hparts'⟩ := hkeeps parts rfl
  refine ⟨parts', hget, hparts'.imp fun part part' hkept field hfield => ?_⟩
  exact ⟨hkept.1.trans hfield.1, hkept.2 field.2 hfield.2⟩

end Nodes

/-- Nodes that agree stand for the same expression. -/
theorem written (h : Form.node.Agree j j') {e : Expr} (he : Written j e) : Written j' e := by
  -- Every field of a node is carried over by its content, as the table of fields has it.
  cases he with
  | const hnode hvalue hdecode => exact .const (h.tagged hnode) (h.dataOf hnode hvalue rfl) hdecode
  | var hnode hname => exact .var (h.tagged hnode) (h.dataOf hnode hname rfl)
  | bind hnode hname hvalue hbody hv hb =>
      obtain ⟨_, hvalue, hkeeps⟩ := h.oneOf hnode hvalue rfl
      obtain ⟨_, hbody, hkeeps'⟩ := h.oneOf hnode hbody rfl
      exact .bind (h.tagged hnode) (h.dataOf hnode hname rfl) hvalue hbody (hkeeps _ hv) (hkeeps' _ hb)
  | dot hnode htarget hfield he =>
      obtain ⟨_, htarget, hkeeps⟩ := h.oneOf hnode htarget rfl
      exact .dot (h.tagged hnode) htarget (h.dataOf hnode hfield rfl) (hkeeps _ he)
  | record hnode hfields hlength hnames he =>
      obtain ⟨parts', hget, hkeeps⟩ := h.namedOf hnode hfields rfl
      obtain ⟨hlength, hfields⟩ := zip_of_keeps hkeeps hlength fun pair hpair =>
        ⟨hnames pair hpair, he pair hpair⟩
      exact .record (h.tagged hnode) hget hlength (fun pair hpair => (hfields pair hpair).1)
        fun pair hpair => (hfields pair hpair).2
  | concat hnode hleft hright ha hb =>
      obtain ⟨_, hleft, hkeeps⟩ := h.oneOf hnode hleft rfl
      obtain ⟨_, hright, hkeeps'⟩ := h.oneOf hnode hright rfl
      exact .concat (h.tagged hnode) hleft hright (hkeeps _ ha) (hkeeps' _ hb)
  | brand hnode hname hvalue hv =>
      obtain ⟨_, hvalue, hkeeps⟩ := h.oneOf hnode hvalue rfl
      exact .brand (h.tagged hnode) (h.dataOf hnode hname rfl) hvalue (hkeeps _ hv)
  | unbrand hnode hvalue hv =>
      obtain ⟨_, hvalue, hkeeps⟩ := h.oneOf hnode hvalue rfl
      exact .unbrand (h.tagged hnode) hvalue (hkeeps _ hv)
  | cast hnode hbrands hvalue hv =>
      obtain ⟨_, hvalue, hkeeps⟩ := h.oneOf hnode hvalue rfl
      have htarget : (Node.cast.fields j).lookup "brand" = some .target := by
        simp [Node.fields, Fields.lookup_cons]
      exact .cast (h.tagged hnode) (h.target (lookup_of_tagged hnode htarget) hbrands) hvalue (hkeeps _ hv)
  | left hnode hvalue hv =>
      obtain ⟨_, hvalue, hkeeps⟩ := h.oneOf hnode hvalue rfl
      exact .left (h.tagged hnode) hvalue (hkeeps _ hv)
  | right hnode hvalue hv =>
      obtain ⟨_, hvalue, hkeeps⟩ := h.oneOf hnode hvalue rfl
      exact .right (h.tagged hnode) hvalue (hkeeps _ hv)
  | either hnode hscrutinee hleft hleftVar honLeft hright hrightVar honRight hs hl hr =>
      obtain ⟨_, hscrutinee, hkeeps⟩ := h.oneOf hnode hscrutinee rfl
      obtain ⟨_, hleft, hkeepsLeft⟩ := h.oneOf hnode hleft rfl
      obtain ⟨_, hright, hkeepsRight⟩ := h.oneOf hnode hright rfl
      obtain ⟨hleftVar, _, honLeft, hl⟩ := hkeepsLeft _ _ ⟨hleftVar, _, honLeft, hl⟩
      obtain ⟨hrightVar, _, honRight, hr⟩ := hkeepsRight _ _ ⟨hrightVar, _, honRight, hr⟩
      exact .either (h.tagged hnode) hscrutinee hleft hleftVar honLeft hright hrightVar honRight
        (hkeeps _ hs) hl hr
  | cond hnode htest hyes hno ht hy hn =>
      obtain ⟨_, htest, hkeeps⟩ := h.oneOf hnode htest rfl
      obtain ⟨_, hyes, hkeepsYes⟩ := h.oneOf hnode hyes rfl
      obtain ⟨_, hno, hkeepsNo⟩ := h.oneOf hnode hno rfl
      exact .cond (h.tagged hnode) htest hyes hno (hkeeps _ ht) (hkeepsYes _ hy) (hkeepsNo _ hn)
  | apply hnode hoperator hargs hlength harity he =>
      obtain ⟨items', hargs, hkeeps⟩ := h.listOf hnode hargs rfl
      obtain ⟨hlength, he⟩ := zip_of_keeps hkeeps hlength he
      exact .apply (h.tagged hnode) (h.dataOf hnode hoperator rfl) hargs hlength harity he
  | seq hnode hitems hlength he =>
      obtain ⟨items', hitems, hkeeps⟩ := h.listOf hnode hitems rfl
      obtain ⟨hlength, he⟩ := zip_of_keeps hkeeps hlength he
      exact .seq (h.tagged hnode) hitems hlength he
  | map hnode hname hsource hbody hs hb =>
      obtain ⟨_, hsource, hkeeps⟩ := h.oneOf hnode hsource rfl
      obtain ⟨_, hbody, hkeeps'⟩ := h.oneOf hnode hbody rfl
      exact .map (h.tagged hnode) (h.dataOf hnode hname rfl) hsource hbody (hkeeps _ hs) (hkeeps' _ hb)
  | filter hnode hname hsource hbody hs hb =>
      obtain ⟨_, hsource, hkeeps⟩ := h.oneOf hnode hsource rfl
      obtain ⟨_, hbody, hkeeps'⟩ := h.oneOf hnode hbody rfl
      exact .filter (h.tagged hnode) (h.dataOf hnode hname rfl) hsource hbody (hkeeps _ hs) (hkeeps' _ hb)
  | choose hnode hscrutinee hcases hotherwise hlength hcase hs ho hbody =>
      obtain ⟨_, hscrutinee, hkeeps⟩ := h.oneOf hnode hscrutinee rfl
      obtain ⟨_, hotherwise, hkeeps'⟩ := h.oneOf hnode hotherwise rfl
      obtain ⟨items', hcases, hkeepsCases⟩ := h.listOf hnode hcases rfl
      obtain ⟨hlength, hcase⟩ := zip_of_keeps hkeepsCases hlength (writtenCases_iff.1 ⟨hcase, hbody⟩)
      obtain ⟨hcase, hbody⟩ := writtenCases_iff.2 hcase
      exact .choose (h.tagged hnode) hscrutinee hcases hotherwise hlength hcase (hkeeps _ hs)
        (hkeeps' _ ho) hbody

/-- Objects that agree stand for the same. -/
theorem keeps (h : form.Agree j j') : form.Keeps j j' := by
  cases form with
  | node => exact fun e he => h.written he
  | branch => exact fun name e hbranch => h.writtenBranch rfl rfl hbranch
  | case =>
      rintro case ⟨hbrands, hbranch⟩
      have htarget : (Form.case.fields j).lookup "brand" = some .target := by
        simp [Form.fields, Fields.lookup_cons]
      exact ⟨h.target htarget hbrands, h.writtenBranch rfl rfl hbranch⟩

/-- An object agrees with itself after a field that is not read has been stored. -/
theorem further {fields : List (String × Json)} {key : String} (value : Json)
    (hkey : (form.fields (.object fields)).lookup key = none) :
    form.Agree (.object fields) (.object (Fields.insert key value fields)) := by
  refine .of_fields fun read content hread => ?_
  have hne : read ≠ key := by
    rintro rfl
    rw [hkey] at hread
    cases hread
  rw [Json.get?, Json.get?, Fields.lookup_insert, if_neg hne]
  cases fields.lookup read with
  | none => exact .none
  | some part => exact .some (.refl content part)

/-- An object agrees with itself after its single target brand has been put into an array. -/
theorem spread {fields : List (String × Json)} {name : String}
    (htarget : (form.fields (.object fields)).lookup "brand" = some .target)
    (hname : fields.lookup "brand" = some (.string name)) :
    form.Agree (.object fields)
      (.object (Fields.insert "brands" (.array [.string name]) (Fields.erase "brand" fields))) where
  part {key content part} hkey hcontent hpart := by
    -- The fields that come and go are those of the brands, which no other content stands in.
    have hbrand : key ≠ "brand" := by
      rintro rfl
      rw [htarget] at hkey
      cases hkey
      exact hcontent rfl
    have hbrands : key ≠ "brands" := by
      rintro rfl
      rw [lookup_brands htarget, Json.get?, hname] at hkey
      cases hkey
    refine ⟨part, ?_, .refl content part⟩
    rw [Json.get?, Fields.lookup_insert, if_neg hbrands, Fields.lookup_erase, if_neg hbrand]
    exact hpart
  target {names} _ hnames := by
    cases hnames with
    | single h =>
        rw [Json.get?, hname] at h
        cases h
        refine .several ?_ ?_
        · simp [Json.get?]
        · simp [Json.get?]
    | several hnone _ =>
        rw [Json.get?, hname] at hnone
        cases hnone

/-- An object agrees with the one that has a field replaced by content that keeps it. -/
theorem inside {fields : List (String × Json)} {key : String} {content : Content} {part part' : Json}
    (hkey : (form.fields (.object fields)).lookup key = some content)
    (hpart : fields.lookup key = some part) (h : content.Keeps part part') :
    form.Agree (.object fields) (.object (Fields.insert key part' fields)) := by
  refine .of_fields fun read other hread => ?_
  rw [Json.get?, Json.get?, Fields.lookup_insert]
  by_cases heq : read = key
  · subst heq
    rw [hkey] at hread
    cases hread
    rw [if_pos rfl, hpart]
    exact .some h
  · rw [if_neg heq]
    cases fields.lookup read with
    | none => exact .none
    | some part => exact .some (.refl other part)

end Form.Agree

/-- A variation of a document stands for whatever the document does. -/
theorem keeps_of_variation {content : Content} {j j' : Json} (h : Variation content j j') :
    content.Keeps j j' := by
  induction h with
  | further value hkey => exact (Form.Agree.further value hkey).keeps
  | spread htarget hname => exact (Form.Agree.spread htarget hname).keeps
  | inside hkey hpart _ ih => exact (Form.Agree.inside hkey hpart ih).keeps
  | @item form _ _ _ _ _ ih =>
      rintro _ ⟨⟩
      exact ⟨_, rfl, forall₂_replace (.refl form) ih⟩
  | named _ ih =>
      rintro _ ⟨⟩
      refine ⟨_, rfl, forall₂_replace ?_ ⟨rfl, ih⟩⟩
      exact fun field => ⟨rfl, .refl .node field.2⟩

/-- Any number of variations leave what a document stands for. -/
theorem written_of_variations {j j' : Json} {e : Expr}
    (h : Relation.ReflTransGen (Variation (.one .node)) j j') (he : Written j e) : Written j' e := by
  induction h with
  | refl => exact he
  | tail _ hstep ih => exact keeps_of_variation hstep e ih

/-! ### What is read

In the other direction, whatever has been read has a form that can be written: its operators have
their arguments and, if the document is in order, its records have ascending names. -/

/-- The names of every record that occurs in an expression ascend. -/
def NamesAscend (e : Expr) : Prop := ∀ fields, Within (.record fields) e → Fields.Ordered fields

/-- Ascending names are checked node by node. -/
theorem namesAscend_of_scopes {e : Expr} (hnode : ∀ fields, e = .record fields → Fields.Ordered fields)
    (hscopes : ∀ scope ∈ e.scopes, scope.2.NamesAscend) : e.NamesAscend := by
  intro fields hwithin
  cases hwithin with
  | self => exact hnode fields rfl
  | scope hscope hwithin => exact hscopes _ hscope fields hwithin

/-- A record takes its names from an object of the document. They ascend there, as they do in every
    document that is read from a text (`Json.ordered_of_parse?`). -/
theorem read_namesAscend (j : Json) (hj : j.Ordered) : Yields NamesAscend (read j) := by
  refine read_yields inherited_ordered (fun e hknown hscopes => namesAscend_of_scopes ?_ hscopes) j hj
  rintro fields rfl
  obtain ⟨parts, hparts, hnames⟩ := hknown
  have hordered : (parts.map (·.1)).Pairwise (· < ·) := List.pairwise_map.2 hparts.1
  rw [← hnames] at hordered
  exact List.pairwise_map.1 hordered

/-- An expression is read from its written form and from every document that differs from it only in
    what the format leaves open. Whatever is read has all the arguments of its operators, and the
    names of its records ascend. -/
theorem read_inverts_format :
    (∀ e : Expr, e.Writable →
      ∀ j, Relation.ReflTransGen (Variation (.one .node)) e.write j → read j = .ok e) ∧
    ∀ (j : Json) (e : Expr), j.Ordered → read j = .ok e → e.Saturated ∧ e.NamesAscend := by
  constructor
  · intro e he j hj
    exact read_of_written (written_of_variations hj (written_write e he))
  · intro j e hj he
    exact ⟨read_saturated j e he, read_namesAscend j hj e he⟩

/-- A match whose case has a note besides, and its only brand in an array. -/
theorem read_inverts_format_of_annotated_case :
    let e : Expr := .choose (.var "x")
      [⟨["Token"], "t", .record [("a", .var "t"), ("b", .var "x")]⟩] (.var "x")
    let var (name : String) : Json := .object [("expr", .string "var"), ("name", .string name)]
    let body : Json := .object
      [("expr", .string "record"), ("fields", .object [("a", var "t"), ("b", var "x")])]
    let document (case : List (String × Json)) : Json := .object
      [("cases", .array [.object case]), ("expr", .string "match"), ("otherwise", var "x"),
       ("value", var "x")]
    let annotated : Json := document
      [("body", body), ("brands", .array [.string "Token"]), ("note", .null), ("var", .string "t")]
    (e.Writable ∧ e.write = document [("body", body), ("brand", .string "Token"), ("var", .string "t")] ∧
      read annotated = .ok e) ∧ annotated.Ordered ∧ e.Saturated ∧ e.NamesAscend := by
  intro e var body document annotated
  have hwritable : e.Writable := by
    simp only [e, Writable, WritableCases, WritableFields, Fields.Ordered]
    decide +kernel
  have hordered : annotated.Ordered := by
    simp only [annotated, document, body, var, Json.Ordered, Json.OrderedItems, Json.OrderedFields,
      Fields.Ordered]
    decide +kernel
  have hinside {case case' : List (String × Json)}
      (h : Variation (.one .case) (.object case) (.object case')) :
      Variation (.one .node) (document case) (document case') :=
    @Variation.inside .node (.list .case) _ "cases" _ _ rfl rfl (@Variation.item _ [] [] _ _ h)
  have hspread : Variation (.one .case)
      (.object [("body", body), ("brand", .string "Token"), ("var", .string "t")])
      (.object [("body", body), ("brands", .array [.string "Token"]), ("var", .string "t")]) :=
    .spread rfl rfl
  have hnote : Variation (.one .case)
      (.object [("body", body), ("brands", .array [.string "Token"]), ("var", .string "t")])
      (.object [("body", body), ("brands", .array [.string "Token"]), ("note", .null),
        ("var", .string "t")]) :=
    @Variation.further _ _ "note" .null rfl
  have hvaried : Relation.ReflTransGen (Variation (.one .node)) e.write annotated :=
    .tail (.single (hinside hspread)) (hinside hnote)
  have hread : read annotated = .ok e := read_inverts_format.1 e hwritable annotated hvaried
  exact ⟨⟨hwritable, rfl, hread⟩, hordered, read_inverts_format.2 annotated e hordered hread⟩

end Expr

end ClauseEngine
