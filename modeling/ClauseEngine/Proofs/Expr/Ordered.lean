/-
Module: ClauseEngine.Proofs.Expr.Ordered
Purpose: Evaluation keeps fields in order. From constants and variables whose fields ascend by name
  it only makes values whose fields do, at whatever depth it is and whatever its limit. The constants
  of an expression that is read from a document in order have their fields in order.
Main exports: Expr.Ordered, Context.Ordered, Expr.evalAt_ordered, Expr.inherited_ordered,
  Expr.read_ordered
-/
import ClauseEngine.Proofs.Expr.Reader
import ClauseEngine.Proofs.Primitive.Ordered
import ClauseEngine.Proofs.Value.Ordered

namespace ClauseEngine

/-- The constants of an expression have their fields in order. -/
inductive Expr.Ordered : Expr → Prop
  | node {e : Expr} (hconst : ∀ v, e = .const v → v.Ordered)
      (hscopes : ∀ scope ∈ e.scopes, Expr.Ordered scope.2) : Expr.Ordered e

/-! ### Scopes

A scope in order stays in order when a value in order is bound, and a variable that is found is in
order. -/

namespace Context

/-- The variables in scope have their fields in order. -/
def Ordered (ctx : Context) : Prop := ∀ binding ∈ ctx, binding.2.Ordered

theorem Ordered.under {ctx : Context} (h : ctx.Ordered) (name : Option String) {v : Value}
    (hv : v.Ordered) : (ctx.under name v).Ordered := by
  cases name with
  | none => exact h
  | some name => exact List.forall_mem_cons.2 ⟨hv, h⟩

theorem Ordered.find {ctx : Context} (h : ctx.Ordered) (name : String) :
    OrderedValue (ctx.find name) := by
  unfold Context.find
  split
  · rename_i v hlookup
    obtain ⟨before, after, rfl, _⟩ := List.lookup_eq_some_iff.1 hlookup
    exact yields_ok.2 (h (name, v) (by simp))
  · exact yields_error _

end Context

/-! ### Records

The constructors of records store fields one by one, which keeps them in order whatever the order of
the expressions was. -/

namespace Value

theorem ordered_record_iff {fields : List (String × Value)} :
    (record fields).Ordered ↔ Fields.Ordered fields ∧ ∀ field ∈ fields, field.2.Ordered :=
  and_congr_right fun _ => orderedFields_iff

/-- Storing values in order in a record in order keeps it in order. -/
theorem ordered_overlay {base extra : List (String × Value)} (hbase : (record base).Ordered)
    (hextra : ∀ field ∈ extra, field.2.Ordered) : (record (Fields.overlay base extra)).Ordered := by
  obtain ⟨hordered, hvalues⟩ := ordered_record_iff.1 hbase
  refine ordered_record_iff.2 ⟨Fields.ordered_overlay hordered extra, fun field hfield => ?_⟩
  rcases Fields.mem_overlay hfield with hfield | hfield
  · exact hvalues field hfield
  · exact hextra field hfield

theorem asRecord_yields {v : Value} (hv : v.Ordered) :
    Yields (fun fields => (record fields).Ordered) v.asRecord := by
  cases v with
  | record fields => exact yields_ok.2 hv
  | _ => exact yields_error _

/-- What a name finds in a record in order is in order. -/
theorem ordered_of_lookup {fields : List (String × Value)} (hfields : (record fields).Ordered)
    {name : String} {v : Value} (h : fields.lookup name = some v) : v.Ordered := by
  obtain ⟨before, after, rfl, _⟩ := List.lookup_eq_some_iff.1 h
  exact (ordered_record_iff.1 hfields).2 (name, v) (by simp)

theorem dot_ordered {v : Value} (hv : v.Ordered) (name : String) : OrderedValue (v.dot name) := by
  simp only [OrderedValue, dot, yields_bind]
  refine (asRecord_yields hv).mono fun fields hfields => ?_
  unfold fieldOf
  split
  · rename_i value hlookup
    exact yields_ok.2 (ordered_of_lookup hfields hlookup)
  · exact yields_error _

/-- The second record is stored in the first. -/
theorem concat_ordered {a b : Value} (ha : a.Ordered) (hb : b.Ordered) :
    OrderedValue (concat a b) := by
  simp only [OrderedValue, concat, yields_bind, yields_pure]
  refine (asRecord_yields ha).mono fun left hleft => (asRecord_yields hb).mono fun right hright => ?_
  exact ordered_overlay hleft (ordered_record_iff.1 hright).2

theorem withBrand_ordered {v : Value} (hv : v.Ordered) (brand : String) :
    OrderedValue (v.withBrand brand) := by
  cases v with
  | record fields => exact yields_ok.2 hv
  | _ => exact yields_error _

theorem withoutBrand_ordered {v : Value} (hv : v.Ordered) : OrderedValue v.withoutBrand := by
  cases v with
  | branded brand fields => exact yields_ok.2 hv
  | _ => exact yields_error _

end Value

theorem Registry.cast_ordered (registry : Registry) (targets : List String) {v : Value}
    (hv : v.Ordered) : OrderedValue (registry.cast targets v) := by
  simp [Registry.cast, hv]

/-- Filtering keeps items and makes none. -/
theorem filterItems_yields (test : Value → Result Bool) (items : List Value) :
    Yields (∀ item ∈ ·, item ∈ items) (filterItems test items) := by
  induction items with
  | nil => simp [filterItems]
  | cons item rest ih =>
      simp only [filterItems, yields_bind, yields_pure]
      intro keep _
      refine ih.mono fun kept hkept other hother => ?_
      cases keep with
      | true =>
          rcases List.mem_cons.1 hother with rfl | hother
          · exact List.mem_cons_self
          · exact List.mem_cons_of_mem _ (hkept other hother)
      | false => exact List.mem_cons_of_mem _ (hkept other hother)

namespace Expr

variable {registry : Registry} {limit depth : Nat} {ctx : Context}

/-! ### Several sub-expressions

Lists of sub-expressions are evaluated from the left. If each of them comes to a value in order, all
values of the list are in order. -/

theorem evalItems_yields {items : List Expr}
    (hitems : ∀ item ∈ items, OrderedValue (evalAt registry limit depth ctx item)) :
    Yields (∀ v ∈ ·, Value.Ordered v) (evalItems registry limit depth ctx items) := by
  induction items with
  | nil => simp [evalItems]
  | cons item rest ih =>
      obtain ⟨hitem, hrest⟩ := List.forall_mem_cons.1 hitems
      simp only [evalItems, yields_bind, yields_pure]
      exact hitem.mono fun v hv => (ih hrest).mono fun vs hvs => List.forall_mem_cons.2 ⟨hv, hvs⟩

theorem evalFields_yields {fields : List (String × Expr)}
    (hfields : ∀ field ∈ fields, OrderedValue (evalAt registry limit depth ctx field.2)) :
    Yields (∀ field ∈ ·, Value.Ordered field.2) (evalFields registry limit depth ctx fields) := by
  induction fields with
  | nil => simp [evalFields]
  | cons field rest ih =>
      obtain ⟨hfield, hrest⟩ := List.forall_mem_cons.1 hfields
      simp only [evalFields, yields_bind, yields_pure]
      exact hfield.mono fun v hv => (ih hrest).mono fun vs hvs => List.forall_mem_cons.2 ⟨hv, hvs⟩

theorem evalConnective_ordered (operator : Primitive) (decisive : Bool) (args : List Expr) :
    OrderedValue (evalConnective registry limit depth ctx operator decisive args) := by
  unfold evalConnective
  split <;> simp

/-- A case that applies binds the value it matched, which is in order. -/
theorem evalCases_yields {v : Value} (hv : v.Ordered) {cases : List (Case Expr)}
    (hcases : ∀ case ∈ cases, ∀ matched : Value, matched.Ordered →
      OrderedValue (evalAt registry limit depth (ctx.bind case.var matched) case.body)) :
    Yields (∀ result ∈ ·, Value.Ordered result) (evalCases registry limit depth ctx v cases) := by
  induction cases with
  | nil => simp [evalCases]
  | cons case rest ih =>
      obtain ⟨hcase, hrest⟩ := List.forall_mem_cons.1 hcases
      simp only [evalCases, yields_bind]
      refine (registry.cast_ordered case.brands hv).mono fun answer hanswer => ?_
      cases answer with
      | left matched =>
          refine yields_map.2 ((hcase matched hanswer).mono fun result hresult => ?_)
          simpa using hresult
      | _ => exact ih hrest

/-! ### All expressions

The induction is on the expression, with the scope generalised. A node evaluates its sub-expressions
in its own scope or under one binding, and the hypotheses of this induction are stated for both. -/

/-- What an expression evaluates to has its fields in order, if its constants and the variables in
    scope have. -/
theorem evalAt_ordered {e : Expr} (he : e.Ordered) (hctx : ctx.Ordered) :
    OrderedValue (evalAt registry limit depth ctx e) := by
  induction e using scopes_induction generalizing depth ctx with
  | node e ih =>
      obtain ⟨hconst, hscopes⟩ := he
      have houter {child : Expr} (hchild : (none, child) ∈ e.scopes) :
          OrderedValue (evalAt registry limit (depth + 1) ctx child) :=
        ih _ hchild (hscopes _ hchild) hctx
      have hinner {name : String} {child : Expr} (hchild : (some name, child) ∈ e.scopes)
          {v : Value} (hv : v.Ordered) :
          OrderedValue (evalAt registry limit (depth + 1) (ctx.bind name v) child) :=
        ih _ hchild (hscopes _ hchild) (hctx.under (some name) hv)
      rw [OrderedValue, evalAt.eq_def, yields_ite]
      refine ⟨fun _ => yields_error _, fun _ => ?_⟩
      cases e with
      | const value => exact yields_ok.2 (hconst value rfl)
      | var name => exact hctx.find name
      | bind name value body =>
          exact yields_bind.2 ((houter (by simp [scopes])).mono fun v => hinner (by simp [scopes]))
      | dot target field =>
          exact yields_bind.2 ((houter (by simp [scopes])).mono fun v hv => v.dot_ordered hv field)
      | record fields =>
          refine yields_bind.2 ((evalFields_yields fun field hfield => houter ?_).mono ?_)
          · exact List.mem_map.2 ⟨field, hfield, rfl⟩
          · exact fun values hvalues =>
              yields_pure.2 (Value.ordered_overlay ⟨List.Pairwise.nil, trivial⟩ hvalues)
      | concat first second =>
          refine yields_bind.2 ((houter (by simp [scopes])).mono fun a ha => ?_)
          exact yields_bind.2 ((houter (by simp [scopes])).mono fun b hb => a.concat_ordered ha hb)
      | brand name value =>
          exact yields_bind.2 ((houter (by simp [scopes])).mono fun v hv =>
            v.withBrand_ordered hv name)
      | unbrand value =>
          exact yields_bind.2 ((houter (by simp [scopes])).mono fun v => v.withoutBrand_ordered)
      | cast brands value =>
          exact yields_bind.2 ((houter (by simp [scopes])).mono fun v =>
            registry.cast_ordered brands)
      | left value =>
          exact yields_bind.2 ((houter (by simp [scopes])).mono fun v hv =>
            yields_pure.2 (Value.ordered_left.2 hv))
      | right value =>
          exact yields_bind.2 ((houter (by simp [scopes])).mono fun v hv =>
            yields_pure.2 (Value.ordered_right.2 hv))
      | either scrutinee leftVar onLeft rightVar onRight =>
          refine yields_bind.2 ((houter (by simp [scopes])).mono fun v hv => ?_)
          cases v with
          | left payload => exact hinner (by simp [scopes]) hv
          | right payload => exact hinner (by simp [scopes]) hv
          | _ => exact yields_error _
      | cond test yes no =>
          refine yields_bind.2 ((houter (by simp [scopes])).mono fun v _ => yields_bind.2 ?_)
          exact fun b _ => yields_ite.2
            ⟨fun _ => houter (by simp [scopes]), fun _ => houter (by simp [scopes])⟩
      | apply operator args =>
          dsimp only
          split
          · exact evalConnective_ordered operator _ args
          · refine yields_bind.2 ((evalItems_yields fun arg harg => houter ?_).mono ?_)
            · exact List.mem_map.2 ⟨arg, harg, rfl⟩
            · exact fun values => operator.apply_ordered
      | seq items =>
          refine yields_bind.2 ((evalItems_yields fun item hitem => houter ?_).mono ?_)
          · exact List.mem_map.2 ⟨item, hitem, rfl⟩
          · exact fun values hvalues => yields_pure.2 (Value.ordered_seq.2 hvalues)
      | map name source body =>
          refine yields_bind.2 ((houter (by simp [scopes])).mono fun v hv => yields_bind.2 ?_)
          refine (Value.asSeq_yields hv).mono fun items hitems => yields_bind.2 ?_
          refine (yields_mapM fun item hitem => hinner (by simp [scopes]) (hitems item hitem)).mono ?_
          exact fun values hvalues => yields_pure.2 (Value.ordered_seq.2 hvalues)
      | filter name source body =>
          refine yields_bind.2 ((houter (by simp [scopes])).mono fun v hv => yields_bind.2 ?_)
          refine (Value.asSeq_yields hv).mono fun items hitems => yields_bind.2 ?_
          refine (filterItems_yields _ items).mono fun kept hkept => ?_
          exact yields_pure.2 (Value.ordered_seq.2 fun item hitem => hitems item (hkept item hitem))
      | choose scrutinee cases otherwise =>
          refine yields_bind.2 ((houter (by simp [scopes])).mono fun v hv => yields_bind.2 ?_)
          refine (evalCases_yields hv fun case hcase matched hmatched => hinner ?_ hmatched).mono ?_
          · exact .tail _ (.tail _ (List.mem_map.2 ⟨case, hcase, rfl⟩))
          · intro answer hanswer
            cases answer with
            | some result => exact yields_pure.2 (hanswer result rfl)
            | none => exact houter (by simp [scopes])

/-! ### Expressions that are read

A document in order passes its order on to its parts, and constants are the only values that an
expression takes from its document. -/

theorem inherited_ordered : Inherited Json.Ordered where
  item hitems hitem := Json.orderedItems_iff.1 hitems _ hitem
  field hfields hfield := Json.orderedFields_iff.1 hfields.2 _ hfield

/-- The constants of an expression that is read are in order. -/
theorem read_ordered (j : Json) (hj : j.Ordered) : Yields Expr.Ordered (read j) := by
  refine read_yields inherited_ordered (fun e hknown hscopes => .node ?_ hscopes) j hj
  rintro v rfl
  obtain ⟨part, hpart, hdecode⟩ := hknown
  exact Value.ordered_of_decode hpart hdecode

end Expr

end ClauseEngine
