/-
Module: ClauseEngine.Proofs.Expr.Reader
Purpose: What reading an expression rules out. One induction over the document says what is known of
  every node that is read. Operators are resolved and their arguments counted while an expression is
  read, at every node, so that every operator in it has as many arguments as it takes. Evaluating
  such an expression never fails for a reason that belongs to loading: the errors left are those of
  operands, of variables, of the depth limit and, unless they are enabled, of casts to several
  brands.
Main exports: Expr.Within, Expr.Saturated, Expr.saturated_iff, Expr.Inherited, Expr.Known,
  Expr.read_yields, Expr.read_saturated, EvalError.AfterLoading, Expr.evalAt_raisesOnly_of_saturated
-/
import ClauseEngine.Expr.Reader
import ClauseEngine.Proofs.Expr.Scopes

namespace ClauseEngine

namespace Expr

/-! ### Operators with all their arguments

That an operator has all its arguments is asked of every node inside an expression. It can be
checked node by node. -/

/-- One expression occurs in another: it is the other, or occurs in a sub-expression of it. -/
inductive Within (inner : Expr) : Expr → Prop
  | self : Within inner inner
  | scope {e : Expr} {scope : Option String × Expr} (hscope : scope ∈ e.scopes)
      (h : Within inner scope.2) : Within inner e

/-- Every operator that occurs in an expression has as many arguments as it takes. -/
def Saturated (e : Expr) : Prop :=
  ∀ operator args, Within (.apply operator args) e → args.length = operator.arity

/-- An expression is saturated if its node is and all its sub-expressions are. -/
theorem saturated_iff {e : Expr} :
    e.Saturated ↔
      (∀ operator args, e = .apply operator args → args.length = operator.arity) ∧
        ∀ scope ∈ e.scopes, scope.2.Saturated := by
  constructor
  · intro h
    constructor
    · rintro operator args rfl
      exact h operator args .self
    · intro scope hscope operator args hwithin
      exact h operator args (.scope hscope hwithin)
  · rintro ⟨hnode, hscopes⟩ operator args hwithin
    cases hwithin with
    | self => exact hnode operator args rfl
    | scope hscope hwithin => exact hscopes _ hscope operator args hwithin

/-! ### Reading

A node is read from a document that is smaller than the whole and has all that the whole passes on.
The induction on the size is made once, for whatever can be told from a node and its sub-
expressions. -/

/-- A property that a document passes on to the documents inside it. -/
structure Inherited (Good : Json → Prop) : Prop where
  item {items : List Json} {item : Json} : Good (.array items) → item ∈ items → Good item
  field {fields : List (String × Json)} {field : String × Json} :
    Good (.object fields) → field ∈ fields → Good field.2

/-- A field of a document has what the document passes on. -/
theorem Inherited.get? {Good : Json → Prop} (hgood : Inherited Good) {j value : Json} {name : String}
    (hj : Good j) (h : j.get? name = some value) : Good value := by
  cases j with
  | object fields =>
      obtain ⟨before, after, rfl, -⟩ := List.lookup_eq_some_iff.1 h
      exact hgood.field hj (List.mem_append_right _ List.mem_cons_self)
  | _ => cases h

namespace Reader

variable {Good : Json → Prop} (hgood : Inherited Good) (node : String) {j : Json} (hj : Good j)

include hgood hj

/-- A part that is asked for is a field of the document. -/
theorem part_yields (name : String) : Yields (fun found => Good found.1) (part node j name) := by
  unfold part Json.part?
  split
  · rename_i found hfound
    split at hfound
    · rename_i hget
      cases hfound
      exact yields_ok.2 (hgood.get? hj hget)
    · cases hfound
  · exact yields_error _

omit hj in
theorem innerPart_yields {outer : j.Part} (houter : Good outer.1) (name : String) :
    Yields (fun found => Good found.1) (innerPart node outer name) :=
  (part_yields hgood node houter name).bind fun _ hinner => yields_pure.2 hinner

theorem items_yields (name : String) :
    Yields (∀ found ∈ ·, Good found.1) (items node j name) := by
  refine (part_yields hgood node hj name).bind ?_
  rintro ⟨outer, hsize⟩ houter
  cases outer with
  | array items =>
      refine yields_pure.2 (List.forall_mem_map.2 (List.forall_mem_map.2 ?_))
      intro item _
      exact hgood.item houter item.2
  | _ => exact yields_error _

/-- The fields of an object come by their names, in the order of the object. -/
theorem entries_yields (name : String) :
    Yields (fun found => (∀ entry ∈ found, Good entry.2.1) ∧
        ∃ fields : List (String × Json), Good (.object fields) ∧
          found.map (·.1) = fields.map (·.1))
      (entries node j name) := by
  refine (part_yields hgood node hj name).bind ?_
  rintro ⟨outer, hsize⟩ houter
  cases outer with
  | object fields =>
      refine yields_pure.2 ⟨List.forall_mem_map.2 (List.forall_mem_map.2 ?_), fields, houter, ?_⟩
      · intro field _
        exact hgood.field houter field.2
      · rw [List.map_map, List.map_map]
        exact List.attach_map_val (l := fields) (f := Prod.fst)
  | _ => exact yields_error _

end Reader

/-- What is known of a node that has been read, besides its sub-expressions: where a constant comes
    from, that an operator has as many arguments as it takes, and that the fields of a record are
    named as those of an object of the document. -/
def Known (Good : Json → Prop) : Expr → Prop
  | .const v => ∃ part, Good part ∧ Value.decode part = .ok v
  | .apply operator args => args.length = operator.arity
  | .record fields => ∃ parts : List (String × Json),
      Good (.object parts) ∧ fields.map (·.1) = parts.map (·.1)
  | _ => True

open Reader in
/-- What passes from the sub-expressions of a node to the node, given what is known of it, holds of
    what has been read. -/
theorem read_yields {Good : Json → Prop} (hgood : Inherited Good) {P : Expr → Prop}
    (hnode : ∀ e : Expr, Known Good e → (∀ scope ∈ e.scopes, P scope.2) → P e)
    (j : Json) (hj : Good j) : Yields P (read j) := by
  -- Every part of a node is smaller than the node and has the property of the document.
  induction hn : j.size using Nat.strongRecOn generalizing j with
  | ind n ih =>
      subst hn
      have hread {part : j.Part} (hpart : Good part.1) : Yields P (read part.1) :=
        ih _ part.2 part.1 hpart rfl
      have hitems {parts : List j.Part} (hparts : ∀ part ∈ parts, Good part.1) :
          Yields (∀ e ∈ ·, P e) (parts.mapM fun part => read part.1) :=
        yields_mapM fun part hmem => hread (hparts part hmem)
      have hbuilt {e : Expr} (hknown : Known Good e) (hscopes : ∀ scope ∈ e.scopes, P scope.2) :
          Yields P (pure e) :=
        yields_pure.2 (hnode e hknown hscopes)
      rw [read]
      split
      · rename_i tag _
        rw [pure_bind]
        dsimp only
        have hpart := part_yields hgood tag hj
        generalize Node.ofTag? tag = node
        rcases node with _ | node
        · exact yields_error _
        · cases node with
          | const =>
              refine (hpart "value").bind fun part h e he => ?_
              obtain ⟨v, hv, he⟩ := bind_eq_ok_iff.1 he
              cases he
              exact hnode (.const v) ⟨part.1, h, hv⟩ (by simp [scopes])
          | var => exact .after fun name => hbuilt trivial (by simp [scopes])
          | bind =>
              refine .after fun name => (hpart "value").bind fun part h => ?_
              refine (hread h).bind fun value hvalue => (hpart "body").bind fun part h => ?_
              refine (hread h).bind fun body hbody => hbuilt trivial ?_
              simp [scopes, hvalue, hbody]
          | dot =>
              refine (hpart "record").bind fun part h => (hread h).bind fun target htarget => ?_
              refine .after fun field => hbuilt trivial ?_
              simp [scopes, htarget]
          | record =>
              refine (entries_yields hgood tag hj "fields").bind fun entries h => ?_
              obtain ⟨hentries, parts, hparts, hnames⟩ := h
              have hvalues : Yields (∀ field ∈ ·, P (Prod.snd field))
                  (entries.mapM fun entry => do return (entry.1, ← read entry.2.1)) := by
                apply yields_mapM
                intro entry hentry
                exact (hread (hentries entry hentry)).bind fun value hvalue => yields_pure.2 hvalue
              intro e he
              obtain ⟨fields, hfields, he⟩ := bind_eq_ok_iff.1 he
              cases he
              refine hnode _ ⟨parts, hparts, ?_⟩ (List.forall_mem_map.2 (hvalues fields hfields))
              rw [← hnames]
              refine (map_eq_of_mapM ?_ hfields).symm
              intro entry field hfield
              obtain ⟨value, _, hfield⟩ := bind_eq_ok_iff.1 hfield
              cases hfield
              rfl
          | concat =>
              refine (hpart "left").bind fun part h => (hread h).bind fun first hfirst => ?_
              refine (hpart "right").bind fun part h => (hread h).bind fun second hsecond => ?_
              refine hbuilt trivial ?_
              simp [scopes, hfirst, hsecond]
          | brand =>
              refine .after fun name => (hpart "value").bind fun part h => ?_
              refine (hread h).bind fun value hvalue => hbuilt trivial ?_
              simp [scopes, hvalue]
          | unbrand =>
              refine (hpart "value").bind fun part h => (hread h).bind fun value hvalue => ?_
              refine hbuilt trivial ?_
              simp [scopes, hvalue]
          | cast =>
              refine .after fun targets => (hpart "value").bind fun part h => ?_
              refine (hread h).bind fun value hvalue => hbuilt trivial ?_
              simp [scopes, hvalue]
          | left =>
              refine (hpart "value").bind fun part h => (hread h).bind fun value hvalue => ?_
              refine hbuilt trivial ?_
              simp [scopes, hvalue]
          | right =>
              refine (hpart "value").bind fun part h => (hread h).bind fun value hvalue => ?_
              refine hbuilt trivial ?_
              simp [scopes, hvalue]
          | either =>
              refine (hpart "left").bind fun leftBranch h => .after fun leftVar => ?_
              refine (innerPart_yields hgood tag h "body").bind fun part h => ?_
              refine (hread h).bind fun onLeft hleft => ?_
              refine (hpart "right").bind fun rightBranch h => .after fun rightVar => ?_
              refine (innerPart_yields hgood tag h "body").bind fun part h => ?_
              refine (hread h).bind fun onRight hright => ?_
              refine (hpart "value").bind fun part h => (hread h).bind fun scrutinee hscrutinee => ?_
              refine hbuilt trivial ?_
              simp [scopes, hscrutinee, hleft, hright]
          | cond =>
              refine (hpart "cond").bind fun part h => (hread h).bind fun test htest => ?_
              refine (hpart "then").bind fun part h => (hread h).bind fun yes hyes => ?_
              refine (hpart "else").bind fun part h => (hread h).bind fun no hno => ?_
              refine hbuilt trivial ?_
              simp [scopes, htest, hyes, hno]
          | apply =>
              refine .after fun name => .after fun operator => ?_
              refine (items_yields hgood tag hj "args").bind fun parts h => ?_
              refine (hitems h).bind fun args hargs => ?_
              -- The count of the arguments is checked here and nowhere else.
              split
              · exact yields_error _
              · rename_i hlength
                have hlength : args.length = operator.arity := Decidable.not_not.1 hlength
                exact hbuilt hlength (by simpa [scopes] using hargs)
          | seq =>
              refine (items_yields hgood tag hj "items").bind fun parts h => ?_
              refine (hitems h).bind fun items hitems => hbuilt trivial ?_
              simpa [scopes] using hitems
          | map =>
              refine .after fun name => (hpart "over").bind fun part h => ?_
              refine (hread h).bind fun source hsource => (hpart "body").bind fun part h => ?_
              refine (hread h).bind fun body hbody => hbuilt trivial ?_
              simp [scopes, hsource, hbody]
          | filter =>
              refine .after fun name => (hpart "over").bind fun part h => ?_
              refine (hread h).bind fun source hsource => (hpart "body").bind fun part h => ?_
              refine (hread h).bind fun body hbody => hbuilt trivial ?_
              simp [scopes, hsource, hbody]
          | choose =>
              refine (items_yields hgood tag hj "cases").bind fun parts hparts => ?_
              refine Yields.bind (Q := (∀ case ∈ ·, P (Case.body case))) ?_ ?_
              · apply yields_mapM
                intro case hcase
                refine .after fun targets => .after fun name => ?_
                refine (innerPart_yields hgood _ (hparts case hcase) "body").bind fun part h => ?_
                exact (hread h).bind fun body hbody => yields_pure.2 hbody
              · intro cases hcases
                refine (hpart "value").bind fun part h => ?_
                refine (hread h).bind fun scrutinee hscrutinee => ?_
                refine (hpart "otherwise").bind fun part h => ?_
                refine (hread h).bind fun otherwise hotherwise => hbuilt trivial ?_
                simpa [scopes, hscrutinee, hotherwise] using hcases
      · exact yields_error _

/-- An expression that has been read has all its operators saturated. -/
theorem read_saturated (j : Json) : Yields Saturated (read j) := by
  have hgood : Inherited fun _ => True := ⟨fun _ _ => trivial, fun _ _ => trivial⟩
  refine read_yields hgood (fun e hknown hscopes => saturated_iff.2 ⟨?_, hscopes⟩) j trivial
  rintro operator args rfl
  exact hknown

end Expr

/-! ### Evaluating what has been read

Of the errors that a node raises by itself, a wrong number of arguments is the only one that belongs
to loading, and a saturated operator does not raise it. -/

/-- An error that is still possible once the logic has been loaded. Logic that cannot be read,
    unknown operators, wrong numbers of arguments and settings are matters of loading; a cast to
    several brands fails only where such casts are not enabled. -/
def EvalError.AfterLoading (multiBrandCast : Bool) : EvalError → Prop
  | .unreadable _ => False
  | .unknownPrimitive _ => False
  | .arity _ _ _ => False
  | .config _ => False
  | .unsupportedCast _ => multiBrandCast = false
  | _ => True

theorem EvalError.AfterLoading.of_ofOperands {multiBrandCast : Bool} {error : EvalError}
    (h : error.OfOperands) : error.AfterLoading multiBrandCast := by
  cases h <;> trivial

namespace Expr

variable {registry : Registry} {limit depth : Nat} {ctx : Context} {e : Expr}

/-- A saturated expression never fails for a reason that belongs to loading, at whatever depth it is
    evaluated. -/
theorem evalAt_raisesOnly_of_saturated (h : e.Saturated) :
    RaisesOnly (EvalError.AfterLoading registry.multiBrandCast)
      (evalAt registry limit depth ctx e) := by
  refine (evalAt_errors_induction (P := fun _ e error => e.Saturated →
    error.AfterLoading registry.multiBrandCast) ?exceeded ?own ?unbound ?scope e).mono
      fun _ herror => herror h
  case exceeded => exact fun _ _ _ => trivial
  case own =>
    intro _ e error hown hsaturated
    cases hown with
    | operands hoperands => exact .of_ofOperands hoperands
    | arity he hlength => exact absurd ((saturated_iff.1 hsaturated).1 _ _ he) hlength
    | cast hmulti => exact hmulti
  case unbound => exact fun _ _ _ _ => trivial
  case scope =>
    intro _ e error scope hscope _ hchild hsaturated
    exact hchild ((saturated_iff.1 hsaturated).2 scope hscope)

/-- The evaluated arguments of a saturated operator are those that its meaning takes. -/
theorem run?_eq_some_of_evalItems {operator : Primitive} {args : List Expr} {values : List Value}
    (hargs : args.length = operator.arity)
    (hvalues : evalItems registry limit depth ctx args = .ok values) :
    ∃ result, operator.operation.run? values = some result := by
  have hlength : values.length = operator.arity := (length_of_evalItems hvalues).trans hargs
  exact Option.isSome_iff_exists.1 (operator.run?_isSome_iff.2 hlength)

/-- A saturated connective has the two operands that its evaluation looks at. -/
theorem exists_operands_of_decidedBy {operator : Primitive} {args : List Expr} {decisive : Bool}
    (hargs : args.length = operator.arity) (hoperator : operator.decidedBy? = some decisive) :
    ∃ first second, args = [first, second] := by
  rw [operator.arity_of_decidedBy hoperator] at hargs
  match args, hargs with
  | [first, second], _ => exact ⟨first, second, rfl⟩

end Expr

end ClauseEngine
