/-
Module: ClauseEngine.Proofs.Expr.Written
Purpose: The format of expressions, given by the fields that a node of each kind has. A document in this
  format is read as the expression it stands for, whatever further fields its nodes have. An
  expression whose operators have all their arguments has a written form, which is read back as the
  expression.
Main exports: Expr.Written, Expr.read_of_written, Expr.write, Expr.Writable, Expr.written_write,
  Expr.read_write
-/
import ClauseEngine.Expr.Reader
import ClauseEngine.Proofs.Result

namespace ClauseEngine

namespace Primitive

theorem mem_all (operator : Primitive) : operator ∈ all := by
  cases operator <;> decide

theorem find?_name : ∀ operator ∈ all, (all.find? fun p => p.name == operator.name) = some operator := by
  decide +kernel

/-- An operator is found by its name. -/
theorem ofName_name (operator : Primitive) : ofName operator.name = .ok operator := by
  rw [ofName, find?_name operator operator.mem_all]

end Primitive

namespace Expr

/-! ### The format

The format is a relation between documents and expressions with one rule per kind of node. Each rule
names the fields of the node and leaves all other fields open. -/

/-- A node of some kind. -/
def Tagged (j : Json) (node : Node) : Prop := j.get? "expr" = some (.string node.tag)

/-- The target brands of a node: a single one under its own name, or an array of them. -/
inductive WrittenBrands (j : Json) : List String → Prop
  | single {name : String} (h : j.get? "brand" = some (.string name)) : WrittenBrands j [name]
  | several {names : List String} (hnone : j.get? "brand" = none)
      (h : j.get? "brands" = some (.array (names.map .string))) : WrittenBrands j names

/-- A document stands for an expression. Each kind of node is given by the fields it has; a node may
    have others besides. -/
inductive Written : Json → Expr → Prop
  | const {j value : Json} {v : Value} (hnode : Tagged j .const)
      (hvalue : j.get? "value" = some value) (hdecode : Value.decode value = .ok v) :
      Written j (.const v)
  | var {j : Json} {name : String} (hnode : Tagged j .var)
      (hname : j.get? "name" = some (.string name)) : Written j (.var name)
  | bind {j value body : Json} {name : String} {v b : Expr} (hnode : Tagged j .bind)
      (hname : j.get? "name" = some (.string name)) (hvalue : j.get? "value" = some value)
      (hbody : j.get? "body" = some body) (hv : Written value v) (hb : Written body b) :
      Written j (.bind name v b)
  | dot {j target : Json} {field : String} {e : Expr} (hnode : Tagged j .dot)
      (htarget : j.get? "record" = some target) (hfield : j.get? "field" = some (.string field))
      (he : Written target e) : Written j (.dot e field)
  | record {j : Json} {parts : List (String × Json)} {fields : List (String × Expr)}
      (hnode : Tagged j .record) (hfields : j.get? "fields" = some (.object parts))
      (hlength : parts.length = fields.length)
      (hnames : ∀ pair ∈ parts.zip fields, pair.1.1 = pair.2.1)
      (h : ∀ pair ∈ parts.zip fields, Written pair.1.2 pair.2.2) : Written j (.record fields)
  | concat {j left right : Json} {a b : Expr} (hnode : Tagged j .concat)
      (hleft : j.get? "left" = some left) (hright : j.get? "right" = some right)
      (ha : Written left a) (hb : Written right b) : Written j (.concat a b)
  | brand {j value : Json} {name : String} {v : Expr} (hnode : Tagged j .brand)
      (hname : j.get? "brand" = some (.string name)) (hvalue : j.get? "value" = some value)
      (hv : Written value v) : Written j (.brand name v)
  | unbrand {j value : Json} {v : Expr} (hnode : Tagged j .unbrand)
      (hvalue : j.get? "value" = some value) (hv : Written value v) : Written j (.unbrand v)
  | cast {j value : Json} {brands : List String} {v : Expr} (hnode : Tagged j .cast)
      (hbrands : WrittenBrands j brands) (hvalue : j.get? "value" = some value)
      (hv : Written value v) : Written j (.cast brands v)
  | left {j value : Json} {v : Expr} (hnode : Tagged j .left)
      (hvalue : j.get? "value" = some value) (hv : Written value v) : Written j (.left v)
  | right {j value : Json} {v : Expr} (hnode : Tagged j .right)
      (hvalue : j.get? "value" = some value) (hv : Written value v) : Written j (.right v)
  | either {j scrutinee left right onLeft onRight : Json} {leftVar rightVar : String} {s l r : Expr}
      (hnode : Tagged j .either) (hscrutinee : j.get? "value" = some scrutinee)
      (hleft : j.get? "left" = some left) (hleftVar : left.get? "var" = some (.string leftVar))
      (honLeft : left.get? "body" = some onLeft) (hright : j.get? "right" = some right)
      (hrightVar : right.get? "var" = some (.string rightVar))
      (honRight : right.get? "body" = some onRight) (hs : Written scrutinee s)
      (hl : Written onLeft l) (hr : Written onRight r) : Written j (.either s leftVar l rightVar r)
  | cond {j test yes no : Json} {t y n : Expr} (hnode : Tagged j .cond)
      (htest : j.get? "cond" = some test) (hyes : j.get? "then" = some yes)
      (hno : j.get? "else" = some no) (ht : Written test t) (hy : Written yes y)
      (hn : Written no n) : Written j (.cond t y n)
  | apply {j : Json} {operator : Primitive} {items : List Json} {args : List Expr}
      (hnode : Tagged j .apply) (hoperator : j.get? "op" = some (.string operator.name))
      (hargs : j.get? "args" = some (.array items)) (hlength : items.length = args.length)
      (harity : args.length = operator.arity) (h : ∀ pair ∈ items.zip args, Written pair.1 pair.2) :
      Written j (.apply operator args)
  | seq {j : Json} {items : List Json} {es : List Expr} (hnode : Tagged j .seq)
      (hitems : j.get? "items" = some (.array items)) (hlength : items.length = es.length)
      (h : ∀ pair ∈ items.zip es, Written pair.1 pair.2) : Written j (.seq es)
  | map {j source body : Json} {name : String} {s b : Expr} (hnode : Tagged j .map)
      (hname : j.get? "var" = some (.string name)) (hsource : j.get? "over" = some source)
      (hbody : j.get? "body" = some body) (hs : Written source s) (hb : Written body b) :
      Written j (.map name s b)
  | filter {j source body : Json} {name : String} {s b : Expr} (hnode : Tagged j .filter)
      (hname : j.get? "var" = some (.string name)) (hsource : j.get? "over" = some source)
      (hbody : j.get? "body" = some body) (hs : Written source s) (hb : Written body b) :
      Written j (.filter name s b)
  | choose {j scrutinee otherwise : Json} {items : List Json} {s o : Expr} {cases : List (Case Expr)}
      (hnode : Tagged j .choose) (hscrutinee : j.get? "value" = some scrutinee)
      (hcases : j.get? "cases" = some (.array items))
      (hotherwise : j.get? "otherwise" = some otherwise) (hlength : items.length = cases.length)
      (hcase : ∀ pair ∈ items.zip cases, WrittenBrands pair.1 pair.2.brands ∧
        pair.1.get? "var" = some (.string pair.2.var) ∧ (pair.1.get? "body").isSome)
      (hs : Written scrutinee s) (ho : Written otherwise o)
      (hbody : ∀ pair ∈ items.zip cases, ∀ body, pair.1.get? "body" = some body →
        Written body pair.2.body) :
      Written j (.choose s cases o)

/-! ### Reading what is written

The reader asks for the fields that the rules name. The induction is on the derivation, and the
reader unfolds by the tag of the node. -/

namespace Node

/-- The tag of a kind of node finds that kind. -/
theorem ofTag?_tag (node : Node) : ofTag? node.tag = some node := by
  cases node <;> rfl

end Node

/-- Steps that give the values of a list, one by one, give the list. -/
theorem mapM_eq_ok {α β : Type} {f : α → Result β} {items : List α} {values : List β}
    (hlength : items.length = values.length)
    (h : ∀ pair ∈ items.zip values, f pair.1 = .ok pair.2) : items.mapM f = .ok values :=
  mapM_eq_ok_iff.2 (List.forall₂_iff_zip.2 ⟨hlength, fun hpair => h _ hpair⟩)

namespace Reader

variable {node name : String} {j value : Json}

/-- A field that is there is found as a part. -/
theorem part_of_get? (h : j.get? name = some value) :
    part node j name = .ok ⟨value, Json.size_lt_of_get? h⟩ := by
  unfold part Json.part?
  split
  · rename_i found hfound
    split at hfound
    · rename_i hget
      rw [h] at hget
      cases hget
      cases hfound
      rfl
    · cases hfound
  · rename_i hnone
    split at hnone
    · cases hnone
    · rename_i hget
      rw [h] at hget
      cases hget

theorem innerPart_of_get? {outer : Json} (houter : outer.size < j.size)
    (h : outer.get? name = some value) :
    innerPart node (⟨outer, houter⟩ : j.Part) name =
      .ok ⟨value, Nat.lt_trans (Json.size_lt_of_get? h) houter⟩ := by
  rw [innerPart, part_of_get? h]
  rfl

theorem string_of_get? {s : String} (h : j.get? name = some (.string s)) :
    string node j name = .ok s := by
  rw [string, part_of_get? h]
  rfl

/-- The items of an array are found as parts, in their order. -/
theorem items_of_get? (node : String) {items : List Json}
    (h : j.get? name = some (.array items)) :
    ∃ parts, Reader.items node j name = .ok parts ∧ parts.map (·.1) = items := by
  rw [Reader.items, part_of_get? h]
  refine ⟨_, rfl, ?_⟩
  simp

/-- The items of an array, read one by one. -/
theorem mapM_items {α : Type} {f : Json → Result α} (node : String) {items : List Json}
    {values : List α} (h : j.get? name = some (.array items))
    (hlength : items.length = values.length)
    (hread : ∀ pair ∈ items.zip values, f pair.1 = .ok pair.2) :
    ∃ parts, Reader.items node j name = .ok parts ∧
      parts.mapM (fun part => f part.1) = .ok values := by
  obtain ⟨parts, hparts, rfl⟩ := items_of_get? node h
  have hvalues := mapM_eq_ok hlength hread
  rw [List.mapM_map] at hvalues
  exact ⟨parts, hparts, hvalues⟩

/-- The fields of an object, read one by one. -/
theorem mapM_entries {α : Type} {f : String × Json → Result α} (node : String)
    {fields : List (String × Json)} {values : List α} (h : j.get? name = some (.object fields))
    (hlength : fields.length = values.length)
    (hread : ∀ pair ∈ fields.zip values, f pair.1 = .ok pair.2) :
    ∃ parts, entries node j name = .ok parts ∧
      parts.mapM (fun part => f (part.1, part.2.1)) = .ok values := by
  rw [entries, part_of_get? h]
  refine ⟨_, rfl, ?_⟩
  rw [List.mapM_map, List.mapM_map]
  have hvalues := mapM_eq_ok hlength hread
  rw [← List.attach_map_subtype_val fields, List.mapM_map] at hvalues
  exact hvalues

theorem mapM_string? (names : List String) :
    (names.map Json.string).mapM Json.string? = some names := by
  induction names with
  | nil => rfl
  | cons name rest ih => simp [Json.string?, ih]

/-- Target brands are read alone or from an array. -/
theorem brands_of_written {names : List String} (h : WrittenBrands j names) :
    brands node j = .ok names := by
  cases h with
  | single h =>
      rw [brands, h]
      rfl
  | several hnone h =>
      rw [brands, hnone]
      dsimp only
      rw [part_of_get? h]
      simp only [ok_bind, Json.array?, Option.bind_some, mapM_string?]
      rfl

end Reader

/-- Reading a node starts with its tag. -/
theorem tag_of_tagged {j : Json} {node : Node} (h : Tagged j node) :
    (j.get? "expr").bind Json.string? = some node.tag := by
  rw [h]
  rfl

open Reader in
/-- What is written is read. -/
theorem read_of_written {j : Json} {e : Expr} (h : Written j e) : read j = .ok e := by
  induction h with
  | const hnode hvalue hdecode =>
      rw [read, tag_of_tagged hnode]
      simp only [pure_bind, Node.ofTag?_tag, part_of_get? hvalue, ok_bind, hdecode]
      rfl
  | var hnode hname =>
      rw [read, tag_of_tagged hnode]
      simp only [pure_bind, Node.ofTag?_tag, string_of_get? hname, ok_bind]
      rfl
  | bind hnode hname hvalue hbody _ _ hv hb =>
      rw [read, tag_of_tagged hnode]
      simp only [pure_bind, Node.ofTag?_tag, string_of_get? hname, part_of_get? hvalue,
        part_of_get? hbody, ok_bind, hv, hb]
      rfl
  | dot hnode htarget hfield _ he =>
      rw [read, tag_of_tagged hnode]
      simp only [pure_bind, Node.ofTag?_tag, part_of_get? htarget, string_of_get? hfield, ok_bind, he]
      rfl
  | record hnode hfields hlength hnames _ ih =>
      rw [read, tag_of_tagged hnode]
      obtain ⟨parts, hparts, hread⟩ := mapM_entries Node.record.tag
        (f := fun field => do return (field.1, ← read field.2)) hfields hlength (by
          intro pair hpair
          rw [ih pair hpair, hnames pair hpair]
          rfl)
      simp only [pure_bind, Node.ofTag?_tag, hparts, ok_bind, hread]
      rfl
  | concat hnode hleft hright _ _ ha hb =>
      rw [read, tag_of_tagged hnode]
      simp only [pure_bind, Node.ofTag?_tag, part_of_get? hleft, part_of_get? hright, ok_bind, ha, hb]
      rfl
  | brand hnode hname hvalue _ hv =>
      rw [read, tag_of_tagged hnode]
      simp only [pure_bind, Node.ofTag?_tag, string_of_get? hname, part_of_get? hvalue, ok_bind, hv]
      rfl
  | unbrand hnode hvalue _ hv =>
      rw [read, tag_of_tagged hnode]
      simp only [pure_bind, Node.ofTag?_tag, part_of_get? hvalue, ok_bind, hv]
      rfl
  | cast hnode hbrands hvalue _ hv =>
      rw [read, tag_of_tagged hnode]
      simp only [pure_bind, Node.ofTag?_tag, brands_of_written hbrands, part_of_get? hvalue, ok_bind,
        hv]
      rfl
  | left hnode hvalue _ hv =>
      rw [read, tag_of_tagged hnode]
      simp only [pure_bind, Node.ofTag?_tag, part_of_get? hvalue, ok_bind, hv]
      rfl
  | right hnode hvalue _ hv =>
      rw [read, tag_of_tagged hnode]
      simp only [pure_bind, Node.ofTag?_tag, part_of_get? hvalue, ok_bind, hv]
      rfl
  | either hnode hscrutinee hleft hleftVar honLeft hright hrightVar honRight _ _ _ hs hl hr =>
      rw [read, tag_of_tagged hnode]
      simp only [pure_bind, Node.ofTag?_tag, part_of_get? hleft, string_of_get? hleftVar,
        innerPart_of_get? _ honLeft, part_of_get? hright, string_of_get? hrightVar,
        innerPart_of_get? _ honRight, part_of_get? hscrutinee, ok_bind, hs, hl, hr]
      rfl
  | cond hnode htest hyes hno _ _ _ ht hy hn =>
      rw [read, tag_of_tagged hnode]
      simp only [pure_bind, Node.ofTag?_tag, part_of_get? htest, part_of_get? hyes, part_of_get? hno,
        ok_bind, ht, hy, hn]
      rfl
  | apply hnode hoperator hargs hlength harity _ ih =>
      rw [read, tag_of_tagged hnode]
      obtain ⟨parts, hparts, hread⟩ := mapM_items Node.apply.tag hargs hlength ih
      simp only [pure_bind, Node.ofTag?_tag, string_of_get? hoperator, Primitive.ofName_name, hparts,
        ok_bind, hread, harity]
      simp
      rfl
  | seq hnode hitems hlength _ ih =>
      rw [read, tag_of_tagged hnode]
      obtain ⟨parts, hparts, hread⟩ := mapM_items Node.seq.tag hitems hlength ih
      simp only [pure_bind, Node.ofTag?_tag, hparts, ok_bind, hread]
      rfl
  | map hnode hname hsource hbody _ _ hs hb =>
      rw [read, tag_of_tagged hnode]
      simp only [pure_bind, Node.ofTag?_tag, string_of_get? hname, part_of_get? hsource,
        part_of_get? hbody, ok_bind, hs, hb]
      rfl
  | filter hnode hname hsource hbody _ _ hs hb =>
      rw [read, tag_of_tagged hnode]
      simp only [pure_bind, Node.ofTag?_tag, string_of_get? hname, part_of_get? hsource,
        part_of_get? hbody, ok_bind, hs, hb]
      rfl
  | @choose _ _ _ _ _ _ cases hnode hscrutinee hcases hotherwise hlength hcase _ _ _ hs ho ih =>
      rw [read, tag_of_tagged hnode]
      obtain ⟨parts, hparts, rfl⟩ := items_of_get? Node.choose.tag hcases
      rw [List.zip_map_left, List.forall_mem_map] at hcase ih
      have hread : parts.mapM (fun case => do
          let targets ← brands "match case" case.1
          let name ← string "match case" case.1 "var"
          let body ← innerPart "match case" case "body"
          return (⟨targets, name, ← read body.1⟩ : Case Expr)) = .ok cases := by
        apply mapM_eq_ok (by simpa using hlength)
        rintro ⟨⟨item, hitem⟩, case⟩ hpair
        obtain ⟨hbrands, hvar, hbody⟩ := hcase _ hpair
        obtain ⟨body, hbody⟩ := Option.isSome_iff_exists.1 hbody
        have hread := ih _ hpair body hbody
        dsimp only [Prod.map, id] at hbrands hvar hbody hread
        simp only [brands_of_written hbrands, string_of_get? hvar, innerPart_of_get? hitem hbody,
          ok_bind, hread]
        rfl
      simp only [pure_bind, Node.ofTag?_tag, hparts, ok_bind, part_of_get? hscrutinee,
        part_of_get? hotherwise, hs, ho, hread]
      rfl

/-! ### Writing

The written form has exactly the fields of the rules, in ascending order of their names. -/

/-- The fields of target brands. -/
def writeBrands : List String → List (String × Json)
  | [name] => [("brand", .string name)]
  | names => [("brands", .array (names.map .string))]

mutual

/-- The written form of an expression. -/
def write : Expr → Json
  | .const value => .object [("expr", .string Node.const.tag), ("value", value.encode)]
  | .var name => .object [("expr", .string Node.var.tag), ("name", .string name)]
  | .bind name value body =>
      .object [("body", body.write), ("expr", .string Node.bind.tag), ("name", .string name),
        ("value", value.write)]
  | .dot target field =>
      .object [("expr", .string Node.dot.tag), ("field", .string field), ("record", target.write)]
  | .record fields =>
      .object [("expr", .string Node.record.tag), ("fields", .object (writeFields fields))]
  | .concat first second =>
      .object [("expr", .string Node.concat.tag), ("left", first.write), ("right", second.write)]
  | .brand name value =>
      .object [("brand", .string name), ("expr", .string Node.brand.tag), ("value", value.write)]
  | .unbrand value => .object [("expr", .string Node.unbrand.tag), ("value", value.write)]
  | .cast brands value =>
      .object (writeBrands brands ++ [("expr", .string Node.cast.tag), ("value", value.write)])
  | .left value => .object [("expr", .string Node.left.tag), ("value", value.write)]
  | .right value => .object [("expr", .string Node.right.tag), ("value", value.write)]
  | .either scrutinee leftVar onLeft rightVar onRight =>
      .object [("expr", .string Node.either.tag),
        ("left", .object [("body", onLeft.write), ("var", .string leftVar)]),
        ("right", .object [("body", onRight.write), ("var", .string rightVar)]),
        ("value", scrutinee.write)]
  | .cond test yes no =>
      .object [("cond", test.write), ("else", no.write), ("expr", .string Node.cond.tag),
        ("then", yes.write)]
  | .apply operator args =>
      .object [("args", .array (writeItems args)), ("expr", .string Node.apply.tag),
        ("op", .string operator.name)]
  | .seq items => .object [("expr", .string Node.seq.tag), ("items", .array (writeItems items))]
  | .map name source body =>
      .object [("body", body.write), ("expr", .string Node.map.tag), ("over", source.write),
        ("var", .string name)]
  | .filter name source body =>
      .object [("body", body.write), ("expr", .string Node.filter.tag), ("over", source.write),
        ("var", .string name)]
  | .choose scrutinee cases otherwise =>
      .object [("cases", .array (writeCases cases)), ("expr", .string Node.choose.tag),
        ("otherwise", otherwise.write), ("value", scrutinee.write)]

def writeItems : List Expr → List Json
  | [] => []
  | item :: rest => item.write :: writeItems rest

def writeFields : List (String × Expr) → List (String × Json)
  | [] => []
  | (name, value) :: rest => (name, value.write) :: writeFields rest

def writeCases : List (Case Expr) → List Json
  | [] => []
  | ⟨brands, name, body⟩ :: rest =>
      .object (("body", body.write) :: writeBrands brands ++ [("var", .string name)]) ::
        writeCases rest

end

mutual

/-- An expression has a written form: constants come back from the wire, the names of record fields
    ascend, and operators have as many arguments as they take. -/
def Writable : Expr → Prop
  | .const value => Value.decode value.encode = .ok value
  | .var _ => True
  | .bind _ value body => value.Writable ∧ body.Writable
  | .dot target _ => target.Writable
  | .record fields => Fields.Ordered fields ∧ WritableFields fields
  | .concat first second => first.Writable ∧ second.Writable
  | .brand _ value => value.Writable
  | .unbrand value => value.Writable
  | .cast _ value => value.Writable
  | .left value => value.Writable
  | .right value => value.Writable
  | .either scrutinee _ onLeft _ onRight =>
      scrutinee.Writable ∧ onLeft.Writable ∧ onRight.Writable
  | .cond test yes no => test.Writable ∧ yes.Writable ∧ no.Writable
  | .apply operator args => args.length = operator.arity ∧ WritableItems args
  | .seq items => WritableItems items
  | .map _ source body => source.Writable ∧ body.Writable
  | .filter _ source body => source.Writable ∧ body.Writable
  | .choose scrutinee cases otherwise =>
      scrutinee.Writable ∧ WritableCases cases ∧ otherwise.Writable

def WritableItems : List Expr → Prop
  | [] => True
  | item :: rest => item.Writable ∧ WritableItems rest

def WritableFields : List (String × Expr) → Prop
  | [] => True
  | (_, value) :: rest => value.Writable ∧ WritableFields rest

def WritableCases : List (Case Expr) → Prop
  | [] => True
  | ⟨_, _, body⟩ :: rest => body.Writable ∧ WritableCases rest

end

@[simp] theorem length_writeItems (items : List Expr) : (writeItems items).length = items.length := by
  induction items with
  | nil => rfl
  | cons item rest ih => simp [writeItems, ih]

@[simp] theorem length_writeFields (fields : List (String × Expr)) :
    (writeFields fields).length = fields.length := by
  induction fields with
  | nil => rfl
  | cons field rest ih => simp [writeFields, ih]

@[simp] theorem length_writeCases (cases : List (Case Expr)) :
    (writeCases cases).length = cases.length := by
  induction cases with
  | nil => rfl
  | cons case rest ih => simp [writeCases, ih]

/-- A field keeps its name when it is written. -/
theorem fst_eq_of_mem_writeFields {fields : List (String × Expr)}
    {pair : (String × Json) × String × Expr} (h : pair ∈ (writeFields fields).zip fields) :
    pair.1.1 = pair.2.1 := by
  induction fields with
  | nil => simp [writeFields] at h
  | cons field rest ih =>
      rw [writeFields, List.zip_cons_cons] at h
      rcases List.mem_cons.1 h with rfl | h
      · rfl
      · exact ih h

/-- A single brand is written alone, and any other number of brands in an array. -/
theorem writeBrands_cases (brands : List String) :
    (∃ name, brands = [name] ∧ writeBrands brands = [("brand", .string name)]) ∨
      writeBrands brands = [("brands", .array (brands.map .string))] := by
  unfold writeBrands
  split
  · exact .inl ⟨_, rfl, rfl⟩
  · exact .inr rfl

/-- A case has its brands, its variable and its body. -/
theorem written_case (brands : List String) (name : String) (body : Json) :
    WrittenBrands (.object (("body", body) :: writeBrands brands ++ [("var", .string name)])) brands ∧
      (Json.object (("body", body) :: writeBrands brands ++ [("var", .string name)])).get? "var" =
        some (.string name) ∧
      (Json.object (("body", body) :: writeBrands brands ++ [("var", .string name)])).get? "body" =
        some body := by
  rcases writeBrands_cases brands with ⟨single, rfl, hbrands⟩ | hbrands
  · rw [hbrands]
    exact ⟨.single rfl, rfl, rfl⟩
  · rw [hbrands]
    exact ⟨.several rfl rfl, rfl, rfl⟩

theorem writtenBrands_of_mem_writeCases {cases : List (Case Expr)} {pair : Json × Case Expr}
    (h : pair ∈ (writeCases cases).zip cases) : WrittenBrands pair.1 pair.2.brands ∧
      pair.1.get? "var" = some (.string pair.2.var) ∧ (pair.1.get? "body").isSome := by
  induction cases with
  | nil => simp [writeCases] at h
  | cons case rest ih =>
      rw [writeCases, List.zip_cons_cons] at h
      rcases List.mem_cons.1 h with rfl | h
      · obtain ⟨hbrands, hvar, hbody⟩ := written_case case.brands case.var case.body.write
        exact ⟨hbrands, hvar, by rw [hbody]; rfl⟩
      · exact ih h

mutual

/-- The written form of an expression stands for that expression, if it can be written. -/
theorem written_write : ∀ e : Expr, e.Writable → Written e.write e
  | .const _, h => .const rfl rfl h
  | .var _, _ => .var rfl rfl
  | .bind _ value body, h => .bind rfl rfl rfl rfl (written_write value h.1) (written_write body h.2)
  | .dot target _, h => .dot rfl rfl rfl (written_write target h)
  | .record fields, h =>
      .record rfl rfl (length_writeFields fields) (fun _ => fst_eq_of_mem_writeFields)
        (written_writeFields fields h.2)
  | .concat first second, h => .concat rfl rfl rfl (written_write first h.1) (written_write second h.2)
  | .brand _ value, h => .brand rfl rfl rfl (written_write value h)
  | .unbrand value, h => .unbrand rfl rfl (written_write value h)
  | .cast brands value, h => by
      rw [write]
      rcases writeBrands_cases brands with ⟨name, rfl, hbrands⟩ | hbrands
      · rw [hbrands]
        exact .cast rfl (.single rfl) rfl (written_write value h)
      · rw [hbrands]
        exact .cast rfl (.several rfl rfl) rfl (written_write value h)
  | .left value, h => .left rfl rfl (written_write value h)
  | .right value, h => .right rfl rfl (written_write value h)
  | .either scrutinee _ onLeft _ onRight, h =>
      .either rfl rfl rfl rfl rfl rfl rfl rfl (written_write scrutinee h.1)
        (written_write onLeft h.2.1) (written_write onRight h.2.2)
  | .cond test yes no, h =>
      .cond rfl rfl rfl rfl (written_write test h.1) (written_write yes h.2.1) (written_write no h.2.2)
  | .apply _ args, h =>
      .apply rfl rfl rfl (length_writeItems args) h.1 (written_writeItems args h.2)
  | .seq items, h => .seq rfl rfl (length_writeItems items) (written_writeItems items h)
  | .map _ source body, h => .map rfl rfl rfl rfl (written_write source h.1) (written_write body h.2)
  | .filter _ source body, h =>
      .filter rfl rfl rfl rfl (written_write source h.1) (written_write body h.2)
  | .choose scrutinee cases otherwise, h =>
      .choose rfl rfl rfl rfl (length_writeCases cases) (fun _ => writtenBrands_of_mem_writeCases)
        (written_write scrutinee h.1) (written_write otherwise h.2.2)
        (written_writeCases cases h.2.1)

theorem written_writeItems : ∀ items : List Expr, WritableItems items →
    ∀ pair ∈ (writeItems items).zip items, Written pair.1 pair.2
  | [], _, _, hpair => by simp [writeItems] at hpair
  | item :: rest, h, pair, hpair => by
      rw [writeItems, List.zip_cons_cons] at hpair
      rcases List.mem_cons.1 hpair with rfl | hpair
      · exact written_write item h.1
      · exact written_writeItems rest h.2 pair hpair

theorem written_writeFields : ∀ fields : List (String × Expr), WritableFields fields →
    ∀ pair ∈ (writeFields fields).zip fields, Written pair.1.2 pair.2.2
  | [], _, _, hpair => by simp [writeFields] at hpair
  | (_, value) :: rest, h, pair, hpair => by
      rw [writeFields, List.zip_cons_cons] at hpair
      rcases List.mem_cons.1 hpair with rfl | hpair
      · exact written_write value h.1
      · exact written_writeFields rest h.2 pair hpair

theorem written_writeCases : ∀ cases : List (Case Expr), WritableCases cases →
    ∀ pair ∈ (writeCases cases).zip cases, ∀ body, pair.1.get? "body" = some body →
      Written body pair.2.body
  | [], _, _, hpair, _, _ => by simp [writeCases] at hpair
  | ⟨brands, name, body⟩ :: rest, h, pair, hpair, found, hfound => by
      rw [writeCases, List.zip_cons_cons] at hpair
      rcases List.mem_cons.1 hpair with rfl | hpair
      · rw [(written_case brands name body.write).2.2] at hfound
        cases hfound
        exact written_write body h.1
      · exact written_writeCases rest h.2 pair hpair found hfound

end

/-- What has been written is read back. -/
theorem read_write {e : Expr} (h : e.Writable) : read e.write = .ok e :=
  read_of_written (written_write e h)

end Expr

end ClauseEngine
