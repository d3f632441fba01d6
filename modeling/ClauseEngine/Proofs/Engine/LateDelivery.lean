/-
Module: ClauseEngine.Proofs.Engine.LateDelivery
Purpose: A whole contract. The clause on late delivery and penalty is given as the bundle that its
  compiler writes, and what it does is worked out for all its inputs: a claim before the agreed
  delivery is refused, one excused by force majeure costs nothing, and any other costs a penalty up
  to a cap and may end the contract. Whoever runs it sees no error.
Main exports: LateDelivery.document, LateDelivery.engine, LateDelivery.load_document,
  LateDelivery.Terms, LateDelivery.Delivery, LateDelivery.body_comesTo,
  LateDelivery.penalty_le_cap, LateDelivery.invoke_lateDelivery
-/
import ClauseEngine.Proofs.Double.Order
import ClauseEngine.Proofs.Duration
import ClauseEngine.Proofs.Engine.Dispatch
import ClauseEngine.Proofs.Expr.Values
import ClauseEngine.Proofs.Expr.Variables
import ClauseEngine.Proofs.Expr.Written

namespace ClauseEngine

namespace LateDelivery

/-! ### The bundle

The clause is built up from its parts, which have the names of the quantities they compute. The
document of the bundle is the written form of the clause among its declarations. -/

def clauseName : String := "latedeliveryandpenalty"

def requestBrand : String :=
  "org.accordproject.latedeliveryandpenalty.LateDeliveryAndPenaltyRequest"

def responseBrand : String :=
  "org.accordproject.latedeliveryandpenalty.LateDeliveryAndPenaltyResponse"

/-- The message of a claim that comes too early. -/
def tooEarly : String := "Cannot exercise late delivery before delivery date"

def hundred : Double := ⟨0x4059000000000000⟩

/-- A field of the request, once its brand is off. -/
def ofRequest (field : String) : Expr := .dot (.var "req") field

/-- A parameter of the contract, once its brand is off. -/
def ofContract (field : String) : Expr := .dot (.var "params") field

def isTooEarly : Expr :=
  .apply .not [.apply .dateTimeIsAfter [.var "now", ofRequest "agreedDelivery"]]

def refusal : Expr :=
  .right (.brand Config.standardErrorBrand (.record [("message", .const (.str tooEarly))]))

def isExcused : Expr := .apply .or [ofContract "forceMajeure", ofRequest "forceMajeure"]

def respond (mayTerminate penalty : Expr) : Expr :=
  .left (.record [("response",
    .brand responseBrand (.record [("buyerMayTerminate", mayTerminate), ("penalty", penalty)]))])

def late : Expr := .apply .dateTimeDiff [.var "now", ofRequest "agreedDelivery"]

def lateInUnit : Expr :=
  .apply .durationConvert [.apply .durationUnit [ofContract "penaltyDuration"], .var "late"]

/-- The number of an amount. -/
def amount (duration : Expr) : Expr := .apply .floatOfNat [.apply .durationAmount [duration]]

def penalty : Expr :=
  .apply .floatMult [
    .apply .floatDiv [
      .apply .floatMult [
        .apply .floatDiv [amount (.var "lateInUnit"), amount (ofContract "penaltyDuration")],
        ofContract "penaltyPercentage"],
      .const (.float hundred)],
    ofRequest "goodsValue"]

def cap : Expr :=
  .apply .floatMult [
    .apply .floatDiv [ofContract "capPercentage", .const (.float hundred)],
    ofRequest "goodsValue"]

def terminate : Expr :=
  .apply .equal [
    .apply .durationCompare [.var "late", ofContract "termination"],
    .const (.nat 1)]

/-- The answer to a claim that is neither too early nor excused. -/
def assessment : Expr :=
  .bind "late" late <|
  .bind "lateInUnit" lateInUnit <|
  .bind "penalty" penalty <|
  .bind "cap" cap <|
  .bind "terminate" terminate <|
  respond (.var "terminate") (.apply .floatMin [.var "penalty", .var "cap"])

def decision : Expr :=
  .cond isTooEarly refusal <|
  .cond isExcused (respond (.const (.bool true)) (.const (.float Double.zero))) assessment

def body : Expr :=
  .bind "req" (.unbrand (.var "request")) <|
  .bind "params" (.unbrand (.var "contract")) decision

/-- The declared sub-brands, each with what it is below. -/
def edges : List (String × String) :=
  [(requestBrand, "org.accordproject.cicero.runtime.Request"),
   (requestBrand, "org.accordproject.base.Transaction"),
   ("org.accordproject.cicero.runtime.Request", "org.accordproject.base.Transaction"),
   (responseBrand, "org.accordproject.cicero.runtime.Response"),
   ("org.accordproject.latedeliveryandpenalty.LateDeliveryAndPenaltyContract",
    "org.accordproject.cicero.contract.AccordContract")]

def subtypeConstruct (edge : String × String) : Json :=
  .object [("kind", .string "Subtype"), ("sub", .string edge.1), ("sup", .string edge.2)]

def clauseConstruct : Json :=
  .object [("body", body.write), ("id", .string clauseName), ("kind", .string "Clause"),
    ("provenance", .object [("file", .string "logic/logic.ergo"), ("line", .int 24)]),
    ("request", .string requestBrand)]

/-- The bundle of the contract. -/
def document : Json :=
  .object [("accord", .string "1.0"),
    ("constructs", .array (edges.map subtypeConstruct ++ [clauseConstruct])),
    ("id", .string "org.accordproject.latedeliveryandpenalty@0.1.0")]

/-- The contract, ready to serve calls. -/
def engine : Engine where
  id := "org.accordproject.latedeliveryandpenalty@0.1.0"
  clauses := [⟨clauseName, requestBrand, body⟩]
  initBody := none
  registry := Registry.ofEdges edges .declared false
  errorBrand := Config.standardErrorBrand
  maxDepth := 512

/-! ### Loading

The body is read back from its written form by the round trip for expressions, so that nothing is
evaluated to see that the bundle loads. -/

theorem ordered_response {α : Type} (mayTerminate penalty : α) :
    Fields.Ordered [("buyerMayTerminate", mayTerminate), ("penalty", penalty)] := by
  have hnames : "buyerMayTerminate" < "penalty" := by decide
  simpa [Fields.Ordered] using hnames

theorem ordered_single {α : Type} (name : String) (value : α) : Fields.Ordered [(name, value)] :=
  List.pairwise_singleton _ _

/-- The body can be written: its records have their fields in order, its operators their arguments,
    and its constants survive the wire. -/
theorem writable_body : body.Writable := by
  have hmessage := Value.decode_encode (.str tooEarly) trivial
  have htrue := Value.decode_encode (.bool true) trivial
  have hzero := Value.decode_float (x := Double.zero) (by decide)
  have hhundred := Value.decode_float (x := hundred) (by decide)
  have hone := Value.decode_nat 1
  simp [body, decision, isTooEarly, refusal, isExcused, assessment, respond, late, lateInUnit, penalty, cap,
    terminate, amount, ofRequest, ofContract, Expr.Writable, Expr.WritableItems, Expr.WritableFields,
    Primitive.arity, hmessage, htrue, hzero, hhundred, hone,
    ordered_response, ordered_single]

/-- The bundle is read as its edges and its clause. -/
theorem read_document : Contract.read document =
    .ok ⟨engine.id, engine.clauses, engine.initBody, edges, none⟩ := by
  have hbundle : Bundle.read document = .ok ⟨engine.id,
      edges.map (fun edge => .subtype edge.1 edge.2) ++
        [.clause ⟨clauseName, requestBrand, body.write, some ⟨"logic/logic.ergo", 24⟩⟩]⟩ := rfl
  have hclause : Contract.readClause
      ⟨clauseName, requestBrand, body.write, some ⟨"logic/logic.ergo", 24⟩⟩ =
        .ok ⟨clauseName, requestBrand, body⟩ := by
    rw [Contract.readClause, Expr.read_write writable_body]
    rfl
  rw [Contract.read, hbundle]
  show (do
    let clauses ← [_].mapM Contract.readClause
    return (⟨engine.id, clauses, none, edges, none⟩ : Contract) : Result Contract) = _
  rw [List.mapM_cons, hclause]
  rfl

/-- Under the default settings the bundle loads to the engine. -/
theorem load_document : Engine.load document Config.standard = .ok engine := by
  rw [Engine.load, read_document]
  rfl

/-! ### The rule

What the contract promises, said with numbers and date-times and without reference to its body. -/

/-- What a contract says about late deliveries. -/
structure Terms where
  forceMajeure : Bool
  penaltyDuration : Duration
  penaltyPercentage : Double
  capPercentage : Double
  termination : Duration

/-- What a request says about a delivery. -/
structure Delivery where
  forceMajeure : Bool
  agreedDelivery : DateTime
  goodsValue : Double

/-- The parameters of a contract hold its terms. Durations are any values that are read as such. -/
structure Terms.HeldBy (terms : Terms) (params : List (String × Value)) : Prop where
  forceMajeure : params.lookup "forceMajeure" = some (.bool terms.forceMajeure)
  penaltyDuration : ∃ v, params.lookup "penaltyDuration" = some v ∧
    Duration.ofValue v = .ok terms.penaltyDuration
  penaltyPercentage : params.lookup "penaltyPercentage" = some (.float terms.penaltyPercentage)
  capPercentage : params.lookup "capPercentage" = some (.float terms.capPercentage)
  termination : ∃ v, params.lookup "termination" = some v ∧
    Duration.ofValue v = .ok terms.termination

/-- The fields of a request hold its delivery. -/
structure Delivery.HeldBy (delivery : Delivery) (fields : List (String × Value)) : Prop where
  forceMajeure : fields.lookup "forceMajeure" = some (.bool delivery.forceMajeure)
  agreedDelivery : fields.lookup "agreedDelivery" = some (.dateTime delivery.agreedDelivery)
  goodsValue : fields.lookup "goodsValue" = some (.float delivery.goodsValue)

/-- The whole seconds by which a delivery is late. -/
def Delivery.secondsLate (delivery : Delivery) (now : DateTime) : Int :=
  now.secondsSince delivery.agreedDelivery

/-- The seconds after which the buyer may terminate. -/
def Terms.threshold (terms : Terms) : Int :=
  terms.termination.amount.toInt * terms.termination.unit.length

/-- So many percent of the value of the goods for each penalty duration, where only whole units of it
    count. -/
def Terms.penalty (terms : Terms) (delivery : Delivery) (now : DateTime) : Double :=
  let unitsLate := delivery.secondsLate now / terms.penaltyDuration.unit.length
  ((((Double.ofInt unitsLate).div (Double.ofInt terms.penaltyDuration.amount.toInt)).mul
    terms.penaltyPercentage).div hundred).mul delivery.goodsValue

/-- The greatest penalty: so many percent of the value of the goods. -/
def Terms.cap (terms : Terms) (delivery : Delivery) : Double :=
  (terms.capPercentage.div hundred).mul delivery.goodsValue

/-- The response to a claim. -/
def response (mayTerminate : Bool) (penalty : Double) : Value :=
  .branded responseBrand [("buyerMayTerminate", .bool mayTerminate), ("penalty", .float penalty)]

/-! ### The values of the parts

Each part of the body comes to the value of its quantity in every scope that has the inputs under
their names. Binding an intermediate result keeps such a scope, and no part depends on the registry
or on the limit. -/

/-- A scope has the current time, the fields of a request and the parameters of a contract under
    their names. -/
structure InScope (ctx : Context) (now : DateTime) (fields params : List (String × Value)) : Prop where
  now : ctx.lookup "now" = some (.dateTime now)
  request : ctx.lookup "req" = some (.record fields)
  contract : ctx.lookup "params" = some (.record params)

open ClauseEngine.Expr

variable {registry : Registry} {ctx : Context} {now : DateTime} {terms : Terms} {delivery : Delivery}
  {fields params : List (String × Value)} {field : String} {v : Value}

/-- A binding of another name keeps the inputs in scope. -/
theorem InScope.bind (h : InScope ctx now fields params) (name : String) (v : Value)
    (hname : name ∉ ["now", "req", "params"]) : InScope (ctx.bind name v) now fields params := by
  simp only [List.mem_cons, List.not_mem_nil, or_false, not_or] at hname
  obtain ⟨hnow, hreq, hparams⟩ := hname
  constructor
  · rw [Context.lookup_bind, if_neg (Ne.symm hnow)]
    exact h.now
  · rw [Context.lookup_bind, if_neg (Ne.symm hreq)]
    exact h.request
  · rw [Context.lookup_bind, if_neg (Ne.symm hparams)]
    exact h.contract

theorem ofRequest_comesTo (h : InScope ctx now fields params) (hfield : fields.lookup field = some v) :
    ComesTo registry ctx (ofRequest field) v :=
  (comesTo_var h.request).dot hfield

theorem ofContract_comesTo (h : InScope ctx now fields params)
    (hfield : params.lookup field = some v) : ComesTo registry ctx (ofContract field) v :=
  (comesTo_var h.contract).dot hfield

/-- A claim is too early unless the current time is after the agreed delivery. -/
theorem isTooEarly_comesTo (h : InScope ctx now fields params) (hdelivery : delivery.HeldBy fields) :
    ComesTo registry ctx isTooEarly
      (.bool (decide (now.instant ≤ delivery.agreedDelivery.instant))) := by
  have hagreed : ComesTo registry ctx (ofRequest "agreedDelivery") _ :=
    ofRequest_comesTo h hdelivery.agreedDelivery
  have hafter : ComesTo registry ctx (.apply .dateTimeIsAfter [.var "now", ofRequest "agreedDelivery"])
      (.bool (now.order delivery.agreedDelivery).isGT) :=
    .apply rfl (.cons (comesTo_var h.now) (.cons hagreed .nil)) rfl
  have hnot : (!(now.order delivery.agreedDelivery).isGT) =
      decide (now.instant ≤ delivery.agreedDelivery.instant) := by
    rw [Bool.eq_iff_iff, decide_eq_true_iff, Bool.not_eq_true', ← Int.not_lt, DateTime.order,
      ← Bool.not_eq_true, Ordering.isGT_iff_eq_gt, compare_gt_iff_gt]
  rw [← hnot]
  exact .apply rfl (.cons hafter .nil) rfl

/-- Force majeure on either side is an excuse. -/
theorem isExcused_comesTo (h : InScope ctx now fields params) (hterms : terms.HeldBy params)
    (hdelivery : delivery.HeldBy fields) :
    ComesTo registry ctx isExcused (.bool (terms.forceMajeure || delivery.forceMajeure)) := by
  have hor : (terms.forceMajeure || delivery.forceMajeure) =
      if terms.forceMajeure = true then true else delivery.forceMajeure := by
    cases terms.forceMajeure <;> rfl
  rw [hor]
  apply ComesTo.connective rfl
  · exact ofContract_comesTo h hterms.forceMajeure
  · intro _
    exact ofRequest_comesTo h hdelivery.forceMajeure

theorem refusal_comesTo : ComesTo registry ctx refusal
    (.right (.branded Config.standardErrorBrand [("message", .str tooEarly)])) :=
  .right (.brand (.record (ordered_single _ _) (.cons (comesTo_const _) .nil) rfl))

/-- A response is a record on the left, with its fields in order. -/
theorem respond_comesTo {mayTerminate penalty : Expr} {b : Bool} {x : Double}
    (hterminate : ComesTo registry ctx mayTerminate (.bool b))
    (hpenalty : ComesTo registry ctx penalty (.float x)) :
    ComesTo registry ctx (respond mayTerminate penalty)
      (.left (.record [("response", response b x)])) := by
  have hresponse : ComesTo registry ctx
      (.record [("buyerMayTerminate", mayTerminate), ("penalty", penalty)])
      (.record [("buyerMayTerminate", .bool b), ("penalty", .float x)]) :=
    .record (ordered_response _ _) (.cons hterminate (.cons hpenalty .nil)) rfl
  exact .left (.record (ordered_single _ _) (.cons hresponse.brand .nil) rfl)

/-- How late a delivery is, in whole seconds. -/
theorem late_comesTo (h : InScope ctx now fields params) (hdelivery : delivery.HeldBy fields) :
    ComesTo registry ctx late
      (Duration.toValue ⟨Int64.ofInt (delivery.secondsLate now), .seconds⟩) :=
  .apply rfl (.cons (comesTo_var h.now) (.cons (ofRequest_comesTo h hdelivery.agreedDelivery) .nil)) rfl

/-- The same in the unit of the penalty duration, rounded down. -/
theorem lateInUnit_comesTo {n : Int64} (h : InScope ctx now fields params)
    (hterms : terms.HeldBy params) (hlate : ctx.lookup "late" = some (Duration.toValue ⟨n, .seconds⟩)) :
    ComesTo registry ctx lateInUnit (Duration.toValue
      ⟨Int64.ofInt (n.toInt / terms.penaltyDuration.unit.length), terms.penaltyDuration.unit⟩) := by
  obtain ⟨v, hv, hread⟩ := hterms.penaltyDuration
  have hunit : ComesTo registry ctx (.apply .durationUnit [ofContract "penaltyDuration"])
      terms.penaltyDuration.unit.toValue := by
    refine .apply rfl (.cons (ofContract_comesTo h hv) .nil) ?_
    show Duration.unitOf v = _
    rw [Duration.unitOf, hread]
    rfl
  refine .apply rfl (.cons hunit (.cons (comesTo_var hlate) .nil)) ?_
  exact Duration.convert_of_seconds n _

theorem amount_comesTo {duration : Expr} {d : Duration} (h : ComesTo registry ctx duration v)
    (hread : Duration.ofValue v = .ok d) :
    ComesTo registry ctx (amount duration) (.float (Double.ofInt d.amount.toInt)) := by
  have hamount : ComesTo registry ctx (.apply .durationAmount [duration]) (.nat d.amount) := by
    refine .apply rfl (.cons h .nil) ?_
    show Duration.amountOf v = _
    rw [Duration.amountOf, hread]
    rfl
  exact .apply rfl (.cons hamount .nil) rfl

/-- An operator on two numbers. -/
theorem binary_comesTo {operator : Primitive} {f : Double → Double → Double} {first second : Expr}
    {x y : Double} (hstrict : operator.decidedBy? = none)
    (hoperator : operator.operation = .binary (Floating.binary f))
    (hfirst : ComesTo registry ctx first (.float x)) (hsecond : ComesTo registry ctx second (.float y)) :
    ComesTo registry ctx (.apply operator [first, second]) (.float (f x y)) := by
  refine .apply hstrict (.cons hfirst (.cons hsecond .nil)) ?_
  apply Primitive.apply_of_run?
  rw [hoperator]
  rfl

/-- The penalty before the cap, computed from the left as it is written. -/
theorem penalty_comesTo {d : Duration} (h : InScope ctx now fields params)
    (hterms : terms.HeldBy params) (hdelivery : delivery.HeldBy fields)
    (hlate : ctx.lookup "lateInUnit" = some d.toValue) :
    ComesTo registry ctx penalty (.float (((((Double.ofInt d.amount.toInt).div
      (Double.ofInt terms.penaltyDuration.amount.toInt)).mul terms.penaltyPercentage).div hundred).mul
        delivery.goodsValue)) := by
  obtain ⟨v, hv, hread⟩ := hterms.penaltyDuration
  refine binary_comesTo rfl rfl ?_ (ofRequest_comesTo h hdelivery.goodsValue)
  refine binary_comesTo rfl rfl ?_ (comesTo_const _)
  refine binary_comesTo rfl rfl ?_ (ofContract_comesTo h hterms.penaltyPercentage)
  apply binary_comesTo rfl rfl
  · exact amount_comesTo (comesTo_var hlate) d.ofValue_toValue
  · exact amount_comesTo (ofContract_comesTo h hv) hread

theorem cap_comesTo (h : InScope ctx now fields params) (hterms : terms.HeldBy params)
    (hdelivery : delivery.HeldBy fields) :
    ComesTo registry ctx cap (.float (terms.cap delivery)) :=
  binary_comesTo rfl rfl
    (binary_comesTo rfl rfl (ofContract_comesTo h hterms.capPercentage) (comesTo_const _))
    (ofRequest_comesTo h hdelivery.goodsValue)

/-- The buyer may terminate if the delivery is later than the threshold. -/
theorem terminate_comesTo {n : Int64} (h : InScope ctx now fields params)
    (hterms : terms.HeldBy params) (hfits : Integer.Fits terms.threshold)
    (hlate : ctx.lookup "late" = some (Duration.toValue ⟨n, .seconds⟩)) :
    ComesTo registry ctx terminate (.bool (decide (terms.threshold < n.toInt))) := by
  obtain ⟨v, hv, hread⟩ := hterms.termination
  have horder : ComesTo registry ctx (.apply .durationCompare [.var "late", ofContract "termination"])
      (.nat (Integer.signOf (compare n.toInt terms.threshold))) := by
    refine .apply rfl (.cons (comesTo_var hlate) (.cons (ofContract_comesTo h hv) .nil)) ?_
    exact Duration.order_of_seconds n hread hfits
  have hequal : Value.equal (.nat (Integer.signOf (compare n.toInt terms.threshold))) (.nat 1) =
      decide (terms.threshold < n.toInt) := by
    rw [Bool.eq_iff_iff, decide_eq_true_iff, ← compare_gt_iff_gt]
    cases compare n.toInt terms.threshold <;> decide
  rw [← hequal]
  exact .apply rfl (.cons horder (.cons (comesTo_const _) .nil)) rfl

/-- The answer to a claim that is neither too early nor excused. -/
theorem assessment_comesTo (h : InScope ctx now fields params) (hterms : terms.HeldBy params)
    (hdelivery : delivery.HeldBy fields) (hfits : Integer.Fits terms.threshold) :
    ComesTo registry ctx assessment (.left (.record [("response",
      response (decide (terms.threshold < delivery.secondsLate now))
        ((terms.penalty delivery now).min (terms.cap delivery)))])) := by
  have hlate : Integer.Fits (delivery.secondsLate now) := DateTime.fits_secondsSince _ _
  have hunits := hlate.ediv terms.penaltyDuration.unit.length_pos
  -- Each binding leaves the time, the request and the contract in scope.
  have hafterLate := h.bind "late"
    (Duration.toValue ⟨Int64.ofInt (delivery.secondsLate now), .seconds⟩) (by decide)
  refine .bind (late_comesTo h hdelivery) (.bind (lateInUnit_comesTo hafterLate hterms rfl) ?_)
  rw [Integer.toInt_ofInt hlate]
  have hafterUnit := hafterLate.bind "lateInUnit" (Duration.toValue
    ⟨Int64.ofInt (delivery.secondsLate now / terms.penaltyDuration.unit.length),
      terms.penaltyDuration.unit⟩) (by decide)
  refine .bind (penalty_comesTo hafterUnit hterms hdelivery rfl) ?_
  rw [Integer.toInt_ofInt hunits]
  have hafterPenalty := hafterUnit.bind "penalty" (.float (terms.penalty delivery now)) (by decide)
  refine .bind (cap_comesTo hafterPenalty hterms hdelivery) ?_
  have hafterCap := hafterPenalty.bind "cap" (.float (terms.cap delivery)) (by decide)
  refine .bind (terminate_comesTo hafterCap hterms hfits rfl) ?_
  rw [Integer.toInt_ofInt hlate]
  exact respond_comesTo (comesTo_var rfl) (binary_comesTo rfl rfl (comesTo_var rfl) (comesTo_var rfl))

/-! ### The clause as a whole

The parts are put together along the two conditionals of the body, and the value of the body is
interpreted as the outcome of the call. -/

/-- The value of the body: a refusal, or the response to a claim. -/
def verdict (terms : Terms) (delivery : Delivery) (now : DateTime) : Value :=
  if now.instant ≤ delivery.agreedDelivery.instant then
    .right (Failure.error Config.standardErrorBrand tooEarly).toValue
  else if terms.forceMajeure || delivery.forceMajeure then
    .left (.record [("response", response true Double.zero)])
  else
    .left (.record [("response", response (decide (terms.threshold < delivery.secondsLate now))
      ((terms.penalty delivery now).min (terms.cap delivery)))])

/-- In the scope of the inputs, the decision is the verdict. -/
theorem decision_comesTo (h : InScope ctx now fields params) (hterms : terms.HeldBy params)
    (hdelivery : delivery.HeldBy fields) (hfits : Integer.Fits terms.threshold) :
    ComesTo registry ctx decision (verdict terms delivery now) := by
  refine .cond (isTooEarly_comesTo h hdelivery) (fun hearly => ?_) (fun hlate => ?_)
  · rw [verdict, if_pos (of_decide_eq_true hearly)]
    exact refusal_comesTo
  · rw [verdict, if_neg (of_decide_eq_false hlate)]
    refine .cond (isExcused_comesTo h hterms hdelivery) (fun hexcused => ?_) (fun hliable => ?_)
    · rw [if_pos hexcused]
      exact respond_comesTo (comesTo_const _) (comesTo_const _)
    · rw [if_neg (Bool.eq_false_iff.1 hliable)]
      exact assessment_comesTo h hterms hdelivery hfits

/-- Once both brands are off, all that the decision needs is in scope. -/
theorem body_comesTo {inv : Invocation} {brand brand' : String}
    (hcontract : inv.contract = .branded brand params)
    (hrequest : inv.request = .branded brand' fields) (hnow : inv.now = .dateTime now)
    (hterms : terms.HeldBy params) (hdelivery : delivery.HeldBy fields)
    (hfits : Integer.Fits terms.threshold) :
    ComesTo registry (Engine.rootContext inv) body (verdict terms delivery now) := by
  have hscope : InScope (((Engine.rootContext inv).bind "req" (.record fields)).bind "params"
      (.record params)) now fields params :=
    ⟨congrArg some hnow, rfl, rfl⟩
  have hfields : ComesTo registry (Engine.rootContext inv) (.unbrand (.var "request"))
      (.record fields) :=
    .unbrand (comesTo_var (congrArg some hrequest))
  have hparams : ComesTo registry ((Engine.rootContext inv).bind "req" (.record fields))
      (.unbrand (.var "contract")) (.record params) :=
    .unbrand (comesTo_var (congrArg some hcontract))
  exact .bind hfields (.bind hparams (decision_comesTo hscope hterms hdelivery hfits))

/-- A claim is answered according to the verdict. -/
theorem invoke_engine {inv : Invocation} {brand : String}
    (hcontract : inv.contract = .branded brand params)
    (hrequest : inv.request = .branded requestBrand fields) (hnow : inv.now = .dateTime now)
    (hterms : terms.HeldBy params) (hdelivery : delivery.HeldBy fields)
    (hfits : Integer.Fits terms.threshold) :
    (engine.invoke inv).result =
      (engine.finish clauseName (verdict terms delivery now) inv.state inv.emit).result := by
  have hfirst : engine.FirstAccepting inv.request [] ⟨clauseName, requestBrand, body⟩ [] :=
    ⟨rfl, by simp, .inr ⟨requestBrand, by rw [hrequest]; rfl, .inl rfl⟩⟩
  have hheight : body.height ≤ engine.maxDepth := by decide
  have hbody : Expr.eval engine.registry engine.maxDepth (Engine.rootContext inv) body =
      .ok (verdict terms delivery now) :=
    (body_comesTo hcontract hrequest hnow hterms hdelivery hfits).eval hheight
  rw [Engine.invoke_result_of_firstAccepting hfirst, hbody]
  rfl

/-- A record with a response and nothing else leaves the state and the events as they are. -/
theorem finish_response (clause : String) (v state : Value) (emit : List Value) :
    (engine.finish clause (.left (.record [("response", v)])) state emit).result =
      .ok (.success ⟨clause, v, state, emit⟩) :=
  rfl

/-- A refusal is an error of the standard brand with its message. -/
theorem finish_refusal (clause : String) (state : Value) (emit : List Value) :
    (engine.finish clause (.right (Failure.error Config.standardErrorBrand tooEarly).toValue) state
      emit).result = .ok (.failure (.error Config.standardErrorBrand tooEarly)) := by
  have hclassify : engine.classify (Failure.error Config.standardErrorBrand tooEarly).toValue =
      .error Config.standardErrorBrand tooEarly :=
    Engine.classify_error tooEarly (.inl rfl)
  rw [Engine.finish, hclassify]

/-- What the response to a late delivery says. -/
theorem verdict_of_late (hlate : delivery.agreedDelivery.instant < now.instant) :
    ∃ mayTerminate penalty,
      verdict terms delivery now = .left (.record [("response", response mayTerminate penalty)]) ∧
      (terms.forceMajeure = true ∨ delivery.forceMajeure = true →
        penalty = Double.zero ∧ mayTerminate = true) ∧
      (¬ (terms.forceMajeure = true ∨ delivery.forceMajeure = true) →
        penalty = (terms.penalty delivery now).min (terms.cap delivery) ∧
        (mayTerminate = true ↔ terms.threshold < delivery.secondsLate now)) := by
  rw [verdict, if_neg (Int.not_le.2 hlate), ← Bool.or_eq_true_iff]
  split
  · rename_i hexcused
    exact ⟨true, Double.zero, rfl, fun _ => ⟨rfl, rfl⟩, fun hliable => absurd hexcused hliable⟩
  · rename_i hliable
    exact ⟨_, _, rfl, fun hexcused => absurd hexcused hliable, fun _ => ⟨rfl, decide_eq_true_iff⟩⟩

/-- No penalty is above the cap, as long as the cap is a number. -/
theorem penalty_le_cap {limit : WithBot (WithTop ℚ)}
    (hlate : delivery.agreedDelivery.instant < now.instant)
    (hliable : ¬ (terms.forceMajeure = true ∨ delivery.forceMajeure = true))
    (hcap : (terms.cap delivery).number? = some limit) :
    ∃ mayTerminate penalty n,
      verdict terms delivery now = .left (.record [("response", response mayTerminate penalty)]) ∧
        penalty.number? = some n ∧ n ≤ limit := by
  obtain ⟨mayTerminate, penalty, hverdict, -, hpenalty⟩ := @verdict_of_late now terms delivery hlate
  obtain ⟨n, hn, hle⟩ := (Double.min_spec (terms.penalty delivery now) _).2 limit (.inr hcap)
  exact ⟨mayTerminate, penalty, n, hverdict, (hpenalty hliable).1 ▸ hn, hle⟩

/-- The contract does what it says, for every claim on it. Its bundle loads under the default
    settings. A call with a request of its brand, a contract of any brand and any current time is
    refused as too early exactly if the time is not after the agreed delivery. Else it succeeds and
    leaves the state and the events as they are; if force majeure is claimed on either side there is
    no penalty and the buyer may terminate, and otherwise the penalty is capped and the buyer may
    terminate exactly if the delivery is later than the threshold. No call ends with an error. -/
theorem invoke_lateDelivery :
    ∃ e, Engine.load document Config.standard = .ok e ∧
      ∀ (terms : Terms) (delivery : Delivery) (brand : String) (params fields : List (String × Value))
        (now : DateTime) (state : Value) (emit : List Value),
        terms.HeldBy params → delivery.HeldBy fields → Integer.Fits terms.threshold →
        let result := (e.invoke
          ⟨.branded brand params, state, emit, .branded requestBrand fields, .dateTime now⟩).result
        ((∃ errorBrand, result = .ok (.failure (.error errorBrand tooEarly))) ↔
          now.instant ≤ delivery.agreedDelivery.instant) ∧
        (delivery.agreedDelivery.instant < now.instant → ∃ mayTerminate penalty,
          result = .ok (.success ⟨clauseName, response mayTerminate penalty, state, emit⟩) ∧
          (terms.forceMajeure = true ∨ delivery.forceMajeure = true →
            penalty = Double.zero ∧ mayTerminate = true) ∧
          (¬ (terms.forceMajeure = true ∨ delivery.forceMajeure = true) →
            penalty = (terms.penalty delivery now).min (terms.cap delivery) ∧
            (mayTerminate = true ↔ terms.threshold < delivery.secondsLate now))) ∧
        ∃ outcome, result = .ok outcome := by
  refine ⟨engine, load_document, ?_⟩
  intro terms delivery brand params fields now state emit hterms hdelivery hfits result
  have hresult : result = (engine.finish clauseName (verdict terms delivery now) state emit).result :=
    invoke_engine rfl rfl rfl hterms hdelivery hfits
  rw [hresult]
  rcases Int.lt_or_le delivery.agreedDelivery.instant now.instant with hlate | hearly
  · obtain ⟨mayTerminate, penalty, hverdict, hexcused, hliable⟩ := verdict_of_late hlate
    rw [hverdict, finish_response]
    refine ⟨⟨?_, fun hearly => absurd hlate (Int.not_lt.2 hearly)⟩, fun _ => ?_, _, rfl⟩
    · rintro ⟨_, ⟨⟩⟩
    · exact ⟨mayTerminate, penalty, rfl, hexcused, hliable⟩
  · rw [verdict, if_pos hearly, finish_refusal]
    refine ⟨⟨fun _ => hearly, fun _ => ⟨_, rfl⟩⟩, fun hlate => ?_, _, rfl⟩
    exact absurd hlate (Int.not_lt.2 hearly)

/-- The midnight at universal time that starts a day. -/
def midnight (date : Date) (h : Clock.InRange (date.dayNumber * Clock.nanosPerDay)) : DateTime :=
  ⟨date.dayNumber * Clock.nanosPerDay, 0, h, by decide⟩

/-- Terms of ten percent for each day, up to all of the value, and an end after fifteen days. -/
def sampleTerms : Terms := ⟨false, ⟨1, .days⟩, ⟨0x4024000000000000⟩, hundred, ⟨15, .days⟩⟩

/-- The parameters of a contract on these terms, one of whose units goes by its name. -/
def sampleParams : List (String × Value) :=
  [("capPercentage", .float hundred), ("forceMajeure", .bool false),
   ("penaltyDuration", Duration.toValue ⟨1, .days⟩),
   ("penaltyPercentage", .float ⟨0x4024000000000000⟩),
   ("termination", .record [("amount", .nat 15), ("unit", .str "days")])]

/-- Goods that were agreed to be delivered at the start of a year. -/
def sampleDelivery : Delivery :=
  ⟨false, midnight ⟨2026, 1, 1⟩ (by decide), ⟨0x4069000000000000⟩⟩

def sampleFields : List (String × Value) :=
  [("agreedDelivery", .dateTime sampleDelivery.agreedDelivery), ("forceMajeure", .bool false),
   ("goodsValue", .float sampleDelivery.goodsValue)]

/-- The start of the sixteenth day after that. -/
def sampleDay : DateTime := midnight ⟨2026, 1, 17⟩ (by decide)

/-- A claim on the day agreed comes too early. One after sixteen days may end the contract and costs
    the lesser of the penalty and the cap. -/
theorem invoke_lateDelivery_of_sample :
    sampleTerms.HeldBy sampleParams ∧ sampleDelivery.HeldBy sampleFields ∧
      Integer.Fits sampleTerms.threshold ∧
      ∃ e, Engine.load document Config.standard = .ok e ∧
        (∃ brand, (e.invoke ⟨.branded "Contract" sampleParams, .unit, [],
          .branded requestBrand sampleFields, .dateTime sampleDelivery.agreedDelivery⟩).result =
            .ok (.failure (.error brand tooEarly))) ∧
        (e.invoke ⟨.branded "Contract" sampleParams, .unit, [], .branded requestBrand sampleFields,
          .dateTime sampleDay⟩).result =
            .ok (.success ⟨clauseName, response true ((sampleTerms.penalty sampleDelivery sampleDay).min
              (sampleTerms.cap sampleDelivery)), .unit, []⟩) := by
  have hterms : sampleTerms.HeldBy sampleParams :=
    ⟨rfl, ⟨_, rfl, rfl⟩, rfl, rfl, ⟨_, rfl, rfl⟩⟩
  have hdelivery : sampleDelivery.HeldBy sampleFields := ⟨rfl, rfl, rfl⟩
  have hfits : Integer.Fits sampleTerms.threshold := by decide
  refine ⟨hterms, hdelivery, hfits, ?_⟩
  obtain ⟨e, hload, hrule⟩ := invoke_lateDelivery
  have hrule := hrule sampleTerms sampleDelivery "Contract" sampleParams sampleFields
  refine ⟨e, hload, ?_, ?_⟩
  · exact (hrule sampleDelivery.agreedDelivery .unit [] hterms hdelivery hfits).1.2 (Int.le_refl _)
  · obtain ⟨mayTerminate, penalty, hresult, -, hliable⟩ :=
      (hrule sampleDay .unit [] hterms hdelivery hfits).2.1 (by decide)
    obtain ⟨hpenalty, hterminate⟩ := hliable (by decide)
    rw [hterminate.2 (by decide), hpenalty] at hresult
    exact hresult

end LateDelivery

end ClauseEngine
