/-
Module: ClauseEngine.Proofs.Engine.Messages
Purpose: The text of a failure, as an engine reports it and as the language computes it. A failure has
  the message of an error-branded value and the structural text of any other value. The operator of
  the language knows no error brand and takes the message of every record that has one; the two texts
  differ exactly for such a record that is not error-branded, since no text is as short as the message
  inside it.
Main exports: Value.message?, Value.messageText_eq, Value.length_message_lt, Engine.isErrorBranded,
  Engine.failureText, Engine.message_classify, Engine.messageText_eq_failureText_iff,
  Engine.errorMessage_eq_message_iff, Engine.errorMessage_ne_message
-/
import ClauseEngine.Primitive.Sum
import ClauseEngine.Proofs.Engine.Outcome
import ClauseEngine.Proofs.Value.Text

namespace ClauseEngine

namespace Value

/-- The string in the message field of a record, branded or not. -/
def message? (v : Value) : Option String :=
  match v.fields?.bind (·.lookup "message") with
  | some (.str message) => some message
  | _ => none

/-- A value has a message if it has fields and the one of that name is a string. -/
theorem message?_eq_some_iff {v : Value} {message : String} :
    v.message? = some message ↔
      ∃ fields, v.fields? = some fields ∧ fields.lookup "message" = some (.str message) := by
  unfold message?
  rw [← Option.bind_eq_some_iff]
  split
  · rename_i found hfound
    rw [hfound]
    simp
  · rename_i hother
    constructor
    · intro h
      cases h
    · intro h
      exact absurd h (hother message)

/-- The operator takes the message where there is one, else the structural text. -/
theorem messageText_eq (v : Value) : v.messageText = v.message?.getD v.text := by
  unfold messageText message?
  cases v.fields?.bind (·.lookup "message") with
  | none => rfl
  | some found => cases found <;> rfl

/-- A message is shorter than the text of the record it stands in. -/
theorem length_message_lt {v : Value} {message : String} (h : v.message? = some message) :
    message.length < v.text.length := by
  obtain ⟨fields, hfields, hlookup⟩ := message?_eq_some_iff.1 h
  exact length_lt_text_of_str hfields hlookup

end Value

namespace Engine

/-! ### Error-branded values

The engine looks for a message in error-branded values only, the operator in all records. Where both
find the same or none the texts agree; and they cannot agree by accident, since a structural text is
longer than any message inside it. -/

/-- The value has the error brand of the engine or a brand below it. -/
def isErrorBranded (e : Engine) (v : Value) : Bool :=
  v.brand?.any fun brand => brand = e.errorBrand || e.registry.isSubBrand brand e.errorBrand

/-- The text of a failure value: the message of an error-branded value, or else the structural
    text. -/
def failureText (e : Engine) (v : Value) : String :=
  if e.isErrorBranded v then v.message?.getD v.text else v.text

/-- The message of a failure is the text of the value that it is classified from. -/
theorem message_classify (e : Engine) (v : Value) : (e.classify v).message = e.failureText v := by
  cases v with
  | branded brand fields =>
      have hbranded : e.isErrorBranded (.branded brand fields) =
          (decide (brand = e.errorBrand) || e.registry.isSubBrand brand e.errorBrand) := rfl
      rw [failureText, hbranded, classify]
      split
      · rw [Value.message?, Value.fields?, Option.bind_some]
        cases fields.lookup "message" with
        | none => rfl
        | some found => cases found <;> rfl
      · rfl
  | _ => rfl

/-- The message text of a value is the one of a failure, unless it is the message of a record that is
    not error-branded. -/
theorem messageText_eq_failureText_iff (e : Engine) (v : Value) :
    v.messageText = e.failureText v ↔ (v.message?.isSome = true → e.isErrorBranded v = true) := by
  rw [Value.messageText_eq, failureText]
  split
  · rename_i hbranded
    exact iff_of_true rfl fun _ => hbranded
  · rename_i hbranded
    cases hmessage : v.message? with
    | none => simp
    | some message =>
        -- The message would be as long as the text that it is a part of.
        have hdifferent : message ≠ v.text := by
          intro heq
          have hlt := Value.length_message_lt hmessage
          rw [heq] at hlt
          exact Nat.lt_irrefl _ hlt
        simp [hdifferent, hbranded]

/-! ### Failures of calls

A failure that a call reports has been classified, so that its text is that of a value for which the
comparison above applies. -/

/-- The two texts of a failure that a call reports. Its message is always the text that is specified:
    the message of an error-branded value, the structural text of any other. The operator computes the
    same text from the value of the failure exactly if that value has no message string or is
    error-branded. -/
theorem errorMessage_eq_message_iff (e : Engine) (f : Failure) (hreturns : e.Returns (.failure f)) :
    f.message = e.failureText f.toValue ∧
      (Sum.errorMessage f.toValue = .ok (.str f.message) ↔
        (f.toValue.message?.isSome = true → e.isErrorBranded f.toValue = true)) := by
  have hsettled : e.classify f.toValue = f := settled_of_returns hreturns f rfl
  have hmessage : f.message = e.failureText f.toValue := by
    rw [← message_classify, hsettled]
  refine ⟨hmessage, ?_⟩
  rw [← messageText_eq_failureText_iff, hmessage, Sum.errorMessage]
  simp

/-- A late error of the echo engine has one text. A record with a message that is not branded at all
    has two. -/
theorem errorMessage_eq_message_iff_of_echo :
    let late : Failure := .error "LateError" "late"
    let plain : Failure := .unshaped (.record [("message", .str "late")])
    (echo.Returns (.failure late) ∧ Sum.errorMessage late.toValue = .ok (.str late.message)) ∧
      (echo.Returns (.failure plain) ∧ Sum.errorMessage plain.toValue ≠ .ok (.str plain.message)) := by
  intro late plain
  have hlate : echo.Returns (.failure late) :=
    .inl ⟨⟨.unit, .unit, [], .right late.toValue, .unit⟩, by with_unfolding_all rfl⟩
  have hplain : echo.Returns (.failure plain) :=
    .inl ⟨⟨.unit, .unit, [], .right plain.toValue, .unit⟩, by with_unfolding_all rfl⟩
  obtain ⟨-, hagree⟩ := errorMessage_eq_message_iff echo late hlate
  obtain ⟨-, hdiffer⟩ := errorMessage_eq_message_iff echo plain hplain
  refine ⟨⟨hlate, hagree.2 fun _ => rfl⟩, hplain, fun h => ?_⟩
  exact absurd (hdiffer.1 h rfl) (by simp [plain, isErrorBranded, Failure.toValue, Value.brand?])

/-- The two texts of a failure can differ. -/
theorem errorMessage_ne_message : ∃ (e : Engine) (f : Failure),
    e.Returns (.failure f) ∧ Sum.errorMessage f.toValue ≠ .ok (.str f.message) := by
  let plain : Value := .record [("message", .str "late")]
  have hreturns : echo.Returns (.failure (.unshaped plain)) :=
    .inl ⟨⟨.unit, .unit, [], .right plain, .unit⟩, by with_unfolding_all rfl⟩
  have hshorter : "late".length < plain.text.length := Value.length_message_lt rfl
  refine ⟨echo, .unshaped plain, hreturns, fun h => ?_⟩
  have htext : "late" = plain.text := Value.str.inj (Except.ok.inj h)
  rw [← htext] at hshorter
  exact Nat.lt_irrefl _ hshorter

end Engine

end ClauseEngine
