/-
Module: ClauseEngine.Proofs.Engine.Phases
Purpose: What a call logs is a run of the machine of phases, and the run tells the result. Once a body
  is being evaluated, the lines that are still to come depend on the result alone: one that ends in
  success or failure, with a warning before it if the failure is no error value, and none at all if
  the call ends with an error. Every call is an opening that leads there, followed by these lines,
  except for a request that no clause accepts, which fails on the spot.
Main exports: Move, LogEntry.move?, LogEntry.isWarning, Phase.Next, Leads, Engine.closing,
  Engine.run_log, Engine.invoke_log_of_none, Engine.invoke_log_of_some, Engine.init_log,
  PhasesAgree, PhasesAgree.of_closing, Engine.log_agrees_with_result
-/
import ClauseEngine.Proofs.Engine.Errors

namespace ClauseEngine

/-! ### The machine of phases

A list of moves leads from one phase to another if each move starts where the one before it ended.
Such lists can be put one after the other, and the last target says where the call has got to. -/

/-- A move of a call from one phase to another, possibly into a clause. -/
structure Move where
  source : Phase
  target : Phase
  clause : Option String
deriving DecidableEq, Repr

namespace LogEntry

/-- The move that a line reports, if it reports one. -/
def move? : LogEntry → Option Move
  | .moved _ source target clause => some ⟨source, target, clause⟩
  | _ => none

/-- The line of a failure that is no error value is a warning, and no other is. -/
def isWarning : LogEntry → Bool
  | .unshaped _ _ _ => true
  | _ => false

end LogEntry

/-- The moves that some lines report, in their order. -/
def moves (log : List LogEntry) : List Move := log.filterMap LogEntry.move?

/-- The phases that follow a phase. A set-up needs no dispatch. -/
inductive Phase.Next : Phase → Phase → Prop
  | dispatch : Next .initial .dispatching
  | setUp : Next .initial .evaluating
  | refuse : Next .dispatching .failed
  | enter : Next .dispatching .evaluating
  | succeed : Next .evaluating .succeeded
  | fail : Next .evaluating .failed

/-- Moves that lead from one phase to another, each from the phase in which the one before it ended
    to one that follows it. -/
inductive Leads : Phase → List Move → Phase → Prop
  | stay (p : Phase) : Leads p [] p
  | step {p q r : Phase} {rest : List Move} (clause : Option String) (hnext : p.Next q)
      (hrest : Leads q rest r) : Leads p (⟨p, q, clause⟩ :: rest) r

namespace Leads

variable {p q r : Phase} {front rest : List Move}

/-- Moves that lead to a phase can be followed by moves that lead on from it. -/
theorem append (hfront : Leads p front q) (hrest : Leads q rest r) : Leads p (front ++ rest) r := by
  induction hfront with
  | stay _ => exact hrest
  | step clause hnext _ ih => exact .step clause hnext (ih hrest)

/-- Each move starts in the phase in which the one before it ended. -/
theorem isChain (h : Leads p rest q) :
    rest.IsChain fun move next => move.target = next.source := by
  induction h with
  | stay _ => exact .nil
  | step clause _ hrest ih =>
      cases hrest with
      | stay _ => exact .singleton _
      | step _ _ _ => exact .cons_cons rfl ih

/-- Each move goes to a phase that follows. -/
theorem next (h : Leads p rest q) : ∀ move ∈ rest, move.source.Next move.target := by
  induction h with
  | stay _ => simp
  | step clause hnext _ ih => exact List.forall_mem_cons.2 ⟨hnext, ih⟩

/-- The last move ends in the phase that is led to. Without a move that is the first phase. -/
theorem target_getLast? (h : Leads p rest q) : (rest.getLast?.map Move.target).getD p = q := by
  induction h with
  | stay _ => rfl
  | @step _ _ _ rest _ _ _ ih =>
      rw [List.getLast?_cons]
      cases hlast : rest.getLast? with
      | none =>
          rw [hlast] at ih
          exact ih
      | some last =>
          rw [hlast] at ih
          exact ih

end Leads

/-- The phase in which a call has ended that has a result: a body that ends with an error is never
    left. -/
def endPhase : Result Outcome → Phase
  | .ok (.success _) => .succeeded
  | .ok (.failure _) => .failed
  | .error _ => .evaluating

theorem endPhase_eq_succeeded_iff {result : Result Outcome} :
    endPhase result = .succeeded ↔ ∃ success, result = .ok (.success success) := by
  cases result with
  | error error => simp [endPhase]
  | ok outcome => cases outcome <;> simp [endPhase]

theorem endPhase_eq_failed_iff {result : Result Outcome} :
    endPhase result = .failed ↔ ∃ reason, result = .ok (.failure reason) := by
  cases result with
  | error error => simp [endPhase]
  | ok outcome => cases outcome <;> simp [endPhase]

/-- A call that ends with an error stops while its body is being evaluated. -/
theorem endPhase_eq_evaluating_iff {result : Result Outcome} :
    endPhase result = .evaluating ↔ ∃ error, result = .error error := by
  cases result with
  | error error => simp [endPhase]
  | ok outcome => cases outcome <;> simp [endPhase]

theorem endPhase_ne_initial (result : Result Outcome) : endPhase result ≠ .initial := by
  cases result with
  | error error => simp [endPhase]
  | ok outcome => cases outcome <;> simp [endPhase]

/-! ### The lines of a call

The closing lines are a function of the result, and every stage logs those of its own result. A call
is therefore told by its opening and its result, without following its evaluation. -/

namespace Engine

/-- The lines that follow once a body is evaluated, by the result. -/
def closing (e : Engine) (clause : String) : Result Outcome → List LogEntry
  | .ok (.success _) => [e.moved .evaluating .succeeded]
  | .ok (.failure reason) => e.warnings clause reason ++ [e.moved .evaluating .failed]
  | .error _ => []

theorem finish_log (e : Engine) (clause : String) (result state : Value) (emit : List Value) :
    (e.finish clause result state emit).log =
      e.closing clause (e.finish clause result state emit).result := by
  unfold finish
  split
  · split <;> rfl
  · rfl
  · rfl

/-- A run logs the closing lines of its result. -/
theorem run_log (e : Engine) (clause : String) (body : Expr) (inv : Invocation) :
    (e.run clause body inv).log = e.closing clause (e.run clause body inv).result := by
  unfold run
  split
  · exact e.finish_log clause _ _ _
  · rfl

/-- The set-up of a contract starts with the evaluation of its body. -/
theorem init_log (e : Engine) (contract now : Value) :
    (e.init contract now).log =
      [e.moved .initial .evaluating] ++ e.closing initClause (e.init contract now).result := by
  unfold init Run.after
  cases e.initBody with
  | none => rfl
  | some body => rw [run_log]

/-- A request that no clause accepts is dispatched and fails. -/
theorem invoke_log_of_none {e : Engine} {inv : Invocation}
    (h : e.dispatch inv.request = .ok none) :
    (e.invoke inv).log = [e.moved .initial .dispatching, e.moved .dispatching .failed] ∧
      (e.invoke inv).result = .ok (.failure (.error e.errorBrand dispatchError)) := by
  rw [invoke, h]
  exact ⟨rfl, rfl⟩

/-- An accepted request is dispatched to its clause before the body is evaluated. -/
theorem invoke_log_of_some {e : Engine} {inv : Invocation} {clause : Clause} {request : Value}
    (h : e.dispatch inv.request = .ok (some (clause, request))) :
    (e.invoke inv).log =
      [e.moved .initial .dispatching, .moved e.id .dispatching .evaluating (some clause.id)] ++
        e.closing clause.id (e.invoke inv).result := by
  have hrun := e.run_log clause.id clause.body { inv with request := request }
  rw [invoke, h]
  exact congrArg ([e.moved .initial .dispatching,
    .moved e.id .dispatching .evaluating (some clause.id)] ++ ·) hrun

/-- Among the lines that follow, a warning stands for a failure that is no error value. -/
theorem unshaped_of_mem_closing {e : Engine} {clause : String} {result : Result Outcome}
    {entry : LogEntry} (hentry : entry ∈ e.closing clause result)
    (hwarning : entry.isWarning = true) : ∃ v, result = .ok (.failure (.unshaped v)) := by
  cases result with
  | error error => cases hentry
  | ok outcome =>
      cases outcome with
      | success success =>
          obtain rfl := List.mem_singleton.1 hentry
          cases hwarning
      | failure reason =>
          cases reason with
          | error brand message =>
              obtain rfl := List.mem_singleton.1 hentry
              cases hwarning
          | unshaped v => exact ⟨v, rfl⟩

/-- The lines that follow lead to the phase of the result. -/
theorem closing_leads (e : Engine) (clause : String) (result : Result Outcome) :
    Leads .evaluating (moves (e.closing clause result)) (endPhase result) := by
  cases result with
  | error error => exact .stay _
  | ok outcome =>
      cases outcome with
      | success success => exact .step _ .succeed (.stay _)
      | failure reason => cases reason <;> exact .step _ .fail (.stay _)

end Engine

/-! ### Lines and result

An opening leads to the evaluation of a body, and the closing lines lead from there to the phase of
the result. What a log is required to say about its result follows from this alone. -/

/-- The lines of a call agree with its result. Each move starts where the one before it ended, and the
    last one ends in success or failure exactly if the call does, and in the evaluation exactly if the
    call ends with an error. There is a warning exactly if the call fails with a value that is no
    error value; it is the only one, and one line follows it. -/
structure PhasesAgree (e : Engine) (run : Run Outcome) : Prop where
  chained : (moves run.log).IsChain fun move next => move.target = next.source
  legal : ∀ move ∈ moves run.log, move.source.Next move.target
  succeeded : (moves run.log).getLast?.map Move.target = some .succeeded ↔
    ∃ result, run.result = .ok (.success result)
  failed : (moves run.log).getLast?.map Move.target = some .failed ↔
    ∃ reason, run.result = .ok (.failure reason)
  evaluating : (moves run.log).getLast?.map Move.target = some .evaluating ↔
    ∃ error, run.result = .error error
  warned : (∃ entry ∈ run.log, entry.isWarning = true) ↔
    ∃ v, run.result = .ok (.failure (.unshaped v))
  warning : ∀ v, run.result = .ok (.failure (.unshaped v)) →
    ∃ front clause last, run.log = front ++ [.unshaped e.id clause v, last] ∧
      (∀ entry ∈ front, entry.isWarning = false) ∧ last.isWarning = false

namespace PhasesAgree

variable {e : Engine} {run : Run Outcome}

/-- The last move ends in the phase of the result, if the moves lead there. -/
theorem getLast?_of_leads (h : Leads .initial (moves run.log) (endPhase run.result)) :
    (moves run.log).getLast?.map Move.target = some (endPhase run.result) := by
  have hlast := h.target_getLast?
  cases hmap : (moves run.log).getLast?.map Move.target with
  | some target =>
      rw [hmap] at hlast
      exact congrArg some hlast
  | none =>
      rw [hmap] at hlast
      exact absurd hlast.symm (endPhase_ne_initial run.result)

/-- Lines agree with a result if their moves lead to its phase and their warnings tell it. -/
theorem of_leads (hleads : Leads .initial (moves run.log) (endPhase run.result))
    (hwarned : (∃ entry ∈ run.log, entry.isWarning = true) →
      ∃ v, run.result = .ok (.failure (.unshaped v)))
    (hwarning : ∀ v, run.result = .ok (.failure (.unshaped v)) →
      ∃ front clause last, run.log = front ++ [.unshaped e.id clause v, last] ∧
        (∀ entry ∈ front, entry.isWarning = false) ∧ last.isWarning = false) :
    PhasesAgree e run where
  chained := hleads.isChain
  legal := hleads.next
  succeeded := by
    rw [getLast?_of_leads hleads, Option.some_inj]
    exact endPhase_eq_succeeded_iff
  failed := by
    rw [getLast?_of_leads hleads, Option.some_inj]
    exact endPhase_eq_failed_iff
  evaluating := by
    rw [getLast?_of_leads hleads, Option.some_inj]
    exact endPhase_eq_evaluating_iff
  warned := by
    constructor
    · exact hwarned
    · rintro ⟨v, hresult⟩
      obtain ⟨front, clause, last, hlog, -, -⟩ := hwarning v hresult
      refine ⟨.unshaped e.id clause v, ?_, rfl⟩
      simp [hlog]
  warning := hwarning

/-- An opening without warnings that leads to the evaluation, followed by the lines that the result
    asks for, agrees with the result. -/
theorem of_closing {opening : List LogEntry} {clause : String}
    (hlog : run.log = opening ++ e.closing clause run.result)
    (hleads : Leads .initial (moves opening) .evaluating)
    (hquiet : ∀ entry ∈ opening, entry.isWarning = false) : PhasesAgree e run := by
  apply of_leads
  · rw [hlog, moves, List.filterMap_append]
    exact hleads.append (e.closing_leads clause run.result)
  · rintro ⟨entry, hentry, hwarning⟩
    rw [hlog, List.mem_append] at hentry
    rcases hentry with hentry | hentry
    · rw [hquiet entry hentry] at hwarning
      cases hwarning
    · exact Engine.unshaped_of_mem_closing hentry hwarning
  · intro v hresult
    rw [hresult] at hlog
    exact ⟨opening, clause, e.moved .evaluating .failed, hlog, hquiet, rfl⟩

end PhasesAgree

namespace Engine

/-- The moves that may follow once a body is evaluated: none, or one that ends the call. -/
def endings : List (List Move) :=
  [[], [⟨.evaluating, .succeeded, none⟩], [⟨.evaluating, .failed, none⟩]]

/-- There are three ways for a call to close. -/
theorem moves_closing_mem_endings (e : Engine) (clause : String) (result : Result Outcome) :
    moves (e.closing clause result) ∈ endings := by
  cases result with
  | error error => exact .head _
  | ok outcome =>
      cases outcome with
      | success success => exact .tail _ (.head _)
      | failure reason => cases reason <;> exact .tail _ (.tail _ (.head _))

/-- The lines of a call are a run of the machine of phases and agree with its result. A request is
    dispatched; it fails there if no clause accepts it, and is evaluated in the clause that dispatch
    found if one does. A set-up is evaluated at once. An evaluation ends the call with success or
    failure, or it is never left; which of them is told by the last line, and a warning just before
    it tells a failure with a value that is no error value. -/
theorem log_agrees_with_result (e : Engine) :
    (∀ inv, PhasesAgree e (e.invoke inv) ∧
      ((e.dispatch inv.request = .ok none ∧
          moves (e.invoke inv).log =
            [⟨.initial, .dispatching, none⟩, ⟨.dispatching, .failed, none⟩]) ∨
        ∃ clause request, e.dispatch inv.request = .ok (some (clause, request)) ∧
          ∃ ending ∈ endings, moves (e.invoke inv).log =
            [⟨.initial, .dispatching, none⟩, ⟨.dispatching, .evaluating, some clause.id⟩] ++
              ending)) ∧
    ∀ contract now, PhasesAgree e (e.init contract now) ∧
      ∃ ending ∈ endings, moves (e.init contract now).log =
        [⟨.initial, .evaluating, none⟩] ++ ending := by
  constructor
  · intro inv
    have hdispatch := e.dispatch_eq inv.request
    cases hfind : e.clauses.find? fun clause => e.registry.accepts [clause.request] inv.request with
    | none =>
        rw [hfind] at hdispatch
        obtain ⟨hlog, hresult⟩ := invoke_log_of_none hdispatch
        constructor
        · apply PhasesAgree.of_leads
          · rw [hlog, hresult]
            exact .step _ .dispatch (.step _ .refuse (.stay _))
          · simp [hlog, moved, LogEntry.isWarning]
          · simp [hresult]
        · rw [hlog]
          exact .inl ⟨hdispatch, rfl⟩
    | some clause =>
        rw [hfind] at hdispatch
        have hlog := invoke_log_of_some hdispatch
        constructor
        · apply PhasesAgree.of_closing hlog
          · exact .step _ .dispatch (.step _ .enter (.stay _))
          · simp [moved, LogEntry.isWarning]
        · refine .inr ⟨clause, inv.request, hdispatch, _,
            e.moves_closing_mem_endings clause.id (e.invoke inv).result, ?_⟩
          conv_lhs => rw [hlog]
          rfl
  · intro contract now
    have hlog := e.init_log contract now
    constructor
    · apply PhasesAgree.of_closing hlog
      · exact .step _ .setUp (.stay _)
      · simp [moved, LogEntry.isWarning]
    · refine ⟨_, e.moves_closing_mem_endings initClause (e.init contract now).result, ?_⟩
      conv_lhs => rw [hlog]
      rfl

end Engine

end ClauseEngine
