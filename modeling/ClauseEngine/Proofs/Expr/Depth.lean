/-
Module: ClauseEngine.Proofs.Expr.Depth
Purpose: The depth limit cuts evaluations off and does nothing else. An evaluation under some limit
  either hits that limit or gives the answer of every evaluation that has more levels left; two that
  have as many levels left both hit their limits or neither does; and one that has as many levels
  left as its expression is high does not hit it.
Main exports: CutOff, StopsAlike, Expr.evalAt_cutOff, Expr.evalAt_stopsAlike,
  Expr.evalAt_raisesOnly_of_height_le, Expr.eval_eq_or_depthExceeded
-/
import ClauseEngine.Proofs.Expr.Scopes
import Mathlib.Logic.ExistsUnique

namespace ClauseEngine

/-- The first computation stops at a limit, or else agrees with the second. -/
def CutOff (limit : Nat) ⦃α : Type⦄ (r r' : Result α) : Prop :=
  r = .error (.depthExceeded limit) ∨ r = r'

/-- Being cut off by a limit passes through sequencing. -/
theorem stepRelation_cutOff (limit : Nat) (own : EvalError → Prop) :
    StepRelation own (CutOff limit) where
  same _ := .inr rfl
  bind {α β x y f g} hx hf := by
    rcases hx with rfl | rfl
    · exact .inl rfl
    · cases x with
      | error error => exact .inr rfl
      | ok a => exact hf a rfl

/-- The error of an evaluation that is too deep. -/
def EvalError.isDepthExceeded : EvalError → Bool
  | .depthExceeded _ => true
  | _ => false

theorem EvalError.isDepthExceeded_of_ofOperands {error : EvalError} (h : error.OfOperands) :
    error.isDepthExceeded = false := by
  cases h <;> rfl

/-- Two computations stop each at its own limit, or else agree and stop at none. -/
def StopsAlike (limit limit' : Nat) ⦃α : Type⦄ (r r' : Result α) : Prop :=
  (r = .error (.depthExceeded limit) ∧ r' = .error (.depthExceeded limit')) ∨
    (r = r' ∧ RaisesOnly (fun error => error.isDepthExceeded = false) r)

/-- So does stopping alike, for steps that do not exceed a limit by themselves. -/
theorem stepRelation_stopsAlike (limit limit' : Nat) {own : EvalError → Prop}
    (hown : ∀ error, own error → error.isDepthExceeded = false) :
    StepRelation own (StopsAlike limit limit') where
  same hr := .inr ⟨rfl, hr.mono hown⟩
  bind {α β x y f g} hx hf := by
    rcases hx with ⟨rfl, rfl⟩ | ⟨rfl, hx⟩
    · exact .inl ⟨rfl, rfl⟩
    · cases x with
      | error error => exact .inr ⟨rfl, raisesOnly_error.2 (raisesOnly_error.1 hx)⟩
      | ok a => exact hf a rfl

namespace Expr

variable {registry : Registry} {limit depth limit' depth' : Nat} {ctx : Context} {e : Expr}

/-- Of two evaluations, the one with fewer levels left stops at its limit or agrees. -/
theorem evalAt_cutOff (h : limit + depth' ≤ limit' + depth) :
    CutOff limit (evalAt registry limit depth ctx e) (evalAt registry limit' depth' ctx e) := by
  induction e using scopes_induction generalizing depth depth' ctx with
  | node e ih =>
      rcases Nat.lt_or_ge depth limit with hlimit | hlimit
      · refine evalAt_related (stepRelation_cutOff limit _) hlimit (by omega) (fun _ _ => .inr rfl) ?_
        intro scope hscope v
        exact ih scope hscope (by omega)
      · exact .inl (evalAt_of_le hlimit)

/-- A node exceeds the limit by its place only, never by an error of its own. -/
theorem OwnError.isDepthExceeded {error : EvalError} (h : OwnError registry e error) :
    error.isDepthExceeded = false := by
  cases h with
  | operands h => exact EvalError.isDepthExceeded_of_ofOperands h
  | arity => rfl
  | cast => rfl

theorem find_raisesOnly_isDepthExceeded (ctx : Context) (name : String) :
    RaisesOnly (fun error => error.isDepthExceeded = false) (ctx.find name) := by
  intro error herror
  obtain ⟨rfl, _⟩ := ctx.find_raisesOnly name error herror
  rfl

/-- Two evaluations with as many levels left stop alike. -/
theorem evalAt_stopsAlike (h : limit + depth' = limit' + depth) :
    StopsAlike limit limit' (evalAt registry limit depth ctx e)
      (evalAt registry limit' depth' ctx e) := by
  induction e using scopes_induction generalizing depth depth' ctx with
  | node e ih =>
      rcases Nat.lt_or_ge depth limit with hlimit | hlimit
      · have hlimit' : depth' < limit' := by omega
        apply evalAt_related (stepRelation_stopsAlike limit limit' fun _ => OwnError.isDepthExceeded)
          hlimit hlimit'
        · intro name _
          exact .inr ⟨rfl, find_raisesOnly_isDepthExceeded ctx name⟩
        · intro scope hscope v
          exact ih scope hscope (by omega)
      · exact .inl ⟨evalAt_of_le hlimit, evalAt_of_le (by omega)⟩

/-- An evaluation does not stop at a limit that leaves as many levels as the expression is high. -/
theorem evalAt_raisesOnly_of_height_le (h : e.height + depth ≤ limit) :
    RaisesOnly (fun error => error.isDepthExceeded = false)
      (evalAt registry limit depth ctx e) := by
  induction e using scopes_induction generalizing depth ctx with
  | node e ih =>
      have hlimit : depth < limit := by
        rw [height_eq] at h
        omega
      refine evalAt_raisesOnly (fun _ => OwnError.isDepthExceeded) hlimit ?_ ?_
      · intro name _
        exact find_raisesOnly_isDepthExceeded ctx name
      · intro scope hscope v
        have := height_lt_of_mem_scopes hscope
        exact ih scope hscope (by omega)

/-- A greater limit gives the same answer, unless the lesser one was hit. -/
theorem eval_cutOff (h : limit ≤ limit') :
    CutOff limit (eval registry limit ctx e) (eval registry limit' ctx e) :=
  evalAt_cutOff (by omega)

/-- With as many levels as the expression is high, the limit is not hit. -/
theorem eval_height_ne_depthExceeded (registry : Registry) (ctx : Context) (e : Expr)
    (limit : Nat) : eval registry e.height ctx e ≠ .error (.depthExceeded limit) := by
  intro hexceeded
  cases evalAt_raisesOnly_of_height_le (Nat.le_refl e.height) _ hexceeded

/-- The result under a limit that is not hit is the result under every greater one. -/
theorem eval_eq_of_le (h : limit ≤ limit')
    (hresult : eval registry limit ctx e ≠ .error (.depthExceeded limit)) :
    eval registry limit' ctx e = eval registry limit ctx e :=
  ((eval_cutOff h).resolve_left hresult).symm

/-- The limit is only a cut-off: each expression has one result, which is what evaluating it gives
    under every limit unless that limit is hit. Once it is not hit, no greater limit is, and a limit
    of the height of the expression is not. -/
theorem eval_eq_or_depthExceeded (registry : Registry) (ctx : Context) (e : Expr) :
    ∃! result : Result Value, (∀ limit, result ≠ .error (.depthExceeded limit)) ∧
      ∀ limit,
        (eval registry limit ctx e = result ∨
          eval registry limit ctx e = .error (.depthExceeded limit)) ∧
        (eval registry limit ctx e = result →
          ∀ limit', limit ≤ limit' → eval registry limit' ctx e = result) ∧
        (e.height ≤ limit → eval registry limit ctx e = result) := by
  -- The result is the one under the height, which is never the error of a limit.
  have hheight := eval_height_ne_depthExceeded registry ctx e
  have hhigh {limit : Nat} (hle : e.height ≤ limit) :
      eval registry limit ctx e = eval registry e.height ctx e :=
    eval_eq_of_le hle (hheight _)
  refine ⟨eval registry e.height ctx e, ⟨hheight, fun limit => ⟨?_, ?_, hhigh⟩⟩, ?_⟩
  · rcases Nat.le_total limit e.height with hle | hle
    · exact (eval_cutOff hle).symm
    · exact .inl (hhigh hle)
  · intro hresult limit' hle
    rw [← hresult] at hheight ⊢
    exact eval_eq_of_le hle (hheight limit)
  · rintro other ⟨_, hother⟩
    exact ((hother e.height).2.2 (Nat.le_refl _)).symm

end Expr

end ClauseEngine
