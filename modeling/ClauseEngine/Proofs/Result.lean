/-
Module: ClauseEngine.Proofs.Result
Purpose: Which errors a computation can end with. The property is stated so that it can be read off
  a computation step by step: a sequence of steps has it exactly if every step that is reached has.
  The values that a computation can end with are treated in the same way, and so are the exact
  condition under which it overflows and the faults of which it reports the first.
Main exports: RaisesOnly, raisesOnly_bind, raisesOnly_mapM, ok_bind, bind_eq_ok_iff, map_eq_ok_iff,
  mapM_eq_ok_iff, exists_mapM_eq_ok_iff, map_eq_of_mapM, map_eq_of_optionMapM, Yields, yields_bind,
  Yields.bind, Yields.after, yields_mapM, yields_optionMapM, OverflowsUnless, OverflowsUnless.bind,
  Reports, Reports.bind, Reports.mapM
-/
import ClauseEngine.Value.Access
import Mathlib.Data.List.Forall2

namespace ClauseEngine

/-- If the computation fails, its error has a property. -/
def RaisesOnly {α : Type} (P : EvalError → Prop) (r : Result α) : Prop :=
  ∀ error, r = .error error → P error

variable {α β : Type} {P P' : EvalError → Prop}

@[simp] theorem raisesOnly_ok (a : α) : RaisesOnly P (.ok a) := nofun

@[simp] theorem raisesOnly_pure (a : α) : RaisesOnly P (pure a) := nofun

@[simp] theorem raisesOnly_error {error : EvalError} :
    RaisesOnly P (.error error : Result α) ↔ P error := by
  constructor
  · intro h
    exact h error rfl
  · rintro h _ ⟨⟩
    exact h

@[simp] theorem raisesOnly_throw {error : EvalError} :
    RaisesOnly P (throw error : Result α) ↔ P error := raisesOnly_error

/-- A sequence of two steps raises what its first step raises, or what its second does if it is
    reached. -/
@[simp] theorem raisesOnly_bind {x : Result α} {f : α → Result β} :
    RaisesOnly P (x >>= f) ↔ RaisesOnly P x ∧ ∀ a, x = .ok a → RaisesOnly P (f a) := by
  cases x with
  | error error =>
      show RaisesOnly P (.error error) ↔ _
      simp
  | ok a =>
      show RaisesOnly P (f a) ↔ _
      simp

@[simp] theorem raisesOnly_map {x : Result α} {f : α → β} :
    RaisesOnly P (f <$> x) ↔ RaisesOnly P x := by
  cases x with
  | error error =>
      show RaisesOnly P (.error error) ↔ _
      simp
  | ok a =>
      show RaisesOnly P (.ok (f a)) ↔ _
      simp

theorem ok_bind (a : α) (f : α → Result β) : (Except.ok a >>= f) = f a := rfl

/-- A sequence of two steps succeeds exactly if both do. -/
theorem bind_eq_ok_iff {ε : Type} {x : Except ε α} {f : α → Except ε β} {b : β} :
    (x >>= f) = .ok b ↔ ∃ a, x = .ok a ∧ f a = .ok b := by
  cases x with
  | error error =>
      constructor
      · nofun
      · rintro ⟨_, ⟨⟩, _⟩
  | ok a =>
      show f a = .ok b ↔ _
      simp

theorem map_eq_ok_iff {ε : Type} {x : Except ε α} {f : α → β} {b : β} :
    (f <$> x) = .ok b ↔ ∃ a, x = .ok a ∧ f a = b := by
  cases x with
  | error error =>
      constructor
      · nofun
      · rintro ⟨_, ⟨⟩, _⟩
  | ok a =>
      show Except.ok (f a) = .ok b ↔ _
      simp

/-- Steps over a list give a list of values exactly if each gives the value in its place. -/
theorem mapM_eq_ok_iff {f : α → Result β} {items : List α} {values : List β} :
    items.mapM f = .ok values ↔
      List.Forall₂ (fun item value => f item = .ok value) items values := by
  induction items generalizing values with
  | nil =>
      rw [List.mapM_nil, List.forall₂_nil_left_iff]
      exact ⟨fun h => (Except.ok.inj h).symm, fun h => congrArg Except.ok h.symm⟩
  | cons item rest ih =>
      rw [List.mapM_cons, bind_eq_ok_iff, List.forall₂_cons_left_iff]
      constructor
      · rintro ⟨value, hvalue, h⟩
        obtain ⟨others, hothers, h⟩ := bind_eq_ok_iff.1 h
        exact ⟨value, others, hvalue, ih.1 hothers, (Except.ok.inj h).symm⟩
      · rintro ⟨value, others, hvalue, hothers, rfl⟩
        exact ⟨value, hvalue, bind_eq_ok_iff.2 ⟨others, ih.2 hothers, rfl⟩⟩

/-- Steps over a list succeed exactly if each of them does. -/
theorem exists_mapM_eq_ok_iff {f : α → Result β} {items : List α} :
    (∃ values, items.mapM f = .ok values) ↔ ∀ item ∈ items, ∃ value, f item = .ok value := by
  induction items with
  | nil => exact ⟨fun _ _ h => absurd h List.not_mem_nil, fun _ => ⟨[], rfl⟩⟩
  | cons item rest ih =>
      rw [List.forall_mem_cons, ← ih]
      simp only [mapM_eq_ok_iff, List.forall₂_cons_left_iff]
      constructor
      · rintro ⟨_, value, others, hvalue, hothers, rfl⟩
        exact ⟨⟨value, hvalue⟩, others, hothers⟩
      · rintro ⟨⟨value, hvalue⟩, others, hothers⟩
        exact ⟨_, value, others, hvalue, hothers, rfl⟩

/-- Steps over a list raise only what each of them can. -/
theorem raisesOnly_mapM {f : α → Result β} {items : List α}
    (h : ∀ item ∈ items, RaisesOnly P (f item)) : RaisesOnly P (items.mapM f) := by
  induction items with
  | nil => simp
  | cons item rest ih =>
      have hrest := ih fun other hother => h other (List.mem_cons_of_mem _ hother)
      simp [h item List.mem_cons_self, hrest]

/-- What a step leaves as it is, all steps of a list leave as it is. -/
theorem map_eq_of_mapM {γ : Type} {f : α → Result β} {view : α → γ} {view' : β → γ}
    (h : ∀ a b, f a = .ok b → view a = view' b) {items : List α} {results : List β}
    (hresults : items.mapM f = .ok results) : items.map view = results.map view' := by
  induction items generalizing results with
  | nil =>
      cases hresults
      rfl
  | cons item rest ih =>
      rw [List.mapM_cons] at hresults
      obtain ⟨result, hresult, hresults⟩ := bind_eq_ok_iff.1 hresults
      obtain ⟨others, hothers, hresults⟩ := bind_eq_ok_iff.1 hresults
      cases hresults
      rw [List.map_cons, List.map_cons, h item result hresult, ih hothers]

/-- The same for a step that may be left out. -/
theorem map_eq_of_optionMapM {γ : Type} {f : α → Result β} {view : α → γ} {view' : β → γ}
    (h : ∀ a b, f a = .ok b → view a = view' b) {item : Option α} {result : Option β}
    (hresult : item.mapM f = .ok result) : item.map view = result.map view' := by
  cases item with
  | none =>
      cases hresult
      rfl
  | some a =>
      obtain ⟨b, hb, rfl⟩ := map_eq_ok_iff.1 hresult
      rw [Option.map_some, Option.map_some, h a b hb]

theorem RaisesOnly.mono {r : Result α} (h : RaisesOnly P r) (himp : ∀ error, P error → P' error) :
    RaisesOnly P' r :=
  fun error herror => himp error (h error herror)

/-! ### Values that a computation yields

The counterpart for results. A property of the result of a sequence of steps is required of the last
step, given what the steps before it yield. -/

/-- If the computation succeeds, its value has a property. -/
def Yields (Q : α → Prop) (r : Result α) : Prop := ∀ a, r = .ok a → Q a

@[simp] theorem yields_ok {Q : α → Prop} {a : α} : Yields Q (.ok a) ↔ Q a := by
  constructor
  · intro h
    exact h a rfl
  · rintro h _ ⟨⟩
    exact h

@[simp] theorem yields_pure {Q : α → Prop} {a : α} : Yields Q (pure a) ↔ Q a := yields_ok

@[simp] theorem yields_error {Q : α → Prop} (error : EvalError) : Yields Q (.error error) := nofun

@[simp] theorem yields_throw {Q : α → Prop} (error : EvalError) : Yields Q (throw error) := nofun

@[simp] theorem yields_true (r : Result α) : Yields (fun _ => True) r := fun _ _ => trivial

@[simp] theorem yields_ite {Q : α → Prop} {c : Prop} [Decidable c] {x y : Result α} :
    Yields Q (if c then x else y) ↔ (c → Yields Q x) ∧ (¬ c → Yields Q y) := by
  split <;> simp [*]

/-- A sequence of two steps yields what its second step yields, given what the first did. -/
@[simp] theorem yields_bind {Q : β → Prop} {x : Result α} {f : α → Result β} :
    Yields Q (x >>= f) ↔ Yields (fun a => Yields Q (f a)) x := by
  cases x with
  | error error =>
      show Yields Q (.error error) ↔ _
      simp
  | ok a =>
      show Yields Q (f a) ↔ _
      simp

@[simp] theorem yields_map {Q : β → Prop} {x : Result α} {f : α → β} :
    Yields Q (f <$> x) ↔ Yields (fun a => Q (f a)) x := by
  cases x with
  | error error =>
      show Yields Q (.error error) ↔ _
      simp
  | ok a =>
      show Yields Q (.ok (f a)) ↔ _
      simp

theorem Yields.mono {Q R : α → Prop} {r : Result α} (h : Yields Q r) (himp : ∀ a, Q a → R a) :
    Yields R r :=
  fun a ha => himp a (h a ha)

/-- What a first step yields can be used for the second. -/
theorem Yields.bind {Q : α → Prop} {R : β → Prop} {x : Result α} {f : α → Result β}
    (hx : Yields Q x) (hf : ∀ a, Q a → Yields R (f a)) : Yields R (x >>= f) :=
  yields_bind.2 (hx.mono hf)

/-- A second step that yields what is asked after any first step. -/
theorem Yields.after {R : β → Prop} {x : Result α} {f : α → Result β}
    (hf : ∀ a, Yields R (f a)) : Yields R (x >>= f) :=
  (yields_true x).bind fun a _ => hf a

/-- Steps over a list yield a list of what each of them yields. -/
theorem yields_mapM {Q : β → Prop} {f : α → Result β} {items : List α}
    (h : ∀ item ∈ items, Yields Q (f item)) : Yields (∀ b ∈ ·, Q b) (items.mapM f) := by
  induction items with
  | nil => simp
  | cons item rest ih =>
      obtain ⟨hitem, hrest⟩ := List.forall_mem_cons.1 h
      rw [List.mapM_cons, yields_bind]
      refine hitem.mono fun b hb => yields_bind.2 ((ih hrest).mono fun bs hbs => ?_)
      exact yields_pure.2 (List.forall_mem_cons.2 ⟨hb, hbs⟩)

theorem yields_optionMapM {Q : β → Prop} {f : α → Result β} {item : Option α}
    (h : ∀ a ∈ item, Yields Q (f a)) : Yields (∀ b ∈ ·, Q b) (item.mapM f) := by
  cases item with
  | none => exact yields_pure.2 nofun
  | some a =>
      refine yields_map.2 ((h a rfl).mono ?_)
      rintro b hb _ ⟨⟩
      exact hb

/-! ### Computations that overflow

Here success is claimed as well: the computation succeeds if its exact result fits, and overflows if
not. Sequencing makes the conjunction of the two conditions. -/

/-- The computation succeeds where a condition holds, with a value that has a property, and overflows
    everywhere else. -/
structure OverflowsUnless (fits : Prop) (Q : α → Prop) (r : Result α) : Prop where
  success : fits → ∃ a, r = .ok a ∧ Q a
  overflow : ¬ fits → ∃ error, r = .error (.overflow error)

namespace OverflowsUnless

variable {fits fits' : Prop} {Q : α → Prop} {x : Result α}

/-- A computation that succeeded did not have to overflow. -/
theorem of_ok {a : α} (h : OverflowsUnless fits Q x) (hx : x = .ok a) : fits ∧ Q a := by
  subst hx
  by_cases hfits : fits
  · obtain ⟨a, ha, hQ⟩ := h.success hfits
    cases ha
    exact ⟨hfits, hQ⟩
  · obtain ⟨error, herror⟩ := h.overflow hfits
    cases herror

theorem mono {R : α → Prop} (h : OverflowsUnless fits Q x) (himp : ∀ a, Q a → R a) :
    OverflowsUnless fits R x where
  success hfits := by
    obtain ⟨a, hx, ha⟩ := h.success hfits
    exact ⟨a, hx, himp a ha⟩
  overflow := h.overflow

/-- A sequence of two steps overflows where one of them does. -/
theorem bind {R : β → Prop} {f : α → Result β} (hx : OverflowsUnless fits Q x)
    (hf : ∀ a, Q a → OverflowsUnless fits' R (f a)) :
    OverflowsUnless (fits ∧ fits') R (x >>= f) where
  success h := by
    obtain ⟨a, rfl, ha⟩ := hx.success h.1
    exact (hf a ha).success h.2
  overflow h := by
    by_cases hfits : fits
    · obtain ⟨a, rfl, ha⟩ := hx.success hfits
      exact (hf a ha).overflow fun hfits' => h ⟨hfits, hfits'⟩
    · obtain ⟨error, rfl⟩ := hx.overflow hfits
      exact ⟨error, rfl⟩

/-- A last step that never fails. -/
theorem map {R : β → Prop} {f : α → β} (hx : OverflowsUnless fits Q x) (hf : ∀ a, Q a → R (f a)) :
    OverflowsUnless fits R (x >>= fun a => pure (f a)) where
  success h := by
    obtain ⟨a, rfl, ha⟩ := hx.success h
    exact ⟨f a, rfl, hf a ha⟩
  overflow h := by
    obtain ⟨error, rfl⟩ := hx.overflow h
    exact ⟨error, rfl⟩

end OverflowsUnless

/-! ### The first of several faults

The faults of a computation are listed in the order in which it comes to them. It succeeds if there
are none and reports the first otherwise, so that sequencing is putting two lists together. -/

/-- The computation fails with the first of some faults, and succeeds if there are none. -/
inductive Reports {ε : Type} : List ε → Except ε α → Prop
  | success (a : α) : Reports [] (.ok a)
  | failure (error : ε) (others : List ε) : Reports (error :: others) (.error error)

/-- The fault of a computation by itself. -/
def faultOf {ε : Type} : Except ε α → List ε
  | .ok _ => []
  | .error error => [error]

/-- A computation by itself has one fault or none. -/
theorem reports_faultOf {ε : Type} (r : Except ε α) : Reports (faultOf r) r := by
  cases r with
  | ok a => exact .success a
  | error error => exact .failure error []

namespace Reports

variable {ε : Type} {faults faults' : List ε} {x : Except ε α}

/-- There is a result exactly if there are no faults. -/
theorem exists_ok_iff (h : Reports faults x) : (∃ a, x = .ok a) ↔ faults = [] := by
  cases h with
  | success a => simp
  | failure error others => simp

/-- The first fault is the one reported. -/
theorem eq_error {error : ε} {others : List ε} (h : Reports (error :: others) x) :
    x = .error error := by
  cases h
  rfl

/-- The faults of a second step come after those of the first, which has to succeed for them. -/
theorem bind {f : α → Except ε β} (hx : Reports faults x)
    (hf : ∀ a, x = .ok a → Reports faults' (f a)) : Reports (faults ++ faults') (x >>= f) := by
  cases hx with
  | success a => exact hf a rfl
  | failure error others => exact .failure error (others ++ faults')

theorem map (f : α → β) (hx : Reports faults x) : Reports faults (f <$> x) := by
  cases hx with
  | success a => exact .success (f a)
  | failure error others => exact .failure error others

/-- Steps over a list have the faults of all items, in their order. The faults may be told from
    other items, one for each. -/
theorem mapM {γ : Type} {faultsOf : γ → List ε} {f : α → Except ε β} {sources : List γ}
    {items : List α}
    (h : List.Forall₂ (fun source item => Reports (faultsOf source) (f item)) sources items) :
    Reports (sources.flatMap faultsOf) (items.mapM f) := by
  induction h with
  | nil => exact .success []
  | cons hhead _ ih =>
      rw [List.flatMap_cons, List.mapM_cons]
      exact hhead.bind fun b _ => ih.map (b :: ·)

end Reports

end ClauseEngine
