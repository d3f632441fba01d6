/-
Module: ClauseEngine.Proofs.Duration.Units
Purpose: Which values denote a temporal unit. The encodings are given by three rules that mention no
  decoder: the name of the unit alone, a left side inside as many right sides as the ordinal, and for
  the last unit also a terminal that is no side of a sum itself. Every value is a number of right sides
  around one that is no right side; the decoder gets there, and what it finds decides.
Main exports: TemporalUnit.Admits, TemporalUnit.Encodes, TemporalUnit.exists_eq_nest,
  TemporalUnit.ofNested_nest, TemporalUnit.ofNested_eq_ok_iff, TemporalUnit.ofValue_eq_ok_iff,
  TemporalUnit.encodings_exact
-/
import ClauseEngine.Proofs.Duration
import ClauseEngine.Proofs.Primitive.Errors
import ClauseEngine.Proofs.Value.Basic

namespace ClauseEngine

namespace TemporalUnit

/-- A terminal that may stand for a unit: no text, or the name of the unit. -/
def Admits (u : TemporalUnit) (terminal : Value) : Prop :=
  terminal.kind ≠ .str ∨ terminal = .str u.name

/-- The values that denote a unit: its name alone, a left side inside as many right sides as its
    ordinal, and, for the last unit, a terminal without its left side. -/
inductive Encodes (u : TemporalUnit) : Value → Prop where
  | name : Encodes u (.str u.name)
  | nested (terminal : Value) (h : u.Admits terminal) :
      Encodes u (nest u.ordinal (.left terminal))
  | bare (terminal : Value) (hunit : u = .weeks) (hleft : terminal.kind ≠ .left)
      (hright : terminal.kind ≠ .right) (h : u.Admits terminal) :
      Encodes u (nest 4 terminal)

variable {u : TemporalUnit} {v terminal : Value}

/-! ### Names and ordinals

Names and ordinals tell the units apart, so that a look-up by either is answered exactly if it is
asked for the right one. -/

/-- A unit is found at its ordinal and nowhere else. -/
theorem getElem?_all_eq_some_iff {ordinal : Nat} : all[ordinal]? = some u ↔ ordinal = u.ordinal := by
  constructor
  · intro h
    rcases ordinal with _ | _ | _ | _ | _ | _ <;> cases h <;> rfl
  · rintro rfl
    cases u <;> rfl

theorem ordinal_eq_four_iff : u.ordinal = 4 ↔ u = .weeks := by
  cases u <;> decide

theorem ofName_name (u : TemporalUnit) : ofName u.name = .ok u := by
  cases u <;> rfl

/-- A name finds a unit exactly if it is the name of that unit. -/
theorem ofName_eq_ok_iff {name : String} : ofName name = .ok u ↔ name = u.name := by
  constructor
  · intro h
    unfold ofName at h
    split at h
    · rename_i unit hfound
      cases h
      have hname := List.find?_some hfound
      exact (beq_iff_eq.1 hname).symm
    · cases h
  · rintro rfl
    exact ofName_name u

/-! ### The walk down the right sides

The decoder counts right sides until it meets something else. By induction over the value it ends at
the depth and the terminal that the value has, and the answer depends on these two alone. -/

/-- A value has finitely many right sides around what is no right side. -/
theorem exists_eq_nest (v : Value) : ∃ rights rest, v = nest rights rest ∧ rest.kind ≠ .right := by
  induction v using Value.induction with
  | right payload ih =>
      obtain ⟨rights, rest, rfl, hrest⟩ := ih
      exact ⟨rights + 1, rest, rfl, hrest⟩
  | _ => exact ⟨0, _, rfl, by simp [Value.kind]⟩

/-- One step of the walk for each right side. -/
theorem ofNested_nest (depth rights : Nat) (rest : Value) :
    ofNested depth (nest rights rest) = ofNested (depth + rights) rest := by
  induction rights generalizing depth with
  | zero => rfl
  | succ rights ih =>
      rw [nest, ofNested, ih, Nat.add_assoc, Nat.add_comm 1]

/-- Of all strings a unit admits its name only. -/
theorem admits_str {name : String} : u.Admits (.str name) ↔ name = u.name := by
  simp [Admits, Value.kind]

/-- At the end of the walk, the depth names the unit and the terminal has to be one that it admits.
    -/
theorem ofTerminal_eq_ok_iff {ordinal : Nat} :
    ofTerminal ordinal terminal = .ok u ↔ ordinal = u.ordinal ∧ u.Admits terminal := by
  rw [← getElem?_all_eq_some_iff]
  unfold ofTerminal
  cases all[ordinal]? with
  | none => simp
  | some unit =>
      cases terminal with
      | str name =>
          rw [admits_str, Option.some.injEq]
          dsimp only
          split
          · rename_i hname
            constructor
            · rintro ⟨⟩
              exact ⟨rfl, hname⟩
            · rintro ⟨rfl, -⟩
              rfl
          · rename_i hname
            constructor
            · rintro ⟨⟩
            · rintro ⟨rfl, hother⟩
              exact absurd hother hname
      | _ => simp [Admits, Value.kind]

/-- Where the walk ends: on a left side at the ordinal of the unit, or at the depth of the last unit
    on a value that is no side of a sum. -/
theorem ofNested_eq_ok_iff {depth : Nat} {rest : Value} (hrest : rest.kind ≠ .right) :
    ofNested depth rest = .ok u ↔
      (∃ terminal, rest = .left terminal ∧ depth = u.ordinal ∧ u.Admits terminal) ∨
        (u = .weeks ∧ depth = 4 ∧ rest.kind ≠ .left ∧ u.Admits rest) := by
  have hbare : ∀ error : UnitError,
      (if depth = 4 then ofTerminal depth rest else .error (.badUnit error)) = .ok u ↔
        u = .weeks ∧ depth = 4 ∧ u.Admits rest := by
    intro error
    split
    · rename_i hdepth
      rw [ofTerminal_eq_ok_iff, hdepth, eq_comm, ordinal_eq_four_iff]
      simp
    · rename_i hdepth
      simp [hdepth]
  cases rest with
  | right payload => exact absurd rfl hrest
  | left payload =>
      rw [ofNested, ofTerminal_eq_ok_iff]
      simp [Value.kind]
  | _ =>
      refine (hbare _).trans ?_
      simp [Value.kind]

/-! ### All values

A string is looked up by name and any other value is walked down. Both ways are covered by the rules
for encodings, and each rule is followed by the decoder. -/

/-- What is no string is read by the walk from the top. -/
theorem ofValue_eq_ofNested (h : v.kind ≠ .str) : ofValue v = ofNested 0 v := by
  cases v with
  | str name => exact absurd rfl h
  | _ => rfl

/-- Whatever the decoder accepts is an encoding by the rules. -/
theorem Encodes.of_ofValue (h : ofValue v = .ok u) : Encodes u v := by
  by_cases hstr : v.kind = .str
  · cases v with
    | str name =>
        obtain rfl := ofName_eq_ok_iff.1 h
        exact .name
    | _ => cases hstr
  · obtain ⟨rights, rest, rfl, hrest⟩ := exists_eq_nest v
    rw [ofValue_eq_ofNested hstr, ofNested_nest, Nat.zero_add, ofNested_eq_ok_iff hrest] at h
    rcases h with ⟨terminal, rfl, rfl, hadmits⟩ | ⟨rfl, rfl, hleft, hadmits⟩
    · exact .nested terminal hadmits
    · exact .bare rest rfl hleft hrest hadmits

/-- Every encoding by the rules is accepted by the decoder. -/
theorem Encodes.ofValue_eq (h : Encodes u v) : ofValue v = .ok u := by
  cases h with
  | name => exact ofName_name u
  | nested terminal hadmits =>
      have hkind : (nest u.ordinal (.left terminal)).kind ≠ .str := by
        cases u <;> simp [ordinal, nest, Value.kind]
      rw [ofValue_eq_ofNested hkind, ofNested_nest, Nat.zero_add,
        ofNested_eq_ok_iff (by simp [Value.kind])]
      exact .inl ⟨terminal, rfl, rfl, hadmits⟩
  | bare terminal hunit hleft hright hadmits =>
      -- Inside right sides, even a text is no name by itself.
      have hkind : (nest 4 terminal).kind ≠ .str := by simp [nest, Value.kind]
      rw [ofValue_eq_ofNested hkind, ofNested_nest, ofNested_eq_ok_iff hright]
      exact .inr ⟨hunit, rfl, hleft, hadmits⟩

/-- The decoder gives a unit exactly for its encodings. -/
theorem ofValue_eq_ok_iff : ofValue v = .ok u ↔ Encodes u v :=
  ⟨Encodes.of_ofValue, Encodes.ofValue_eq⟩

/-- No value encodes two units. -/
theorem Encodes.unique {u' : TemporalUnit} (h : Encodes u v) (h' : Encodes u' v) : u = u' :=
  Except.ok.inj (h.ofValue_eq.symm.trans h'.ofValue_eq)

/-- The decoder on any value. Its walk takes a step for each of the right sides, of which there are
    finitely many, and ends on what they contain. It gives a unit exactly for the encodings of the
    unit, and refuses exactly what encodes none with an error about units. No value encodes two units,
    and a duration is read back from its record. -/
theorem encodings_exact (v : Value) :
    (∃ rights rest, v = nest rights rest ∧ rest.kind ≠ .right ∧
      ofNested 0 v = ofNested rights rest) ∧
    (∀ u : TemporalUnit, ofValue v = .ok u ↔ Encodes u v) ∧
    ((∃ error, ofValue v = .error (.badUnit error)) ↔ ∀ u : TemporalUnit, ¬ Encodes u v) ∧
    (∀ u u' : TemporalUnit, Encodes u v → Encodes u' v → u = u') ∧
    ∀ (n : Int64) (u : TemporalUnit),
      Duration.ofValue (Duration.toValue ⟨n, u⟩) = .ok ⟨n, u⟩ := by
  refine ⟨?_, fun u => ofValue_eq_ok_iff, ⟨?_, ?_⟩, fun u u' => Encodes.unique,
    fun n u => Duration.ofValue_toValue ⟨n, u⟩⟩
  · obtain ⟨rights, rest, rfl, hrest⟩ := exists_eq_nest v
    exact ⟨rights, rest, rfl, hrest, by rw [ofNested_nest, Nat.zero_add]⟩
  · rintro ⟨error, herror⟩ u hencodes
    cases herror.symm.trans hencodes.ofValue_eq
  · intro hnone
    cases hread : ofValue v with
    | ok u => exact absurd (Encodes.of_ofValue hread) (hnone u)
    | error error =>
        obtain ⟨cause, rfl⟩ := ofValue_unitErrors v error hread
        exact ⟨cause, rfl⟩

/-- At the depth of weeks a number is a terminal by itself, and of weeks only; one step deeper even a
    left side is refused. -/
theorem encodings_exact_of_depths :
    Encodes .weeks (nest 4 (.nat 7)) ∧ ofValue (nest 4 (.nat 7)) = .ok .weeks ∧
      (∀ u : TemporalUnit, Encodes u (nest 4 (.nat 7)) → u = .weeks) ∧
      (∀ u : TemporalUnit, ¬ Encodes u (nest 5 (.left (.str "weeks")))) ∧
      Duration.ofValue (Duration.toValue ⟨-3, .weeks⟩) = .ok ⟨-3, .weeks⟩ := by
  obtain ⟨-, hunits, -, hunique, hback⟩ := encodings_exact (nest 4 (.nat 7))
  obtain ⟨-, -, hrefused, -, -⟩ := encodings_exact (nest 5 (.left (.str "weeks")))
  have hweeks : Encodes .weeks (nest 4 (.nat 7)) :=
    .bare (.nat 7) rfl (by simp [Value.kind]) (by simp [Value.kind]) (.inl (by simp [Value.kind]))
  exact ⟨hweeks, (hunits .weeks).2 hweeks, fun u h => hunique u .weeks h hweeks,
    hrefused.1 ⟨_, rfl⟩, hback (-3) .weeks⟩

end TemporalUnit

end ClauseEngine
