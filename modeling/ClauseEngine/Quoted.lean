/-
Module: ClauseEngine.Quoted
Purpose: Strings as messages quote them: in quotation marks, with every character that would not be
  seen on its own written by its code.
Main exports: Quoted.isVisible, Quoted.isVisible_iff, Quoted.write
-/
import ClauseEngine.Character.Combining
import ClauseEngine.Character.Silent
import ClauseEngine.Character.Unassigned

namespace ClauseEngine

namespace Quoted

/-- The character shows on its own: it puts a sign on the page, is no mark on the character before
    it, and is a character at all. -/
def isVisible (c : Char) : Bool :=
  !(Character.isSilent c.toNat || Character.isCombining c.toNat || Character.isUnassigned c.toNat)

/-- A character is visible exactly if no range of the three tables holds its code point. -/
theorem isVisible_iff (c : Char) :
    isVisible c = true ↔
      ∀ range ∈ Character.silent ++ Character.combining ++ Character.unassigned,
        ¬ (range.1 ≤ c.toNat ∧ c.toNat ≤ range.2) := by
  have hsilent := Ranges.covers_iff Character.silent_ascending c.toNat
  have hcombining := Ranges.covers_iff Character.combining_ascending c.toNat
  have hunassigned := Ranges.covers_iff Character.unassigned_ascending c.toNat
  rw [isVisible, Character.isSilent, Character.isCombining, Character.isUnassigned,
    Bool.not_eq_true', ← Bool.not_eq_true, Bool.or_eq_true, Bool.or_eq_true, hsilent, hcombining,
    hunassigned]
  constructor
  · intro hnone range hrange hholds
    apply hnone
    rcases List.mem_append.1 hrange with hrange | hrange
    · exact .inl ((List.mem_append.1 hrange).imp (fun h => ⟨range, h, hholds⟩)
        fun h => ⟨range, h, hholds⟩)
    · exact .inr ⟨range, hrange, hholds⟩
  · rintro hnone ((⟨range, hrange, hholds⟩ | ⟨range, hrange, hholds⟩) | ⟨range, hrange, hholds⟩)
    · exact hnone range (List.mem_append_left _ (List.mem_append_left _ hrange)) hholds
    · exact hnone range (List.mem_append_left _ (List.mem_append_right _ hrange)) hholds
    · exact hnone range (List.mem_append_right _ hrange) hholds

/-- A character between quotation marks. -/
def escaped (c : Char) : List Char :=
  match c with
  | '"' => ['\\', '"']
  | '\\' => ['\\', '\\']
  | '\n' => ['\\', 'n']
  | '\r' => ['\\', 'r']
  | '\t' => ['\\', 't']
  | '\x00' => ['\\', '0']
  | c =>
      if isVisible c then [c]
      else ['\\', 'u', '\x7b'] ++ Nat.toDigits 16 c.toNat ++ ['\x7d']

/-- A string in quotation marks. -/
def write (s : String) : String := String.ofList ('"' :: (s.toList.flatMap escaped ++ ['"']))

end Quoted

end ClauseEngine
