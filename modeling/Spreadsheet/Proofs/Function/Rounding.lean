import Spreadsheet.Proofs.Function.Arguments
import Spreadsheet.Proofs.Number.HalfEven

/-!
# ABS and ROUND

Both count their arguments before ranges are opened and empty values are left out, and take the
number and the decimal places from what is left then. An argument that holds one number therefore
counts as that number, but one that holds none lets the places move up into its place, and one that
holds several loses all but the first. Whole numbers are rounded to the nearest multiple, the even
one of two that are equally near.
-/

set_option autoImplicit false

namespace Spreadsheet

namespace Builtin

/-- A number rounded to as many decimal places as the whole part of another one says. -/
def rounded (n places : Number) : Except FunctionFault Value := do
  return .ofNumber (← numeric (n.round (← numeric places.truncate)))

variable {arguments : List Value} {ns : List Number}

/-! ## Positions -/

/-- What ABS makes of the numbers in its argument. -/
def absHeld : List Number → Except FunctionFault Value
  | [] => .error .missingArgument
  | n :: _ => .ok (.ofNumber n.abs)

/-- What ROUND makes of the numbers among its arguments: just two of them are a number and its
places. -/
def roundHeld : List Number → Except FunctionFault Value
  | [] => .error .missingArgument
  | [n, places] => rounded n places
  | n :: _ => rounded n (.int 0)

theorem abs_eq_bind (x : Value) : abs [x] = (numbers "ABS" [x] >>= absHeld) := by
  rw [abs, if_neg (show ¬ ([x].length != 1) = true from Bool.false_ne_true)]
  rfl

theorem round_eq_bind (hCount : arguments.length = 1 ∨ arguments.length = 2) :
    round arguments = (numbers "ROUND" arguments >>= roundHeld) := by
  have hArity : ¬ (decide (arguments.length < 1) || decide (2 < arguments.length)) = true := by
    rcases hCount with hOne | hTwo
    · rw [hOne]
      decide
    · rw [hTwo]
      decide
  rw [round, if_neg hArity]
  rfl

theorem abs_of_holds {x : Value} (h : Holds [x] ns) : abs [x] = absHeld ns := by
  rw [abs_eq_bind, numbers_eq_ok_iff.mpr h]
  rfl

theorem round_of_holds (hCount : arguments.length = 1 ∨ arguments.length = 2)
    (h : Holds arguments ns) : round arguments = roundHeld ns := by
  rw [round_eq_bind hCount, numbers_eq_ok_iff.mpr h]
  rfl

theorem abs_error_of_not_holds {x : Value} (h : ∀ ns, ¬ Holds [x] ns) :
    ∃ fault, abs [x] = .error fault := by
  obtain ⟨fault, hFault⟩ := exists_error_of_not_holds "ABS" h
  rw [abs_eq_bind, hFault]
  exact ⟨fault, rfl⟩

theorem round_error_of_not_holds (hCount : arguments.length = 1 ∨ arguments.length = 2)
    (h : ∀ ns, ¬ Holds arguments ns) : ∃ fault, round arguments = .error fault := by
  obtain ⟨fault, hFault⟩ := exists_error_of_not_holds "ROUND" h
  rw [round_eq_bind hCount, hFault]
  exact ⟨fault, rfl⟩

/-- ABS and ROUND by what their first argument holds. If it is one number, the places apply to it. If
it is none, the places are rounded in its place. Of several numbers all but the first are passed
over, or the second one is taken for the places. -/
theorem abs_round_by_held_numbers (x : Value) (d : Number) :
    (∀ n, Holds [x] [n] →
      abs [x] = .ok (.ofNumber n.abs) ∧ round [x] = rounded n (.int 0) ∧
        round [x, .ofNumber d] = rounded n d) ∧
    (Holds [x] [] →
      abs [x] = .error .missingArgument ∧ round [x] = .error .missingArgument ∧
        round [x, .ofNumber d] = rounded d (.int 0)) ∧
    (∀ n k ns, Holds [x] (n :: k :: ns) →
      abs [x] = .ok (.ofNumber n.abs) ∧ round [x] = rounded n (if ns.isEmpty then k else .int 0) ∧
        round [x, .ofNumber d] = rounded n (.int 0)) ∧
    ((∀ ns, ¬ Holds [x] ns) →
      (∃ fault, abs [x] = .error fault) ∧ (∃ fault, round [x] = .error fault) ∧
        ∃ fault, round [x, .ofNumber d] = .error fault) := by
  have hAlone {ns : List Number} (h : Holds [x] ns) : round [x] = roundHeld ns :=
    round_of_holds (.inl rfl) h
  have hPlaces {ns : List Number} (h : Holds [x] ns) :
      round [x, .ofNumber d] = roundHeld (ns ++ [d]) :=
    round_of_holds (.inr rfl) (h.append (holds_ofNumber d))
  refine ⟨fun n h => ?_, fun h => ?_, fun n k ns h => ?_, fun h => ?_⟩
  · exact ⟨abs_of_holds h, hAlone h, hPlaces h⟩
  · exact ⟨abs_of_holds h, hAlone h, hPlaces h⟩
  · refine ⟨abs_of_holds h, ?_, ?_⟩
    · rw [hAlone h]
      cases ns <;> rfl
    · rw [hPlaces h]
      cases ns <;> rfl
  · have hBoth : ∀ ns, ¬ Holds ([x] ++ [.ofNumber d]) ns := fun ns hHolds =>
      (hHolds.of_append).elim h
    exact ⟨abs_error_of_not_holds h, round_error_of_not_holds (.inl rfl) h,
      round_error_of_not_holds (.inr rfl) hBoth⟩

/-- An empty cell is rounded to its places, a list of two numbers to the second of them, and of a
list of two numbers ABS takes the first. -/
theorem places_taken_for_the_number :
    Holds [.null] [] ∧ round [.null, .int 5] = .ok (.int 5) ∧
      Holds [.list [.int 127, .int (-1)]] [.int 127, .int (-1)] ∧
      round [.list [.int 127, .int (-1)]] = .ok (.int 130) ∧
      abs [.list [.int 127, .int (-1)]] = .ok (.int 127) := by
  refine ⟨rfl, rfl, rfl, ?_, rfl⟩
  cbv

/-! ## Whole numbers -/

/-- ROUND of whole numbers: places after the point change nothing, and places before it give the
nearest multiple of their power of ten, the even one of two that are equally near. -/
theorem round_whole_half_even (places : Int) :
    ∃ f : Int → Int, (∀ n, round [.int n, .int places] = .ok (.int (f n))) ∧
      (0 ≤ places → ∀ n, f n = n) ∧
      (∀ n, ∃ q, f n = q * 10 ^ (-places).toNat ∧ IsNearestEven n (10 ^ (-places).toNat) q) ∧
      (∀ n, f (-n) = -f n) ∧ Monotone f ∧ ∀ n, f (f n) = f n := by
  refine ⟨fun n => Number.roundInt n places, fun n => ?_, Number.roundInt_of_nonneg,
    fun n => Number.roundInt_spec n places, fun n => Number.roundInt_neg n places,
    Number.roundInt_monotone places, fun n => Number.roundInt_roundInt n places⟩
  have hHolds : Holds [.int n, .int places] [.int n, .int places] := rfl
  rw [round_of_holds (.inr rfl) hHolds]
  rfl

end Builtin
end Spreadsheet
