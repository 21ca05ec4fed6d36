import Spreadsheet.Proofs.Address.RoundTrip
import Spreadsheet.Proofs.Evaluation.OwnFailure
import Spreadsheet.Proofs.Evaluation.Support

/-!
# The first cell that fails

A formula comes to its references in the order of the reference walk, and goes on past a cell as
long as the cell settles clean. So a failure that is not the formula's own is the doing of the first
of its references that is not clean, and all references before that one are clean.
-/

set_option autoImplicit false

namespace Spreadsheet

open Evaluation

/-- A function sees values and no cells, so the error of a cell is not its to pass on. -/
def Registry.ReportsNoCell (r : Registry) : Prop :=
  ∀ name f, r.byName? name = some f → ∀ arguments address cause,
    f arguments ≠ .error (.formula (.dependentCell address cause))

theorem Registry.ReportsNoCell.not_reports {r : Registry} (h : r.ReportsNoCell)
    (address cause : String) : ¬ r.Reports (.dependentCell address cause) := by
  rintro ⟨name, f, arguments, hFunction, hFault⟩
  exact h name f hFunction arguments address cause hFault

/-- There is one first cell in a list that is not clean. -/
theorem eq_of_first_unclean {P : Coordinate → Prop} {done rest done' rest' : List Coordinate}
    {c z : Coordinate} (hLists : done ++ c :: rest = done' ++ z :: rest') (hDone : ∀ x ∈ done, P x)
    (hDone' : ∀ x ∈ done', P x) (hc : ¬ P c) (hz : ¬ P z) : c = z := by
  induction done generalizing done' with
  | nil =>
    cases done' with
    | nil => exact (List.cons.inj hLists).1
    | cons x xs =>
      obtain rfl := (List.cons.inj hLists).1
      exact absurd (hDone' c List.mem_cons_self) hc
  | cons x xs ih =>
    cases done' with
    | nil =>
      obtain rfl := (List.cons.inj hLists).1
      exact absurd (hDone x List.mem_cons_self) hz
    | cons y ys =>
      exact ih (List.cons.inj hLists).2 (fun x hx => hDone x (List.mem_cons_of_mem _ hx))
        fun x hx => hDone' x (List.mem_cons_of_mem _ hx)

namespace Formula

/-- What is told of the cells that a formula asks for and of the failures that it ends in. -/
structure Verdict (State : Type) where
  /-- Formulas go on past the cell. -/
  clean : Coordinate → Prop
  /-- The failure is no cell's doing. -/
  own : Failure → Prop
  /-- The failure is the doing of the cell, seen from the state afterwards. -/
  blames : State → Coordinate → Failure → Prop

variable {State α β : Type} {I : State → Prop} {V : Verdict State} {env : Surroundings State}
  {asked : Coordinate → Prop} {cs ds : List Coordinate} {c : Coordinate} {x : Evaluation State α}
  {k : α → Evaluation State β} {t : State} {e : Failure} {address : String}

/-- A failure that is some cell's doing is the doing of the first cell that is not clean. -/
def BlamesFirst (V : Verdict State) (cs : List Coordinate) (t : State) (e : Failure) : Prop :=
  V.own e ∨ ∃ done c rest, cs = done ++ c :: rest ∧ V.blames t c e ∧ ∀ z ∈ done, V.clean z

theorem BlamesFirst.before (h : BlamesFirst V cs t e) (ds : List Coordinate) :
    BlamesFirst V (cs ++ ds) t e := by
  rcases h with hOwn | ⟨done, c, rest, rfl, hRest⟩
  · exact .inl hOwn
  · exact .inr ⟨done, c, rest ++ ds, by simp, hRest⟩

theorem BlamesFirst.past (h : BlamesFirst V ds t e) (hcs : ∀ z ∈ cs, V.clean z) :
    BlamesFirst V (cs ++ ds) t e := by
  rcases h with hOwn | ⟨done, c, rest, rfl, hBlames, hDone⟩
  · exact .inl hOwn
  · refine .inr ⟨cs ++ done, c, rest, by simp, hBlames, fun z hz => ?_⟩
    exact (List.mem_append.mp hz).elim (hcs z) (hDone z)

/-- The computation comes to these cells in this order. They are all clean when it has a result, and
a failure is its own or blames the first one that is not. -/
def ComesTo (I : State → Prop) (V : Verdict State) (cs : List Coordinate)
    (x : Evaluation State α) : Prop :=
  ∀ s, I s → ∃ r t, x s = ended r t ∧ I t ∧ (∀ a, r = .ok a → ∀ z ∈ cs, V.clean z) ∧
    ∀ e, r = .error e → BlamesFirst V cs t e

theorem comesTo_pure (a : α) : ComesTo I V [] (pure a : Evaluation State α) :=
  fun s hs => ⟨.ok a, s, rfl, hs, fun _ _ => nofun, nofun⟩

theorem comesTo_throw (cs : List Coordinate) (he : V.own e) :
    ComesTo I V cs (throw e : Evaluation State α) :=
  fun s hs => ⟨.error e, s, rfl, hs, nofun, fun e' he' => by
    cases he'
    exact .inl he⟩

theorem ComesTo.bind (h : ComesTo I V cs x) (hk : ∀ a, ComesTo I V ds (k a)) :
    ComesTo I V (cs ++ ds) (x >>= k) := by
  intro s hs
  obtain ⟨r, t, hx, ht, hOk, hError⟩ := h s hs
  cases r with
  | error e =>
    refine ⟨.error e, t, bind_of_error hx, ht, nofun, fun e' he' => ?_⟩
    cases he'
    exact (hError e rfl).before ds
  | ok a =>
    have hDone := hOk a rfl
    obtain ⟨r, u, hRun, hu, hOk, hError⟩ := hk a t ht
    refine ⟨r, u, by rw [bind_of_ok hx, hRun], hu, fun b hb z hz => ?_, fun e he => ?_⟩
    · exact (List.mem_append.mp hz).elim (hDone z) (hOk b hb z)
    · exact (hError e he).past hDone

theorem ComesTo.last (h : ComesTo I V cs x) (hk : ∀ a, ComesTo I V [] (k a)) :
    ComesTo I V cs (x >>= k) := by
  simpa using h.bind hk

theorem ComesTo.next (h : ComesTo I V [] x) (hk : ∀ a, ComesTo I V ds (k a)) :
    ComesTo I V ds (x >>= k) := h.bind hk

theorem comesTo_lift {r : Except Failure α} (h : ∀ e, r = .error e → V.own e) :
    ComesTo I V [] (lift r : Evaluation State α) := by
  cases r with
  | ok a => exact comesTo_pure a
  | error e => exact comesTo_throw [] (h e rfl)

theorem valueOf_run (address : String) (cell : Option Cell) (t : State) :
    (∃ v, valueOf address cell t = .ok v t ∧ errorOf cell = none) ∨
      ∃ cause, valueOf address cell t = .error (.formula (.dependentCell address cause)) t ∧
        errorOf cell = some cause := by
  cases cell with
  | none => exact .inl ⟨.null, rfl, rfl⟩
  | some settled =>
    cases hError : settled.error with
    | none =>
      refine .inl ⟨settled.value, ?_, by rw [errorOf, Option.bind_some, hError]⟩
      rw [valueOf, hError]
      rfl
    | some cause =>
      refine .inr ⟨cause, ?_, by rw [errorOf, Option.bind_some, hError]⟩
      rw [valueOf, hError]
      rfl

/-- A cell that settles clean, or else with an error or a failure that it is to blame for, is come
to where its value is asked for. -/
theorem comesTo_valueOf {settle : Evaluation State (Option Cell)}
    (h : ∀ s, I s → ∃ r t, settle s = ended r t ∧ I t ∧
      (∀ cell, r = .ok cell → errorOf cell = none → V.clean c) ∧
      (∀ cell cause, r = .ok cell → errorOf cell = some cause →
        BlamesFirst V [c] t (.formula (.dependentCell address cause))) ∧
      ∀ e, r = .error e → BlamesFirst V [c] t e) :
    ComesTo I V [c] (settle >>= valueOf address) := by
  intro s hs
  obtain ⟨r, t, hRun, ht, hClean, hError, hFails⟩ := h s hs
  cases r with
  | error e =>
    refine ⟨.error e, t, bind_of_error hRun, ht, nofun, fun e' he' => ?_⟩
    cases he'
    exact hFails e rfl
  | ok cell =>
    rcases valueOf_run address cell t with ⟨v, hValue, hNone⟩ | ⟨cause, hValue, hCause⟩
    · refine ⟨.ok v, t, by rw [bind_of_ok hRun, hValue]; rfl, ht, fun _ _ => ?_, nofun⟩
      simpa using hClean cell rfl hNone
    · refine ⟨.error _, t, by rw [bind_of_ok hRun, hValue]; rfl, ht, nofun, ?_⟩
      rintro _ ⟨⟩
      exact hError cell cause rfl hCause

/-- Surroundings in which the values of cells are come to, and all other failures are a formula's
own. -/
structure Discerns (I : State → Prop) (V : Verdict State) (asked : Coordinate → Prop)
    (env : Surroundings State) : Prop where
  plain : ∀ e, PlainFailure e → V.own e
  reported : ∀ fault, env.functions.Reports fault → V.own (.formula fault)
  failed : ∀ function message, V.own (.formula (.functionFailed function message))
  noteCall : ∀ key arguments, ComesTo I V [] (env.noteCall key arguments)
  settle : ∀ c address, asked c → Coordinate.ofAddress address = .ok c →
    ComesTo I V [c] (env.settle c >>= valueOf address)

theorem Discerns.members (h : Discerns I V asked env) (hcs : ∀ c ∈ cs, c.IsAddressable)
    (hAsked : ∀ c ∈ cs, asked c) : ComesTo I V cs (members env cs) := by
  induction cs with
  | nil => exact comesTo_pure _
  | cons c cs ih =>
    have hRest := ih (fun d hd => hcs d (List.mem_cons_of_mem c hd))
      fun d hd => hAsked d (List.mem_cons_of_mem c hd)
    have hFirst := h.settle c c.address (hAsked c List.mem_cons_self)
      (Coordinate.ofAddress_address (hcs c List.mem_cons_self))
    rw [Formula.members, ← bind_assoc]
    refine hFirst.bind fun v => hRest.last fun vs => ?_
    cases v <;> exact comesTo_pure _

theorem Discerns.operand (h : Discerns I V asked env) {fault : Value → FormulaFault} {v : Value}
    (hFault : PlainFailure (.formula (fault v))) : ComesTo I V [] (operand fault v) := by
  unfold Formula.operand
  split
  · exact comesTo_pure _
  · split
    · exact comesTo_throw [] (h.plain _ hFault)
    · exact comesTo_throw [] (h.plain _ (.numeric _))

theorem Discerns.callFunction (h : Discerns I V asked env) (function : String) {f : Function}
    (hFunction : env.functions.byName? function = some f) (vs : List Value) :
    ComesTo I V [] (callFunction function f vs) := by
  unfold Formula.callFunction
  split
  · exact comesTo_pure _
  · rename_i hFault
    exact comesTo_throw [] (h.reported _ ⟨_, _, _, hFunction, hFault⟩)
  · exact comesTo_throw [] (h.failed _ _)

theorem Discerns.cell (hEnv : Discerns I V asked env) (address : String)
    (h : (cell address).references env.rangeLimit = .ok cs) (hAsked : ∀ c ∈ cs, asked c) :
    ComesTo I V cs ((cell address).evaluate env) := by
  rw [evaluate]
  cases hAddress : Coordinate.ofAddress address with
  | error e => exact comesTo_throw cs (hEnv.plain e (plainFailure_of_ofAddress hAddress))
  | ok c =>
    rw [references, hAddress] at h
    obtain rfl : [c] = cs := Except.ok.inj h
    simp only [lift_ok, pure_bind]
    exact hEnv.settle c _ (hAsked c List.mem_cons_self) (ofAddress_upper hAddress)

theorem Discerns.range (hEnv : Discerns I V asked env) (first last : String)
    (h : (range first last).references env.rangeLimit = .ok cs) (hAsked : ∀ c ∈ cs, asked c) :
    ComesTo I V cs ((range first last).evaluate env) := by
  have hAddressable : ∀ c ∈ cs, c.IsAddressable := fun c hc =>
    (((Formula.range first last).mem_references h).mp hc).isAddressable
  rw [evaluate]
  cases hCorners : corners first last with
  | error e => exact comesTo_throw cs (hEnv.plain e (plainFailure_of_corners hCorners))
  | ok ends =>
    obtain ⟨a, b⟩ := ends
    rw [references, hCorners] at h
    obtain rfl : (if exceeds env.rangeLimit a b then [] else Coordinate.rectangle a b) = cs :=
      Except.ok.inj h
    simp only [lift_ok, pure_bind]
    cases hLimit : exceeds env.rangeLimit a b with
    | true =>
      simp only [if_true]
      split
      · exact comesTo_throw _ (hEnv.plain _ (.rangeTooLarge _ _ _))
      · exact comesTo_throw _ (hEnv.plain _ (.numeric _))
    | false =>
      simp only [hLimit, Bool.false_eq_true, if_false] at hAddressable hAsked ⊢
      exact (hEnv.members hAddressable hAsked).last fun vs => comesTo_pure _

mutual

/-- A formula comes to its references in the order of the reference walk. -/
theorem evaluate_comesTo (f : Formula) (hEnv : Discerns I V asked env) {cs : List Coordinate}
    (h : f.references env.rangeLimit = .ok cs) (hAsked : ∀ c ∈ cs, asked c) :
    ComesTo I V cs (f.evaluate env) := by
  cases f with
  | text quoted =>
    obtain rfl : [] = cs := Except.ok.inj h
    exact comesTo_pure _
  | number digits =>
    obtain rfl : [] = cs := Except.ok.inj h
    rw [evaluate]
    refine ComesTo.next ?_ fun n => comesTo_pure _
    cases Number.ofDigits digits with
    | ok n => exact comesTo_pure n
    | error fault => exact comesTo_throw [] (hEnv.plain _ (.numeric fault))
  | cell address => exact hEnv.cell address h hAsked
  | range first last => exact hEnv.range first last h hAsked
  | negative f =>
    rw [references] at h
    rw [evaluate]
    refine (evaluate_comesTo f hEnv h hAsked).last fun v => ?_
    exact (hEnv.operand (.notNegatable v)).next fun n => comesTo_pure _
  | call function arguments =>
    rw [references] at h
    rw [evaluate]
    cases hFunction : env.functions.byName? function with
    | none => exact comesTo_throw cs (hEnv.plain _ (.unknownFunction _ _))
    | some g =>
      refine (evaluateAll_comesTo arguments hEnv h hAsked).last fun vs => ?_
      exact (hEnv.noteCall _ vs).next fun _ => hEnv.callFunction function hFunction vs
  | binary operation left right =>
    rw [references] at h
    obtain ⟨as, bs, hLeft, hRight, rfl⟩ := bind_append_eq_ok h
    obtain ⟨hAskedLeft, hAskedRight⟩ := List.forall_mem_append.mp hAsked
    rw [evaluate]
    refine (evaluate_comesTo left hEnv hLeft hAskedLeft).bind fun v => ?_
    refine (hEnv.operand (.notNumeric _ v)).next fun a => ?_
    refine (evaluate_comesTo right hEnv hRight hAskedRight).last fun w => ?_
    refine (hEnv.operand (.notNumeric _ w)).next fun b => ?_
    exact (comesTo_lift fun e he => hEnv.plain e (plainFailure_of_apply he)).next
      fun n => comesTo_pure _

theorem evaluateAll_comesTo (fs : List Formula) (hEnv : Discerns I V asked env)
    {cs : List Coordinate} (h : referencesOfAll env.rangeLimit fs = .ok cs)
    (hAsked : ∀ c ∈ cs, asked c) : ComesTo I V cs (evaluateAll env fs) := by
  cases fs with
  | nil =>
    obtain rfl : [] = cs := Except.ok.inj h
    exact comesTo_pure _
  | cons f fs =>
    rw [referencesOfAll] at h
    obtain ⟨as, bs, hFirst, hRest, rfl⟩ := bind_append_eq_ok h
    obtain ⟨hAskedFirst, hAskedRest⟩ := List.forall_mem_append.mp hAsked
    rw [evaluateAll]
    refine (evaluate_comesTo f hEnv hFirst hAskedFirst).bind fun v => ?_
    exact (evaluateAll_comesTo fs hEnv hRest hAskedRest).last fun vs => comesTo_pure _

end

end Formula
end Spreadsheet
