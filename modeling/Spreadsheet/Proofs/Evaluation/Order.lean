import Spreadsheet.Proofs.Evaluation.Follows

/-!
# The order in which cells are asked for

The reference walk lists what a formula refers to before anything is evaluated; with a stack of the
nodes that are still to be visited it gives the same list. Here every question for a cell is put on
record while a formula is evaluated: the record is the beginning of that list, and all of it when
the evaluation gives a value.
-/

set_option autoImplicit false

namespace Spreadsheet

namespace Evaluation

variable {State α β : Type}

/-- The same computation beside a record that it leaves alone. -/
def beside (x : Evaluation State α) : Evaluation (State × List Coordinate) α := fun (s, asked) =>
  match x s with
  | .ok a t => .ok a (t, asked)
  | .error e t => .error e (t, asked)

/-- The second computation runs as the first and adds to the record what the first asks for. That is
the list, or a beginning of it when the computation fails. -/
def AsksFor (cs : List Coordinate) (x : Evaluation State α)
    (y : Evaluation (State × List Coordinate) α) : Prop :=
  ∀ s asked, ∃ r t more, x s = ended r t ∧ y (s, asked) = ended r (t, asked ++ more) ∧
    more <+: cs ∧ ∀ a, r = .ok a → more = cs

variable {cs ds : List Coordinate} {x : Evaluation State α}
  {y : Evaluation (State × List Coordinate) α} {k : α → Evaluation State β}
  {l : α → Evaluation (State × List Coordinate) β}

theorem asksFor_pure (a : α) :
    AsksFor [] (pure a : Evaluation State α) (pure a : Evaluation (State × List Coordinate) α) := by
  intro s asked
  refine ⟨.ok a, s, [], rfl, ?_, List.prefix_rfl, fun _ _ => rfl⟩
  rw [List.append_nil]
  rfl

theorem asksFor_throw (cs : List Coordinate) (e : Failure) :
    AsksFor cs (throw e : Evaluation State α)
      (throw e : Evaluation (State × List Coordinate) α) := by
  intro s asked
  refine ⟨.error e, s, [], rfl, ?_, List.nil_prefix, nofun⟩
  rw [List.append_nil]
  rfl

theorem AsksFor.bind (h : AsksFor cs x y) (hk : ∀ a, AsksFor ds (k a) (l a)) :
    AsksFor (cs ++ ds) (x >>= k) (y >>= l) := by
  intro s asked
  obtain ⟨r, t, more, hx, hy, hPrefix, hAll⟩ := h s asked
  cases r with
  | error e =>
    exact ⟨.error e, t, more, bind_of_error hx, bind_of_error hy,
      hPrefix.trans (List.prefix_append cs ds), nofun⟩
  | ok a =>
    obtain rfl : more = cs := hAll a rfl
    obtain ⟨r, u, rest, hk, hl, hRest, hEnd⟩ := hk a t (asked ++ more)
    refine ⟨r, u, more ++ rest, ?_, ?_, (List.prefix_append_right_inj more).mpr hRest, ?_⟩
    · rw [bind_of_ok hx, hk]
    · rw [bind_of_ok hy, hl, List.append_assoc]
    · intro b hb
      rw [hEnd b hb]

theorem AsksFor.last (h : AsksFor cs x y) (hk : ∀ a, AsksFor [] (k a) (l a)) :
    AsksFor cs (x >>= k) (y >>= l) := by simpa using h.bind hk

theorem AsksFor.next (h : AsksFor [] x y) (hk : ∀ a, AsksFor ds (k a) (l a)) :
    AsksFor ds (x >>= k) (y >>= l) := h.bind hk

theorem asksFor_lift (r : Except Failure α) :
    AsksFor [] (lift r : Evaluation State α) (lift r : Evaluation (State × List Coordinate) α) := by
  cases r with
  | ok a => exact asksFor_pure a
  | error e => exact asksFor_throw [] e

theorem asksFor_beside (x : Evaluation State α) : AsksFor [] x (beside x) := by
  intro s asked
  cases hRun : x s with
  | ok a t => exact ⟨.ok a, t, [], rfl, by simp [beside, hRun, ended], List.prefix_rfl, by simp⟩
  | error e t => exact ⟨.error e, t, [], rfl, by simp [beside, hRun, ended], List.prefix_rfl, nofun⟩

end Evaluation

open Evaluation

/-- The same surroundings with a record of the coordinates whose cells were asked for, the first one
first. -/
def Surroundings.recorded {State : Type} (env : Surroundings State) :
    Surroundings (State × List Coordinate) where
  rangeLimit := env.rangeLimit
  functions := env.functions
  settle c := do
    modify fun (s, asked) => (s, asked ++ [c])
    beside (env.settle c)
  noteCall key arguments := beside (env.noteCall key arguments)

namespace Formula

variable {State : Type} {env : Surroundings State} {cs : List Coordinate}

theorem recorded_rangeLimit : env.recorded.rangeLimit = env.rangeLimit := rfl

theorem recorded_functions : env.recorded.functions = env.functions := rfl

theorem settle_asksFor (c : Coordinate) : AsksFor [c] (env.settle c) (env.recorded.settle c) := by
  intro s asked
  obtain ⟨r, t, more, hx, hy, hPrefix, -⟩ := asksFor_beside (env.settle c) s (asked ++ [c])
  obtain rfl := List.prefix_nil.mp hPrefix
  rw [List.append_nil] at hy
  exact ⟨r, t, [c], hx, hy, List.prefix_rfl, fun _ _ => rfl⟩

theorem valueOf_asksFor (address : String) (settled : Option Cell) :
    AsksFor [] (valueOf address settled : Evaluation State Value) (valueOf address settled) := by
  unfold valueOf
  split
  · exact asksFor_pure _
  · split
    · exact asksFor_throw _ _
    · exact asksFor_pure _

theorem members_asksFor (cs : List Coordinate) :
    AsksFor cs (members env cs) (members env.recorded cs) := by
  induction cs with
  | nil => exact asksFor_pure _
  | cons c cs ih =>
    rw [members, members]
    refine (settle_asksFor c).bind fun cell => (valueOf_asksFor c.address cell).next fun v => ?_
    exact ih.last fun vs => by cases v <;> exact asksFor_pure _

theorem operand_asksFor (fault : Value → FormulaFault) (v : Value) :
    AsksFor [] (operand fault v : Evaluation State Number) (operand fault v) := by
  unfold operand
  split
  · exact asksFor_pure _
  · split <;> exact asksFor_throw _ _

theorem callFunction_asksFor (function : String) (f : Function) (vs : List Value) :
    AsksFor [] (callFunction function f vs : Evaluation State Value)
      (callFunction function f vs) := by
  unfold callFunction
  split
  · exact asksFor_pure _
  · exact asksFor_throw _ _
  · exact asksFor_throw _ _

theorem numeric_asksFor {α : Type} (r : Except NumericFault α) :
    AsksFor [] (numeric r : Evaluation State α) (numeric r) := by
  cases r with
  | ok a => exact asksFor_pure a
  | error fault => exact asksFor_throw _ _

theorem cell_asksFor (address : String)
    (h : (cell address).references env.rangeLimit = .ok cs) :
    AsksFor cs ((cell address).evaluate env) ((cell address).evaluate env.recorded) := by
  rw [evaluate, evaluate]
  cases hAddress : Coordinate.ofAddress address with
  | error e => exact asksFor_throw cs e
  | ok c =>
    rw [references, hAddress] at h
    obtain rfl : [c] = cs := Except.ok.inj h
    simp only [lift_ok, pure_bind]
    exact (settle_asksFor c).last fun settled => valueOf_asksFor _ settled

theorem range_asksFor (first last : String)
    (h : (range first last).references env.rangeLimit = .ok cs) :
    AsksFor cs ((range first last).evaluate env) ((range first last).evaluate env.recorded) := by
  rw [evaluate, evaluate, recorded_rangeLimit]
  cases hCorners : corners first last with
  | error e => exact asksFor_throw cs e
  | ok ends =>
    obtain ⟨a, b⟩ := ends
    rw [references, hCorners] at h
    obtain rfl : (if exceeds env.rangeLimit a b then [] else Coordinate.rectangle a b) = cs :=
      Except.ok.inj h
    simp only [lift_ok, pure_bind]
    cases exceeds env.rangeLimit a b with
    | true =>
      simp only [if_true]
      split <;> exact asksFor_throw _ _
    | false =>
      simp only [Bool.false_eq_true, if_false]
      exact (members_asksFor _).last fun vs => asksFor_pure _

mutual

/-- A formula asks for its references in the order of the reference walk. -/
theorem evaluate_asksFor (f : Formula) {cs : List Coordinate}
    (h : f.references env.rangeLimit = .ok cs) :
    AsksFor cs (f.evaluate env) (f.evaluate env.recorded) := by
  cases f with
  | text quoted =>
    obtain rfl : [] = cs := Except.ok.inj h
    exact asksFor_pure _
  | number digits =>
    obtain rfl : [] = cs := Except.ok.inj h
    rw [evaluate, evaluate]
    exact (numeric_asksFor _).next fun n => asksFor_pure _
  | cell address => exact cell_asksFor address h
  | range first last => exact range_asksFor first last h
  | negative f =>
    rw [references] at h
    rw [evaluate, evaluate]
    refine (evaluate_asksFor f h).last fun v => (operand_asksFor _ v).next fun n => ?_
    exact asksFor_pure _
  | call function arguments =>
    rw [references] at h
    rw [evaluate, evaluate, recorded_functions]
    cases env.functions.byName? function with
    -- an unknown function is refused before its arguments are evaluated
    | none => exact asksFor_throw cs _
    | some g =>
      refine (evaluateAll_asksFor arguments h).last fun vs => ?_
      exact (asksFor_beside _).next fun _ => callFunction_asksFor function g vs
  | binary operation left right =>
    rw [references] at h
    obtain ⟨as, bs, hLeft, hRight, rfl⟩ := bind_append_eq_ok h
    rw [evaluate, evaluate]
    refine (evaluate_asksFor left hLeft).bind fun v => (operand_asksFor _ v).next fun a => ?_
    refine (evaluate_asksFor right hRight).last fun w => (operand_asksFor _ w).next fun b => ?_
    exact (asksFor_lift _).next fun n => asksFor_pure _

theorem evaluateAll_asksFor (fs : List Formula) {cs : List Coordinate}
    (h : referencesOfAll env.rangeLimit fs = .ok cs) :
    AsksFor cs (evaluateAll env fs) (evaluateAll env.recorded fs) := by
  cases fs with
  | nil =>
    obtain rfl : [] = cs := Except.ok.inj h
    exact asksFor_pure _
  | cons f fs =>
    rw [referencesOfAll] at h
    obtain ⟨as, bs, hFirst, hRest, rfl⟩ := bind_append_eq_ok h
    rw [evaluateAll, evaluateAll]
    refine (evaluate_asksFor f hFirst).bind fun v => ?_
    exact (evaluateAll_asksFor fs hRest).last fun vs => asksFor_pure _

end

/-! ## The reference walk with a stack -/

def children : Formula → List Formula
  | negative f => [f]
  | call _ arguments => arguments
  | binary _ left right => [left, right]
  | _ => []

/-- The coordinates that a node refers to by itself. -/
def ownReferences (limit : Option Int) : Formula → Except Failure (List Coordinate)
  | cell address => references limit (cell address)
  | range first last => references limit (range first last)
  | _ => .ok []

theorem length_nodes (f : Formula) : f.nodes.length = (nodesOfAll f.children).length + 1 := by
  cases f <;> simp [nodes, nodesOfAll, children]

theorem nodesOfAll_append (fs gs : List Formula) :
    nodesOfAll (fs ++ gs) = nodesOfAll fs ++ nodesOfAll gs := by
  induction fs with
  | nil => rfl
  | cons f fs ih => simp [nodesOfAll, ih]

/-- The reference walk over a stack of nodes, the next one on top: the children of a node take its
place. -/
def walk (limit : Option Int) : List Formula → Except Failure (List Coordinate)
  | [] => .ok []
  | f :: rest => return (← ownReferences limit f) ++ (← walk limit (f.children ++ rest))
  termination_by stack => (nodesOfAll stack).length
  decreasing_by
    simp only [nodesOfAll_append, nodesOfAll, List.length_append, length_nodes]
    omega

section

variable {limit : Option Int}

theorem referencesOfAll_append (fs gs : List Formula) :
    referencesOfAll limit (fs ++ gs) =
      (do return (← referencesOfAll limit fs) ++ (← referencesOfAll limit gs)) := by
  induction fs with
  | nil => exact (nil_bind_append _).symm
  | cons f fs ih => rw [List.cons_append, referencesOfAll, ih, referencesOfAll, bind_append_assoc]

theorem references_eq_children (f : Formula) :
    f.references limit =
      (do return (← ownReferences limit f) ++ (← referencesOfAll limit f.children)) := by
  cases f with
  | cell | range => exact (bind_append_nil _).symm
  | text | number => rfl
  | negative f =>
    change references limit f = (do return (← Except.ok []) ++ (← referencesOfAll limit [f]))
    rw [referencesOfAll, referencesOfAll, bind_append_nil, nil_bind_append]
  | call function arguments => exact (nil_bind_append _).symm
  | binary operation left right =>
    change (do return (← references limit left) ++ (← references limit right)) =
      (do return (← Except.ok []) ++ (← referencesOfAll limit [left, right]))
    rw [referencesOfAll, referencesOfAll, referencesOfAll, bind_append_nil, nil_bind_append]

theorem walk_eq (stack : List Formula) : walk limit stack = referencesOfAll limit stack := by
  induction stack using walk.induct with
  | case1 => rw [walk, referencesOfAll]
  | case2 f rest ih =>
    rw [walk, ih, referencesOfAll_append, referencesOfAll, references_eq_children f,
      bind_append_assoc]

theorem walk_singleton (f : Formula) : walk limit [f] = f.references limit := by
  rw [walk_eq, referencesOfAll, referencesOfAll, bind_append_nil]

end

/-- Whatever settles the cells, a formula evaluates as it does with its questions on record, and
these are the first of the references that the walk lists; it has asked for all of them when it has
a value. -/
theorem questions_prefix_references {f : Formula} (h : f.IsReadable) (env : Surroundings State)
    (s : State) :
    ∃ cs r t asked, f.references env.rangeLimit = .ok cs ∧ walk env.rangeLimit [f] = .ok cs ∧
      f.evaluate env s = ended r t ∧ f.evaluate env.recorded (s, []) = ended r (t, asked) ∧
      asked <+: cs ∧ ∀ v, r = .ok v → asked = cs := by
  obtain ⟨cs, hReferences⟩ := h.references_ok
  obtain ⟨r, t, asked, hRun, hRecorded, hPrefix, hAll⟩ := evaluate_asksFor f hReferences s []
  exact ⟨cs, r, t, asked, hReferences, (walk_singleton f).trans hReferences, hRun, hRecorded,
    hPrefix, hAll⟩

/-- The range is no operand, so what stands after it is never asked for. -/
def cutShort : Formula :=
  .binary .add (.cell "B1") (.binary .multiply (.range "A2" "a1") (.call "NOPE" [.cell "C1"]))

/-- Every cell holds one. -/
def allOnes : Surroundings Unit where
  rangeLimit := some 2
  functions := {}
  settle _ := return some { value := .int 1 }
  noteCall _ _ := return

theorem questions_prefix_cutShort :
    cutShort.IsReadable ∧ ∃ cs r t asked, cutShort.references (some 2) = .ok cs ∧
      walk (some 2) [cutShort] = .ok cs ∧ cutShort.evaluate allOnes () = ended r t ∧
      cutShort.evaluate allOnes.recorded ((), []) = ended r (t, asked) ∧
      asked <+: cs ∧ (∀ v, r = .ok v → asked = cs) ∧
      cs = [⟨0, 1⟩, ⟨0, 0⟩, ⟨1, 0⟩, ⟨0, 2⟩] ∧ asked = [⟨0, 1⟩, ⟨0, 0⟩, ⟨1, 0⟩] := by
  have hReadable : cutShort.IsReadable := by
    have hShort : ∀ a ∈ cutShort.addresses, a.toList.length ≤ Decimal.digitLimit := by decide
    exact fun a ha => Coordinate.rowIsReadable_of_length_le (hShort a ha)
  obtain ⟨cs, r, t, asked, hReferences, hWalk, hRun, hRecorded, hPrefix, hAll⟩ :=
    questions_prefix_references hReadable allOnes ()
  have hList : cutShort.references (some 2) = .ok [⟨0, 1⟩, ⟨0, 0⟩, ⟨1, 0⟩, ⟨0, 2⟩] := by cbv
  have hRecord : cutShort.evaluate allOnes.recorded ((), []) =
      .error (.formula (.notNumeric "*" (.list [.int 1, .int 1])))
        ((), [⟨0, 1⟩, ⟨0, 0⟩, ⟨1, 0⟩]) := by
    cbv
  refine ⟨hReadable, cs, r, t, asked, hReferences, hWalk, hRun, hRecorded, hPrefix, hAll, ?_, ?_⟩
  · exact Except.ok.inj (hReferences.symm.trans hList)
  · rw [hRecord] at hRecorded
    exact congrArg Prod.snd (eq_of_ended_error hRecorded).2

end Formula
end Spreadsheet
