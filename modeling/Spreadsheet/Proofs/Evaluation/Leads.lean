import Spreadsheet.Proofs.Evaluation.Follows

/-!
# What a run does to its state

A passage relates the state in which a run starts, the failure that it ends in, if there is one, and
the state in which it ends. An evaluation leads along a passage when all its runs do. Passages that
compose carry over from the parts of an evaluation to the whole.
-/

set_option autoImplicit false

namespace Spreadsheet.Evaluation

variable {State α β : Type}

abbrev Passage (State : Type) := State → Option Failure → State → Prop

/-- A run from a state that ended like this is a passage. -/
def Ends (R : Passage State) (s : State) : EStateM.Result Failure State α → Prop
  | .ok _ t => R s none t
  | .error e t => R s (some e) t

/-- The failure that a result is, if it is one. -/
def failureOf : Except Failure α → Option Failure
  | .ok _ => none
  | .error e => some e

theorem failureOf_eq_some {r : Except Failure α} {e : Failure} :
    failureOf r = some e ↔ r = .error e := by
  cases r <;> simp [failureOf]

theorem ends_ended {R : Passage State} {r : Except Failure α} {s t : State} :
    Ends R s (ended r t) ↔ R s (failureOf r) t := by
  cases r <;> exact Iff.rfl

def Leads (R : Passage State) (x : Evaluation State α) : Prop := ∀ s, Ends R s (x s)

/-- Standing still is a passage, and after a run without a failure another one may follow. -/
structure Composes (R : Passage State) : Prop where
  refl : ∀ s, R s none s
  trans : ∀ {s t u o}, R s none t → R t o u → R s o u

variable {R : Passage State}

theorem Leads.of_ok {x : Evaluation State α} {s t : State} {a : α} (h : Leads R x)
    (hRun : x s = .ok a t) : R s none t := by
  have hEnds := h s
  rwa [hRun] at hEnds

theorem Leads.of_error {x : Evaluation State α} {s t : State} {e : Failure} (h : Leads R x)
    (hRun : x s = .error e t) : R s (some e) t := by
  have hEnds := h s
  rwa [hRun] at hEnds

theorem Leads.mono {R' : Passage State} {x : Evaluation State α} (h : Leads R x)
    (hle : ∀ s o t, R s o t → R' s o t) : Leads R' x := by
  intro s
  cases hRun : x s with
  | ok a t => exact hle _ _ _ (h.of_ok hRun)
  | error e t => exact hle _ _ _ (h.of_error hRun)

theorem leads_pure (hR : Composes R) (a : α) : Leads R (pure a : Evaluation State α) := hR.refl

theorem leads_throw {e : Failure} (h : ∀ s, R s (some e) s) :
    Leads R (throw e : Evaluation State α) := h

theorem leads_lift (hR : Composes R) {r : Except Failure α}
    (h : ∀ e, r = .error e → ∀ s, R s (some e) s) : Leads R (lift r : Evaluation State α) := by
  cases r with
  | ok a => exact leads_pure hR a
  | error e => exact leads_throw (h e rfl)

theorem Leads.bind {x : Evaluation State α} {k : α → Evaluation State β} (hR : Composes R)
    (h : Leads R x) (hk : ∀ a, Leads R (k a)) : Leads R (x >>= k) := by
  intro s
  cases hRun : x s with
  | error e t =>
    rw [bind_of_error hRun]
    exact h.of_error hRun
  | ok a t =>
    rw [bind_of_ok hRun]
    have hFirst := h.of_ok hRun
    cases hRest : k a t with
    | ok b u => exact hR.trans hFirst ((hk a).of_ok hRest)
    | error e u => exact hR.trans hFirst ((hk a).of_error hRest)

end Spreadsheet.Evaluation
