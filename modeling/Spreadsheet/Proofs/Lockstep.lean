import Mathlib.Data.List.Forall2
import Mathlib.Data.Option.Basic

/-!
# Two runs in lockstep

From related states, two computations in lockstep both succeed, with related values, or both fail,
with related errors, and the states they end in are related again. Computations that are put
together from parts in lockstep are in lockstep.
-/

set_option autoImplicit false

namespace Spreadsheet

variable {ε σ α β : Type} {E : ε → ε → Prop} {R : σ → σ → Prop} {A : α → α → Prop}
  {B : β → β → Prop}

/-- Both results are values, and related, or both are errors, and related. -/
inductive Agrees (E : ε → ε → Prop) (A : α → α → Prop) : Except ε α → Except ε α → Prop
  | ok {a b : α} (h : A a b) : Agrees E A (.ok a) (.ok b)
  | error {e e' : ε} (h : E e e') : Agrees E A (.error e) (.error e')

theorem Agrees.imp {A' : α → α → Prop} {x y : Except ε α} (h : Agrees E A x y)
    (hA : ∀ a b, x = .ok a → y = .ok b → A a b → A' a b) : Agrees E A' x y := by
  cases h with
  | ok h => exact .ok (hA _ _ rfl rfl h)
  | error h => exact .error h

theorem Agrees.bind {x y : Except ε α} {k l : α → Except ε β} (h : Agrees E A x y)
    (hk : ∀ a b, A a b → Agrees E B (k a) (l b)) : Agrees E B (x >>= k) (y >>= l) := by
  cases h with
  | ok h => exact hk _ _ h
  | error h => exact .error h

theorem Agrees.bindEq {x y : Except ε α} {k l : α → Except ε β} (h : Agrees E Eq x y)
    (hk : ∀ a, Agrees E B (k a) (l a)) : Agrees E B (x >>= k) (y >>= l) := by
  refine h.bind ?_
  rintro a _ rfl
  exact hk a

inductive Matches (E : ε → ε → Prop) (R : σ → σ → Prop) (A : α → α → Prop) :
    EStateM.Result ε σ α → EStateM.Result ε σ α → Prop
  | ok {a b : α} {s t : σ} (hValue : A a b) (hState : R s t) : Matches E R A (.ok a s) (.ok b t)
  | error {e e' : ε} {s t : σ} (hError : E e e') (hState : R s t) :
      Matches E R A (.error e s) (.error e' t)

def Lockstep (E : ε → ε → Prop) (R : σ → σ → Prop) (A : α → α → Prop) (x y : EStateM ε σ α) :
    Prop :=
  ∀ s t, R s t → Matches E R A (x s) (y t)

namespace Lockstep

variable {x y : EStateM ε σ α} {k l : α → EStateM ε σ β} {a b : α} {e e' : ε}

theorem pure (h : A a b) : Lockstep E R A (Pure.pure a) (Pure.pure b) := fun _ _ hs => .ok h hs

theorem throw (h : E e e') : Lockstep E R A (MonadExcept.throw e) (MonadExcept.throw e') :=
  fun _ _ hs => .error h hs

theorem get : Lockstep E R R MonadState.get MonadState.get := fun _ _ hs => .ok hs hs

theorem set {s t : σ} (h : R s t) :
    Lockstep E R (fun _ _ => True) (MonadStateOf.set s) (MonadStateOf.set t) :=
  fun _ _ _ => .ok trivial h

theorem bind (h : Lockstep E R A x y) (hk : ∀ a b, A a b → Lockstep E R B (k a) (l b)) :
    Lockstep E R B (x >>= k) (y >>= l) := by
  intro s t hs
  change Matches E R B (EStateM.bind x k s) (EStateM.bind y l t)
  have hFirst := h s t hs
  unfold EStateM.bind
  generalize x s = r at hFirst ⊢
  generalize y t = r' at hFirst ⊢
  cases hFirst with
  | ok hValue hState => exact hk _ _ hValue _ _ hState
  | error hError hState => exact .error hError hState

theorem bindEq (h : Lockstep E R Eq x y) (hk : ∀ a, Lockstep E R B (k a) (l a)) :
    Lockstep E R B (x >>= k) (y >>= l) := by
  refine h.bind ?_
  rintro a _ rfl
  exact hk a

theorem andThen (h : Lockstep E R A x y) {k l : EStateM ε σ β} (hk : Lockstep E R B k l) :
    Lockstep E R B (x >>= fun _ => k) (y >>= fun _ => l) := h.bind fun _ _ _ => hk

theorem map (h : Lockstep E R A x y) {f g : α → β} (hMap : ∀ a b, A a b → B (f a) (g b)) :
    Lockstep E R B (f <$> x) (g <$> y) := by
  rw [map_eq_pure_bind, map_eq_pure_bind]
  exact h.bind fun a b hab => .pure (hMap a b hab)

theorem ite {p q : Prop} [Decidable p] [Decidable q] {x' y' : EStateM ε σ α} (hpq : q ↔ p)
    (h : p → Lockstep E R A x y) (h' : ¬ p → Lockstep E R A x' y') :
    Lockstep E R A (if p then x else x') (if q then y else y') := by
  by_cases hp : p
  · rw [if_pos hp, if_pos (hpq.mpr hp)]
    exact h hp
  · rw [if_neg hp, if_neg (mt hpq.mp hp)]
    exact h' hp

theorem foldlM {γ : Type} {step step' : α → γ → EStateM ε σ α} {cs : List γ}
    (hStep : ∀ c ∈ cs, ∀ a b, A a b → Lockstep E R A (step a c) (step' b c)) (h : A a b) :
    Lockstep E R A (cs.foldlM step a) (cs.foldlM step' b) := by
  induction cs generalizing a b with
  | nil => exact .pure h
  | cons c cs ih =>
    rw [List.foldlM_cons, List.foldlM_cons]
    refine (hStep c List.mem_cons_self a b h).bind fun a' b' h' => ?_
    exact ih (fun d hd => hStep d (List.mem_cons_of_mem c hd)) h'

end Lockstep
end Spreadsheet
