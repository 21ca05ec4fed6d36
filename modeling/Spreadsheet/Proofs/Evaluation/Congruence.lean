import Spreadsheet.Proofs.Evaluation.OwnFailure

/-!
# Ways to settle cells that make no difference

Two ways to settle cells that run alike from the states of interest give a formula the same run from
these states, as long as evaluation stays among them.
-/

set_option autoImplicit false

namespace Spreadsheet

namespace Evaluation

variable {State α β : Type} {I : State → Prop}

/-- The passage that only says that a property of states is kept. -/
def keeping (I : State → Prop) : Passage State := fun s _ t => I s → I t

theorem keeping_composes : Composes (keeping I) where
  refl _ hs := hs
  trans hFirst hSecond hs := hSecond (hFirst hs)

theorem bind_eq_of_eq {x y : Evaluation State α} {s : State} (h : y s = x s)
    (k : α → Evaluation State β) : (y >>= k) s = (x >>= k) s := by
  change EStateM.bind y k s = EStateM.bind x k s
  rw [EStateM.bind, EStateM.bind, h]

theorem bind_eq_of_leads {x y : Evaluation State α} {k l : α → Evaluation State β}
    (h : Leads (keeping I) x) (hx : ∀ s, I s → y s = x s) (hk : ∀ a s, I s → l a s = k a s) :
    ∀ s, I s → (y >>= l) s = (x >>= k) s := by
  intro s hs
  rw [bind_eq_of_eq (hx s hs)]
  cases hRun : x s with
  | error e t => rw [bind_of_error hRun, bind_of_error hRun]
  | ok a t =>
    rw [bind_of_ok hRun, bind_of_ok hRun]
    exact hk a t (h.of_ok hRun hs)

end Evaluation

open Evaluation

namespace Formula

variable {State : Type} {I : State → Prop} {env : Surroundings State}
  {settle : Coordinate → Evaluation State (Option Cell)}

/-- From the states of interest the cells that are asked for settle as they do in the surroundings,
and evaluation stays among these states. -/
structure SettlesAlike (I : State → Prop) (asked : Coordinate → Prop) (env : Surroundings State)
    (settle : Coordinate → Evaluation State (Option Cell)) : Prop where
  carries : Carries (keeping I) asked env
  settle : ∀ c, asked c → ∀ s, I s → settle c s = env.settle c s

theorem SettlesAlike.mono {asked asked' : Coordinate → Prop}
    (h : SettlesAlike I asked env settle) (hle : ∀ c, asked' c → asked c) :
    SettlesAlike I asked' env settle :=
  ⟨h.carries.mono hle, fun c hc => h.settle c (hle c hc)⟩

theorem members_congr {cs : List Coordinate} (h : SettlesAlike I (· ∈ cs) env settle) :
    ∀ s, I s → members { env with settle := settle } cs s = members env cs s := by
  induction cs with
  | nil => exact fun _ _ => rfl
  | cons c cs ih =>
    have hRest := h.mono fun d hd => List.mem_cons_of_mem c hd
    rw [members, members]
    refine bind_eq_of_leads (h.carries.settle c List.mem_cons_self)
      (h.settle c List.mem_cons_self) fun cell => ?_
    refine bind_eq_of_leads (h.carries.valueOf c.address cell) (fun _ _ => rfl) fun v => ?_
    exact bind_eq_of_leads hRest.carries.members (ih hRest) fun _ _ _ => rfl

mutual

/-- Where the cells that a formula asks for are settled alike, it evaluates alike. -/
theorem evaluate_congr (f : Formula) (h : SettlesAlike I (f.Asks env.rangeLimit) env settle) :
    ∀ s, I s → f.evaluate { env with settle := settle } s = f.evaluate env s := by
  cases f with
  | text quoted => exact fun _ _ => rfl
  | number digits => exact fun _ _ => rfl
  | cell address =>
    rw [evaluate, evaluate]
    cases hAddress : Coordinate.ofAddress address with
    | error e => exact fun _ _ => rfl
    | ok c =>
      have hc : (cell address).Asks env.rangeLimit c := (asks_cell address).mpr hAddress
      simp only [lift_ok, pure_bind]
      exact bind_eq_of_leads (h.carries.settle c hc) (h.settle c hc) fun _ _ _ => rfl
  | range first last =>
    rw [evaluate, evaluate]
    cases hCorners : corners first last with
    | error e => exact fun _ _ => rfl
    | ok ends =>
      obtain ⟨a, b⟩ := ends
      simp only [lift_ok, pure_bind]
      cases hLimit : exceeds env.rangeLimit a b with
      | true => exact fun _ _ => rfl
      | false =>
        have hMembers : SettlesAlike I (· ∈ Coordinate.rectangle a b) env settle :=
          h.mono fun c hc => (asks_range first last).mpr ⟨a, b, hCorners, hLimit, hc⟩
        simp only [Bool.false_eq_true, if_false]
        exact bind_eq_of_leads hMembers.carries.members (members_congr hMembers)
          fun _ _ _ => rfl
  | negative f =>
    have hOperand := h.mono fun c hc => (asks_negative f).mpr hc
    rw [evaluate, evaluate]
    exact bind_eq_of_leads (evaluate_leads f hOperand.carries) (evaluate_congr f hOperand)
      fun _ _ _ => rfl
  | call function arguments =>
    have hArguments := h.mono fun c hc => (asks_call function arguments).mpr hc
    rw [evaluate, evaluate]
    cases env.functions.byName? function with
    | none => exact fun _ _ => rfl
    | some g =>
      exact bind_eq_of_leads (evaluateAll_leads arguments hArguments.carries)
        (evaluateAll_congr arguments hArguments) fun _ _ _ => rfl
  | binary operation left right =>
    have hLeft := h.mono fun c hc => (asks_binary operation left right).mpr (.inl hc)
    have hRight := h.mono fun c hc => (asks_binary operation left right).mpr (.inr hc)
    rw [evaluate, evaluate]
    refine bind_eq_of_leads (evaluate_leads left hLeft.carries) (evaluate_congr left hLeft)
      fun v => ?_
    refine bind_eq_of_leads (h.carries.operand (fun v => .notNumeric _ v) v) (fun _ _ => rfl)
      fun a => ?_
    exact bind_eq_of_leads (evaluate_leads right hRight.carries) (evaluate_congr right hRight)
      fun _ _ _ => rfl

theorem evaluateAll_congr (fs : List Formula)
    (h : SettlesAlike I (AsksAny env.rangeLimit fs) env settle) :
    ∀ s, I s → evaluateAll { env with settle := settle } fs s = evaluateAll env fs s := by
  cases fs with
  | nil => exact fun _ _ => rfl
  | cons f fs =>
    have hFirst := h.mono fun c hc => (asksAny_cons f fs).mpr (.inl hc)
    have hRest := h.mono fun c hc => (asksAny_cons f fs).mpr (.inr hc)
    rw [evaluateAll, evaluateAll]
    refine bind_eq_of_leads (evaluate_leads f hFirst.carries) (evaluate_congr f hFirst)
      fun v => ?_
    exact bind_eq_of_leads (evaluateAll_leads fs hRest.carries) (evaluateAll_congr fs hRest)
      fun _ _ _ => rfl

end

end Formula
end Spreadsheet
