import Spreadsheet.Formula.References
import Spreadsheet.Proofs.Address.Readable

/-!
# What a formula asks for

The nodes of a formula, and the coordinates that its reference nodes name. `mem_references` says
that the reference walk, where it succeeds, lists exactly these coordinates; it succeeds when every
address of the formula can be read.
-/

set_option autoImplicit false

namespace Spreadsheet.Formula

mutual

/-- The formula and all its parts, in the order in which they are written. -/
def nodes : Formula → List Formula
  | text quoted => [text quoted]
  | number digits => [number digits]
  | cell address => [cell address]
  | range first last => [range first last]
  | negative f => negative f :: nodes f
  | call function arguments => call function arguments :: nodesOfAll arguments
  | binary operation left right => binary operation left right :: (nodes left ++ nodes right)

def nodesOfAll : List Formula → List Formula
  | [] => []
  | f :: fs => nodes f ++ nodesOfAll fs

end

/-- The addresses that a node itself is written with. -/
def ownAddresses : Formula → List String
  | cell address => [address]
  | range first last => [first, last]
  | _ => []

def addresses (f : Formula) : List String := f.nodes.flatMap ownAddresses

/-- Every address in a formula has a row that can be read. -/
def IsReadable (f : Formula) : Prop := ∀ a ∈ f.addresses, Coordinate.RowIsReadable a

/-- The coordinates that a node itself stands for: a range over the limit stands for none. -/
def Names (limit : Option Int) : Formula → Coordinate → Prop
  | cell address, c => Coordinate.ofAddress address = .ok c
  | range first last, c => ∃ a b, corners first last = .ok (a, b) ∧ exceeds limit a b = false ∧
      c ∈ Coordinate.rectangle a b
  | _, _ => False

/-- The coordinates that the evaluation of a formula may ask for. -/
def Asks (limit : Option Int) (f : Formula) (c : Coordinate) : Prop :=
  ∃ g ∈ f.nodes, g.Names limit c

def AsksAny (limit : Option Int) (fs : List Formula) (c : Coordinate) : Prop :=
  ∃ g ∈ nodesOfAll fs, g.Names limit c

variable {limit : Option Int} {c : Coordinate}

theorem asks_cell (address : String) :
    (cell address).Asks limit c ↔ Coordinate.ofAddress address = .ok c := by
  simp [Asks, nodes, Names]

theorem asks_range (first last : String) :
    (range first last).Asks limit c ↔ ∃ a b, corners first last = .ok (a, b) ∧
      exceeds limit a b = false ∧ c ∈ Coordinate.rectangle a b := by
  simp [Asks, nodes, Names]

theorem asks_negative (f : Formula) : (negative f).Asks limit c ↔ f.Asks limit c := by
  simp [Asks, nodes, Names]

theorem asks_call (function : String) (fs : List Formula) :
    (call function fs).Asks limit c ↔ AsksAny limit fs c := by
  simp [Asks, AsksAny, nodes, Names]

theorem asks_binary (operation : Number.Operation) (f g : Formula) :
    (binary operation f g).Asks limit c ↔ f.Asks limit c ∨ g.Asks limit c := by
  simp [Asks, nodes, Names, or_and_right, exists_or]

theorem asksAny_nil : AsksAny limit [] c ↔ False := by simp [AsksAny, nodesOfAll]

theorem asksAny_cons (f : Formula) (fs : List Formula) :
    AsksAny limit (f :: fs) c ↔ f.Asks limit c ∨ AsksAny limit fs c := by
  simp [Asks, AsksAny, nodesOfAll, or_and_right, exists_or]

/-- Both corners of a range that is read are named by its two addresses. -/
theorem corners_eq_ok {first last : String} {a b : Coordinate} :
    corners first last = .ok (a, b) ↔
      Coordinate.ofAddress first = .ok a ∧ Coordinate.ofAddress last = .ok b := by
  unfold corners
  cases Coordinate.ofAddress first <;> cases Coordinate.ofAddress last <;>
    simp [bind, Except.bind, pure, Except.pure]

theorem Names.isAddressable {g : Formula} (h : g.Names limit c) : c.IsAddressable := by
  cases g with
  | cell address => exact Coordinate.isAddressable_of_ofAddress h
  | range first last =>
    obtain ⟨a, b, hCorners, -, hMember⟩ := h
    obtain ⟨ha, hb⟩ := corners_eq_ok.mp hCorners
    exact .of_mem_rectangle (Coordinate.isAddressable_of_ofAddress ha)
      (Coordinate.isAddressable_of_ofAddress hb) hMember
  | _ => exact h.elim

theorem Asks.isAddressable {f : Formula} (h : f.Asks limit c) : c.IsAddressable := by
  obtain ⟨g, -, hNames⟩ := h
  exact hNames.isAddressable

/-! ## Gathering along the nodes -/

section Gathering

variable {α : Type} {x y z : Except Failure (List α)} {e : Failure}

theorem bind_append_eq_ok {cs : List α} (h : (do return (← x) ++ (← y)) = Except.ok cs) :
    ∃ as bs, x = .ok as ∧ y = .ok bs ∧ cs = as ++ bs := by
  cases x with
  | error e => cases h
  | ok as =>
    cases y with
    | error e => cases h
    | ok bs =>
      cases h
      exact ⟨as, bs, rfl, rfl, rfl⟩

theorem bind_append_nil (x : Except Failure (List α)) :
    (do return (← x) ++ (← Except.ok [])) = x := by
  cases x <;> simp [bind, Except.bind, pure, Except.pure]

theorem nil_bind_append (x : Except Failure (List α)) :
    (do return (← Except.ok []) ++ (← x)) = x := by
  cases x <;> rfl

theorem bind_append_assoc (x y z : Except Failure (List α)) :
    (do return (← (do return (← x) ++ (← y))) ++ (← z)) =
      (do return (← x) ++ (← (do return (← y) ++ (← z)))) := by
  cases x <;> cases y <;> cases z <;> simp [bind, Except.bind, pure, Except.pure]

/-- What the nodes yield, one after the other; the first one that fails ends it. -/
def gathered (own : Formula → Except Failure (List α)) : List Formula → Except Failure (List α)
  | [] => .ok []
  | g :: gs => return (← own g) ++ (← gathered own gs)

variable {own : Formula → Except Failure (List α)} {g : Formula} {gs hs : List Formula}
  {as : List α}

theorem gathered_append : gathered own (gs ++ hs) =
    (do return (← gathered own gs) ++ (← gathered own hs)) := by
  induction gs with
  | nil => exact (nil_bind_append _).symm
  | cons g gs ih => rw [List.cons_append, gathered, gathered, ih, bind_append_assoc]

theorem gathered_singleton : gathered own [g] = own g := bind_append_nil (own g)

theorem gathered_cons_nil (h : own g = .ok []) : gathered own (g :: gs) = gathered own gs := by
  rw [gathered, h, nil_bind_append]

theorem gathered_eq_ok (h : gathered own gs = .ok as) : (∀ g ∈ gs, ∃ bs, own g = .ok bs) ∧
    ∀ a, a ∈ as ↔ ∃ g ∈ gs, ∃ bs, own g = .ok bs ∧ a ∈ bs := by
  induction gs generalizing as with
  | nil =>
    cases h
    simp
  | cons g gs ih =>
    obtain ⟨bs, cs, hOwn, hRest, rfl⟩ := bind_append_eq_ok h
    obtain ⟨hAll, hMem⟩ := ih hRest
    constructor
    · exact List.forall_mem_cons.mpr ⟨⟨bs, hOwn⟩, hAll⟩
    · intro a
      rw [List.mem_append, hMem, List.exists_mem_cons_iff]
      simp [hOwn]

theorem gathered_eq_error (h : gathered own gs = .error e) : ∃ before g after,
    gs = before ++ g :: after ∧ (∀ f ∈ before, ∃ bs, own f = .ok bs) ∧ own g = .error e := by
  induction gs with
  | nil => cases h
  | cons g gs ih =>
    rw [gathered] at h
    cases hOwn : own g with
    | error e' =>
      rw [hOwn] at h
      cases h
      exact ⟨[], g, gs, rfl, List.forall_mem_nil _, hOwn⟩
    | ok bs =>
      cases hRest : gathered own gs with
      | error e' =>
        rw [hOwn, hRest] at h
        cases h
        obtain ⟨before, f, after, rfl, hBefore, hError⟩ := ih hRest
        exact ⟨g :: before, f, after, rfl, List.forall_mem_cons.mpr ⟨⟨bs, hOwn⟩, hBefore⟩, hError⟩
      | ok cs =>
        rw [hOwn, hRest] at h
        cases h

theorem gathered_ok (h : ∀ g ∈ gs, ∃ bs, own g = .ok bs) : ∃ as, gathered own gs = .ok as := by
  cases hGathered : gathered own gs with
  | ok as => exact ⟨as, rfl⟩
  | error e =>
    obtain ⟨before, g, after, rfl, -, hError⟩ := gathered_eq_error hGathered
    obtain ⟨bs, hOk⟩ := h g (by simp)
    rw [hError] at hOk
    cases hOk

/-- What a walk yields at a reference; elsewhere it yields nothing. -/
def atReference (walk : Formula → Except Failure (List α)) : Formula → Except Failure (List α)
  | cell address => walk (cell address)
  | range first last => walk (range first last)
  | _ => .ok []

/-- The walk gathers what it yields at the references of a formula, in the order of the text. -/
structure Gathers (walk : Formula → Except Failure (List α))
    (walkAll : List Formula → Except Failure (List α)) : Prop where
  text : ∀ quoted, walk (text quoted) = .ok []
  number : ∀ digits, walk (number digits) = .ok []
  negative : ∀ f, walk (negative f) = walk f
  call : ∀ function fs, walk (call function fs) = walkAll fs
  binary : ∀ operation f g, walk (binary operation f g) = (do return (← walk f) ++ (← walk g))
  nil : walkAll [] = .ok []
  cons : ∀ f fs, walkAll (f :: fs) = (do return (← walk f) ++ (← walkAll fs))

variable {walk : Formula → Except Failure (List α)}
  {walkAll : List Formula → Except Failure (List α)}

mutual

theorem Gathers.eq_gathered (h : Gathers walk walkAll) (f : Formula) :
    walk f = gathered (atReference walk) f.nodes := by
  cases f with
  | text quoted => exact h.text quoted
  | number digits => exact h.number digits
  | cell address | range first last => exact gathered_singleton.symm
  | negative f => rw [h.negative, nodes, gathered_cons_nil rfl, h.eq_gathered f]
  | call function fs => rw [h.call, nodes, gathered_cons_nil rfl, h.eq_gatheredAll fs]
  | binary operation left right =>
    rw [h.binary, nodes, gathered_cons_nil rfl, gathered_append, h.eq_gathered left,
      h.eq_gathered right]

theorem Gathers.eq_gatheredAll (h : Gathers walk walkAll) (fs : List Formula) :
    walkAll fs = gathered (atReference walk) (nodesOfAll fs) := by
  cases fs with
  | nil => exact h.nil
  | cons f fs =>
    rw [h.cons, nodesOfAll, gathered_append, h.eq_gathered f, h.eq_gatheredAll fs]

end

end Gathering

/-! ## The reference walk -/

theorem references_gathers : Gathers (references limit) (referencesOfAll limit) := by
  constructor <;> intros <;> rfl

theorem mem_orNone {found : Except Failure (List Coordinate)} {cs : List Coordinate}
    (h : orNone found = .ok cs) : c ∈ cs ↔ ∃ ds, found = .ok ds ∧ c ∈ ds := by
  unfold orNone at h
  split at h
  · cases h
    simp
  · simp [h]

theorem mem_atReference {g : Formula} {cs : List Coordinate}
    (h : atReference (references limit) g = .ok cs) : c ∈ cs ↔ g.Names limit c := by
  cases g with
  | cell address =>
    rw [mem_orNone h, Names]
    cases Coordinate.ofAddress address <;>
      simp [bind, Except.bind, pure, Except.pure, eq_comm]
  | range first last =>
    rw [mem_orNone h, Names]
    cases hCorners : corners first last with
    | error e => simp [bind, Except.bind]
    | ok ends =>
      obtain ⟨a, b⟩ := ends
      cases hLimit : exceeds limit a b <;>
        simp [bind, Except.bind, pure, Except.pure, hLimit]
  | _ =>
    cases h
    simp [Names]

/-- Where the reference walk succeeds, it lists what the evaluation may ask for. -/
theorem mem_references (f : Formula) {cs : List Coordinate}
    (h : f.references limit = .ok cs) : c ∈ cs ↔ f.Asks limit c := by
  rw [references_gathers.eq_gathered] at h
  obtain ⟨hAll, hMem⟩ := gathered_eq_ok h
  rw [hMem]
  constructor
  · rintro ⟨g, hg, ds, hOwn, hc⟩
    exact ⟨g, hg, (mem_atReference hOwn).mp hc⟩
  · rintro ⟨g, hg, hNames⟩
    obtain ⟨ds, hOwn⟩ := hAll g hg
    exact ⟨g, hg, ds, hOwn, (mem_atReference hOwn).mpr hNames⟩

theorem orNone_ok {found : Except Failure (List Coordinate)}
    (h : ∀ e, found = .error e → ∃ fault, e = .formula fault) :
    ∃ cs, orNone found = .ok cs := by
  cases found with
  | ok cs => exact ⟨cs, rfl⟩
  | error e =>
    obtain ⟨fault, rfl⟩ := h e rfl
    exact ⟨[], rfl⟩

theorem corners_error {first last : String} {e : Failure}
    (hFirst : Coordinate.RowIsReadable first) (hLast : Coordinate.RowIsReadable last)
    (he : corners first last = .error e) : ∃ fault, e = .formula fault := by
  unfold corners at he
  cases hA : Coordinate.ofAddress first with
  | error e' =>
    rw [hA] at he
    cases he
    exact Coordinate.ofAddress_error_of_readable hFirst hA
  | ok a =>
    cases hB : Coordinate.ofAddress last with
    | error e' =>
      rw [hA, hB] at he
      cases he
      exact Coordinate.ofAddress_error_of_readable hLast hB
    | ok b =>
      rw [hA, hB] at he
      cases he

theorem atReference_ok {g : Formula} (h : ∀ a ∈ g.ownAddresses, Coordinate.RowIsReadable a) :
    ∃ cs, atReference (references limit) g = .ok cs := by
  cases g with
  | cell address =>
    apply orNone_ok
    intro e he
    cases hA : Coordinate.ofAddress address with
    | error e' =>
      rw [hA] at he
      cases he
      exact Coordinate.ofAddress_error_of_readable (h address List.mem_cons_self) hA
    | ok a =>
      rw [hA] at he
      cases he
  | range first last =>
    apply orNone_ok
    intro e he
    cases hCorners : corners first last with
    | error e' =>
      rw [hCorners] at he
      cases he
      exact corners_error (h first (by simp [ownAddresses])) (h last (by simp [ownAddresses]))
        hCorners
    | ok ends =>
      rw [hCorners] at he
      cases he
  | _ => exact ⟨[], rfl⟩

/-- The reference walk succeeds on a formula whose addresses can be read. -/
theorem IsReadable.references_ok {f : Formula} (h : f.IsReadable) :
    ∃ cs, f.references limit = .ok cs := by
  rw [references_gathers.eq_gathered]
  apply gathered_ok
  intro g hg
  exact atReference_ok fun a ha => h a (List.mem_flatMap.mpr ⟨g, hg, ha⟩)

/-! ## Failures of the reference walk -/

theorem orNone_ne_formula {found : Except Failure (List Coordinate)} (fault : FormulaFault) :
    orNone found ≠ .error (.formula fault) := by
  cases found with
  | ok cs => simp [orNone]
  | error e => cases e <;> simp [orNone]

/-- The reference walk passes over what is wrong with a formula, so it never fails for that. -/
theorem references_ne_formula (f : Formula) (fault : FormulaFault) :
    f.references limit ≠ .error (.formula fault) := by
  intro h
  rw [references_gathers.eq_gathered] at h
  obtain ⟨before, g, after, -, -, hOwn⟩ := gathered_eq_error h
  cases g with
  | cell address => exact orNone_ne_formula fault hOwn
  | range first last => exact orNone_ne_formula fault hOwn
  | _ => cases hOwn

end Spreadsheet.Formula
