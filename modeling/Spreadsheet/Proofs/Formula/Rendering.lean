import Spreadsheet.Proofs.Address.Case
import Spreadsheet.Proofs.Formula.Grammar
import Spreadsheet.Proofs.Formula.Nodes
import Spreadsheet.Proofs.Formula.Segments
import Spreadsheet.Proofs.Text.Strip

/-!
# Reading a formula back from its text

The canonical text of a formula that was read is read as the same formula again, its addresses in
upper case. The text puts every operation in parentheses, so a minus sign takes in just its operand;
what the words of a formula are spelled like comes from the text that the formula was read from.
-/

set_option autoImplicit false

namespace Spreadsheet

open Lexer
open Number (Operation)

namespace Formula

mutual

/-- The formula with its addresses in upper case. -/
def capitalized : Formula → Formula
  | text quoted => text quoted
  | number digits => number digits
  | cell address => cell (Text.upper address)
  | range first last => range (Text.upper first) (Text.upper last)
  | negative operand => negative operand.capitalized
  | call function arguments => call function (capitalizedAll arguments)
  | binary operation left right => binary operation left.capitalized right.capitalized

def capitalizedAll : List Formula → List Formula
  | [] => []
  | f :: fs => f.capitalized :: capitalizedAll fs

end

mutual

/-- Every word of the formula is spelled like a token of its class. -/
def IsSpelled : Formula → Prop
  | text quoted => Spells .text quoted.toList
  | number digits => Spells .number digits.toList
  | cell address => Spells .cell address.toList
  | range first last => Spells .cell first.toList ∧ Spells .cell last.toList
  | negative operand => operand.IsSpelled
  | call function arguments => Spells .identifier function.toList ∧ AreSpelled arguments
  | binary _ left right => left.IsSpelled ∧ right.IsSpelled

def AreSpelled : List Formula → Prop
  | [] => True
  | f :: fs => f.IsSpelled ∧ AreSpelled fs

end

theorem areSpelled_append_singleton {fs : List Formula} {f : Formula} :
    AreSpelled (fs ++ [f]) ↔ AreSpelled fs ∧ f.IsSpelled := by
  induction fs with
  | nil => simp [AreSpelled]
  | cons g gs ih => simp [AreSpelled, ih, and_assoc]

mutual

theorem IsSpelled.of_mem_nodes {f g : Formula} (h : f.IsSpelled) (hg : g ∈ f.nodes) :
    g.IsSpelled := by
  cases f with
  | text quoted | number digits | cell address | range first last =>
    obtain rfl := List.mem_singleton.mp hg
    exact h
  | negative operand =>
    rcases List.mem_cons.mp hg with rfl | hg
    · exact h
    · exact @IsSpelled.of_mem_nodes operand g h hg
  | call function arguments =>
    rcases List.mem_cons.mp hg with rfl | hg
    · exact h
    · exact @AreSpelled.of_mem_nodes arguments g h.2 hg
  | binary operation left right =>
    rcases List.mem_cons.mp hg with rfl | hg
    · exact h
    · rcases List.mem_append.mp hg with hg | hg
      · exact @IsSpelled.of_mem_nodes left g h.1 hg
      · exact @IsSpelled.of_mem_nodes right g h.2 hg

theorem AreSpelled.of_mem_nodes {fs : List Formula} {g : Formula} (h : AreSpelled fs)
    (hg : g ∈ nodesOfAll fs) : g.IsSpelled := by
  cases fs with
  | nil => cases hg
  | cons f fs =>
    rcases List.mem_append.mp hg with hg | hg
    · exact @IsSpelled.of_mem_nodes f g h.1 hg
    · exact @AreSpelled.of_mem_nodes fs g h.2 hg

end

theorem IsSpelled.spells_of_mem_addresses {f : Formula} {address : String} (h : f.IsSpelled)
    (hMem : address ∈ f.addresses) : Spells .cell address.toList := by
  obtain ⟨g, hg, hOwn⟩ := List.mem_flatMap.mp hMem
  have hNode := h.of_mem_nodes hg
  cases g with
  | cell own =>
    obtain rfl := List.mem_singleton.mp hOwn
    exact hNode
  | range first last =>
    rcases List.mem_cons.mp hOwn with rfl | hOwn
    · exact hNode.1
    · obtain rfl := List.mem_singleton.mp hOwn
      exact hNode.2
  | _ => cases hOwn

end Formula

/-! ## What was read is spelled like its tokens -/

/-- Every token is spelled like the tokens of its class. -/
def AreClassed (ts : List Token) : Prop := ∀ t ∈ ts, Spells t.kind t.text.toList

section

variable {t : Token} {ts us : List Token} {kind : TokenKind}

theorem AreClassed.head (h : AreClassed (t :: ts)) (hKind : t.kind = kind) :
    Spells kind t.text.toList := hKind ▸ h t List.mem_cons_self

theorem AreClassed.of_suffix (h : AreClassed ts) (hSuffix : us <:+ ts) : AreClassed us :=
  fun t ht => h t (hSuffix.subset ht)

theorem AreClassed.tail (h : AreClassed (t :: ts)) : AreClassed ts :=
  h.of_suffix (List.suffix_cons t ts)

end

namespace Layer

variable {ts us : List Token} {f : Formula} {layer : Layer}

/-- What the layer carries is spelled like tokens. -/
def IsSpelled : Layer → Prop
  | sum left | product left => left.IsSpelled
  | arguments function before => Spells .identifier function.toList ∧ Formula.AreSpelled before
  | expression | term | operand => True

theorem Reads.isSpelled (h : Reads layer ts f us) (hTokens : AreClassed ts)
    (hLayer : layer.IsSpelled) : f.IsSpelled := by
  induction h with
  | expression hTerm _ ihTerm ihSum =>
    exact ihSum (hTokens.of_suffix hTerm.suffix) (ihTerm hTokens trivial)
  | add _ _ hTerm _ ihTerm ihSum =>
    apply ihSum (hTokens.tail.of_suffix hTerm.suffix)
    exact ⟨hLayer, ihTerm hTokens.tail trivial⟩
  | sumEnd | productEnd => exact hLayer
  | term hOperand _ ihOperand ihProduct =>
    exact ihProduct (hTokens.of_suffix hOperand.suffix) (ihOperand hTokens trivial)
  | multiply _ _ hOperand _ ihOperand ihProduct =>
    apply ihProduct (hTokens.tail.of_suffix hOperand.suffix)
    exact ⟨hLayer, ihOperand hTokens.tail trivial⟩
  | number hKind | text hKind | cell hKind => exact hTokens.head hKind
  | range hFirst _ hLast => exact ⟨hTokens.head hFirst, hTokens.tail.tail.head hLast⟩
  | negative _ _ ih | parenthesized _ _ _ ih => exact ih hTokens.tail trivial
  | callEmpty hName => exact ⟨hTokens.head hName, trivial⟩
  | call hName _ _ ih => exact ih hTokens.tail.tail ⟨hTokens.head hName, trivial⟩
  | next hArgument _ _ ihArgument ihArguments =>
    apply ihArguments (hTokens.of_suffix hArgument.suffix).tail
    exact ⟨hLayer.1,
      Formula.areSpelled_append_singleton.mpr ⟨hLayer.2, ihArgument hTokens trivial⟩⟩
  | last _ _ ih =>
    exact ⟨hLayer.1, Formula.areSpelled_append_singleton.mpr ⟨hLayer.2, ih hTokens trivial⟩⟩

end Layer

/-! ## A text that shows a formula -/

section

variable {cs ds l name rest : List Char} {f g : Formula} {fs : List Formula} {ts us : List Token}
  {p q : Nat} {c : Char} {kind : TokenKind}

/-- No word goes on here. -/
def IsClear (rest : List Char) : Prop := ∀ c ∈ rest.head?, isInner c = false

theorem isClear_cons (hc : isInner c = false) : IsClear (c :: rest) := by
  rintro _ ⟨⟩
  exact hc

theorem IsClear.endsBefore (h : IsClear rest) : EndsBefore kind l rest := by
  intro c hc hContinues
  have hInner := hContinues.inner
  rw [h c hc] at hInner
  cases hInner

/-- Wherever the text stands, its tokens are the formula as an operand; a colon after it would make
a range of a cell. -/
def ShowsOperand (cs : List Char) (f : Formula) : Prop :=
  ∀ p rest, IsClear rest → ∃ ts q, Lexes p (cs ++ rest) ts q rest ∧
    ∀ us, (∀ t r, us = t :: r → t.text ≠ ":") → Layer.Reads .operand (ts ++ us) f us

/-- Wherever the text stands, its tokens are the formula as an expression. -/
def ShowsExpression (cs : List Char) (f : Formula) : Prop :=
  ∀ p rest, IsClear rest → ∃ ts q, Lexes p (cs ++ rest) ts q rest ∧
    ∀ us, Halts us → Layer.Reads .expression (ts ++ us) f us

/-- The text and a closing parenthesis are the arguments of a call. -/
def ShowsArguments (cs : List Char) (fs : List Formula) : Prop :=
  ∀ p rest, ∃ ts q, Lexes p (cs ++ ')' :: rest) ts q rest ∧
    ∀ function before us,
      Layer.Reads (.arguments function before) (ts ++ us) (.call function (before ++ fs)) us

theorem Lexer.Lexes.punctuation (hc : isPunctuation c = true) (h : Lexes (p + 1) cs ts q rest) :
    Lexes p (c :: cs) (⟨.punctuation, String.ofList [c], p⟩ :: ts) q rest := by
  have hSpells : Spells .punctuation [c] := ⟨c, hc, rfl⟩
  exact .lexeme hSpells nofun h

theorem lexes_closing (p : Nat) (rest : List Char) :
    Lexes p (')' :: rest) [⟨.punctuation, ")", p⟩] (p + 1) rest := .punctuation rfl .done

theorem spells_symbol (o : Operation) : Spells .operator o.symbol.toList := by
  cases o
  · exact ⟨'+', rfl, rfl⟩
  · exact ⟨'-', rfl, rfl⟩
  · exact ⟨'*', rfl, rfl⟩
  · exact ⟨'/', rfl, rfl⟩

theorem showsOperand_token (hSpells : Spells kind l)
    (hReads : ∀ p us, (∀ t r, us = t :: r → t.text ≠ ":") →
      Layer.Reads .operand (⟨kind, String.ofList l, p⟩ :: us) f us) : ShowsOperand l f := by
  intro p rest hRest
  exact ⟨_, _, .lexeme hSpells hRest.endsBefore .done, fun us hColon => hReads p us hColon⟩

theorem showsOperand_range (hFirst : Spells .cell cs) (hLast : Spells .cell ds) :
    ShowsOperand (cs ++ ':' :: ds) (.range (String.ofList cs) (String.ofList ds)) := by
  intro p rest hRest
  have hLexes : Lexes p (cs ++ ':' :: (ds ++ rest)) _ _ rest :=
    .lexeme hFirst (endsBefore_cons rfl) (.punctuation rfl
      (.lexeme hLast hRest.endsBefore .done))
  rw [List.append_assoc]
  exact ⟨_, _, hLexes, fun us _ => .range rfl rfl rfl⟩

theorem reads_expression (h : Layer.Reads .operand ts f us) (hHalts : Halts us) :
    Layer.Reads .expression ts f us :=
  .expression (.term h (.productEnd (hHalts.stops 2))) (.sumEnd (hHalts.stops 1))

theorem Halts.colon (h : Halts us) : ∀ t r, us = t :: r → t.text ≠ ":" := by
  intro t r hText
  rcases h t r hText with hEnd | hEnd <;> rw [hEnd] <;> decide

theorem ShowsOperand.expression (h : ShowsOperand cs f) : ShowsExpression cs f := by
  intro p rest hRest
  obtain ⟨ts, q, hLexes, hReads⟩ := h p rest hRest
  exact ⟨ts, q, hLexes, fun us hHalts => reads_expression (hReads us hHalts.colon) hHalts⟩

theorem ShowsExpression.parenthesized (h : ShowsExpression cs f) :
    ShowsOperand ('(' :: (cs ++ [')'])) f := by
  intro p rest _
  obtain ⟨ts, q, hInside, hReads⟩ := h (p + 1) (')' :: rest) (isClear_cons rfl)
  refine ⟨⟨.punctuation, "(", p⟩ :: (ts ++ [⟨.punctuation, ")", q⟩]), q + 1, ?_, fun us _ => ?_⟩
  · rw [List.cons_append, List.append_assoc]
    exact .punctuation rfl (hInside.trans (lexes_closing q rest))
  · rw [List.cons_append, List.append_assoc]
    exact .parenthesized rfl (hReads _ (.cons (.inl rfl))) rfl

theorem ShowsOperand.negative (h : ShowsOperand cs f) :
    ShowsExpression ('-' :: cs) (.negative f) := by
  intro p rest hRest
  obtain ⟨ts, q, hLexes, hReads⟩ := h.expression (p + 1) rest hRest
  refine ⟨⟨.operator, "-", p⟩ :: ts, q, ?_, fun us hHalts => ?_⟩
  · exact .lexeme (spells_symbol .subtract) nofun hLexes
  · exact reads_expression (.negative rfl (hReads us hHalts)) hHalts

/-- What comes after an operator is one operand, so its level does not matter. -/
theorem reads_operation {t : Token} {o : Operation} {vs : List Token} (ht : t.Operates o)
    (hLeft : Layer.Reads .operand ts f (t :: us)) (hRight : Layer.Reads .operand us g vs)
    (hHalts : Halts vs) : Layer.Reads .expression ts (.binary o f g) vs := by
  rcases Reading.level_eq o with hLevel | hLevel
  · have hStops : Layer.Stops 2 (t :: us) := by
      rintro _ _ o' ⟨⟩ ht'
      rw [← ht.unique ht', hLevel]
      decide
    exact .expression (.term hLeft (.productEnd hStops)) (.add ht hLevel
      (.term hRight (.productEnd (hHalts.stops 2))) (.sumEnd (hHalts.stops 1)))
  · exact .expression (.term hLeft (.multiply ht hLevel hRight (.productEnd (hHalts.stops 2))))
      (.sumEnd (hHalts.stops 1))

theorem ShowsOperand.binary (hLeft : ShowsOperand cs f) (hRight : ShowsOperand ds g)
    (o : Operation) :
    ShowsExpression (cs ++ ' ' :: (o.symbol.toList ++ ' ' :: ds)) (.binary o f g) := by
  intro p rest hRest
  obtain ⟨ts, q, hLexes, hReads⟩ := hLeft p (' ' :: (o.symbol.toList ++ ' ' :: (ds ++ rest)))
    (isClear_cons rfl)
  obtain ⟨us, q', hLexes', hReads'⟩ := hRight (q + 1 + o.symbol.toList.length + 1) rest hRest
  refine ⟨ts ++ ⟨.operator, o.symbol, q + 1⟩ :: us, q', ?_, fun vs hHalts => ?_⟩
  · have hOperator := Lexes.lexeme (spells_symbol o) nofun (.space (c := ' ') rfl hLexes')
    rw [String.ofList_toList] at hOperator
    simpa using hLexes.trans (.space (c := ' ') rfl hOperator)
  · rw [List.append_assoc]
    refine reads_operation ⟨rfl, rfl⟩ (hReads _ ?_) (hReads' vs hHalts.colon) hHalts
    rintro _ _ ⟨⟩
    exact (Halts.symbol_ne o).2.2

theorem ShowsExpression.last (h : ShowsExpression cs f) : ShowsArguments cs [f] := by
  intro p rest
  obtain ⟨ts, q, hLexes, hReads⟩ := h p (')' :: rest) (isClear_cons rfl)
  refine ⟨ts ++ [⟨.punctuation, ")", q⟩], q + 1, hLexes.trans (lexes_closing q rest), ?_⟩
  intro function before us
  rw [List.append_assoc]
  exact .last (hReads _ (.cons (.inl rfl))) rfl

theorem ShowsExpression.next (h : ShowsExpression cs f) (hArguments : ShowsArguments ds fs) :
    ShowsArguments (cs ++ ',' :: ' ' :: ds) (f :: fs) := by
  intro p rest
  obtain ⟨ts, q, hLexes, hReads⟩ := h p (',' :: ' ' :: (ds ++ ')' :: rest)) (isClear_cons rfl)
  obtain ⟨us, q', hLexes', hReads'⟩ := hArguments (q + 1 + 1) rest
  refine ⟨ts ++ ⟨.punctuation, ",", q⟩ :: us, q', ?_, fun function before vs => ?_⟩
  · simpa using hLexes.trans (.punctuation (c := ',') rfl (.space (c := ' ') rfl hLexes'))
  · have hRest := hReads' function (before ++ [f]) vs
    rw [List.append_assoc, List.singleton_append] at hRest
    rw [List.append_assoc]
    exact .next (hReads _ (.cons (.inr rfl))) rfl hRest

theorem showsOperand_callEmpty (hName : Spells .identifier name) :
    ShowsOperand (name ++ ['(', ')']) (.call (String.ofList name) []) := by
  intro p rest _
  have hLexes : Lexes p (name ++ '(' :: ')' :: rest) _ _ rest :=
    .lexeme hName (endsBefore_cons rfl) (.punctuation rfl (lexes_closing _ rest))
  rw [List.append_assoc]
  exact ⟨_, _, hLexes, fun us _ => .callEmpty rfl rfl rfl⟩

theorem ShowsArguments.call (h : ShowsArguments cs fs) (hName : Spells .identifier name) :
    ShowsOperand (name ++ '(' :: (cs ++ [')'])) (.call (String.ofList name) fs) := by
  intro p rest _
  obtain ⟨ts, q, hLexes, hReads⟩ := h (p + name.length + 1) rest
  refine ⟨⟨.identifier, String.ofList name, p⟩ :: ⟨.punctuation, "(", p + name.length⟩ :: ts, q,
    ?_, fun us _ => ?_⟩
  · have hCall := Lexes.lexeme (p := p) hName (endsBefore_cons (c := '(') rfl)
      (.punctuation rfl hLexes)
    simpa using hCall
  · exact .call rfl rfl (hReads _ [] us)

end

/-! ## The canonical text -/

namespace Formula

mutual

theorem showsOperand_render : (f : Formula) → f.IsSpelled →
    ShowsOperand f.render.toList f.capitalized
  | text quoted, h => by
    refine showsOperand_token h fun p us _ => ?_
    simpa [render, capitalized] using Layer.Reads.text (t := ⟨.text, quoted, p⟩) rfl
  | number digits, h => by
    refine showsOperand_token h fun p us _ => ?_
    simpa [render, capitalized] using Layer.Reads.number (t := ⟨.number, digits, p⟩) rfl
  | cell address, h => by
    refine showsOperand_token (spells_upper h) fun p us hColon => ?_
    simpa [render, capitalized] using
      Layer.Reads.cell (t := ⟨.cell, Text.upper address, p⟩) rfl hColon
  | range first last, h => by
    simpa [render, rangeText, capitalized] using
      showsOperand_range (spells_upper h.1) (spells_upper h.2)
  | negative operand, h => by
    simpa [render, capitalized] using (showsOperand_render operand h).negative.parenthesized
  | call function arguments, h => by
    have hArguments := showsArguments_render arguments h.2
    cases arguments with
    | nil => simpa [render, renderAll, capitalized, capitalizedAll] using showsOperand_callEmpty h.1
    | cons f fs =>
      simpa [render, capitalized] using (hArguments (List.cons_ne_nil f fs)).call h.1
  | binary o left right, h => by
    simpa [render, capitalized] using ((showsOperand_render left h.1).binary
      (showsOperand_render right h.2) o).parenthesized

theorem showsArguments_render : (fs : List Formula) → AreSpelled fs → fs ≠ [] →
    ShowsArguments (String.intercalate ", " (renderAll fs)).toList (capitalizedAll fs)
  | [], _, hNonempty => absurd rfl hNonempty
  | [f], h, _ => by
    simpa [renderAll, capitalizedAll] using (showsOperand_render f h.1).expression.last
  | f :: g :: gs, h, _ => by
    have hRest := showsArguments_render (g :: gs) h.2 (List.cons_ne_nil g gs)
    simpa [renderAll, capitalizedAll, String.toList_intercalate, List.intercalate_cons_cons] using
      (showsOperand_render f h.1).expression.next hRest

end

mutual

theorem capitalized_render : (f : Formula) → f.IsSpelled → f.capitalized.render = f.render
  | text _, _ | number _, _ => rfl
  | cell address, h => upper_upper h
  | range first last, h => by
    simp only [capitalized, render, rangeText, upper_upper h.1, upper_upper h.2]
  | negative operand, h => by
    simp only [capitalized, render, capitalized_render operand h]
  | call function arguments, h => by
    simp only [capitalized, render, capitalizedAll_render arguments h.2]
  | binary o left right, h => by
    simp only [capitalized, render, capitalized_render left h.1, capitalized_render right h.2]

theorem capitalizedAll_render : (fs : List Formula) → AreSpelled fs →
    renderAll (capitalizedAll fs) = renderAll fs
  | [], _ => rfl
  | f :: fs, h => by
    simp only [capitalizedAll, renderAll, capitalized_render f h.1, capitalizedAll_render fs h.2]

end

/-! ## The ends of the text -/

/-- The characters that a canonical text starts and ends with. -/
def isEdge (c : Char) : Bool := isInner c || isQuote c || c == '(' || c == ')'

theorem toNat_of_isEdge {c : Char} (h : isEdge c = true) :
    0x21 ≤ c.toNat ∧ c.toNat ≤ 0x7a ∧ c ≠ '=' := by
  simp only [isEdge, isInner, isQuote, Bool.or_eq_true, beq_iff_eq, Coordinate.isLetter_iff,
    isDigit_toNat] at h
  have hEquals : ∀ {c : Char}, c.toNat ≠ 61 → c ≠ '=' := by
    rintro c hc rfl
    exact hc rfl
  rcases h with (((((h | h) | h) | rfl) | rfl | rfl) | rfl) | rfl
  · exact ⟨by omega, by omega, hEquals (by omega)⟩
  · exact ⟨by omega, by omega, hEquals (by omega)⟩
  · exact ⟨by omega, by omega, hEquals (by omega)⟩
  all_goals decide

theorem isBlank_of_isEdge {c : Char} (h : isEdge c = true) : Text.isBlank c = false := by
  obtain ⟨hLow, hHigh, -⟩ := toNat_of_isEdge h
  simp only [Text.isBlank, Bool.or_eq_false_iff, Bool.and_eq_false_iff, decide_eq_false_iff_not,
    beq_eq_false_iff_ne]
  omega

def HasEdges (cs : List Char) : Prop :=
  (∃ c r, cs = c :: r ∧ isEdge c = true) ∧ ∃ r c, cs = r ++ [c] ∧ isEdge c = true

theorem hasEdges_of_inner {cs : List Char} (hNonempty : cs ≠ [])
    (h : ∀ c ∈ cs, isInner c = true) : HasEdges cs := by
  have hEdge : ∀ c ∈ cs, isEdge c = true := by
    intro c hc
    simp [isEdge, h c hc]
  constructor
  · obtain ⟨c, r, rfl⟩ := List.exists_cons_of_ne_nil hNonempty
    exact ⟨c, r, rfl, hEdge c List.mem_cons_self⟩
  · obtain rfl | ⟨r, c, rfl⟩ := List.eq_nil_or_concat' cs
    · exact absurd rfl hNonempty
    · exact ⟨r, c, rfl, hEdge c (by simp)⟩

theorem hasEdges_cell {cs : List Char} (h : Spells .cell cs) : HasEdges cs := by
  obtain ⟨letters, digits, hNonempty, -, hLetters, hDigits, rfl⟩ := h
  refine hasEdges_of_inner (by simp [hNonempty]) fun c hc => ?_
  rcases List.mem_append.mp hc with hc | hc
  · simp [isInner, hLetters c hc]
  · simp [isInner, hDigits c hc]

theorem hasEdges_number {cs : List Char} (h : Spells .number cs) : HasEdges cs := by
  refine hasEdges_of_inner h.ne_nil fun c hc => ?_
  rcases IsNumeral.digit_or_point h c hc with hc | rfl
  · simp [isInner, hc]
  · decide

theorem HasEdges.append {cs ds : List Char} (hFirst : HasEdges cs) (between : List Char)
    (hLast : HasEdges ds) : HasEdges (cs ++ (between ++ ds)) := by
  obtain ⟨⟨c, r, rfl, hc⟩, -⟩ := hFirst
  obtain ⟨-, s, d, rfl, hd⟩ := hLast
  exact ⟨⟨c, _, rfl, hc⟩, c :: r ++ between ++ s, d, by simp, hd⟩

theorem hasEdges_render {f : Formula} (h : f.IsSpelled) : HasEdges f.render.toList := by
  have hParentheses : ∀ inside, HasEdges ('(' :: (inside ++ [')'])) := fun inside =>
    ⟨⟨'(', _, rfl, rfl⟩, '(' :: inside, ')', rfl, rfl⟩
  cases f with
  | text quoted =>
    obtain ⟨q, inside, hQuote, -, hText⟩ := h
    have hEdge : isEdge q = true := by simp [isEdge, hQuote]
    rw [render, hText]
    exact ⟨⟨q, _, rfl, hEdge⟩, q :: inside, q, rfl, hEdge⟩
  | number digits => exact hasEdges_number h
  | cell address => exact hasEdges_cell (spells_upper h)
  | range first last =>
    simpa [render, rangeText] using
      (hasEdges_cell (spells_upper h.1)).append [':'] (hasEdges_cell (spells_upper h.2))
  | negative operand => simpa [render] using hParentheses ('-' :: operand.render.toList)
  | call function arguments =>
    have hName : HasEdges function.toList := by
      refine hasEdges_of_inner h.1.1 fun c hc => ?_
      simp [isInner, h.1.2 c hc]
    simpa [render] using hName.append [] (hParentheses _)
  | binary o left right =>
    simpa [render] using
      hParentheses (left.render.toList ++ ' ' :: (o.symbol.toList ++ ' ' :: right.render.toList))

theorem body_render {f : Formula} (h : f.IsSpelled) : body f.render = f.render := by
  obtain ⟨⟨c, r, hFirst, hc⟩, s, d, hLast, hd⟩ := hasEdges_render h
  have hStrip : Text.strip f.render.toList = f.render.toList := by
    apply Text.strip_of_edges
    · rw [hFirst]
      rintro _ ⟨⟩
      exact isBlank_of_isEdge hc
    · rw [hLast, List.getLast?_concat]
      rintro _ ⟨⟩
      exact isBlank_of_isEdge hd
  rw [body, hStrip]
  split
  · rename_i hEquals
    rw [hFirst] at hEquals
    cases hEquals
    exact absurd rfl (toNat_of_isEdge hc).2.2
  · exact String.ofList_toList

/-! ## Reading the text -/

theorem parse_eq_ok {source : String} {f : Formula} :
    parse source = .ok f ↔
      ∃ ts, tokenize (body source) = .ok ts ∧ Layer.Reads .expression ts f [] := by
  unfold parse
  cases hTokens : tokenize (body source) with
  | error fault => simp [bind, Except.bind]
  | ok ts => simpa [bind, Except.bind] using ofTokens_eq_ok (areLexed_of_tokenize hTokens)

theorem isSpelled_of_parse {source : String} {f : Formula} (h : parse source = .ok f) :
    f.IsSpelled := by
  obtain ⟨ts, hTokens, hReads⟩ := parse_eq_ok.mp h
  obtain ⟨q, hLexes⟩ := scan_eq_ok.mp hTokens
  exact hReads.isSpelled hLexes.segments.spells trivial

theorem parse_render_of_isSpelled {f : Formula} (h : f.IsSpelled) :
    parse f.render = .ok f.capitalized := by
  obtain ⟨ts, q, hLexes, hReads⟩ := (showsOperand_render f h).expression 0 [] nofun
  have hRead := hReads [] .nil
  rw [List.append_nil] at hLexes hRead
  rw [parse_eq_ok, body_render h]
  exact ⟨ts, scan_eq_ok.mpr ⟨q, hLexes⟩, hRead⟩

/-- The text of a formula that was read is read as the formula with its addresses in upper case, so
formulas with one text differ in the case of addresses alone. -/
theorem parse_render {source : String} {f : Formula} (h : parse source = .ok f) :
    parse f.render = .ok f.capitalized ∧ f.capitalized.render = f.render ∧
    ∀ {source' : String} {g : Formula}, parse source' = .ok g → g.render = f.render →
      g.capitalized = f.capitalized := by
  have hSpelled := isSpelled_of_parse h
  refine ⟨parse_render_of_isSpelled hSpelled, capitalized_render f hSpelled, ?_⟩
  intro source' g hOther hSame
  have hRead := parse_render_of_isSpelled (isSpelled_of_parse hOther)
  rw [hSame, parse_render_of_isSpelled hSpelled] at hRead
  exact (Except.ok.inj hRead).symm

/-- Two spellings of a formula with a parenthesis in a text and points at the ends of numbers; the
minus takes in the whole difference. -/
theorem parse_render_nested : ∃ f g, parse "= -If(\"it's (\", 1.)*.5-aB07:c2" = .ok f ∧
    parse "-(If(\"it's (\",1.)*.5-Ab07:C2)" = .ok g ∧
    f.render = "(-((If(\"it's (\", 1.) * .5) - AB07:C2))" ∧
    parse f.render = .ok f.capitalized ∧ f.capitalized.render = f.render ∧
    f ≠ g ∧ g.capitalized = f.capitalized := by
  let tree (first last : String) : Formula := .negative (.binary .subtract (.binary .multiply
    (.call "If" [.text "\"it's (\"", .number "1."]) (.number ".5")) (.range first last))
  have hFirst : parse "= -If(\"it's (\", 1.)*.5-aB07:c2" = .ok (tree "aB07" "c2") := by cbv
  have hSecond : parse "-(If(\"it's (\",1.)*.5-Ab07:C2)" = .ok (tree "Ab07" "C2") := by cbv
  obtain ⟨hRead, hStable, hOther⟩ := parse_render hFirst
  refine ⟨_, _, hFirst, hSecond, ?_, hRead, hStable, ?_, hOther hSecond ?_⟩
  · decide
  · decide
  · decide

end Formula
end Spreadsheet
