import Spreadsheet.Formula.Tree
import Spreadsheet.Proofs.Formula.Lexemes

/-!
# The layered grammar

A formula as a reader finds it that descends through the layers: an expression is a sum of terms, a
term a product of operands, and both group to the left. `Reads` has one rule for each step of that
descent; the layers `sum` and `product` carry what has been read of a chain, `arguments` the call so
far. A chain goes on as long as an operator of its level comes next, so the expression after a minus
sign is the longest one.

The words of the formula are the words of the tokens that were read, in the same order.
-/

set_option autoImplicit false

namespace Spreadsheet

open Number (Operation)

namespace Formula

mutual

/-- The literals, addresses and function names of a formula, from left to right. -/
def words : Formula → List String
  | text quoted => [quoted]
  | number digits => [digits]
  | cell address => [address]
  | range first last => [first, last]
  | negative operand => operand.words
  | call function arguments => function :: wordsOfAll arguments
  | binary _ left right => left.words ++ right.words

def wordsOfAll : List Formula → List String
  | [] => []
  | f :: fs => f.words ++ wordsOfAll fs

end

theorem wordsOfAll_append_singleton (fs : List Formula) (f : Formula) :
    wordsOfAll (fs ++ [f]) = wordsOfAll fs ++ f.words := by
  induction fs with
  | nil => simp [wordsOfAll]
  | cons g gs ih => simp [wordsOfAll, ih]

end Formula

/-- The token is the operator of the operation. -/
def Token.Operates (t : Token) (o : Operation) : Prop := t.kind = .operator ∧ t.text = o.symbol

inductive Layer where
  | expression
  | sum (left : Formula)
  | term
  | product (left : Formula)
  | operand
  | arguments (function : String) (before : List Formula)

namespace Layer

variable {t : Token} {ts us : List Token} {f : Formula} {layer : Layer}

/-- No operator of the level comes next. -/
def Stops (level : Nat) (ts : List Token) : Prop :=
  ∀ t rest o, ts = t :: rest → t.Operates o → o.level ≠ level

/-- The formula that is read off the front of the tokens, and the tokens that are left. -/
inductive Reads : Layer → List Token → Formula → List Token → Prop
  | expression {ts us vs : List Token} {f g : Formula} (hTerm : Reads .term ts f us)
      (hSum : Reads (.sum f) us g vs) : Reads .expression ts g vs
  | add {t : Token} {ts us vs : List Token} {o : Operation} {left f g : Formula}
      (hOperator : t.Operates o) (hLevel : o.level = 1) (hTerm : Reads .term ts f us)
      (hSum : Reads (.sum (.binary o left f)) us g vs) : Reads (.sum left) (t :: ts) g vs
  | sumEnd {ts : List Token} {left : Formula} (hStops : Stops 1 ts) :
      Reads (.sum left) ts left ts
  | term {ts us vs : List Token} {f g : Formula} (hOperand : Reads .operand ts f us)
      (hProduct : Reads (.product f) us g vs) : Reads .term ts g vs
  | multiply {t : Token} {ts us vs : List Token} {o : Operation} {left f g : Formula}
      (hOperator : t.Operates o) (hLevel : o.level = 2) (hOperand : Reads .operand ts f us)
      (hProduct : Reads (.product (.binary o left f)) us g vs) :
      Reads (.product left) (t :: ts) g vs
  | productEnd {ts : List Token} {left : Formula} (hStops : Stops 2 ts) :
      Reads (.product left) ts left ts
  | number {t : Token} {ts : List Token} (hKind : t.kind = .number) :
      Reads .operand (t :: ts) (.number t.text) ts
  | text {t : Token} {ts : List Token} (hKind : t.kind = .text) :
      Reads .operand (t :: ts) (.text t.text) ts
  | cell {t : Token} {ts : List Token} (hKind : t.kind = .cell)
      (hAlone : ∀ colon rest, ts = colon :: rest → colon.text ≠ ":") :
      Reads .operand (t :: ts) (.cell t.text) ts
  | range {first colon last : Token} {ts : List Token} (hFirst : first.kind = .cell)
      (hColon : colon.text = ":") (hLast : last.kind = .cell) :
      Reads .operand (first :: colon :: last :: ts) (.range first.text last.text) ts
  | negative {t : Token} {ts us : List Token} {f : Formula} (hMinus : t.text = "-")
      (hOperand : Reads .expression ts f us) : Reads .operand (t :: ts) (.negative f) us
  | parenthesized {opening closing : Token} {ts us : List Token} {f : Formula}
      (hOpening : opening.text = "(") (hInside : Reads .expression ts f (closing :: us))
      (hClosing : closing.text = ")") : Reads .operand (opening :: ts) f us
  | callEmpty {name opening closing : Token} {ts : List Token} (hName : name.kind = .identifier)
      (hOpening : opening.text = "(") (hClosing : closing.text = ")") :
      Reads .operand (name :: opening :: closing :: ts) (.call name.text []) ts
  | call {name opening : Token} {ts us : List Token} {f : Formula}
      (hName : name.kind = .identifier) (hOpening : opening.text = "(")
      (hArguments : Reads (.arguments name.text []) ts f us) :
      Reads .operand (name :: opening :: ts) f us
  | next {function : String} {before : List Formula} {comma : Token} {ts us vs : List Token}
      {f g : Formula} (hArgument : Reads .expression ts f (comma :: us)) (hComma : comma.text = ",")
      (hArguments : Reads (.arguments function (before ++ [f])) us g vs) :
      Reads (.arguments function before) ts g vs
  | last {function : String} {before : List Formula} {closing : Token} {ts us : List Token}
      {f : Formula} (hArgument : Reads .expression ts f (closing :: us))
      (hClosing : closing.text = ")") :
      Reads (.arguments function before) ts (.call function (before ++ [f])) us

theorem Reads.suffix (h : Reads layer ts f us) : us <:+ ts := by
  induction h with
  | expression _ _ ihTerm ihSum => exact ihSum.trans ihTerm
  | add _ _ _ _ ihTerm ihSum => exact (ihSum.trans ihTerm).trans (List.suffix_cons _ _)
  | sumEnd => exact List.suffix_rfl
  | term _ _ ihOperand ihProduct => exact ihProduct.trans ihOperand
  | multiply _ _ _ _ ihOperand ihProduct =>
    exact (ihProduct.trans ihOperand).trans (List.suffix_cons _ _)
  | productEnd => exact List.suffix_rfl
  | number | text | cell => exact List.suffix_cons _ _
  | @range first colon last ts => exact List.suffix_append [first, colon, last] ts
  | negative _ _ ih => exact ih.trans (List.suffix_cons _ _)
  | parenthesized _ _ _ ih =>
    exact ((List.suffix_cons _ _).trans ih).trans (List.suffix_cons _ _)
  | @callEmpty name opening closing ts => exact List.suffix_append [name, opening, closing] ts
  | @call name opening ts us f _ _ _ ih =>
    exact ih.trans (List.suffix_append [name, opening] ts)
  | next _ _ _ ihArgument ihArguments =>
    exact (ihArguments.trans (List.suffix_cons _ _)).trans ihArgument
  | last _ _ ih => exact (List.suffix_cons _ _).trans ih

/-- After a term no operator that binds tighter than a sum comes next. -/
theorem Reads.stops (h : Reads layer ts f us) (hLayer : layer = .term ∨ ∃ g, layer = .product g) :
    Stops 2 us := by
  induction h with
  | term _ _ _ ih => exact ih (.inr ⟨_, rfl⟩)
  | multiply _ _ _ _ _ ih => exact ih (.inr ⟨_, rfl⟩)
  | productEnd hStops => exact hStops
  | _ => simp at hLayer

/-- Where an operand may start, a word stands or one of two symbols. -/
def Opens (ts : List Token) : Prop :=
  ∃ t rest, ts = t :: rest ∧ (t.isWord = true ∨ t.text = "-" ∨ t.text = "(")

/-- The layers that have read nothing yet. -/
def Fresh : Layer → Prop
  | expression | term | operand => True
  | arguments _ _ => True
  | sum _ | product _ => False

theorem isWord_of_kind {kind : TokenKind} (hKind : t.kind = kind)
    (hWord : kind ≠ .operator ∧ kind ≠ .punctuation) : t.isWord = true := by
  unfold Token.isWord
  cases kind <;> simp_all

theorem Reads.opens (h : Reads layer ts f us) (hFresh : layer.Fresh) : Opens ts := by
  have hWord : ∀ {t : Token} {rest : List Token} {kind : TokenKind}, t.kind = kind →
      (kind ≠ .operator ∧ kind ≠ .punctuation) → Opens (t :: rest) :=
    fun hKind hNot => ⟨_, _, rfl, .inl (isWord_of_kind hKind hNot)⟩
  induction h with
  | expression _ _ ih => exact ih trivial
  | add | sumEnd | multiply | productEnd => exact hFresh.elim
  | term _ _ ih => exact ih trivial
  | number hKind | text hKind | cell hKind => exact hWord hKind (by decide)
  | range hFirst => exact hWord hFirst (by decide)
  | negative hMinus => exact ⟨_, _, rfl, .inr (.inl hMinus)⟩
  | parenthesized hOpening => exact ⟨_, _, rfl, .inr (.inr hOpening)⟩
  | callEmpty hName | call hName => exact hWord hName (by decide)
  | next _ _ _ ih => exact ih trivial
  | last _ _ ih => exact ih trivial

/-- The words of what a layer already carries. -/
def words : Layer → List String
  | sum left => left.words
  | product left => left.words
  | arguments function before => function :: Formula.wordsOfAll before
  | _ => []

theorem Reads.words_append (h : Reads layer ts f us) (hLexed : AreLexed ts) :
    layer.words ++ wordTexts ts = f.words ++ wordTexts us := by
  have hOperator : ∀ {t : Token} {o : Operation}, t.Operates o → t.isWord = false := by
    intro t o ht
    rw [Token.isWord, ht.1]
  have hWord : ∀ {t : Token} {kind : TokenKind}, t.kind = kind →
      (kind ≠ .operator ∧ kind ≠ .punctuation) → t.isWord = true := isWord_of_kind
  induction h with
  | expression hTerm _ ihTerm ihSum =>
    rw [← ihSum (hLexed.of_suffix hTerm.suffix)]
    exact ihTerm hLexed
  | add hOp _ hTerm _ ihTerm ihSum =>
    rw [← ihSum (hLexed.tail.of_suffix hTerm.suffix), wordTexts_symbol (hOperator hOp)]
    simpa [words, Formula.words] using ihTerm hLexed.tail
  | sumEnd => rfl
  | term hOperand _ ihOperand ihProduct =>
    rw [← ihProduct (hLexed.of_suffix hOperand.suffix)]
    exact ihOperand hLexed
  | multiply hOp _ hOperand _ ihOperand ihProduct =>
    rw [← ihProduct (hLexed.tail.of_suffix hOperand.suffix), wordTexts_symbol (hOperator hOp)]
    simpa [words, Formula.words] using ihOperand hLexed.tail
  | productEnd => rfl
  | number hKind | text hKind | cell hKind => exact wordTexts_word (hWord hKind (by decide))
  | range hFirst hColon hLast =>
    change wordTexts _ = _
    rw [wordTexts_word (hWord hFirst (by decide)), hLexed.tail.wordTexts_skip hColon (by decide),
      wordTexts_word (hWord hLast (by decide))]
    rfl
  | negative hMinus _ ih =>
    change wordTexts _ = _
    rw [hLexed.wordTexts_skip hMinus (by decide)]
    exact ih hLexed.tail
  | parenthesized hOpening hInside hClosing ih =>
    have hRest := hLexed.tail.of_suffix hInside.suffix
    change wordTexts _ = _
    rw [hLexed.wordTexts_skip hOpening (by decide), ← hRest.wordTexts_skip hClosing (by decide)]
    exact ih hLexed.tail
  | callEmpty hName hOpening hClosing =>
    change wordTexts _ = _
    rw [wordTexts_word (hWord hName (by decide)), hLexed.tail.wordTexts_skip hOpening (by decide),
      hLexed.tail.tail.wordTexts_skip hClosing (by decide)]
    rfl
  | call hName hOpening _ ih =>
    change wordTexts _ = _
    rw [wordTexts_word (hWord hName (by decide)), hLexed.tail.wordTexts_skip hOpening (by decide)]
    exact ih hLexed.tail.tail
  | next hArgument hComma _ ihArgument ihArguments =>
    have hRest := hLexed.of_suffix hArgument.suffix
    have hFirst := ihArgument hLexed
    rw [hRest.wordTexts_skip hComma (by decide)] at hFirst
    rw [← ihArguments hRest.tail]
    simp only [words, Formula.wordsOfAll_append_singleton, List.cons_append, List.append_assoc,
      List.nil_append] at hFirst ⊢
    rw [hFirst]
  | last hArgument hClosing ih =>
    have hRest := hLexed.of_suffix hArgument.suffix
    have hFirst := ih hLexed
    rw [hRest.wordTexts_skip hClosing (by decide)] at hFirst
    simp only [words, Formula.words, Formula.wordsOfAll_append_singleton, List.cons_append,
      List.append_assoc, List.nil_append] at hFirst ⊢
    rw [hFirst]

end Layer
end Spreadsheet
