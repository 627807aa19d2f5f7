import TolerantSyntax.Grammar.Precedence
import TolerantSyntax.Grammar.Starts
import TolerantSyntax.Proofs.Expression.Word

/-!
# Concrete expressions

Expressions as they are written, with their parentheses: the words of an expression, the tree that
it should be read as, and what it takes for the words to be read that way. A binary operator has on
its left an operand that binds at least as tightly and on its right one that binds more tightly, or
the other way about for `?:`; prefix operators and suffixes have operands that bind as tightly as
they do.

An expression keeps its shape when it is written and read again (`parse_print`, in a module of its
own); what its words need for that is shown here: they are words of a row, and the first of them can
begin an expression.
-/

namespace TolerantSyntax

/-! ## Expressions -/

/-- A name as it is written. -/
structure Identifier where
  text : List Char
  isName : IsName text

/-- An integer as it is written. -/
structure Numeral where
  kind : Kind
  text : List Char
  isInteger : IsInteger kind text

/-- Operators before an operand. -/
inductive PrefixOperator where
  | plus | minus | not | complement
deriving DecidableEq

/-- Operators between two operands. -/
inductive BinaryOperator where
  | multiply | divide | remainder
  | add | subtract
  | shiftLeft | shiftRight | shiftRightUnsigned
  | closedRange | halfOpenRange
  | less | greater | lessEqual | greaterEqual
  | equal | exactlyEqual | notEqual | notExactlyEqual
  | bitAnd | bitXor | bitOr
  | and | or
  | elvis
deriving DecidableEq

/-- An expression as it is written. -/
inductive Expression where
  | identifier (name : Identifier)
  | integer (value : Numeral)
  | braced (inner : Expression)
  | unary (operator : PrefixOperator) (operand : Expression)
  | binary (operator : BinaryOperator) (left right : Expression)
  | field (target : Expression) (name : Identifier)
  | methodCall (target : Expression) (name : Identifier) (arguments : List Expression)
  | call (callee : Expression) (arguments : List Expression)
  | index (container : Expression) (keys : List Expression)

/-! ## Words and trees of the parts -/

/-- The leaf that a word is read as. -/
def Word.leaf (word : Word) : Node :=
  .leaf (.ofText word.kind (String.ofList word.text) 0 [] [])

/-- The word that a name is written as. -/
def Identifier.word (name : Identifier) : Word :=
  .loose .identifier name.text

/-- The word that an integer is written as. -/
def Numeral.word (value : Numeral) : Word :=
  .loose value.kind value.text

namespace PrefixOperator

/-- The kind of the symbol. -/
def kind : PrefixOperator → Kind
  | plus => .plus
  | minus => .minus
  | not => .exclamation
  | complement => .tilde

end PrefixOperator

namespace BinaryOperator

/-- The kind of the symbol, or of each of its tokens. -/
def kind : BinaryOperator → Kind
  | multiply => .asterisk
  | divide => .slash
  | remainder => .percent
  | add => .plus
  | subtract => .minus
  | shiftLeft => .doubleLt
  | shiftRight | shiftRightUnsigned | greater => .gt
  | closedRange => .ellipsis
  | halfOpenRange => .doubleDotLt
  | less => .lt
  | lessEqual => .ltEqual
  | greaterEqual => .gtEqual
  | equal => .doubleEqual
  | exactlyEqual => .tripleEqual
  | notEqual => .notEqual
  | notExactlyEqual => .notDoubleEqual
  | bitAnd => .bitwiseAnd
  | bitXor => .caret
  | bitOr => .pipe
  | and => .logicalAnd
  | or => .logicalOr
  | elvis => .elvis

/-- How tightly the operator binds. -/
def level : BinaryOperator → Precedence
  | multiply | divide | remainder => .multiplicative
  | add | subtract => .additive
  | shiftLeft | shiftRight | shiftRightUnsigned => .shift
  | closedRange | halfOpenRange => .range
  | less | greater | lessEqual | greaterEqual => .binaryCompare
  | equal | exactlyEqual | notEqual | notExactlyEqual => .equality
  | bitAnd => .bitwiseAnd
  | bitXor => .bitwiseXor
  | bitOr => .bitwiseOr
  | and => .logicalAnd
  | or => .logicalOr
  | elvis => .elvis

/-- The tokens of the operator; those of a shift to the right touch. -/
def words : BinaryOperator → List Word
  | shiftRight => [.tightGreater, .symbol .gt]
  | shiftRightUnsigned => [.tightGreater, .tightGreater, .symbol .gt]
  | operator => [.symbol operator.kind]

/-- The node of the operator. -/
def node (operator : BinaryOperator) : Node :=
  match operator.words with
  | [word] => word.leaf
  | words => .of .compositeOperator (words.map Word.leaf)

/-- Operators associate to the left, but for `?:`, which associates to the right: the operand on the
side to which the operator associates may have one of its level on top. -/
def Associates (operator : BinaryOperator) (left right : Precedence) : Prop :=
  if operator = elvis then operator.level.rank < left.rank ∧ operator.level.rank ≤ right.rank
  else operator.level.rank ≤ left.rank ∧ operator.level.rank < right.rank

/-- What the right operand has to bind more tightly than. -/
def floor (operator : BinaryOperator) : Precedence :=
  if operator = elvis then .conditional else operator.level

end BinaryOperator

/-! ## Lists of words -/

namespace Word

variable {ι : Type}

/-- The words of some things with a comma before each. -/
def commaEach (wordsOf : ι → List Word) (list : List ι) : List Word :=
  list.flatMap fun i => symbol .comma :: wordsOf i

theorem commaEach_cons (wordsOf : ι → List Word) (first : ι) (rest : List ι) :
    commaEach wordsOf (first :: rest) =
      symbol .comma :: (wordsOf first ++ commaEach wordsOf rest) :=
  rfl

/-- The words of some things with commas between them. -/
def joined (wordsOf : ι → List Word) : List ι → List Word
  | [] => []
  | first :: rest => wordsOf first ++ commaEach wordsOf rest

theorem forall_mem_joined {wordsOf : ι → List Word} {list : List ι} {p : Word → Prop}
    (hcomma : p (symbol .comma)) (h : ∀ i ∈ list, ∀ word ∈ wordsOf i, p word) :
    ∀ word ∈ joined wordsOf list, p word := by
  cases list with
  | nil => exact List.forall_mem_nil p
  | cons first rest =>
    obtain ⟨hfirst, hrest⟩ := List.forall_mem_cons.mp h
    rw [joined, List.forall_mem_append]
    refine ⟨hfirst, fun word hmem => ?_⟩
    obtain ⟨i, hi, hword⟩ := List.mem_flatMap.mp hmem
    exact List.forall_mem_cons.mpr ⟨hcomma, hrest i hi⟩ word hword

end Word

/-! ## Words and trees -/

namespace Expression

/-- How tightly the operator on top binds. -/
def level : Expression → Precedence
  | .binary operator _ _ => operator.level
  | .unary _ _ => .unary
  | _ => .memberAccess

mutual

/-- The words of an expression. -/
def words : Expression → List Word
  | .identifier name => [name.word]
  | .integer value => [value.word]
  | .braced inner => .symbol .openParen :: (inner.words ++ [.symbol .closeParen])
  | .unary operator operand => .symbol operator.kind :: operand.words
  | .binary operator left right => left.words ++ (operator.words ++ right.words)
  | .field target name => target.words ++ [.symbol .dot, name.word]
  | .methodCall target name arguments =>
    target.words ++ (.symbol .dot :: name.word :: .symbol .openParen ::
      (listWords arguments ++ [.symbol .closeParen]))
  | .call callee arguments =>
    callee.words ++ (.symbol .openParen :: (listWords arguments ++ [.symbol .closeParen]))
  | .index container keys =>
    container.words ++ (.symbol .openBracket :: (listWords keys ++ [.symbol .closeBracket]))

/-- The words of some expressions with commas between them. -/
def listWords : List Expression → List Word
  | [] => []
  | first :: rest => first.words ++ moreWords rest

/-- The words of some expressions with a comma before each. -/
def moreWords : List Expression → List Word
  | [] => []
  | first :: rest => .symbol .comma :: (first.words ++ moreWords rest)

end

/-- Nodes with commas between them. -/
def separated : List Node → List Node
  | [] => []
  | first :: rest => first :: rest.flatMap fun node => [(Word.symbol .comma).leaf, node]

mutual

/-- The tree that an expression should be read as. -/
def node : Expression → Node
  | .identifier name => .of .simpleNameReference [name.word.leaf]
  | .integer value => .of .basicLiteral [value.word.leaf]
  | .braced inner =>
    .of .bracedExpression
      [(Word.symbol .openParen).leaf, inner.node, (Word.symbol .closeParen).leaf]
  | .unary operator operand =>
    .of .unaryExpression [(Word.symbol operator.kind).leaf, operand.node]
  | .binary operator left right => .of .binaryExpression [left.node, operator.node, right.node]
  | .field target name => .of .fieldAccess [target.node, (Word.symbol .dot).leaf, name.word.leaf]
  | .methodCall target name arguments =>
    .of .methodCall [target.node, (Word.symbol .dot).leaf, name.word.leaf,
      (Word.symbol .openParen).leaf, .list (separated (argumentNodes arguments)),
      (Word.symbol .closeParen).leaf]
  | .call callee arguments =>
    .of .functionCall [callee.node, (Word.symbol .openParen).leaf,
      .list (separated (argumentNodes arguments)), (Word.symbol .closeParen).leaf]
  | .index container keys =>
    .of .indexedExpression [container.node, (Word.symbol .openBracket).leaf,
      .list (separated (nodes keys)), (Word.symbol .closeBracket).leaf]

/-- The trees of some expressions. -/
def nodes : List Expression → List Node
  | [] => []
  | first :: rest => first.node :: nodes rest

/-- The trees of some expressions as positional arguments. -/
def argumentNodes : List Expression → List Node
  | [] => []
  | first :: rest => .of .positionalArgument [first.node] :: argumentNodes rest

end

/-- The expression as it is written: its words with single spaces between them. -/
def print (expression : Expression) : String :=
  String.ofList (Word.spell expression.words)

/-! ## Well-formed expressions -/

/-- Is it an access to a field, without parentheses around it? -/
def isField : Expression → Bool
  | .field _ _ => true
  | _ => false

mutual

/-- Every operator has operands that bind tightly enough, and what is called is no field. -/
def WellFormed : Expression → Prop
  | .identifier _ => True
  | .integer _ => True
  | .braced inner => inner.WellFormed
  | .unary _ operand => operand.WellFormed ∧ Precedence.unary.rank ≤ operand.level.rank
  | .binary operator left right =>
    left.WellFormed ∧ right.WellFormed ∧ operator.Associates left.level right.level
  | .field target _ => target.WellFormed ∧ target.level = .memberAccess
  | .methodCall target _ arguments =>
    target.WellFormed ∧ target.level = .memberAccess ∧ AllWellFormed arguments
  | .call callee arguments =>
    callee.WellFormed ∧ callee.level = .memberAccess ∧ callee.isField = false ∧
      AllWellFormed arguments
  | .index container keys =>
    container.WellFormed ∧ container.level = .memberAccess ∧ AllWellFormed keys

/-- All of them are well-formed. -/
def AllWellFormed : List Expression → Prop
  | [] => True
  | first :: rest => first.WellFormed ∧ AllWellFormed rest

end

/-! ## Rows of words -/

/-- Induction over an expression, with the parts of a list as parts. -/
theorem induct {motive : Expression → Prop}
    (identifier : ∀ name, motive (.identifier name))
    (integer : ∀ value, motive (.integer value))
    (braced : ∀ inner, motive inner → motive (.braced inner))
    (unary : ∀ operator operand, motive operand → motive (.unary operator operand))
    (binary : ∀ operator left right, motive left → motive right →
      motive (.binary operator left right))
    (field : ∀ target name, motive target → motive (.field target name))
    (methodCall : ∀ target name arguments, motive target → (∀ a ∈ arguments, motive a) →
      motive (.methodCall target name arguments))
    (call : ∀ callee arguments, motive callee → (∀ a ∈ arguments, motive a) →
      motive (.call callee arguments))
    (index : ∀ container keys, motive container → (∀ k ∈ keys, motive k) →
      motive (.index container keys))
    (expression : Expression) : motive expression :=
  Expression.rec (motive_2 := fun list => ∀ e ∈ list, motive e)
    identifier integer braced unary binary field methodCall call index
    (List.forall_mem_nil motive) (fun _ _ ihh iht => List.forall_mem_cons.mpr ⟨ihh, iht⟩) expression

theorem allWellFormed_iff (list : List Expression) :
    AllWellFormed list ↔ ∀ e ∈ list, e.WellFormed := by
  induction list with
  | nil => simp [AllWellFormed]
  | cons first rest ih => simp [AllWellFormed, ih]

end Expression

/-! ## Rows of words -/

open Word

theorem Identifier.inRow (name : Identifier) {rest : List Word} (h : InRow rest) :
    InRow (name.word :: rest) :=
  inRow_cons List.mem_cons_self (isLexeme_name name.isName) rfl h

theorem Numeral.mem_kinds (value : Numeral) : value.kind ∈ kinds := by
  obtain ⟨kind, text, h⟩ := value
  cases h
  · exact List.mem_cons_of_mem _ List.mem_cons_self
  · exact List.mem_cons_of_mem _ (List.mem_cons_of_mem _ List.mem_cons_self)

theorem Numeral.inRow (value : Numeral) {rest : List Word} (h : InRow rest) :
    InRow (value.word :: rest) :=
  inRow_cons value.mem_kinds (isLexeme_integer value.isInteger) rfl h

theorem Numeral.isLiteral (value : Numeral) : value.kind.isLiteral = true := by
  obtain ⟨kind, text, h⟩ := value
  cases h <;> rfl

theorem PrefixOperator.mem_symbols (operator : PrefixOperator) : operator.kind ∈ symbols := by
  cases operator <;> decide

theorem BinaryOperator.inRow (operator : BinaryOperator) {rest : List Word} (h : InRow rest) :
    InRow (operator.words ++ rest) := by
  have hgreater : InRow (symbol .gt :: rest) := inRow_symbol (by decide) h
  have htight : tightGreater.kind ∈ kinds ∧ tightGreater.IsLexeme :=
    ⟨by decide, isLexeme_tightGreater⟩
  cases operator with
  | shiftRight => exact ⟨htight, fun _ => rfl, hgreater⟩
  | shiftRightUnsigned => exact ⟨htight, fun _ => rfl, htight, fun _ => rfl, hgreater⟩
  | _ => exact inRow_symbol (by decide) h

namespace Word

variable {ι : Type} {wordsOf : ι → List Word} {list : List ι} {rest : List Word}

theorem inRow_commaEach (h : ∀ i ∈ list, ∀ rest, InRow rest → InRow (wordsOf i ++ rest))
    (hrest : InRow rest) : InRow (commaEach wordsOf list ++ rest) := by
  induction list with
  | nil => exact hrest
  | cons first others ih =>
    obtain ⟨hfirst, hothers⟩ := List.forall_mem_cons.mp h
    rw [commaEach_cons, List.cons_append, List.append_assoc]
    exact inRow_symbol (by decide) (hfirst _ (ih hothers))

theorem inRow_joined (h : ∀ i ∈ list, ∀ rest, InRow rest → InRow (wordsOf i ++ rest))
    (hrest : InRow rest) : InRow (joined wordsOf list ++ rest) := by
  cases list with
  | nil => exact hrest
  | cons first others =>
    obtain ⟨hfirst, hothers⟩ := List.forall_mem_cons.mp h
    rw [joined, List.append_assoc]
    exact hfirst _ (inRow_commaEach hothers hrest)

end Word

namespace Expression

theorem moreWords_eq_commaEach (list : List Expression) :
    moreWords list = commaEach words list := by
  induction list with
  | nil => rw [moreWords, commaEach, List.flatMap_nil]
  | cons first rest ih => rw [moreWords, ih, commaEach_cons]

theorem listWords_eq_joined (list : List Expression) : listWords list = joined words list := by
  cases list with
  | nil => rw [listWords, joined]
  | cons first rest => rw [listWords, moreWords_eq_commaEach, joined]

theorem inRow_listWords {list : List Expression}
    (h : ∀ e ∈ list, ∀ rest, InRow rest → InRow (e.words ++ rest)) {rest : List Word}
    (hrest : InRow rest) : InRow (listWords list ++ rest) := by
  rw [listWords_eq_joined]
  exact inRow_joined h hrest

/-- **The words of an expression can be written before any row of words.** -/
theorem inRow_words (e : Expression) : ∀ rest, InRow rest → InRow (e.words ++ rest) := by
  induction e using induct with
  | identifier name => exact fun rest h => name.inRow h
  | integer value => exact fun rest h => value.inRow h
  | braced inner ih =>
    intro rest h
    rw [words, List.cons_append, List.append_assoc]
    exact inRow_symbol (by decide) (ih _ (inRow_symbol (by decide) h))
  | unary operator operand ih =>
    exact fun rest h => inRow_symbol operator.mem_symbols (ih _ h)
  | binary operator left right ihl ihr =>
    intro rest h
    rw [words, List.append_assoc, List.append_assoc]
    exact ihl _ (operator.inRow (ihr _ h))
  | field target name ih =>
    intro rest h
    rw [words, List.append_assoc]
    exact ih _ (inRow_symbol (by decide) (name.inRow h))
  | methodCall target name arguments ih iha =>
    intro rest h
    rw [words, List.append_assoc, List.cons_append, List.cons_append, List.cons_append,
      List.append_assoc]
    exact ih _ (inRow_symbol (by decide) (name.inRow (inRow_symbol (by decide)
      (inRow_listWords iha (inRow_symbol (by decide) h)))))
  | call callee arguments ih iha =>
    intro rest h
    rw [words, List.append_assoc, List.cons_append, List.append_assoc]
    exact ih _ (inRow_symbol (by decide) (inRow_listWords iha (inRow_symbol (by decide) h)))
  | index container keys ih ihk =>
    intro rest h
    rw [words, List.append_assoc, List.cons_append, List.append_assoc]
    exact ih _ (inRow_symbol (by decide) (inRow_listWords ihk (inRow_symbol (by decide) h)))

theorem inRow (e : Expression) : InRow e.words := by
  simpa using e.inRow_words [] trivial

end Expression

/-! ## First words -/

/-- The kind of the first word; behind the last one there is the end of input. -/
def Word.ahead (words : List Word) : Kind :=
  (words.head?.map Word.kind).getD .eof

/-- What is upcoming begins with the kind of the first word. -/
theorem Word.head?_upcoming (words : List Word) (count : Nat) :
    (words.map Word.kind ++ List.replicate (count + 1) Kind.eof).head? = some (ahead words) := by
  cases words <;> rfl

/-- Anywhere in a row there is a kind of word ahead, or the end of input. -/
theorem Word.ahead_drop_mem {among : List Kind} {words : List Word}
    (h : ∀ word ∈ words, word.kind ∈ among) (index : Nat) :
    ahead (words.drop index) ∈ Kind.eof :: among := by
  cases hdrop : words.drop index with
  | nil => exact List.mem_cons_self
  | cons word rest =>
    have hword : word ∈ words := List.mem_of_mem_drop (hdrop ▸ List.mem_cons_self)
    exact List.mem_cons_of_mem _ (h word hword)

/-- The first word of an expression can begin one. -/
theorem Expression.starts_words (e : Expression) :
    ∀ rest, Starts.expression (ahead (e.words ++ rest)) = true := by
  induction e using induct with
  | identifier name => exact fun _ => rfl
  | integer value =>
    intro rest
    show Starts.expression value.kind = true
    rw [Starts.expression, value.isLiteral, Bool.true_or]
  | braced inner ih => exact fun _ => rfl
  | unary operator operand ih =>
    intro rest
    show Starts.expression operator.kind = true
    cases operator <;> rfl
  | binary operator left right ih =>
    intro rest
    rw [words, List.append_assoc]
    exact ih _
  | field target name ih =>
    intro rest
    rw [words, List.append_assoc]
    exact ih _
  | methodCall target name arguments ih =>
    intro rest
    rw [words, List.append_assoc]
    exact ih _
  | call callee arguments ih =>
    intro rest
    rw [words, List.append_assoc]
    exact ih _
  | index container keys ih =>
    intro rest
    rw [words, List.append_assoc]
    exact ih _

/-- So it has one, whatever is behind it. -/
theorem Expression.ahead_words_append (e : Expression) (rest : List Word) :
    ahead (e.words ++ rest) = ahead e.words := by
  cases hwords : e.words with
  | nil =>
    have hstarts := e.starts_words []
    rw [hwords] at hstarts
    exact absurd hstarts (by decide)
  | cons word others => rfl

theorem BinaryOperator.ahead_words (operator : BinaryOperator) (rest : List Word) :
    ahead (operator.words ++ rest) = operator.kind := by
  cases operator <;> rfl

/-- No word of an expression is an `=` or a colon: neither the second one nor what follows the only
one. -/
theorem Expression.second_words (e : Expression) {kind : Kind}
    (hkind : kind = .equal ∨ kind = .colon) :
    ∀ rest, ahead rest ≠ kind → ahead ((e.words ++ rest).drop 1) ≠ kind := by
  have hstarts (e : Expression) (rest : List Word) : ahead (e.words ++ rest) ≠ kind := by
    intro heq
    have hbegins := e.starts_words rest
    rw [heq] at hbegins
    rcases hkind with rfl | rfl <;> exact absurd hbegins (by decide)
  have hoperator (operator : BinaryOperator) : operator.kind ≠ kind := by
    rcases hkind with rfl | rfl <;> cases operator <;> decide
  have hsuffix {suffix : Kind} (h : suffix ∈ symbols.drop 2) : suffix ≠ kind := by
    rintro rfl
    rcases hkind with rfl | rfl <;> exact absurd h (by decide)
  induction e using induct with
  | identifier name => exact fun _ h => h
  | integer value => exact fun _ h => h
  | braced inner ih =>
    intro rest h
    rw [words, List.cons_append, List.append_assoc]
    exact hstarts inner _
  | unary operator operand ih => exact fun rest _ => hstarts operand rest
  | binary operator left right ih =>
    intro rest h
    rw [words, List.append_assoc, List.append_assoc]
    -- if the left operand is one word, the second word is the operator
    exact ih _ (operator.ahead_words _ ▸ hoperator operator)
  | field target name ih =>
    intro rest h
    rw [words, List.append_assoc]
    exact ih _ (hsuffix (show Kind.dot ∈ _ by decide))
  | methodCall target name arguments ih =>
    intro rest h
    rw [words, List.append_assoc]
    exact ih _ (hsuffix (show Kind.dot ∈ _ by decide))
  | call callee arguments ih =>
    intro rest h
    rw [words, List.append_assoc]
    exact ih _ (hsuffix (show Kind.openParen ∈ _ by decide))
  | index container keys ih =>
    intro rest h
    rw [words, List.append_assoc]
    exact ih _ (hsuffix (show Kind.openBracket ∈ _ by decide))

end TolerantSyntax
