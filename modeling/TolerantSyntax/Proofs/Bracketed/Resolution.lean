import TolerantSyntax.Proofs.Bracketed.Reading
import TolerantSyntax.Proofs.Bracketed.Undecided
import TolerantSyntax.Proofs.Resume
import TolerantSyntax.Proofs.Statement.Reading

/-!
# What a list at the start of a statement is

A nested list that is undecided when it closes is what the statement makes of it: a binding pattern
if it is assigned to, a type if a variable is declared with it, an expression if a method of it is
called. The statement is then built around the same tree that the parser of that grammar makes of
the list on its own.
-/

namespace TolerantSyntax

open Bracketed (Grammar)
open Word (ahead symbol)

/-! ## Three uses of a list -/

/-- What a statement does with the list that it begins with. -/
inductive ListUse where
  /-- `list = value;`. -/
  | assign (value : Identifier)
  /-- `list name = value;`. -/
  | declare (name value : Identifier)
  /-- `list.method();`. -/
  | call (method : Identifier)

namespace ListUse

/-- The words behind the list. -/
def words : ListUse → List Word
  | assign value => [symbol .equal, value.word, symbol .semicolon]
  | declare name value => [name.word, symbol .equal, value.word, symbol .semicolon]
  | call method =>
    [symbol .dot, method.word, symbol .openParen, symbol .closeParen, symbol .semicolon]

/-- The grammar of the list. -/
def grammar : ListUse → Grammar
  | assign _ => .pattern
  | declare _ _ => .type
  | call _ => .expression

/-- The kind of the statement. -/
def statementKind : ListUse → Kind
  | assign _ => .destructuringAssignmentStatement
  | declare _ _ => .localVariableDeclaration
  | call _ => .callStatement

/-- Where the list stands in the statement: it is what is assigned to, the type in front of the
binding pattern of a declaration, or the operand of the call. -/
def list? (statement : Node) : ListUse → Option Node
  | assign _ => statement.slot? 0
  | declare _ _ => (statement.slot? 2).bind (·.slot? 0)
  | call _ => (statement.slot? 0).bind (·.slot? 0)

/-- The tree of a call of a method of the list, without arguments. -/
def callTree (list : Node) (method : Identifier) : Node :=
  .of .methodCall
    [list, (symbol .dot).leaf, method.word.leaf, (symbol .openParen).leaf, .list [],
      (symbol .closeParen).leaf]

/-- The tree of the statement, given that of the list. -/
def tree (list : Node) : ListUse → Node
  | assign value =>
    .of .destructuringAssignmentStatement
      [list, (symbol .equal).leaf, (Expression.identifier value).node, (symbol .semicolon).leaf]
  | declare name value =>
    .ofSlots .localVariableDeclaration
      [none, none,
        some (.of .typedBindingPattern [list, .of .captureBindingPattern [name.word.leaf]]),
        some (symbol .equal).leaf, some (Expression.identifier value).node,
        some (symbol .semicolon).leaf]
  | call method => .of .callStatement [callTree list method, (symbol .semicolon).leaf]

theorem kind_tree (list : Node) (use : ListUse) : (use.tree list).kind = use.statementKind := by
  cases use <;> rfl

/-- A statement like the tree has a list like that of the tree. -/
theorem exists_list?_of_isIsomorphic {statement list : Node} {use : ListUse}
    (h : statement.isIsomorphic (use.tree list) = true) :
    ∃ part, use.list? statement = some part ∧ part.isIsomorphic list = true := by
  have hnested {outer : Node} {first : Nat} (houter : (use.tree list).slot? first = some outer)
      (hinner : outer.slot? 0 = some list) :
      ∃ part, (statement.slot? first).bind (·.slot? 0) = some part ∧
        part.isIsomorphic list = true := by
    obtain ⟨outer', hslot, hiso⟩ := Node.exists_slot?_of_isIsomorphic h houter
    obtain ⟨part, hpart, hlist⟩ := Node.exists_slot?_of_isIsomorphic hiso hinner
    exact ⟨part, by rw [hslot, Option.bind_some, hpart], hlist⟩
  cases use with
  | assign value => exact Node.exists_slot?_of_isIsomorphic h rfl
  | declare name value => exact hnested rfl rfl
  | call method => exact hnested rfl rfl

theorem isPlain_words (use : ListUse) : ∀ word ∈ use.words, word.IsPlain := by
  have hend : ∀ word ∈ [symbol .semicolon], word.IsPlain :=
    Word.forall_isPlain_symbol (by decide) (List.forall_mem_nil _)
  have hassign (value : Identifier) : ∀ word ∈ (assign value).words, word.IsPlain :=
    Word.forall_isPlain_symbol (by decide) (Word.forall_isPlain_name value hend)
  cases use with
  | assign value => exact hassign value
  | declare name value => exact Word.forall_isPlain_name name (hassign value)
  | call method =>
    exact Word.forall_isPlain_symbol (by decide) (Word.forall_isPlain_name method
      (Word.forall_isPlain_symbol (by decide) (Word.forall_isPlain_symbol (by decide) hend)))

end ListUse

/-! ## The rest of the statement -/

theorem Node.isCall_of_kind {node : Node} (h : node.kind = .methodCall) : node.isCall = true := by
  unfold isCall
  split
  · cases h
  · rw [h]
    rfl

namespace ParseM

variable {kinds : List Kind} {total : Nat} {rest : List Word} {members : List Nested}
  {lhs tree : Node} {use : ListUse}

/-- What follows an undecided list decides its grammar. -/
theorem gives_grammarAhead : Gives total grammarAhead use.words use.words (· = use.grammar) := by
  refine gives_nextKind.bind fun kind hkind => ?_
  subst hkind
  cases use <;> exact gives_pure rfl

/-- A name is read as a value up to a semicolon. -/
theorem gives_nameValue (name : Identifier) {flags : ExpressionFlags} (hrhs : flags.isRhs = true) :
    GivesAmong kinds total (expression .default flags) [name.word, symbol .semicolon]
      [symbol .semicolon] (Node.Renders · (Expression.identifier name).node) :=
  gives_resume ((Expression.isRead_identifier name).gives_inPlace trivial hrhs (by decide)
    (Expression.clear_of_mem_symbols _ (show Kind.semicolon ∈ _ by decide)) rfl)

theorem gives_initialValue (name : Identifier) :
    GivesAmong kinds total (initialValue false) [name.word, symbol .semicolon]
      [symbol .semicolon] (Node.Renders · (Expression.identifier name).node) :=
  (gives_isNext _).bind fun _ _ => gives_nameValue name rfl

/-- `= value ;` behind a binding pattern. -/
theorem gives_assign (value : Identifier) (hkind : lhs.kind.isBindingPattern = true)
    (hlhs : lhs.Renders tree) :
    Gives total (statementRhs none lhs) (ListUse.assign value).words []
      (Node.Renders · ((ListUse.assign value).tree tree)) := by
  refine gives_statementRhs ((gives_compoundAheadAs? rfl).bind fun compound hcompound => ?_)
  subst hcompound
  show Gives total (assignmentAfter lhs) _ _ _
  have hassignable : lhs.isAssignable = true := by rw [Node.isAssignable, hkind, Bool.or_true]
  simp only [assignmentAfter, hkind, hassignable, if_true]
  rw [ListUse.words]
  refine GivesAmong.within ?_ _
  refine (gives_expect _ rfl).bind fun equal hequal => ?_
  refine (gives_nameValue value rfl).bind fun node hnode => ?_
  refine (gives_expect _ rfl).map fun semicolon hsemicolon => ?_
  exact Node.renders_of _ (.cons hlhs (.cons hequal (.cons hnode (.cons hsemicolon .nil))))

/-- A name behind a type binds a variable. -/
theorem gives_typedBindingAfter (name : Identifier) (htype : lhs.Renders tree) :
    GivesAmong kinds total (typedBindingAfter lhs) (name.word :: rest) rest
      (Node.Renders · (.of .typedBindingPattern
        [tree, .of .captureBindingPattern [name.word.leaf]])) :=
  (gives_resume (gives_parseAs (gives_capture name))).map fun _ hpattern =>
    Node.renders_of _ (.cons htype (.cons hpattern .nil))

/-- `= value ;` behind a variable of a block. -/
theorem gives_variableRhs (value : Identifier) (hbinding : lhs.Renders tree) :
    GivesAmong kinds total (resume (.variableRhs none [] lhs false)) (ListUse.assign value).words
      [] (Node.Renders · (.ofSlots .localVariableDeclaration
        [none, none, some tree, some (symbol .equal).leaf,
          some (Expression.identifier value).node, some (symbol .semicolon).leaf])) := by
  refine gives_resume (gives_parseAs (gives_consumeNode.bind fun equal hequal => ?_))
  refine (gives_initialValue value).bind fun node hnode => ?_
  refine (gives_expect _ rfl).map fun semicolon hsemicolon => ?_
  exact Node.renders_ofSlots _ (.cons .none (.cons .none (.cons (.some hbinding)
    (.cons (.some hequal) (.cons (.some hnode) (.cons (.some hsemicolon) .nil))))))

/-- `name = value ;` behind a type. -/
theorem gives_declare (name value : Identifier) (htype : lhs.Renders tree) :
    Gives total (localDeclarationAfter none lhs) (ListUse.declare name value).words []
      (Node.Renders · ((ListUse.declare name value).tree tree)) := by
  have hends : ahead (ListUse.declare name value).words ∉
      [Kind.openBracket, .questionMark, .bitwiseAnd, .pipe] := fun h => nomatch h
  -- the name is no suffix of the type, so the type is the list alone
  refine GivesAmong.within ((gives_typeAfter hends).bind fun type h => ?_) _
  subst h
  exact (gives_typedBindingAfter name htype).bind fun binding hbinding =>
    gives_variableRhs value hbinding

/-- `. method ( ) ;` behind an expression. -/
theorem gives_call (method : Identifier) (hlhs : lhs.Renders tree) :
    Gives total (statementAfterList none lhs) (ListUse.call method).words []
      (Node.Renders · ((ListUse.call method).tree tree)) := by
  have hnone : GivesEach total argument Expression.words
      (fun e => .of .positionalArgument [e.node]) .closeParen [] := List.forall_mem_nil _
  -- the call is folded onto the list, and the semicolon ends the expression
  have hmember : Gives total (foldStep .default .statementStart lhs) (ListUse.call method).words
      [symbol .semicolon]
      fun r => ∃ call, r = .inl call ∧ call.Renders (ListUse.callTree tree method) :=
    gives_foldStep (.inr rfl) rfl rfl
      (gives_nextKind.bind fun _ hkind => hkind ▸ gives_memberAfter_method hlhs hnone)
  have hwhole : Gives total (operatorsAfter .default lhs .statementStart)
      (ListUse.call method).words [symbol .semicolon]
      (Node.Renders · (ListUse.callTree tree method)) := by
    refine gives_loop (gives_turn _ _ hmember fun call hcall => gives_lastTurn ?_)
    exact (gives_foldStep_of_stops (.inr rfl) (Word.stops_of_none rfl)).mono
      fun r hr => ⟨call, hr, hcall⟩
  refine hwhole.bind fun call hcall => gives_statementRhs ?_
  refine (gives_compoundAheadAs? rfl).bind fun compound hcompound => ?_
  subst hcompound
  refine gives_consumeNode.map fun semicolon hsemicolon => ?_
  rw [expressionStatementOf, if_pos (Node.isCall_of_kind hcall.kind_eq)]
  exact Node.renders_of _ (.cons hcall (.cons hsemicolon .nil))

/-- The statement goes on from the list in its grammar. -/
theorem gives_statementAfterBracketed
    (hlhs : lhs.Renders ((Nested.list members).tree use.grammar)) :
    Gives total (statementAfterBracketed none use.grammar lhs) use.words []
      (Node.Renders · (use.tree ((Nested.list members).tree use.grammar))) := by
  cases use with
  | assign value => exact gives_assign value (by rw [hlhs.kind_eq]; rfl) hlhs
  | declare name value => exact gives_declare name value hlhs
  | call method => exact gives_call method hlhs

/-- A list that stays undecided is resolved by what the statement goes on with. -/
theorem gives_bracketedStatement :
    Gives total (bracketedStatement none) ((Nested.list members).words ++ use.words) []
      (Node.Renders · (use.tree ((Nested.list members).tree use.grammar))) := by
  have hbracketed : Gives total bracketed ((Nested.list members).words ++ use.words) use.words
      (·.Admits ((Nested.list members).tree ·)) := by
    rw [Nested.words_list, List.cons_append, List.append_assoc]
    refine gives_consumeNode.bind fun opening ho => gives_read.bind fun env _ => ?_
    exact gives_bracketedList (fun member _ => member.isUndecided) ho
  refine hbracketed.bind fun member hmember => ?_
  have hresolved : Gives total
      (do
        let grammar ← grammarAhead
        statementAfterBracketed none grammar (member.toNode grammar))
      use.words [] (Node.Renders · (use.tree ((Nested.list members).tree use.grammar))) := by
    refine gives_grammarAhead.bind fun grammar hgrammar => ?_
    subst hgrammar
    exact gives_statementAfterBracketed (hmember.renders _)
  -- a member that is decided would have decided something
  cases member with
  | decided grammar node => cases hmember.undecided
  | _ => exact hresolved

theorem gives_statementFragment :
    Gives total (fragment .statement) ((Nested.list members).words ++ use.words) []
      (Node.Renders · (use.tree ((Nested.list members).tree use.grammar))) :=
  gives_loneStatement (by decide) (gives_parseAs gives_bracketedStatement)

end ParseM

/-! ## Lists on their own -/

/-- What is read when the rule of a context is entered at the beginning of a source. -/
def resumeContext (source : String) (context : Context) : Option Node := do
  let request ← Request.ofContext? context
  let (node, _) ← (Parser.ofSource source).resume .standard request
  return node

/-- What the parser of a grammar reads at the beginning of a source. -/
def Bracketed.Grammar.parse (source : String) : Grammar → Option Node
  | .type => resumeContext source .typeDescriptor
  | .pattern => resumeContext source .bindingPattern
  | .expression => parseFragment source .expression

section

open ParseM

variable {source : String} {members : List Nested} {use : ListUse}

theorem exists_resumeContext {kinds : List Kind} {context : Context} {request : Request}
    {words rest : List Word} {good : Node → Prop}
    (hcontext : Request.ofContext? context = some request)
    (h : (Scanner.ofSource source).FacesAmong kinds words)
    (hm : GivesAmong kinds words.length (resume request) words rest good) :
    ∃ node, resumeContext source context = some node ∧ good node := by
  obtain ⟨node, after, hrun, hgood⟩ :=
    resume_of_gives (Request.wellFormed_of_ofContext? hcontext) h hm
  exact ⟨node, by simp [resumeContext, hcontext, hrun], hgood⟩

/-- **In every grammar, a nested list on its own is read to its tree.** -/
theorem Nested.exists_parse (grammar : Grammar) (nested : Nested)
    (h : Word.Spells source nested.words) :
    ∃ node, grammar.parse source = some node ∧ node.Renders (nested.tree grammar) := by
  have hfaces : (Scanner.ofSource source).Faces (nested.words ++ []) := by
    rw [List.append_nil]
    exact h.faces (by decide) fun word hmem => (nested.isPlain_words word hmem).loose
  cases grammar with
  | type =>
    exact exists_resumeContext rfl hfaces
      (gives_typeDescriptor (fun member _ => member.isRead .type) (by decide))
  | pattern =>
    exact exists_resumeContext rfl hfaces
      (gives_bindingPattern fun member _ => member.isRead .pattern)
  | expression =>
    have hwhole : Gives (nested.words ++ []).length valueOrAction (nested.words ++ []) []
        (Node.Renders · (nested.tree .expression)) :=
      gives_expression (fun member _ => member.isRead .expression) rfl rfl
    have hfragment : Gives (nested.words ++ []).length (fragment .expression) (nested.words ++ [])
        [] (Node.Renders · (nested.tree .expression)) :=
      (hwhole.hasToken reads_valueOrAction).bind fun node hnode =>
        gives_finishFragment hnode.1 hnode.2
    exact parseFragment_of_gives hfaces hfragment

/-- The words of a statement that begins with a list are names and delimiters. -/
theorem ListUse.isPlain_statement (members : List Nested) (use : ListUse) :
    ∀ word ∈ (Nested.list members).words ++ use.words, word.IsPlain :=
  List.forall_mem_append.mpr ⟨(Nested.list members).isPlain_words, use.isPlain_words⟩

/-- **A list at the start of a statement is resolved like the parser of its grammar reads it**: the
statement is of the kind that the use of the list calls for, nothing is wrong with it, and the list
in it has the shape and the tokens of the list on its own. How the words are laid out does not
matter, and every list and statement can be written (`Word.spells_compact`). -/
theorem Nested.resolves (members : List Nested) (use : ListUse) {source list : String}
    (hsource : Word.Spells source ((Nested.list members).words ++ use.words))
    (hlist : Word.Spells list (Nested.list members).words) :
    ∃ statement part alone, parseFragment source .statement = some statement ∧
      statement.kind = use.statementKind ∧ use.list? statement = some part ∧
      use.grammar.parse list = some alone ∧ part.isIsomorphic alone = true ∧
      statement.diagnostics = [] := by
  have hfaces : (Scanner.ofSource source).Faces ((Nested.list members).words ++ use.words) :=
    hsource.faces (by decide) fun word hmem => (use.isPlain_statement members word hmem).loose
  obtain ⟨statement, hparse, hrenders⟩ := parseFragment_of_gives hfaces gives_statementFragment
  obtain ⟨part, hpart, hiso⟩ := ListUse.exists_list?_of_isIsomorphic hrenders.isIsomorphic
  obtain ⟨alone, halone, hlike⟩ := Nested.exists_parse use.grammar _ hlist
  exact ⟨statement, part, alone, hparse, hrenders.kind_eq.trans (use.kind_tree _), hpart, halone,
    Node.isIsomorphic_of_both part hiso hlike.isIsomorphic, hrenders.diagnostics_eq_nil⟩

end

/-- The members of `[k, [v, []]]`. -/
def Nested.mixed : List Nested :=
  let k : Identifier := ⟨['k'], .plain (by decide) (by simp) (by decide) (by decide)⟩
  let v : Identifier := ⟨['v'], .plain (by decide) (by simp) (by decide) (by decide)⟩
  [.name k, .list [.name v, .list []]]

/-- `x = e;`. -/
def ListUse.mixed : ListUse :=
  .declare ⟨['x'], .plain (by decide) (by simp) (by decide) (by decide)⟩
    ⟨['e'], .plain (by decide) (by simp) (by decide) (by decide)⟩

theorem Nested.spells_mixed :
    Word.Spells "[k, [v, []]] x = e;" ((Nested.list Nested.mixed).words ++ ListUse.mixed.words) ∧
      Word.Spells "[k, [v, []]]" (Nested.list Nested.mixed).words := by
  have hsource := Word.spells_compact (ListUse.isPlain_statement Nested.mixed ListUse.mixed)
  have hlist := Word.spells_compact (Nested.list Nested.mixed).isPlain_words
  rw [show Word.compact _ = "[k, [v, []]] x = e;".toList by decide, String.ofList_toList] at hsource
  rw [show Word.compact _ = "[k, [v, []]]".toList by decide, String.ofList_toList] at hlist
  exact ⟨hsource, hlist⟩

theorem Nested.resolves_mixed :
    Word.Spells "[k, [v, []]] x = e;" ((Nested.list Nested.mixed).words ++ ListUse.mixed.words) ∧
      Word.Spells "[k, [v, []]]" (Nested.list Nested.mixed).words ∧
      ∃ statement part alone,
        parseFragment "[k, [v, []]] x = e;" .statement = some statement ∧
          statement.kind = .localVariableDeclaration ∧
          ListUse.mixed.list? statement = some part ∧
          Grammar.type.parse "[k, [v, []]]" = some alone ∧ part.isIsomorphic alone = true ∧
          statement.diagnostics = [] :=
  ⟨Nested.spells_mixed.1, Nested.spells_mixed.2,
    Nested.resolves Nested.mixed ListUse.mixed Nested.spells_mixed.1 Nested.spells_mixed.2⟩

end TolerantSyntax
