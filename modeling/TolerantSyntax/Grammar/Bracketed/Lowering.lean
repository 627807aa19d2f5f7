import TolerantSyntax.Grammar.Bracketed.Member
import TolerantSyntax.Grammar.Name
import TolerantSyntax.Grammar.Order

/-!
# Reading members in a grammar

Once the grammar of a bracketed list is decided, the members that have been read become types,
binding patterns or expressions. A member that makes no sense in the grammar keeps the reading that
comes closest and gets a diagnostic. No token of a member is lost.
-/

namespace TolerantSyntax.Bracketed

open ParseM (simpleName qualifiedName)

/-! ## Expressions -/

mutual

/-- A member as an expression. -/
def Member.toExpression : Member → Node
  | .literal token => .of .basicLiteral [token]
  | .name token => simpleName token
  | .qualified module colon name => qualifiedName module colon name
  | .wildcard underscore =>
    (Node.of .wildcardBindingPattern [underscore]).withDiagnostic .invalidExpression
  | .rest ellipsis name => .of .spreadMember [ellipsis, simpleName name]
  | .list opening items close =>
    .of .listConstructor [opening, .list (Item.toExpressions items), close]
  | .mapping opening items close =>
    .of .mappingConstructor [opening, .list (FieldItem.toFields items), close]
  | .nil opening close => .of .nilLiteral [opening, close]
  | .error keyword type opening items close =>
    .ofSlots .errorConstructor
      [some keyword, type, some opening,
        some (ItemOrder.arguments.check (.list (ArgumentItem.toArguments items))), some close]
  | .decided .expression node => node
  | .decided _ node => node.withDiagnostic .invalidExpression

/-- The items of a list as expressions. -/
def Item.toExpressions : List Item → List Node
  | [] => []
  | .member member :: rest => member.toExpression :: Item.toExpressions rest
  | .separator token :: rest => token :: Item.toExpressions rest

/-- The items of a mapping as fields of a mapping constructor. -/
def FieldItem.toFields : List FieldItem → List Node
  | [] => []
  | .field name colon none :: rest =>
    .ofSlots .specificField [none, some name, colon, none] :: FieldItem.toFields rest
  | .field name colon (some value) :: rest =>
    .ofSlots .specificField [none, some name, colon, some value.toExpression] ::
      FieldItem.toFields rest
  | .rest ellipsis name :: rest =>
    .of .spreadField [ellipsis, simpleName name] :: FieldItem.toFields rest
  | .expression node :: rest => node :: FieldItem.toFields rest
  | .separator token :: rest => token :: FieldItem.toFields rest

/-- The items of an error as arguments. -/
def ArgumentItem.toArguments : List ArgumentItem → List Node
  | [] => []
  | .positional member :: rest =>
    .of .positionalArgument [member.toExpression] :: ArgumentItem.toArguments rest
  | .named name equal value :: rest =>
    .of .namedArgument [simpleName name, equal, value.toExpression] ::
      ArgumentItem.toArguments rest
  | .rest ellipsis name :: rest =>
    .of .restArgument [ellipsis, simpleName name] :: ArgumentItem.toArguments rest
  | .separator token :: rest => token :: ArgumentItem.toArguments rest

end

/-! ## Binding patterns -/

mutual

/-- A member as a binding pattern. -/
def Member.toPattern : Member → Node
  | .literal token => (Node.of .basicLiteral [token]).withDiagnostic .invalidBindingPattern
  | .name token => .of .captureBindingPattern [token]
  | .qualified module colon name =>
    (qualifiedName module colon name).withDiagnostic .invalidBindingPattern
  | .wildcard underscore => .of .wildcardBindingPattern [underscore]
  | .rest ellipsis name => .of .restBindingPattern [ellipsis, name]
  | .list opening items close =>
    .of .listBindingPattern [opening, .list (Item.toPatterns items), close]
  | .mapping opening items close =>
    .of .mappingBindingPattern [opening, .list (FieldItem.toPatterns items), close]
  | .nil opening close =>
    (Node.of .nilLiteral [opening, close]).withDiagnostic .invalidBindingPattern
  | .error keyword type opening items close =>
    .ofSlots .errorBindingPattern
      [some keyword, type, some opening, some (.list (ArgumentItem.toPatterns items)), some close]
  | .decided .pattern node => node
  | .decided _ node => node.withDiagnostic .invalidBindingPattern

/-- The items of a list as binding patterns. -/
def Item.toPatterns : List Item → List Node
  | [] => []
  | .member member :: rest => member.toPattern :: Item.toPatterns rest
  | .separator token :: rest => token :: Item.toPatterns rest

/-- The items of a mapping as fields of a mapping binding pattern. -/
def FieldItem.toPatterns : List FieldItem → List Node
  | [] => []
  | .field name colon none :: rest =>
    .ofSlots .fieldBindingPattern [some (simpleName name), colon, none] ::
      FieldItem.toPatterns rest
  | .field name colon (some value) :: rest =>
    .ofSlots .fieldBindingPattern [some (simpleName name), colon, some value.toPattern] ::
      FieldItem.toPatterns rest
  | .rest ellipsis name :: rest =>
    .of .restBindingPattern [ellipsis, name] :: FieldItem.toPatterns rest
  | .expression node :: rest =>
    node.withDiagnostic .invalidBindingPattern :: FieldItem.toPatterns rest
  | .separator token :: rest => token :: FieldItem.toPatterns rest

/-- The items of an error as arguments of an error binding pattern. -/
def ArgumentItem.toPatterns : List ArgumentItem → List Node
  | [] => []
  | .positional member :: rest => member.toPattern :: ArgumentItem.toPatterns rest
  | .named name equal value :: rest =>
    .of .namedArgBindingPattern [name, equal, value.toPattern] :: ArgumentItem.toPatterns rest
  | .rest ellipsis name :: rest =>
    .of .restBindingPattern [ellipsis, name] :: ArgumentItem.toPatterns rest
  | .separator token :: rest => token :: ArgumentItem.toPatterns rest

end

/-! ## Types -/

mutual

/-- A member as a type. -/
def Member.toType : Member → Node
  | .literal token => .of .singletonTypeDescriptor [.of .basicLiteral [token]]
  | .name token => simpleName token
  | .qualified module colon name => qualifiedName module colon name
  | .wildcard underscore =>
    (Node.of .wildcardBindingPattern [underscore]).withDiagnostic .invalidTypeDescriptor
  | .rest ellipsis name =>
    (Node.of .restBindingPattern [ellipsis, name]).withDiagnostic .invalidTypeDescriptor
  | .list opening items close =>
    .of .tupleTypeDescriptor [opening, .list (Item.toTypes items), close]
  | .mapping opening items close =>
    (Member.mapping opening items close).toExpression.withDiagnostic .invalidTypeDescriptor
  | .nil opening close => .of .nilTypeDescriptor [opening, close]
  | .error keyword type opening items close =>
    (Member.error keyword type opening items close).toExpression.withDiagnostic
      .invalidTypeDescriptor
  | .decided .type node => node
  | .decided _ node => node.withDiagnostic .invalidTypeDescriptor

/-- The items of a list as types. -/
def Item.toTypes : List Item → List Node
  | [] => []
  | .member member :: rest => member.toType :: Item.toTypes rest
  | .separator token :: rest => token :: Item.toTypes rest

end

/-- A member in a grammar. -/
def Member.toNode (member : Member) : Grammar → Node
  | .type => member.toType
  | .pattern => member.toPattern
  | .expression => member.toExpression

/-- The items of a list in a grammar. -/
def Item.toNodes (items : List Item) : Grammar → List Node
  | .type => Item.toTypes items
  | .pattern => Item.toPatterns items
  | .expression => Item.toExpressions items

/-! ## Tuple types as patterns -/

mutual

/-- The list binding pattern that a tuple type spells. -/
def patternOfTuple : Node → Node
  | .leaf token => .leaf token
  | .composite kind slots diagnostics =>
    match kind with
    | .tupleTypeDescriptor => .composite .listBindingPattern (patternOfSlots slots) diagnostics
    | .list => .composite .list (patternOfSlots slots) diagnostics
    | .simpleNameReference => .composite .captureBindingPattern (patternOfSlots slots) diagnostics
    | _ => (Node.composite kind slots diagnostics).withDiagnostic .invalidBindingPattern

/-- The parts of a tuple type as parts of the pattern that it spells. -/
def patternOfSlots : List (Option Node) → List (Option Node)
  | [] => []
  | none :: rest => none :: patternOfSlots rest
  | some node :: rest => some (patternOfTuple node) :: patternOfSlots rest

end

end TolerantSyntax.Bracketed
