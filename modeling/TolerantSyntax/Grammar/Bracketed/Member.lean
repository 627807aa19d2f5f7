import TolerantSyntax.Tree.Basic

/-!
# Members of an undecided list

A statement that begins with a bracket may begin with a tuple type, a list binding pattern or a list
constructor. Its members are read in a grammar that admits all three and are held as `Member` values
until one of them decides for a grammar, or the list closes and the next token decides.
-/

namespace TolerantSyntax.Bracketed

/-- What a bracketed list can turn out to be. -/
inductive Grammar where
  | type
  | pattern
  | expression
deriving DecidableEq, Repr, Inhabited

mutual

/-- A member whose grammar may not be decided yet. -/
inductive Member where
  | literal (token : Node)
  | name (token : Node)
  | qualified (module colon name : Node)
  | wildcard (underscore : Node)
  /-- `...name`. -/
  | rest (ellipsis name : Node)
  | list (opening : Node) (items : List Item) (close : Node)
  | mapping (opening : Node) (items : List FieldItem) (close : Node)
  /-- `()`. -/
  | nil (opening close : Node)
  /-- `error type ( arguments )`, the type being optional. -/
  | error (keyword : Node) (type : Option Node) (opening : Node) (items : List ArgumentItem)
      (close : Node)
  /-- A member that has been read in one grammar. -/
  | decided (grammar : Grammar) (node : Node)

/-- What stands in a list. -/
inductive Item where
  | member (member : Member)
  | separator (token : Node)

/-- What stands in a mapping. -/
inductive FieldItem where
  /-- `name` or `name : value`. -/
  | field (name : Node) (colon : Option Node) (value : Option Member)
  /-- `...name`. -/
  | rest (ellipsis name : Node)
  /-- A field that only a mapping constructor can have. -/
  | expression (node : Node)
  | separator (token : Node)

/-- What stands between the parentheses of an error. -/
inductive ArgumentItem where
  | positional (member : Member)
  | named (name equal : Node) (value : Member)
  /-- `...name`. -/
  | rest (ellipsis name : Node)
  | separator (token : Node)

end

/-! ## Deciding members -/

/-- Decisions for a type do not count inside mappings and errors, which are never types. -/
def Grammar.unlessType? : Grammar → Option Grammar
  | .type => none
  | grammar => some grammar

mutual

/-- The grammar that a member decides for; none if it is possible in all three. -/
def Member.decides? : Member → Option Grammar
  | .literal _ => none
  | .name _ => none
  | .nil _ _ => none
  | .qualified _ _ _ => some .type
  | .wildcard _ => some .pattern
  | .rest _ _ => some .pattern
  | .decided grammar _ => some grammar
  | .list _ items _ => Item.decide? items
  | .mapping _ items _ => FieldItem.decide? items
  | .error _ _ _ items _ => ArgumentItem.decide? items

/-- The grammar that the first deciding member of a list decides for. -/
def Item.decide? : List Item → Option Grammar
  | [] => none
  | .member member :: rest => member.decides? <|> Item.decide? rest
  | .separator _ :: rest => Item.decide? rest

/-- The grammar that the first deciding field of a mapping decides for. -/
def FieldItem.decide? : List FieldItem → Option Grammar
  | [] => none
  | .field _ _ (some value) :: rest =>
    (value.decides?.bind Grammar.unlessType?) <|> FieldItem.decide? rest
  | .expression _ :: _ => some .expression
  | .field _ _ none :: rest => FieldItem.decide? rest
  | .rest _ _ :: rest => FieldItem.decide? rest
  | .separator _ :: rest => FieldItem.decide? rest

/-- The grammar that the first deciding argument of an error decides for. -/
def ArgumentItem.decide? : List ArgumentItem → Option Grammar
  | [] => none
  | .positional member :: rest =>
    (member.decides?.bind Grammar.unlessType?) <|> ArgumentItem.decide? rest
  | .named _ _ value :: rest =>
    (value.decides?.bind Grammar.unlessType?) <|> ArgumentItem.decide? rest
  | .rest _ _ :: rest => ArgumentItem.decide? rest
  | .separator _ :: rest => ArgumentItem.decide? rest

end

/-- Can a member be read as a type, and so take the suffixes of one? -/
def Member.mayBeType : Member → Bool
  | .literal _ | .name _ | .qualified .. | .list .. | .nil .. | .decided .type _ => true
  | .wildcard _ | .rest .. | .mapping .. | .error .. | .decided _ _ => false

end TolerantSyntax.Bracketed
