import TolerantSyntax.Grammar.Tokens

/-!
# Lists

Rules that read many items: up to a token that ends them, with a separator between them, or between
delimiters with commas. A turn of a loop that consumes nothing discards a token, so that every loop
comes to an end.
-/

namespace TolerantSyntax.ParseM

/-- Reads items as long as the kind of the next token satisfies `more`. -/
def many (more : Kind → Bool) (item : ParseM Node) : ParseM (List Node) :=
  loop [] fun items => do
    if more (← nextKind) then return .inl (items ++ [← item]) else return .inr items

/-- Reads items until the kind of the next token satisfies `isEnd` or the input ends. Of an item for
which nothing was consumed, nothing is kept if all of it is missing. -/
def manyUntil (isEnd : Kind → Bool) (item : ParseM Node) : ParseM Node := do
  let items ← loop [] fun items => do
    let kind ← nextKind
    if kind == .eof || isEnd kind then return .inr items
    let start ← position
    let node ← item
    if (← position) == start then
      discard
      if node.isMissing then return .inl items
    return .inl (items ++ [node])
  return .list items

/-- Reads `item (separator item)*`; the separators are kept. -/
def separated (separator : Kind) (item : ParseM Node) : ParseM (List Node) := do
  let first ← item
  loop [first] fun items => do
    if ← isNext separator then
      let token ← consumeNode
      return .inl (items ++ [token, ← item])
    else return .inr items

/-- Reads a separator or the end of a list; `kind` is what the next token is taken for. -/
def listEndAs (kind : Kind) (context : Context) (close : Kind) (item : ListItem) : ParseM Node := do
  if kind == .comma || kind == close then consumeNode
  else
    match ← recover (.listEnd context close item) with
    | .remove node => pure node
    | .insert _ token => pure token
    | .keep kept => consumeAs kept

/-- Reads a separator or the end of a list. -/
def listEnd (context : Context) (close : Kind) (item : ListItem) : ParseM Node := do
  listEndAs (← nextKind) context close item

/-- Reads the first item of a list, unless the list has none or it is left out: the token there
cannot begin one and belongs to a rule in progress, or the input ends. -/
def firstItem (item : ListItem) (readItem : ParseM Node) : ParseM (List Node) := do
  let kind ← nextKind
  if kind == .eof || (!item.starts kind && (← get).contexts.anyOwns kind) then pure []
  else return [← readItem]

/-- Reads the rest of a list behind some items, the closing delimiter included. -/
def moreItems (context : Context) (close : Kind) (item : ListItem) (items : List Node)
    (readItem : ParseM Node) : ParseM (Node × Node) :=
  loop items fun items => do
    let start ← position
    let separator ← listEnd context close item
    if separator.kind == .comma then
      let node ← readItem
      if (← position) == start then discard
      return .inl (items ++ [separator, node])
    else return .inr (.list items, separator)

/-- Reads the rest of a delimited list behind `items`, which end with an item if there are any. The
result is the list, separators included, and the closing delimiter. -/
def delimitedAfter (items : List Node) (context : Context) (close : Kind) (item : ListItem)
    (readItem : ParseM Node) : ParseM (Node × Node) :=
  within context do
    if !items.isEmpty then moreItems context close item items readItem
    else if ← isNext close then return (.list [], ← consumeNode)
    else moreItems context close item (← firstItem item readItem) readItem

/-- Reads a delimited list behind its opening delimiter. -/
def delimited (context : Context) (close : Kind) (item : ListItem) (readItem : ParseM Node) :
    ParseM (Node × Node) :=
  delimitedAfter [] context close item readItem

end TolerantSyntax.ParseM
