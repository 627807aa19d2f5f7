import TolerantSyntax.Diagnostic

/-!
# Trees

A tree keeps the whole source. Its leaves are tokens, and the text between tokens hangs on them as
leading and trailing trivia. Recovery sets text aside by wrapping it as invalid trivia, so trivia
can hold nodes again: tokens, trivia and nodes are declared together.

An interior node has a kind and a list of slots. Each kind has a fixed layout, and an optional part
that is not there leaves its slot empty. `list` is the exception: its slots are its items,
separators among them.

## Recursion

Functions on trees come in families of five, one for each of token, list of trivia, trivia, node
and list of slots, and recurse structurally.
-/

namespace TolerantSyntax

mutual

/-- A leaf: text of one kind, with the text around it. -/
structure Token where
  kind : Kind
  /-- The token itself, without trivia; empty for a token that is not there. -/
  text : String
  /-- Where `text` stands in the source. -/
  span : Span
  leading : List Trivia
  trailing : List Trivia
  diagnostics : List Diagnostic
  /-- Was the token put in by recovery? -/
  missing : Bool

/-- Source text that belongs to no slot. -/
inductive Trivia where
  /-- Spaces, tabs and form feeds. -/
  | whitespace (text : String)
  /-- One line break. -/
  | endOfLine (text : String)
  /-- From two slashes to the end of the line. -/
  | comment (text : String)
  /-- From a hash to the end of the line. -/
  | documentation (text : String)
  /-- A token or a node that recovery set aside. -/
  | invalid (node : Node)

/-- A leaf, or a kind with slots. -/
inductive Node where
  | leaf (token : Token)
  | composite (kind : Kind) (slots : List (Option Node)) (diagnostics : List Diagnostic)

end

instance : Inhabited Token := ⟨⟨.eof, "", default, [], [], [], false⟩⟩

instance : Inhabited Trivia := ⟨.whitespace ""⟩

instance : Inhabited Node := ⟨.leaf default⟩

/-! ## Building -/

namespace Token

/-- A token of the source that starts at `start`. -/
def ofText (kind : Kind) (text : String) (start : Nat) (leading trailing : List Trivia) : Token :=
  { kind, text, span := ⟨start, start + text.utf8ByteSize⟩, leading, trailing, diagnostics := [],
    missing := false }

/-- A token that is not in the source, at `offset`. -/
def absent (kind : Kind) (offset : Nat) (diagnostics : List Diagnostic) : Token :=
  { kind, text := "", span := .empty offset, leading := [], trailing := [], diagnostics,
    missing := true }

/-- Does a line break follow on the same line? -/
def hasTrailingNewline (token : Token) : Bool :=
  token.trailing.any fun
    | .endOfLine _ => true
    | _ => false

/-- How a token is listed on its own. -/
def summary (token : Token) (quote : String → String) : String :=
  if token.missing then token.kind.name ++ "(missing)"
  else token.kind.name ++ "(" ++ quote token.text ++ ")@" ++ token.span.text

end Token

namespace Node

/-- A token that is not in the source, with the reason. -/
def missing (kind : Kind) (offset : Nat) (code : DiagnosticCode) : Node :=
  .leaf (.absent kind offset [⟨code, .empty offset⟩])

/-- A node of the given layout. -/
def ofSlots (kind : Kind) (slots : List (Option Node)) : Node :=
  .composite kind slots []

/-- A node whose slots are all filled. -/
def of (kind : Kind) (parts : List Node) : Node :=
  .composite kind (parts.map some) []

/-- A list of items. -/
def list (items : List Node) : Node :=
  of .list items

/-! ## Parts -/

/-- The kind of a node. -/
def kind : Node → Kind
  | .leaf token => token.kind
  | .composite kind _ _ => kind

/-- Is it a leaf? -/
def isToken : Node → Bool
  | .leaf _ => true
  | .composite .. => false

/-- The token of a leaf. -/
def token? : Node → Option Token
  | .leaf token => some token
  | .composite .. => none

/-- All slots; a leaf has none. -/
def slots : Node → List (Option Node)
  | .leaf _ => []
  | .composite _ slots _ => slots

/-- The part in a slot, if there is one. -/
def slot? (node : Node) (index : Nat) : Option Node :=
  node.slots[index]?.join

/-- The parts that are there, in order. -/
def children (node : Node) : List Node :=
  node.slots.filterMap id

/-- The first part of a given kind. -/
def childOfKind? (node : Node) (kind : Kind) : Option Node :=
  node.children.find? (·.kind == kind)

/-- Diagnostics of the node or token itself. -/
def ownDiagnostics : Node → List Diagnostic
  | .leaf token => token.diagnostics
  | .composite _ _ diagnostics => diagnostics

@[simp] theorem kind_leaf (t : Token) : (Node.leaf t).kind = t.kind := rfl

@[simp] theorem kind_composite (k : Kind) (s : List (Option Node)) (d : List Diagnostic) :
    (Node.composite k s d).kind = k := rfl

@[simp] theorem kind_ofSlots (k : Kind) (s : List (Option Node)) : (ofSlots k s).kind = k := rfl

@[simp] theorem kind_of (k : Kind) (parts : List Node) : (of k parts).kind = k := rfl

@[simp] theorem kind_missing (k : Kind) (offset : Nat) (code : DiagnosticCode) :
    (missing k offset code).kind = k := rfl

@[simp] theorem slots_ofSlots (k : Kind) (s : List (Option Node)) : (ofSlots k s).slots = s := rfl

@[simp] theorem children_list (items : List Node) : (list items).children = items := by
  simp [children, list, of, slots, List.filterMap_map]

end Node

end TolerantSyntax
