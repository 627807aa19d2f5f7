import TolerantSyntax.Grammar.Query
import TolerantSyntax.Proofs.Parse.Front

/-!
# States of a parse

What a rule relies on and what it leaves behind. A state is valid if its reader stands somewhere. A
step leads from one state to another if it goes onward in the source and leaves the rules in
progress and the lexical modes as they were. Rules rely on each other through the environment: a
sound one runs rules that lead onward, and one that returns runs every rule that stands far enough
down, by what is ahead of it or by its rank.
-/

namespace TolerantSyntax

/-! ## Rules -/

/-- The node is made of a clause and a list of further ones. -/
def Node.IsPipeline (node : Node) : Prop :=
  ∃ first clauses listed diagnostics,
    node =
      .composite .queryPipeline [some first, some (.composite .list clauses listed)] diagnostics

namespace Rule

/-- The pieces that a rule is entered with, in source order. -/
def given : Rule → Row
  | .request (.moduleMember metadata qualifiers) => metadata :: qualifiers.map some
  | .request (.statement annotations) => [annotations]
  | .request (.statementRhs annotations lhs) => [annotations, some lhs]
  | .request (.classMember metadata qualifiers _) => metadata :: qualifiers.map some
  | .request (.recordField metadata) => [metadata]
  | .request (.parameter annotations) => [annotations]
  | .request (.variableRhs metadata qualifiers binding _) =>
    metadata :: qualifiers.map some ++ [some binding]
  | .request (.queryEnd pipeline _) => [some pipeline]
  | _ => []

/-- The pieces that a rule is entered with are of the form that it expects: a variable of a block
has no qualifier but `final`, and a pipeline has a first clause and a list of those behind it. -/
def WellFormed : Rule → Prop
  | .request (.variableRhs _ qualifiers _ moduleLevel) =>
    moduleLevel = false → qualifiers.length ≤ 1
  | .request (.queryEnd pipeline _) => pipeline.IsPipeline
  | _ => True

/-- The kind that a token put in for the rule has. -/
def primary : Rule → Kind
  | .request asked => asked.primary
  | .operand .. => .identifier
  | .primaryType _ => .identifier

/-- How far up a rule stands: without consuming a token, it refers to lower ones only. -/
def level : Rule → Nat
  | .operand .. | .primaryType _ => 0
  | .request (.token ..) | .request (.listEnd ..) | .request .importDeclaration => 0
  | .request .bindingPattern | .request .matchPattern | .request (.variableRhs ..) => 0
  | .request (.typeDescriptor _) | .request (.expression ..) => 1
  | .request (.statement _) => 3
  | .request .elseBody | .request .functionBody => 4
  | .request _ => 2

/-- The level of a rule, and above it that it may have to be entered again with its primary kind. -/
def rank (rule : Rule) (kind : Kind) : Nat :=
  2 * rule.level + if kind = rule.primary then 0 else 1

/-- More than the rank of any rule. -/
@[reducible] def maxRank : Nat := 10

/-- What the next token may be taken for when the rule is entered: for what it is, or for what would
be put in. What follows a pattern that something is assigned to is taken for `=`. -/
def Takes (rule : Rule) (kind ahead : Kind) : Prop :=
  ahead = kind ∨ kind = rule.primary ∨
    ∃ annotations lhs, rule = .request (.statementRhs annotations lhs) ∧ kind = .equal

theorem rank_lt_maxRank (rule : Rule) : 2 * rule.level + 1 < maxRank := by
  unfold level maxRank
  split <;> omega

/-- Where the next token is the primary kind of a rule, the rule is on the lower rank of its level.
-/
theorem rank_primary (rule : Rule) : rule.rank rule.primary = 2 * rule.level := by
  simp [rank]

theorem rank_le (rule : Rule) (kind : Kind) : rule.rank kind ≤ 2 * rule.level + 1 := by
  simp only [rank]
  split <;> omega

end Rule

/-! ## States -/

namespace Parser

/-- Where the parse stands. -/
def front (parser : Parser) : Front where
  source := parser.reader.place.source
  rest := parser.reader.place.rest
  offset := parser.reader.place.offset
  pending := parser.pending
  lastEnd := parser.lastEnd
  consumed := parser.reader.consumed

/-- The reader stands somewhere in its source. -/
def Valid (parser : Parser) : Prop :=
  parser.reader.Valid

/-- The kind of the next token. -/
def ahead (parser : Parser) : Kind :=
  parser.reader.place.next.1.kind

/-- How much is ahead. -/
def left (parser : Parser) : Nat :=
  parser.front.left

/-- The strategy has been asked about no token that was counted before some number of others, and
only by rules whose pieces are of the form that they expect. -/
def AskedFrom (count : Nat) (before after : Parser) : Prop :=
  ∃ asked, after.consulted = asked ++ before.consulted ∧
    ∀ c ∈ asked, count ≤ c.position ∧ (Rule.request c.request).WellFormed

/-- The parse goes on from one state to another, and of some pieces comes a row. -/
structure Leads (before : Parser) (given : Row) (after : Parser) (row : Row) : Prop where
  valid : after.Valid
  /-- The rules in progress are the same, though the innermost may be said more exactly. -/
  contexts : after.contexts.tail = before.contexts.tail
  modes : after.reader.modes = before.reader.modes
  steps : Front.Steps before.front given after.front row
  asked : AskedFrom before.reader.consumed before after

/-- The next token has been consumed, and before that the strategy has not been asked. -/
structure Heeds (before after : Parser) : Prop where
  consumed : before.reader.consumed < after.reader.consumed
  asked : AskedFrom (before.reader.consumed + 1) before after

namespace AskedFrom

variable {p q r : Parser} {count count' : Nat}

/-- The strategy has not been asked at all. -/
theorem of_eq (h : q.consulted = p.consulted) : AskedFrom count p q :=
  ⟨[], h, by simp⟩

theorem mono (h : AskedFrom count p q) (hle : count' ≤ count) : AskedFrom count' p q := by
  obtain ⟨asked, heq, hc⟩ := h
  exact ⟨asked, heq, fun c hm => ⟨hle.trans (hc c hm).1, (hc c hm).2⟩⟩

/-- Questions asked on the way are asked from the beginning. -/
theorem trans (h : AskedFrom count p q) (h' : AskedFrom count q r) : AskedFrom count p r := by
  obtain ⟨asked, heq, hc⟩ := h
  obtain ⟨asked', heq', hc'⟩ := h'
  refine ⟨asked' ++ asked, by rw [heq', heq, List.append_assoc], fun c hm => ?_⟩
  rcases List.mem_append.mp hm with hm | hm
  · exact hc' c hm
  · exact hc c hm

end AskedFrom

theorem valid_ofSource (source : String) : (ofSource source).Valid :=
  (TokenReader.isAt_ofSource source).toValid

theorem front_ofSource (source : String) :
    (ofSource source).front = ⟨source.toList, source.toList, 0, [], 0, 0⟩ :=
  rfl

/-- The front of a parse, in the mode that is in force, is where its reader stands. -/
theorem scanner_front {parser : Parser} (h : parser.Valid) :
    parser.front.scanner parser.reader.mode = parser.reader.place := by
  rw [← TokenReader.IsAt.mode h]
  rfl

/-- The next token is the end of input where nothing is left in front. -/
theorem ahead_eq_eof_iff (parser : Parser) : parser.ahead = .eof ↔ parser.front.AtEnd :=
  (Scanner.isStep_next parser.reader.place).kind_eq_eof_iff

namespace Leads

variable {p q r : Parser} {xs ys zs : Row}

theorem refl (h : p.Valid) (xs : Row) : p.Leads xs p xs :=
  ⟨h, rfl, rfl, .refl, .of_eq rfl⟩

theorem consumed_le (h : p.Leads xs q ys) : p.reader.consumed ≤ q.reader.consumed :=
  h.steps.onward.consumed

/-- A parse that leads from one row to another, and on to a third. -/
theorem trans (h : p.Leads xs q ys) (h' : q.Leads ys r zs) : p.Leads xs r zs :=
  ⟨h'.valid, h'.contexts.trans h.contexts, h'.modes.trans h.modes, h.steps.trans h'.steps,
    h.asked.trans (h'.asked.mono h.consumed_le)⟩

/-- Pieces that stood before stay before. -/
theorem frame (h : p.Leads xs q ys) (pre : Row) : p.Leads (pre ++ xs) q (pre ++ ys) :=
  { h with steps := h.steps.frame pre }

theorem behind (h : p.Leads [] q ys) (pre : Row) : p.Leads pre q (pre ++ ys) :=
  { h with steps := h.steps.behind pre }

/-- Pieces may be regrouped behind the last step. -/
theorem become (h : p.Leads xs q ys) (hb : ys.Becomes zs) : p.Leads xs q zs :=
  { h with steps := h.steps.become hb }

/-- What follows a step that heeds the next token cannot undo that. -/
theorem heeds (h : q.Leads xs r ys) (hp : p.Heeds q) : p.Heeds r :=
  ⟨Nat.lt_of_lt_of_le hp.consumed h.consumed_le, hp.asked.trans (h.asked.mono hp.consumed)⟩

theorem left_le (h : p.Leads xs q ys) : q.left ≤ p.left :=
  h.steps.onward.left

/-- Where a token has been counted, less is ahead. -/
theorem left_lt (h : p.Leads xs q ys) (hc : q.reader.consumed ≠ p.reader.consumed) :
    q.left < p.left :=
  h.steps.onward.moves (Nat.lt_of_le_of_ne h.steps.onward.consumed (Ne.symm hc))

/-- Where none has been counted, though there was one, the parse stands where it stood. -/
theorem front_eq (h : p.Leads xs q ys) (hc : q.reader.consumed = p.reader.consumed)
    (ha : p.ahead ≠ .eof) : q.front = p.front :=
  h.steps.front_eq hc fun hend => ha ((ahead_eq_eof_iff p).mpr hend)

/-- Where less is ahead than a token before, one has been counted. -/
theorem consumed_lt (h : p.Leads xs q ys) (ha : p.ahead ≠ .eof) (hlt : q.left < p.left) :
    p.reader.consumed < q.reader.consumed := by
  refine Nat.lt_of_le_of_ne h.consumed_le fun hc => ?_
  rw [left, left, h.front_eq hc.symm ha] at hlt
  exact Nat.lt_irrefl _ hlt

/-- A parse that has consumed nothing has not come to the end of input. -/
theorem ahead_ne_eof (h : p.Leads xs q ys) (hc : q.reader.consumed = p.reader.consumed)
    (ha : p.ahead ≠ .eof) : q.ahead ≠ .eof := by
  rw [Ne, ahead_eq_eof_iff, h.front_eq hc ha, ← ahead_eq_eof_iff]
  exact ha

end Leads

end Parser

/-! ## Strategies -/

/-- Every answer is the standard one, or one of those that are always safe: discard, put in or take
for the primary kind of the request, or put in a comma between items of a list that goes on. -/
def Strategy.Admissible (strategy : Strategy) : Prop :=
  ∀ asked request view,
    strategy asked request view = answer request view ∨
    strategy asked request view = .remove ∨
    strategy asked request view = .insert request.primary ∨
    strategy asked request view = .keep request.primary ∨
    (strategy asked request view = .insert .comma ∧ view.current ≠ .eof ∧
      ∃ context close item, request = .listEnd context close item)

namespace Request

/-- The kind that a contextual keyword is taken for is one that would be put in. -/
theorem primary_of_accepts_identifier {request : Request}
    (h : request.accepts .identifier = true) : request.primary = .identifier := by
  cases request with
  | token context expected => exact (beq_iff_eq.mp h).symm
  | listEnd context close item =>
    have hc : (Kind.identifier == close) = true := by simpa [accepts] using h
    exact (beq_iff_eq.mp hc).symm
  | _ => first | rfl | exact absurd h Bool.false_ne_true

end Request

/-! ## Environments -/

namespace Env

/-- Rules lead onward, and each makes one node with a token of the pieces that it is given. -/
def Sound (env : Env) : Prop :=
  ∀ {rule : Rule} {kind : Kind} {before after : Parser} {node : Node}, rule.WellFormed →
    before.Valid → env.call rule kind before = some (node, after) →
    before.Leads rule.given after [some node] ∧ node.HasToken

/-- Rules have a result where less than `left` is ahead, and at `left` if they rank below `bound`.
-/
structure Returns (env : Env) (left bound : Nat) : Prop where
  admissible : env.strategy.Admissible
  fuel : 4 * left + 8 ≤ env.fuel
  call : ∀ {rule : Rule} {kind : Kind} {parser : Parser}, rule.WellFormed → parser.Valid →
    rule.Takes kind parser.ahead →
    (parser.left < left ∨ parser.left ≤ left ∧ rule.rank kind < bound) →
    (env.call rule kind parser).isSome

namespace Returns

variable {env : Env} {left left' bound bound' : Nat}

theorem mono (h : env.Returns left bound) (hl : left' ≤ left) (hb : bound' ≤ bound) :
    env.Returns left' bound' := by
  refine ⟨h.admissible, ?_, ?_⟩
  · have := h.fuel
    omega
  · intro rule kind parser hw hv ht hlt
    exact h.call hw hv ht (by omega)

/-- Where less is ahead, every rule has a result. -/
theorem further (h : env.Returns left bound) (hl : left' < left) (bound' : Nat) :
    env.Returns left' bound' := by
  refine ⟨h.admissible, ?_, ?_⟩
  · have := h.fuel
    omega
  · intro rule kind parser hw hv ht hlt
    exact h.call hw hv ht (by omega)

end Returns

end Env

end TolerantSyntax
