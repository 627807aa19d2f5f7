import TolerantSyntax.Grammar.Name
import TolerantSyntax.Proofs.Parse.Lists

/-!
# Names and literals

The leaves of the grammar refer to no rule.
-/

namespace TolerantSyntax

namespace ParseM

variable {start : Kind → Prop} {bound : Nat}

/-! ## Names -/

theorem hasToken_simpleName {name : Node} (h : name.HasToken) : (simpleName name).HasToken :=
  Node.hasToken_composite (List.mem_singleton_self _) h

theorem becomes_simpleName (name : Node) : Row.Becomes [some name] [some (simpleName name)] :=
  .group .simpleNameReference [some name] rfl

/-- A name, made of its token. -/
theorem Reads.simpleName {name : Node} (h : name.HasToken) :
    Enters start bound [some name] (Pure.pure (ParseM.simpleName name)) .node (fun _ => False) :=
  Reads.of h (by simp) rfl rfl

/-- If the answer is yes, a colon comes next. -/
theorem looks_isColonName : Looks isColonName fun k b => b = true → k = .colon :=
  (looks_isNext .colon).bind fun _ => (looks_isSecond .identifier).bind fun _ =>
    .pure fun _ _ h hb =>
    h.mp ((Bool.and_eq_true _ _).mp hb).1

/-- The same holds in the middle of a conditional. -/
theorem looks_isQualifierColon (inConditional : Bool) :
    Looks (isQualifierColon inConditional) fun k b => b = true → k = .colon := by
  refine looks_isColonName.bind fun a => ?_
  split
  · next ha =>
    split
    · exact (looks_kindAt 2).bind fun _ => .pure fun _ _ h _ => h ha
    · exact .pure fun _ h _ => h ha
  · exact .pure fun _ _ h => absurd h Bool.false_ne_true

/-- A name is consumed, and the module before it if there is one. -/
theorem opens_nameReference (inConditional : Bool) :
    Opens (· = .identifier) 0 [] (nameReference inConditional) .node := by
  refine (opens_expect (by decide) _).bind fun name hn => ?_
  refine (looks_isQualifierColon inConditional).ite ?_ (Reads.simpleName hn)
  refine reads_consumeNode.bind fun colon _ => ?_
  exact (reads_expect .identifier .expression).bind fun _ _ => Reads.of hn (by simp) rfl rfl

theorem opens_typeReference : Opens (· = .identifier) 0 [] typeReference .node := by
  refine (opens_expect (by decide) _).bind fun name hn => ?_
  refine looks_isColonName.ite ?_ (Reads.simpleName hn)
  refine reads_consumeNode.bind fun colon _ => ?_
  exact reads_consumeNode.bind fun _ _ => Reads.of hn (by simp) rfl rfl

/-- The keyword is consumed as the module. -/
theorem opens_keywordModuleReference : Opens HasNext 0 [] keywordModuleReference .node := by
  refine opens_consumeNode.bind fun module hm => ?_
  refine (reads_expect .colon .expression).bind fun colon _ => ?_
  exact (reads_expect .identifier .expression).bind fun _ _ => Reads.of hm (by simp) rfl rfl

/-! ## Literals -/

/-- Whatever comes next becomes a literal. -/
theorem opens_basicLiteral : Opens HasNext 0 [] basicLiteral .node :=
  opens_consumeNode.bind fun _ ht => Reads.of ht (by simp) rfl rfl

/-- A number that is missing is put in. -/
theorem reads_numericLiteral : Reads 0 [] numericLiteral .node := by
  refine looks_nextKind.meets fun kind => ?_
  split
  · exact opens_basicLiteral.reads.weaken
  · exact (reads_expect .decimalIntegerLiteral .typeDescriptor).bind fun _ ht =>
      Reads.of ht (by simp) rfl rfl

theorem opens_negativeLiteral : Opens HasNext 0 [] negativeLiteral .node := by
  refine opens_consumeNode.bind fun minus hm => ?_
  exact reads_numericLiteral.bind fun _ _ => Reads.of hm (by simp) rfl rfl

end ParseM

end TolerantSyntax
