import TolerantSyntax.Grammar.Fragment
import TolerantSyntax.Proofs.Scope.Statement

/-!
# Declarations, and every rule

The declarations of a module are the last of the rules. So whatever rule is entered, it leaves what
is in force as it was, and so does a fragment.
-/

namespace TolerantSyntax.ParseM.Restores

variable {depth : Nat}

/-! ## Members of classes and object types -/

instance pathParameter : Restores depth ParseM.pathParameter := by
  unfold ParseM.pathParameter
  infer_instance

instance pathSegment : Restores depth ParseM.pathSegment := by
  unfold ParseM.pathSegment
  infer_instance

instance pathSegments : Restores depth ParseM.pathSegments := by
  unfold ParseM.pathSegments
  refine behind fun kind => ?_
  split <;> infer_instance

instance resourcePath : Restores depth ParseM.resourcePath := by
  unfold ParseM.resourcePath
  infer_instance

instance methodAfter (metadata : Option Node) (qualifiers : List Node) (objectType : Bool) :
    Restores depth (ParseM.methodAfter metadata qualifiers objectType) := by
  unfold ParseM.methodAfter
  infer_instance

instance fieldValue : Restores depth ParseM.fieldValue := by
  unfold ParseM.fieldValue
  infer_instance

instance objectFieldAfter (metadata : Option Node) (qualifiers : List Node) :
    Restores depth (ParseM.objectFieldAfter metadata qualifiers) := by
  unfold ParseM.objectFieldAfter
  infer_instance

instance classMemberAs (kind : Kind) (metadata : Option Node) (qualifiers : List Node)
    (objectType : Bool) :
    Restores depth (ParseM.classMemberAs kind metadata qualifiers objectType) := by
  unfold ParseM.classMemberAs
  infer_instance

instance classMembers : Restores depth ParseM.classMembers := by
  unfold ParseM.classMembers
  infer_instance

/-! ## Declarations -/

instance importOrganisation : Restores depth ParseM.importOrganisation := by
  unfold ParseM.importOrganisation
  infer_instance

instance importAlias : Restores depth ParseM.importAlias := by
  unfold ParseM.importAlias
  infer_instance

instance importDeclaration : Restores depth ParseM.importDeclaration := by
  unfold ParseM.importDeclaration
  infer_instance

instance functionAfter (metadata : Option Node) (qualifiers : List Node) :
    Restores depth (ParseM.functionAfter metadata qualifiers) := by
  unfold ParseM.functionAfter
  infer_instance

instance isNameEqual : Restores depth ParseM.isNameEqual := by
  unfold ParseM.isNameEqual
  infer_instance

set_option synthInstance.maxSize 256 in
/-- All that follows the type is gone through twice, since the type may be left out. -/
instance constantAfter (metadata : Option Node) (qualifiers : List Node) :
    Restores depth (ParseM.constantAfter metadata qualifiers) := by
  unfold ParseM.constantAfter
  infer_instance

instance typeDefinitionAfter (metadata : Option Node) (qualifiers : List Node) :
    Restores depth (ParseM.typeDefinitionAfter metadata qualifiers) := by
  unfold ParseM.typeDefinitionAfter
  infer_instance

instance classAfter (metadata : Option Node) (qualifiers : List Node) :
    Restores depth (ParseM.classAfter metadata qualifiers) := by
  unfold ParseM.classAfter
  infer_instance

instance enumMember : Restores depth ParseM.enumMember := by
  unfold ParseM.enumMember
  infer_instance

instance enumAfter (metadata : Option Node) (qualifiers : List Node) :
    Restores depth (ParseM.enumAfter metadata qualifiers) := by
  unfold ParseM.enumAfter
  infer_instance

instance attachPoint : Restores depth ParseM.attachPoint := by
  unfold ParseM.attachPoint
  infer_instance

instance attachPoints : Restores depth ParseM.attachPoints := by
  unfold ParseM.attachPoints
  infer_instance

instance annotationAfter (metadata : Option Node) (qualifiers : List Node) :
    Restores depth (ParseM.annotationAfter metadata qualifiers) := by
  unfold ParseM.annotationAfter
  infer_instance

instance listenerAfter (metadata : Option Node) (qualifiers : List Node) :
    Restores depth (ParseM.listenerAfter metadata qualifiers) := by
  unfold ParseM.listenerAfter
  infer_instance

instance serviceSegments : Restores depth ParseM.serviceSegments := by
  unfold ParseM.serviceSegments
  infer_instance

instance servicePath : Restores depth ParseM.servicePath := by
  unfold ParseM.servicePath
  refine behind fun kind => ?_
  split <;> infer_instance

instance serviceType : Restores depth ParseM.serviceType := by
  unfold ParseM.serviceType
  infer_instance

instance serviceAfter (metadata : Option Node) (qualifiers : List Node) :
    Restores depth (ParseM.serviceAfter metadata qualifiers) := by
  unfold ParseM.serviceAfter
  infer_instance

instance qualifiesDeclaration : Restores depth ParseM.qualifiesDeclaration := by
  unfold ParseM.qualifiesDeclaration
  infer_instance

instance moduleMember : Restores depth ParseM.moduleMember := by
  unfold ParseM.moduleMember
  infer_instance

instance lateImport (metadata : Option Node) (qualifiers : List Node) :
    Restores depth (ParseM.lateImport metadata qualifiers) := by
  unfold ParseM.lateImport
  infer_instance

instance moduleVariable (metadata : Option Node) (qualifiers : List Node) :
    Restores depth (ParseM.moduleVariable metadata qualifiers) := by
  unfold ParseM.moduleVariable
  infer_instance

theorem of_keywordDeclaration? {kind : Kind} {declaration : Option Node → List Node → ParseM Node}
    (h : keywordDeclaration? kind = some declaration) (metadata : Option Node)
    (qualifiers : List Node) : Restores depth (declaration metadata qualifiers) := by
  unfold keywordDeclaration? at h
  split at h <;> cases h <;> infer_instance

instance moduleMemberAs (kind : Kind) (metadata : Option Node) (qualifiers : List Node) :
    Restores depth (ParseM.moduleMemberAs kind metadata qualifiers) := by
  have hrest : Restores depth
      (match keywordDeclaration? kind with
        | some declaration => declaration metadata qualifiers
        | none =>
          if Starts.type kind then ParseM.moduleVariable metadata qualifiers
          else ParseM.recoverOver (.moduleMember metadata qualifiers)) := by
    split
    · next h => exact of_keywordDeclaration? h metadata qualifiers
    · infer_instance
  unfold ParseM.moduleMemberAs
  infer_instance

/-! ## Entering rules -/

instance enterRequest (request : Request) (kind : Kind) :
    Restores depth (ParseM.enterRequest request kind) := by
  cases request <;> (unfold ParseM.enterRequest; infer_instance)

instance enter (rule : Rule) (kind : Kind) : Restores depth (ParseM.enter rule kind) := by
  cases rule <;> (unfold ParseM.enter; infer_instance)

/-! ## Fragments -/

instance unitMember : Restores depth ParseM.unitMember := by
  unfold ParseM.unitMember
  infer_instance

instance unitMembers : Restores depth ParseM.unitMembers := by
  unfold ParseM.unitMembers
  refine @loop _ _ _ _ _ fun (imports, members) => behind fun kind => ?_
  split
  · infer_instance
  · refine behind fun member? => ?_
    cases member? <;> infer_instance

instance compilationUnit : Restores depth ParseM.compilationUnit := by
  unfold ParseM.compilationUnit
  infer_instance

instance finishFragment (node : Node) : Restores depth (ParseM.finishFragment node) := by
  unfold ParseM.finishFragment
  infer_instance

instance memberFragment : Restores depth ParseM.memberFragment := by
  unfold ParseM.memberFragment
  infer_instance

instance statementFragment : Restores depth ParseM.statementFragment := by
  unfold ParseM.statementFragment
  infer_instance

instance expressionFragment : Restores depth ParseM.expressionFragment := by
  unfold ParseM.expressionFragment
  infer_instance

instance fragment (kind : FragmentKind) : Restores depth (ParseM.fragment kind) := by
  cases kind <;> (unfold ParseM.fragment; infer_instance)

end TolerantSyntax.ParseM.Restores
