import ClassicBasic.Attribute
import ClassicBasic.Declaration.Line
import ClassicBasic.Member
import ClassicBasic.Node.Query
import ClassicBasic.Proofs.Phrase

namespace ClassicBasic.Node

/-!
# The grammar of trees

Which nodes may stand below a node, in which order and how often.  There is one
predicate for each kind of node with a rule of its own; every rule spells out
all children.
-/

/-- A node with nothing below it. -/
inductive IsLeaf (payload : Payload) : Node → Prop where
  | mk {name : Text} {line : Nat} :
      IsLeaf payload ⟨name, line, payload, []⟩

/-- The type of an identifier, which may stand under an initializer. -/
inductive IsTyping : Node → Prop where
  | reference
      {node : Node}
      (isReference : IsLeaf .typeReference node) :
      IsTyping node
  | initializer
      {name : Text}
      {line : Nat}
      {reference : Node}
      (isReference : IsLeaf .typeReference reference) :
      IsTyping ⟨name, line, .initializer, [reference]⟩

/-- An identifier: array bounds and a type, each at most once. -/
inductive IsIdentifier (name : Text) : Node → Prop where
  | mk
      {line : Nat}
      {bounds typing : Option Node}
      (isBounds : ∀ node ∈ bounds, IsLeaf .arraySpec node)
      (isTyping : ∀ node ∈ typing, IsTyping node) :
      IsIdentifier name
        ⟨name, line, .identifier, bounds.toList ++ typing.toList⟩

/-- A parameter has exactly one identifier, of its own name. -/
inductive IsParameter : Node → Prop where
  | mk
      {name : Text}
      {line : Nat}
      {passing : PassingMode}
      {isOptional isParamArray : Bool}
      {defaultValue : Option Text}
      {identifier : Node}
      (identifies : IsIdentifier name identifier) :
      IsParameter
        ⟨name, line, .parameter passing isOptional isParamArray defaultValue,
          [identifier]⟩

/-- An attribute belongs to at most one member. -/
inductive IsAttributeLine : Node → Prop where
  | mk
      {name : Text}
      {line : Nat}
      {value : Text}
      {quoted : Bool}
      {member : Option Node}
      (isMember : ∀ node ∈ member, IsLeaf .memberReference node) :
      IsAttributeLine ⟨name, line, .attributeLine value quoted, member.toList⟩

/-- A field of a user-defined type has exactly one identifier, of its own name. -/
inductive IsField : Node → Prop where
  | mk
      {name : Text}
      {line : Nat}
      {modifier : Option AccessModifier}
      {value : Option Text}
      {withEvents : Bool}
      {identifier : Node}
      (identifies : IsIdentifier name identifier) :
      IsField
        ⟨name, line, .declaration modifier .field value withEvents none,
          [identifier]⟩

/-- A member of an enumeration has nothing below it. -/
inductive IsEnumMember : Node → Prop where
  | mk
      {name : Text}
      {line : Nat}
      {value : Int64}
      {isExplicit : Bool} :
      IsEnumMember ⟨name, line, .enumMember value isExplicit, []⟩

/-- What a declaration holds besides its identifier, by its keyword. -/
def IsContent : DeclarationKeyword → Node → Prop
  | .type => IsField
  | .enum => IsEnumMember
  | .declare => IsParameter
  | _ => fun _ => False

/-- A declaration in its section: one identifier of its own name, what its
keyword allows, and then its comment, if it has one. -/
inductive IsDeclaration (comment : Option Node) : Node → Prop where
  | mk
      {name : Text}
      {line : Nat}
      {modifier : Option AccessModifier}
      {keyword : DeclarationKeyword}
      {value : Option Text}
      {withEvents : Bool}
      {external : Option ExternalProcedure}
      {identifier : Node}
      {content : List Node}
      (written : keyword ≠ .field)
      (isExternal : external.isSome ↔ keyword = .declare)
      (identifies : IsIdentifier name identifier)
      (isContent : ∀ node ∈ content, IsContent keyword node)
      (isComment : ∀ node ∈ comment, IsLeaf .comment node) :
      IsDeclaration comment
        ⟨name, line, .declaration modifier keyword value withEvents external,
          identifier :: (content ++ comment.toList)⟩

/-- An interface has exactly one type reference, of its own name. -/
inductive IsInterface : Node → Prop where
  | mk {name : Text} {line : Nat} :
      IsInterface ⟨name, line, .interface, [typeReference name line]⟩

/-- A block of code holds only blocks of code. -/
inductive IsCodeBlock : Node → Prop where
  | mk
      {name : Text}
      {line : Nat}
      {children : List Node}
      (isCode : ∀ node ∈ children, IsCodeBlock node) :
      IsCodeBlock ⟨name, line, .codeBlock, children⟩

/-- A member: one identifier of its own name, its parameters, its attributes
and exactly one block of code, with the name and the line of the member. -/
inductive IsMember : Node → Prop where
  | mk
      {name : Text}
      {line : Nat}
      {payload : Payload}
      {identifier : Node}
      {parameters attributes body : List Node}
      (isProcedure : payload.kind = .property ∨ payload.kind = .method)
      (identifies : IsIdentifier name identifier)
      (isParameter : ∀ node ∈ parameters, IsParameter node)
      (isAttribute : ∀ node ∈ attributes, IsAttributeLine node)
      (isCode : IsCodeBlock ⟨name, line, .codeBlock, body⟩) :
      IsMember
        ⟨name, line, payload,
          identifier ::
            (parameters ++ attributes ++ [⟨name, line, .codeBlock, body⟩])⟩

/-- What the declaration section of a module holds. -/
inductive IsDeclared (comment : Option Node) : Node → Prop where
  | declaration
      {node : Node}
      (isDeclaration : IsDeclaration comment node) :
      IsDeclared comment node
  | interface
      {node : Node}
      (isInterface : IsInterface node) :
      IsDeclared comment node

/-- The number of attributes in a header: five in that of a class module, one
in that of a plain one. -/
def headerAttributes (classFlags : Option ClassFlags) : Nat :=
  if classFlags.isSome then 5 else 1

/-- A module: the attributes of its header, the first of which names it, then
what its declaration section holds, then its members. -/
inductive IsModule (file : Text) : Node → Prop where
  | mk
      {name : Text}
      {classFlags : Option ClassFlags}
      {first : Node}
      {others declarations members : List Node}
      (named : first.name = nameAttribute)
      (gives : first.value? = some name)
      (count : (first :: others).length = headerAttributes classFlags)
      (isAttribute : ∀ node ∈ first :: others, IsAttributeLine node)
      (isDeclared : ∀ node ∈ declarations, ∃ comment, IsDeclared comment node)
      (isMember : ∀ node ∈ members, IsMember node) :
      IsModule file
        ⟨name, 1, .module file classFlags,
          first :: others ++ declarations ++ members⟩

/-! ## Kinds -/

/-- What is shaped like an identifier is one. -/
theorem IsIdentifier.kind_eq
    {name : Text}
    {node : Node}
    (shape : IsIdentifier name node) :
    node.kind = .identifier := by
  cases shape
  rfl

/-- What is shaped like a parameter is one. -/
theorem IsParameter.kind_eq
    {node : Node}
    (shape : IsParameter node) :
    node.kind = .parameter := by
  cases shape
  rfl

/-- What is shaped like an attribute line is one. -/
theorem IsAttributeLine.kind_eq
    {node : Node}
    (shape : IsAttributeLine node) :
    node.kind = .attributeLine := by
  cases shape
  rfl

/-- What is declared is a declaration or an interface. -/
theorem IsDeclared.kind_eq
    {comment : Option Node}
    {node : Node}
    (shape : IsDeclared comment node) :
    node.kind = .declaration ∨ node.kind = .interface := by
  cases shape with
  | declaration isDeclaration =>
      cases isDeclaration
      exact .inl rfl
  | interface isInterface =>
      cases isInterface
      exact .inr rfl

/-- A member is a property or a method. -/
theorem IsMember.kind_eq
    {node : Node}
    (shape : IsMember node) :
    node.kind = .property ∨ node.kind = .method := by
  cases shape
  assumption

/-! ## Identifiers and parameters -/

/-- A part that may be missing becomes a leaf where it is there. -/
theorem isLeaf_of_mem_map
    {payload : Payload}
    {line : Nat}
    {part : Option Text}
    {node : Node}
    (member : node ∈ part.map fun name => leaf payload name line) :
    IsLeaf payload node := by
  obtain ⟨name, -, rfl⟩ := Option.map_eq_some_iff.mp member
  exact .mk

/-- Identifiers are well shaped where an initializer comes with a type. -/
theorem isIdentifier_identifier
    (name : Text)
    (arraySpec initializer typeName : Option Text)
    (line : Nat)
    (typed :
      initializer = none ∨ ∃ type, typeName = some type ∧ type ≠ []) :
    IsIdentifier name (identifier name arraySpec initializer typeName line) := by
  let present := Option.filter fun (part : Text) => !part.isEmpty
  have isBounds :
      ∀ node ∈ (present arraySpec).map fun spec => leaf .arraySpec spec line,
        IsLeaf .arraySpec node := by
    intro node member
    exact isLeaf_of_mem_map member
  have isReference :
      ∀ node ∈ (present typeName).map fun name => typeReference name line,
        IsTyping node := by
    intro node member
    exact .reference (isLeaf_of_mem_map member)
  cases written : present initializer with
  | none =>
      have shape :
          identifier name arraySpec initializer typeName line =
            ⟨name, line, .identifier,
              ((present arraySpec).map fun spec => leaf .arraySpec spec line).toList ++
                ((present typeName).map fun name => typeReference name line).toList⟩ := by
        simp only [identifier, present] at written ⊢
        rw [written]
      rw [shape]
      exact .mk isBounds isReference
  | some keyword =>
      -- An initializer stands over the type, so there is none without a type.
      rcases typed with rfl | ⟨type, rfl, nonEmpty⟩
      · simp [present] at written
      · have shape :
            identifier name arraySpec initializer (some type) line =
              ⟨name, line, .identifier,
                ((present arraySpec).map fun spec => leaf .arraySpec spec line).toList ++
                  (some
                    ⟨keyword, line, .initializer, [typeReference type line]⟩ :
                      Option Node).toList⟩ := by
          have kept : present (some type) = some type :=
            Option.filter_eq_some_iff.mpr ⟨rfl, by simpa using nonEmpty⟩
          simp only [identifier, present] at written kept ⊢
          rw [written, kept]
          rfl
        rw [shape]
        refine .mk isBounds ?_
        intro node member
        rw [← Option.mem_some_iff.mp member]
        exact .initializer .mk

/-- A parameter has the shape of one. -/
theorem isParameter_node
    (parameter : Parameter)
    (line : Nat) :
    IsParameter (parameter.node line) :=
  .mk (isIdentifier_identifier _ _ _ _ _ (.inl rfl))

/-- The nodes of a parameter list have the shape of parameters. -/
theorem isParameter_of_mem_nodes
    {text : Text}
    {line : Nat}
    {node : Node}
    (member : node ∈ Parameter.nodes text line) :
    IsParameter node := by
  obtain ⟨parameter, -, rfl⟩ := List.mem_map.mp member
  exact isParameter_node parameter line

/-- An attribute that is read has the shape of an attribute line. -/
theorem isAttributeLine_of_readNode?
    {text : Text}
    {line : Nat}
    {node : Node}
    (read : Attribute.readNode? text line = some node) :
    IsAttributeLine node := by
  obtain ⟨stated, -, rfl⟩ := Option.map_eq_some_iff.mp read
  apply IsAttributeLine.mk
  intro node member
  exact isLeaf_of_mem_map member

/-! ## Declarators -/

/-- A type with a length is not empty. -/
theorem ne_nil_of_sizedType?
    {text typeName rest : Text}
    (read : Declarator.sizedType? text = some (typeName, rest)) :
    typeName ≠ [] := by
  obtain ⟨⟨type, behind⟩, named, sized⟩ := Option.bind_eq_some_iff.mp read
  have nonEmpty := Phrase.ne_nil_of_typeName? named
  dsimp only at sized
  split at sized
  · cases sized
    simp [Text.concat]
  · cases sized
    exact nonEmpty

/-- A new object has a type. -/
theorem typed_of_readTyped?
    {text : Text}
    {typeName value : Option Text}
    (read : Declarator.readTyped? text = some (true, typeName, value)) :
    ∃ type, typeName = some type ∧ type ≠ [] := by
  unfold Declarator.readTyped? at read
  split at read
  · obtain ⟨value, -, same⟩ := Option.map_eq_some_iff.mp read
    simp at same
  · obtain ⟨isNew, behind, named⟩ := Phrase.exists_readOn_of_optionally read
    obtain ⟨⟨type, rest⟩, sized, named⟩ := Option.bind_eq_some_iff.mp named
    obtain ⟨value, -, same⟩ := Option.bind_eq_some_iff.mp named
    simp only [Option.some.injEq, Prod.mk.injEq] at same
    exact ⟨type, same.2.1.symm, ne_nil_of_sizedType? sized⟩

/-- A declarator that has been read with `New` has a type. -/
theorem typed_of_read?
    {text : Text}
    {declarator : Declarator}
    (read : Declarator.read? text = some declarator)
    (isNew : declarator.isNew = true) :
    ∃ type, declarator.typeName = some type ∧ type ≠ [] := by
  obtain ⟨withEvents, behind, named⟩ := Phrase.exists_readOn_of_optionally read
  obtain ⟨⟨name, rest⟩, -, named⟩ := Option.bind_eq_some_iff.mp named
  obtain ⟨⟨new, typeName, value⟩, typed, same⟩ := Option.bind_eq_some_iff.mp named
  cases same
  cases isNew
  exact typed_of_readTyped? typed

/-- The identifier of a declarator that has been read is well shaped. -/
theorem isIdentifier_of_read?
    {text : Text}
    {declarator : Declarator}
    (read : Declarator.read? text = some declarator)
    (line : Nat) :
    IsIdentifier declarator.name
      (identifier declarator.name declarator.bounds
        (if declarator.isNew then some "New".toList else none)
        declarator.typeName line) := by
  refine isIdentifier_identifier _ _ _ _ _ ?_
  cases isNew : declarator.isNew with
  | false =>
      exact .inl rfl
  | true =>
      exact .inr (typed_of_read? read isNew)

/-! ## Declarations -/

namespace IsDeclaration

/-- A declaration without a comment has its identifier first and its contents
behind. -/
theorem uncommented
    {name : Text}
    {line : Nat}
    {modifier : Option AccessModifier}
    {keyword : DeclarationKeyword}
    {value : Option Text}
    {withEvents : Bool}
    {external : Option ExternalProcedure}
    {identifier : Node}
    {content : List Node}
    (written : keyword ≠ .field)
    (isExternal : external.isSome ↔ keyword = .declare)
    (identifies : IsIdentifier name identifier)
    (isContent : ∀ node ∈ content, IsContent keyword node) :
    IsDeclaration none
      ⟨name, line, .declaration modifier keyword value withEvents external,
        identifier :: content⟩ := by
  have whole :
      IsDeclaration none
        ⟨name, line, .declaration modifier keyword value withEvents external,
          identifier :: (content ++ (none : Option Node).toList)⟩ :=
    .mk written isExternal identifies isContent (by simp)
  simpa using whole

/-- A comment stands behind all that a declaration holds. -/
theorem withComment
    {node comment : Node}
    (isDeclaration : IsDeclaration none node)
    (isComment : IsLeaf .comment comment) :
    IsDeclaration (some comment) (node.withChildren [comment]) := by
  cases isDeclaration with
  | @mk name line modifier keyword value withEvents external identifier content
      written isExternal identifies isContent _ =>
      have whole :
          IsDeclaration (some comment)
            ⟨name, line, .declaration modifier keyword value withEvents external,
              identifier :: (content ++ (some comment).toList)⟩ :=
        .mk written isExternal identifies isContent
          fun other member => Option.mem_some_iff.mp member ▸ isComment
      simpa [withChildren] using whole

end IsDeclaration

/-- A field that is read has the shape of one. -/
theorem isField_of_field?
    {line : Line}
    {node : Node}
    (read : OpenBlock.field? line = some node) :
    IsField node := by
  obtain ⟨declarator, declares, rfl⟩ := Option.map_eq_some_iff.mp read
  exact .mk (isIdentifier_of_read? declares line.number)

/-- A numbered member has the shape of a member of an enumeration. -/
theorem isEnumMember_of_mem_numberMembers
    {members : List (EnumMember × Nat)}
    {next : Int64}
    {node : Node}
    (member : node ∈ OpenBlock.numberMembers next members) :
    IsEnumMember node := by
  induction members generalizing next with
  | nil =>
      simp [OpenBlock.numberMembers] at member
  | cons first rest inductionHypothesis =>
      rcases first with ⟨enumMember, line⟩
      rw [OpenBlock.numberMembers, List.mem_cons] at member
      rcases member with rfl | inRest
      · exact .mk
      · exact inductionHypothesis inRest

/-- A block of declarations is well shaped, whatever its lines are. -/
theorem isDeclaration_block
    (block : OpenBlock) :
    IsDeclaration none block.node := by
  have identifies :
      IsIdentifier block.name (identifier block.name none none none block.line) :=
    isIdentifier_identifier _ _ _ _ _ (.inl rfl)
  rcases block with ⟨kind, modifier, name, line, lines⟩
  have written : kind.keyword ≠ .field := by
    cases kind <;> decide
  have isExternal :
      (none : Option ExternalProcedure).isSome ↔ kind.keyword = .declare := by
    cases kind <;> decide
  refine .uncommented written isExternal identifies ?_
  intro node member
  cases kind with
  | type =>
      obtain ⟨fieldLine, -, read⟩ := List.mem_filterMap.mp member
      exact isField_of_field? read
  | enum =>
      exact isEnumMember_of_mem_numberMembers member

/-- An external procedure has the shape of a declaration. -/
theorem isDeclaration_external
    (statement : ExternalDeclaration)
    (line : Nat) :
    IsDeclaration none (statement.node line) := by
  have identifies :
      IsIdentifier statement.name
        (identifier statement.name none none statement.returnType line) :=
    isIdentifier_identifier _ _ _ _ _ (.inl rfl)
  refine .uncommented (by decide) (by simp) identifies ?_
  intro node member
  cases list : statement.parameters with
  | none =>
      simp [list] at member
  | some text =>
      rw [list] at member
      exact isParameter_of_mem_nodes member

/-- A keyword that declares variables or constants holds nothing of its own. -/
def declaresVariables : DeclarationKeyword → Bool
  | .dim | .static | .public | .private | .friend | .global | .const => true
  | .declare | .type | .enum | .field => false

/-- The keyword of a declaration is written and not `Declare`. -/
theorem keyword_of_readLeading?
    {text rest : Text}
    {modifier : Option AccessModifier}
    {keyword : DeclarationKeyword}
    (read :
      DeclaringInstruction.readLeading? text = some (modifier, keyword, rest)) :
    keyword ≠ .declare ∧ keyword ≠ .field := by
  obtain ⟨leading, behind, reads⟩ := Phrase.exists_readOn_of_optionally read
  obtain ⟨⟨written, behind⟩, leads, same⟩ := Option.bind_eq_some_iff.mp reads
  cases same
  obtain ⟨⟨known, after⟩, leads, whole⟩ := Option.bind_eq_some_iff.mp leads
  dsimp only at whole
  split at whole
  · simp at whole
  cases whole
  have known := Phrase.leadingWord_of_keyword? leads
  obtain ⟨spelled, notDeclare⟩ := Option.filter_eq_some_iff.mp known
  have isWritten := List.mem_of_find?_eq_some spelled
  refine ⟨by simpa using notDeclare, ?_⟩
  rintro rfl
  simp [DeclarationKeyword.written] at isWritten

/-- A declaration of variables has such a keyword and readable declarators. -/
theorem variables_of_declaration?
    {text : Text}
    {modifier : Option AccessModifier}
    {keyword : DeclarationKeyword}
    {declarators : List Declarator}
    (read :
      DeclaringInstruction.declaration? text =
        some (.variables modifier keyword declarators)) :
    declaresVariables keyword = true ∧
      ∀ declarator ∈ declarators,
        ∃ segment, Declarator.read? segment = some declarator := by
  obtain ⟨⟨leading, written, rest⟩, leads, declares⟩ :=
    Option.bind_eq_some_iff.mp read
  obtain ⟨notDeclare, notField⟩ := keyword_of_readLeading? leads
  have shape :
      declaresVariables written = true ∧
        DeclaringInstruction.declarators rest = declarators ∧
        written = keyword := by
    cases written
    case declare => exact (notDeclare rfl).elim
    case field => exact (notField rfl).elim
    case type => simp at declares
    case enum => simp at declares
    all_goals
      dsimp only at declares
      split at declares
      · simp at declares
      · cases declares
        exact ⟨rfl, rfl, rfl⟩
  obtain ⟨isVariable, rfl, rfl⟩ := shape
  refine ⟨isVariable, ?_⟩
  intro declarator member
  obtain ⟨segment, -, readSegment⟩ := List.mem_filterMap.mp member
  exact ⟨segment, readSegment⟩

/-- A declared variable has the shape of a declaration. -/
theorem isDeclaration_variable
    {text : Text}
    {declarator : Declarator}
    {keyword : DeclarationKeyword}
    (read : Declarator.read? text = some declarator)
    (declares : declaresVariables keyword = true)
    (modifier : Option AccessModifier)
    (line : Nat) :
    IsDeclaration none (declarator.node modifier keyword line) := by
  refine .uncommented ?_ ?_ (isIdentifier_of_read? read line) (by simp)
  · rintro rfl
    cases declares
  · constructor
    · intro isSome
      simp at isSome
    · rintro rfl
      cases declares

end ClassicBasic.Node
