import InlineValues.Tree.Form

/-!
# The children of a node

`Node.children` lists the parts of a node in the order of the source text.  Every part is smaller
than the node (`Node.sizeOf_lt_of_mem_children`), so that functions on trees may recurse over the
children.
-/

namespace InlineValues

/-! ## Children of the shared parts -/

/-- The items of a list that may be left out. -/
def itemsOf {α : Type} : Option (Sequence α) → List α
  | none => []
  | some s => s.items

/-- The parts of a function in the order of the source text. -/
def FunctionParts.children {α : Type} (p : FunctionParts α) : List α :=
  itemsOf p.modifiers ++ p.name.toList ++ itemsOf p.typeParameters ++ p.parameters.items ++
    p.returnType.toList ++ p.body.toList

/-- The parts of a class in the order of the source text. -/
def ClassParts.children {α : Type} (p : ClassParts α) : List α :=
  itemsOf p.modifiers ++ p.name.toList ++ itemsOf p.typeParameters ++ itemsOf p.heritage ++
    p.members.items

/-- The parts of a signature in the order of the source text. -/
def SignatureParts.children {α : Type} (p : SignatureParts α) : List α :=
  itemsOf p.typeParameters ++ p.parameters.items ++ p.returnType.toList

/-- The parts of a property in the order of the source text. -/
def PropertyParts.children {α : Type} (p : PropertyParts α) : List α :=
  itemsOf p.modifiers ++ p.name :: p.declaredType.toList ++ p.initializer.toList

/-- The parts of a method in the order of the source text. -/
def MethodParts.children {α : Type} (p : MethodParts α) : List α :=
  itemsOf p.modifiers ++ p.name :: p.signature.children ++ p.body.toList

/-- The parts of an accessor in the order of the source text. -/
def AccessorParts.children {α : Type} (p : AccessorParts α) : List α :=
  itemsOf p.modifiers ++ p.name.toList ++ p.signature.children ++ p.body.toList

/-- The parts of a parameter in the order of the source text. -/
def ParameterParts.children {α : Type} (p : ParameterParts α) : List α :=
  itemsOf p.modifiers ++ p.name.toList ++ p.declaredType.toList ++ p.initializer.toList

/-- The parts of a mapped type in the order of the source text. -/
def MappedTypeParts.children {α : Type} (p : MappedTypeParts α) : List α :=
  p.parameter :: p.nameType.toList ++ p.valueType.toList

/-! ## Children of forms and nodes -/

/-- The parts of a form in the order of the source text. -/
def Form.children {α : Type} : Form α → List α
  | .token _ | .identifier _ | .privateIdentifier _ | .literal _ _ | .omittedExpression
  | .emptyStatement | .debuggerStatement | .semicolonClassElement | .thisType => []
  | .qualifiedName left right => left :: right.toList
  | .computedPropertyName expression => expression.toList
  | .decorator expression => expression.toList
  | .binary left _ right => left :: right.toList
  | .prefixUnary _ operand => operand.toList
  | .postfixUnary operand _ => [operand]
  | .keywordUnary _ operand => operand.toList
  | .yield _ expression => expression.toList
  | .spreadElement expression => expression.toList
  | .nonNull expression => [expression]
  | .call callee _ typeArguments arguments => callee :: (itemsOf typeArguments ++ arguments.items)
  | .new callee typeArguments arguments =>
    callee.toList ++ itemsOf typeArguments ++ itemsOf arguments
  | .propertyAccess object _ name => object :: name.toList
  | .elementAccess object _ index => object :: index.toList
  | .conditional condition whenTrue whenFalse => condition :: (whenTrue.toList ++ whenFalse.toList)
  | .arrayLiteral elements _ => elements.items
  | .objectLiteral elements _ => elements.items
  | .parenthesized expression => expression.toList
  | .typeAssertion type expression => type.toList ++ expression.toList
  | .asExpression expression type => expression :: type.toList
  | .satisfies expression type => expression :: type.toList
  | .template head spans => head :: spans.items
  | .templateSpan expression piece => expression.toList ++ [piece]
  | .taggedTemplate tag typeArguments body _ => tag :: (itemsOf typeArguments ++ [body])
  | .functionExpression parts => parts.children
  | .arrowFunction parts => parts.children
  | .classExpression parts => parts.children
  | .propertyAssignment name initializer => name :: initializer.toList
  | .shorthandPropertyAssignment name initializer => name :: initializer.toList
  | .spreadAssignment expression => expression.toList
  | .functionDeclaration parts => parts.children
  | .classDeclaration parts => parts.children
  | .interfaceDeclaration parts => parts.children
  | .typeAlias modifiers name typeParameters type =>
    itemsOf modifiers ++ name.toList ++ itemsOf typeParameters ++ type.toList
  | .enumDeclaration modifiers name members => itemsOf modifiers ++ name.toList ++ members.items
  | .enumMember name initializer => name :: initializer.toList
  | .moduleDeclaration modifiers name body => itemsOf modifiers ++ name.toList ++ body.toList
  | .staticBlock body => [body]
  | .propertyDeclaration parts => parts.children
  | .methodDeclaration parts => parts.children
  | .constructorDeclaration modifiers typeParameters parameters body =>
    itemsOf modifiers ++ itemsOf typeParameters ++ parameters.items ++ body.toList
  | .getAccessor parts => parts.children
  | .setAccessor parts => parts.children
  | .propertySignature modifiers name _ type => itemsOf modifiers ++ name :: type.toList
  | .methodSignature modifiers name _ signature => itemsOf modifiers ++ name :: signature.children
  | .callSignature signature => signature.children
  | .constructSignature signature => signature.children
  | .indexSignature modifiers parameters type =>
    itemsOf modifiers ++ parameters.items ++ type.toList
  | .parameter parts => parts.children
  | .typeParameter modifiers name constraint defaultType =>
    itemsOf modifiers ++ name.toList ++ constraint.toList ++ defaultType.toList
  | .heritageClause _ types => types.items
  | .expressionWithTypeArguments expression typeArguments => expression :: itemsOf typeArguments
  | .block statements _ => statements.items
  | .moduleBlock statements => statements.items
  | .caseBlock clauses => clauses.items
  | .variableStatement modifiers declarations => itemsOf modifiers ++ [declarations]
  | .variableDeclarationList _ declarations => declarations.items
  | .variableDeclaration name _ type initializer => name.toList ++ type.toList ++ initializer.toList
  | .expressionStatement expression => [expression]
  | .ifStatement condition thenBranch elseBranch =>
    condition.toList ++ thenBranch.toList ++ elseBranch.toList
  | .doStatement body condition => body.toList ++ condition.toList
  | .whileStatement condition body => condition.toList ++ body.toList
  | .forStatement initializer condition incrementor body =>
    initializer.toList ++ condition.toList ++ incrementor.toList ++ body.toList
  | .forInStatement initializer expression body =>
    initializer.toList ++ expression.toList ++ body.toList
  | .forOfStatement _ initializer expression body =>
    initializer.toList ++ expression.toList ++ body.toList
  | .breakStatement label => label.toList
  | .continueStatement label => label.toList
  | .returnStatement expression => expression.toList
  | .throwStatement expression => expression.toList
  | .withStatement object body => object.toList ++ body.toList
  | .switchStatement expression cases => expression.toList ++ [cases]
  | .caseClause expression statements => expression.toList ++ statements.items
  | .defaultClause statements => statements.items
  | .labeledStatement label body => label :: body.toList
  | .tryStatement body handler finallyBlock =>
    body :: (handler.toList ++ finallyBlock.toList)
  | .catchClause binding body => binding.toList ++ [body]
  | .objectBindingPattern elements => elements.items
  | .arrayBindingPattern elements => elements.items
  | .bindingElement _ propertyName name initializer =>
    propertyName.toList ++ name.toList ++ initializer.toList
  | .typeReference name typeArguments => name.toList ++ itemsOf typeArguments
  | .unionType types => types.items.filterMap id
  | .intersectionType types => types.items.filterMap id
  | .functionType signature => signature.children
  | .constructorType _ signature => signature.children
  | .typeQuery name typeArguments => name.toList ++ itemsOf typeArguments
  | .typeLiteral members => members.items
  | .arrayType element => [element]
  | .tupleType elements => elements.items
  | .optionalType type => [type]
  | .restType type => type.toList
  | .parenthesizedType type => type.toList
  | .conditionalType check bound whenTrue whenFalse =>
    check :: (bound.toList ++ whenTrue.toList ++ whenFalse.toList)
  | .inferType bound => [bound]
  | .typeOperator _ type => type.toList
  | .indexedAccessType object index => object :: index.toList
  | .mappedType parts => parts.children
  | .literalType piece => [piece]
  | .namedTupleMember _ name _ type => name.toList ++ type.toList
  | .templateLiteralType head spans => head :: spans.items
  | .templateLiteralTypeSpan type piece => type.toList ++ [piece]
  | .typePredicate _ bound type => bound.toList ++ type.toList
  | .importDeclaration clause specifier => clause.toList ++ specifier.toList
  | .importClause _ name bindings => name.toList ++ bindings.toList
  | .namespaceImport name => name.toList
  | .namedImports elements => elements.items
  | .namedExports elements => elements.items
  | .importSpecifier _ propertyName name => propertyName.toList ++ name.toList
  | .exportSpecifier _ propertyName name => propertyName.toList ++ name.toList
  | .exportDeclaration modifiers _ clause specifier =>
    itemsOf modifiers ++ clause.toList ++ specifier.toList
  | .exportAssignment modifiers _ expression => itemsOf modifiers ++ expression.toList
  | .sourceFile _ statements endOfFile => statements.items ++ [endOfFile]

/-- The parts of a node in the order of the source text. -/
def Node.children (n : Node) : List Node := n.form.children

/-! ## Children are smaller -/

section Size

variable {α : Type} [SizeOf α] {c : α}

theorem Sequence.sizeOf_lt_of_mem {s : Sequence α} (h : c ∈ s.items) : sizeOf c < sizeOf s := by
  have := List.sizeOf_lt_of_mem h
  cases s
  simp at *
  omega

theorem sizeOf_lt_of_mem_itemsOf {o : Option (Sequence α)} (h : c ∈ itemsOf o) :
    sizeOf c < sizeOf o := by
  cases o with
  | none => simp [itemsOf] at h
  | some s =>
    have := Sequence.sizeOf_lt_of_mem (show c ∈ s.items from h)
    simp only [Option.some.sizeOf_spec]
    omega

theorem Sequence.sizeOf_lt_of_mem_filterMap {s : Sequence (Option α)}
    (h : c ∈ s.items.filterMap id) : sizeOf c < sizeOf s := by
  simp only [List.mem_filterMap, id_eq, exists_eq_right] at h
  have := Sequence.sizeOf_lt_of_mem h
  simp only [Option.some.sizeOf_spec] at this
  omega

theorem FunctionParts.sizeOf_lt {p : FunctionParts α} (h : c ∈ p.children) :
    sizeOf c < sizeOf p := by
  cases p
  simp only [children, List.mem_append] at h
  simp only [mk.sizeOf_spec]
  grind [→ Sequence.sizeOf_lt_of_mem, Option.some.sizeOf_spec, → sizeOf_lt_of_mem_itemsOf]

theorem ClassParts.sizeOf_lt {p : ClassParts α} (h : c ∈ p.children) : sizeOf c < sizeOf p := by
  cases p
  simp only [children, List.mem_append] at h
  simp only [mk.sizeOf_spec]
  grind [→ Sequence.sizeOf_lt_of_mem, Option.some.sizeOf_spec, → sizeOf_lt_of_mem_itemsOf]

theorem SignatureParts.sizeOf_lt {p : SignatureParts α} (h : c ∈ p.children) :
    sizeOf c < sizeOf p := by
  cases p
  simp only [children, List.mem_append] at h
  simp only [mk.sizeOf_spec]
  grind [→ Sequence.sizeOf_lt_of_mem, Option.some.sizeOf_spec, → sizeOf_lt_of_mem_itemsOf]

theorem PropertyParts.sizeOf_lt {p : PropertyParts α} (h : c ∈ p.children) :
    sizeOf c < sizeOf p := by
  cases p
  simp only [children, List.mem_append, List.mem_cons] at h
  simp only [mk.sizeOf_spec]
  grind [Option.some.sizeOf_spec, → sizeOf_lt_of_mem_itemsOf]

theorem MethodParts.sizeOf_lt {p : MethodParts α} (h : c ∈ p.children) : sizeOf c < sizeOf p := by
  cases p
  simp only [children, List.mem_append, List.mem_cons] at h
  simp only [mk.sizeOf_spec]
  grind [Option.some.sizeOf_spec, → sizeOf_lt_of_mem_itemsOf, → SignatureParts.sizeOf_lt]

theorem AccessorParts.sizeOf_lt {p : AccessorParts α} (h : c ∈ p.children) :
    sizeOf c < sizeOf p := by
  cases p
  simp only [children, List.mem_append] at h
  simp only [mk.sizeOf_spec]
  grind [Option.some.sizeOf_spec, → sizeOf_lt_of_mem_itemsOf, → SignatureParts.sizeOf_lt]

theorem ParameterParts.sizeOf_lt {p : ParameterParts α} (h : c ∈ p.children) :
    sizeOf c < sizeOf p := by
  cases p
  simp only [children, List.mem_append] at h
  simp only [mk.sizeOf_spec]
  grind [Option.some.sizeOf_spec, → sizeOf_lt_of_mem_itemsOf]

theorem MappedTypeParts.sizeOf_lt {p : MappedTypeParts α} (h : c ∈ p.children) :
    sizeOf c < sizeOf p := by
  cases p
  simp only [children, List.cons_append, List.mem_append, List.mem_cons] at h
  simp only [mk.sizeOf_spec]
  grind [Option.some.sizeOf_spec]

theorem Form.sizeOf_lt_of_mem_children {f : Form α} (h : c ∈ f.children) :
    sizeOf c < sizeOf f := by
  rw [children.eq_def] at h
  cases f <;>
    simp only [List.mem_append, List.mem_cons, List.not_mem_nil, or_false] at h <;>
    simp <;>
    grind [→ Sequence.sizeOf_lt_of_mem, Option.some.sizeOf_spec, → sizeOf_lt_of_mem_itemsOf,
      → Sequence.sizeOf_lt_of_mem_filterMap, → FunctionParts.sizeOf_lt, → ClassParts.sizeOf_lt,
      → SignatureParts.sizeOf_lt, → PropertyParts.sizeOf_lt, → MethodParts.sizeOf_lt,
      → AccessorParts.sizeOf_lt, → ParameterParts.sizeOf_lt, → MappedTypeParts.sizeOf_lt]

end Size

/-- Every part of a node is smaller than the node. -/
theorem Node.sizeOf_lt_of_mem_children {n c : Node} (h : c ∈ n.children) :
    sizeOf c < sizeOf n := by
  have := Form.sizeOf_lt_of_mem_children h
  cases n
  simp only [Node.mk.sizeOf_spec] at *
  omega

end InlineValues
