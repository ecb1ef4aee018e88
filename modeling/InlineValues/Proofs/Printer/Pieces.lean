import InlineValues.Printer.Print
import InlineValues.Proofs.Tree.Layout
import Mathlib.Data.List.Basic

/-!
# What a printer is made of

Each way of printing takes a printer for the parts as an argument and does nothing with it but put
what it gives between marks of its own.  So it comes down to a list of pieces, which are such marks
and parts, in an order that does not depend on how the parts are printed (`Pieced`).  For a node the
parts stand below it (`Pieced.printNode`).

What holds of all marks then holds of those of a node if it holds of those of its parts
(`Pieced.forall_marks`), and two printers that agree on the parts agree on the node
(`Pieced.congr`).
-/

namespace InlineValues

/-! ## Marks -/

/-- A property of marks that all those have which the printer writes on its own: line breaks,
semicolons, and texts of one line. -/
class IsPlain (Q : Mark → Prop) : Prop where
  line : Q .line
  semicolon : Q .semicolon
  text {cs : List Char} : OneLine cs → Q (.text cs)

lemma TokenKind.oneLine_spelling (k : TokenKind) : OneLine k.spelling := by
  cases k <;> decide

lemma itemsOf_some {α : Type} (list : Sequence α) : itemsOf (some list) = list.items := rfl

/-! ## Pieces -/

/-- A mark, or a part that stands for its marks. -/
inductive Piece where
  | own (m : Mark)
  | part (n : Node)

/-- The marks of a piece. -/
def Piece.marks (emit : Emit) : Piece → List Mark
  | own m => [m]
  | part n => emit n

/-- A mark with one property, or a part with another. -/
def Piece.Meets (Q : Mark → Prop) (P : Node → Prop) : Piece → Prop
  | own m => Q m
  | part n => P n

/-- A way of printing that puts parts between marks of its own, by the same pieces for all printers
of the parts. -/
def Pieced (Q : Mark → Prop) (P : Node → Prop) (f : Emit → List Mark) : Prop :=
  ∃ pieces : List Piece, (∀ p ∈ pieces, p.Meets Q P) ∧
    ∀ emit : Emit, emit none = [] → f emit = pieces.flatMap (Piece.marks emit)

namespace Pieced

variable {Q : Mark → Prop} {P : Node → Prop} {f g : Emit → List Mark}

section

variable (h : Pieced Q P f) {emit emit' : Emit} (hnone : emit none = [])
include h hnone

/-- What holds of the marks of the parts holds of all marks. -/
theorem forall_marks (hparts : ∀ n, P n → ∀ m ∈ emit (some n), Q m) : ∀ m ∈ f emit, Q m := by
  obtain ⟨pieces, hmeets, hf⟩ := h
  rw [hf emit hnone]
  intro m hm
  obtain ⟨p, hp, hm⟩ := List.mem_flatMap.mp hm
  have hmeet := hmeets p hp
  cases p with
  | own => exact List.mem_singleton.mp hm ▸ hmeet
  | part n => exact hparts n hmeet m hm

/-- Printers that agree on the parts that are put in agree on the whole. -/
theorem congr (hnone' : emit' none = [])
    (hagree : ∀ n, P n → emit (some n) ⊆ f emit → emit (some n) = emit' (some n)) :
    f emit = f emit' := by
  obtain ⟨pieces, hmeets, hf⟩ := h
  rw [hf emit hnone] at hagree ⊢
  rw [hf emit' hnone']
  refine List.flatMap_congr fun p hp => ?_
  cases p with
  | own m => rfl
  | part n => exact hagree n (hmeets _ hp) fun m hm => List.mem_flatMap.mpr ⟨_, hp, hm⟩

end

/-! ## Putting pieces together -/

lemma own {ms : List Mark} (h : ∀ m ∈ ms, Q m) : Pieced Q P fun _ => ms := by
  refine ⟨ms.map .own, fun p hp => ?_, fun emit _ => ?_⟩
  · obtain ⟨m, hm, rfl⟩ := List.mem_map.mp hp
    exact h m hm
  · rw [List.flatMap_map]
    exact (List.flatMap_singleton' ms).symm

@[simp] lemma nil : Pieced Q P fun _ => [] := own (by simp)

@[simp] lemma node {n : Node} (h : P n) : Pieced Q P fun emit => emit (some n) :=
  ⟨[.part n], by simpa [Piece.Meets] using h, fun emit _ => by simp [Piece.marks]⟩

@[simp] lemma part {o : Option Node} (h : o.toList.Forall P) : Pieced Q P fun emit => emit o := by
  cases o with
  | none => exact ⟨[], by simp, fun emit hnone => hnone⟩
  | some n => exact node (by simpa using h)

lemma append (hf : Pieced Q P f) (hg : Pieced Q P g) :
    Pieced Q P fun emit => f emit ++ g emit := by
  obtain ⟨xs, hxs, hf⟩ := hf
  obtain ⟨ys, hys, hg⟩ := hg
  refine ⟨xs ++ ys, fun p hp => (List.mem_append.mp hp).elim (hxs p) (hys p), fun emit hnone => ?_⟩
  dsimp only
  rw [List.flatMap_append, hf emit hnone, hg emit hnone]

lemma flatMap {xs : List Node} {f : Node → Emit → List Mark} (h : ∀ x ∈ xs, Pieced Q P (f x)) :
    Pieced Q P fun emit => xs.flatMap fun x => f x emit := by
  induction xs with
  | nil => exact nil
  | cons x xs ih =>
    simp only [List.flatMap_cons]
    exact append (h x (.head xs)) (ih fun y hy => h y (.tail x hy))

lemma intercalate {α : Type} {separator : List Mark} (hseparator : ∀ m ∈ separator, Q m)
    {xs : List α} {f : α → Emit → List Mark} (h : ∀ x ∈ xs, Pieced Q P (f x)) :
    Pieced Q P fun emit => separator.intercalate (xs.map fun x => f x emit) := by
  induction xs with
  | nil => exact nil
  | cons x xs ih =>
    have hx := h x (.head xs)
    have hxs := ih fun y hy => h y (.tail x hy)
    cases xs with
    | nil => simpa using hx
    | cons y xs =>
      simp only [List.map_cons, List.intercalate_cons_cons]
      exact append (append hx (own hseparator)) hxs

lemma part_of_mem {n : Node} {xs : List Node} (h : xs.Forall P) (hn : n ∈ xs) :
    Pieced Q P fun emit => emit (some n) := node (List.forall_iff_forall_mem.mp h n hn)

@[simp] lemma parts {xs : List Node} (h : xs.Forall P) :
    Pieced Q P fun emit => xs.flatMap fun n => emit (some n) := flatMap fun _ hn => part_of_mem h hn

variable [hQ : IsPlain Q]

/-! ## Marks of the printer -/

@[simp] lemma line : Pieced Q P fun _ => [.line] := own (by simpa using hQ.line)

@[simp] lemma semicolon : Pieced Q P fun _ => [.semicolon] := own (by simpa using hQ.semicolon)

lemma text {cs : List Char} (h : OneLine cs) : Pieced Q P fun _ => [.text cs] :=
  own (by simpa using hQ.text h)

@[simp] lemma write {s : String} (h : OneLine s.toList) : Pieced Q P fun _ => write s := text h

@[simp] lemma writeIf {condition : Bool} {s : String} (h : OneLine s.toList) :
    Pieced Q P fun _ => writeIf condition s := by
  cases condition
  · exact nil
  · exact write h

@[simp] lemma write_ite {condition : Prop} [Decidable condition] {s t : String}
    (hs : OneLine s.toList) (ht : OneLine t.toList) :
    Pieced Q P fun _ => InlineValues.write (if condition then s else t) := by
  split
  · exact write hs
  · exact write ht

@[simp] lemma spelled (kind : TokenKind) : Pieced Q P fun _ => spelled kind :=
  text kind.oneLine_spelling

@[simp] lemma printOperator (kind : TokenKind) : Pieced Q P fun _ => printOperator kind := by
  unfold InlineValues.printOperator
  split
  · exact write (by decide)
  · exact append (append (write (by decide)) (spelled _)) (write (by decide))

@[simp] lemma printSign (kind : TokenKind) : Pieced Q P fun _ => printSign kind := by
  unfold InlineValues.printSign
  split
  · exact spelled _
  · exact nil

@[simp] lemma variableKeyword (keyword : VariableKeyword) :
    Pieced Q P fun _ => InlineValues.write keyword.spelling := by
  cases keyword <;> exact write (by decide)

@[simp] lemma moduleKeyword (c : PrintContext) (name : Option Node) :
    Pieced Q P fun _ => c.moduleKeyword name := by
  unfold PrintContext.moduleKeyword
  split
  · exact write (by decide)
  · exact writeIf (by decide)

/-! ## Parts -/

@[simp] lemma preceded {separator : String} (hseparator : OneLine separator.toList)
    {o : Option Node} (h : o.toList.Forall P) :
    Pieced Q P fun emit => preceded separator emit o := by
  cases o with
  | none => exact nil
  | some n => exact append (write hseparator) (part h)

@[simp] lemma annotation {o : Option Node} (h : o.toList.Forall P) :
    Pieced Q P fun emit => annotation emit o := preceded (by decide) h

@[simp] lemma initialized {o : Option Node} (h : o.toList.Forall P) :
    Pieced Q P fun emit => initialized emit o := preceded (by decide) h

@[simp] lemma embedded {o : Option Node} (h : o.toList.Forall P) :
    Pieced Q P fun emit => embedded emit o := append (write (by decide)) (part h)

@[simp] lemma modified {modifiers : Option (Sequence Node)} (h : (itemsOf modifiers).Forall P) :
    Pieced Q P fun emit => modified emit modifiers :=
  flatMap fun _ hn => append (part_of_mem h hn) (write (by decide))

/-! ## Lists -/

@[simp] lemma commaSeparated {xs : List Node} (h : xs.Forall P) :
    Pieced Q P fun emit => commaSeparated emit xs :=
  intercalate (by simpa [InlineValues.write] using hQ.text (by decide))
    fun _ hn => part_of_mem h hn

@[simp] lemma commaList {list : Sequence Node} (h : list.items.Forall P) :
    Pieced Q P fun emit => commaList emit list :=
  append (commaSeparated h) (writeIf (by decide))

/-- A list between two texts. -/
lemma enclosed {front back : String} (hfront : OneLine front.toList) (hback : OneLine back.toList)
    (hf : Pieced Q P f) :
    Pieced Q P fun emit => InlineValues.write front ++ f emit ++ InlineValues.write back :=
  append (append (write hfront) hf) (write hback)

@[simp] lemma parenthesizedList {list : Sequence Node} (h : list.items.Forall P) :
    Pieced Q P fun emit => parenthesizedList emit list :=
  enclosed (by decide) (by decide) (commaSeparated h)

@[simp] lemma angledList {list : Option (Sequence Node)} (h : (itemsOf list).Forall P) :
    Pieced Q P fun emit => angledList emit list := by
  cases list with
  | none => exact nil
  | some list => exact enclosed (by decide) (by decide) (commaSeparated h)

@[simp] lemma bracketedList {list : Sequence Node} (h : list.items.Forall P) :
    Pieced Q P fun emit => bracketedList emit list :=
  enclosed (by decide) (by decide) (commaList h)

@[simp] lemma bracedList {list : Sequence Node} (h : list.items.Forall P) :
    Pieced Q P fun emit => bracedList emit list := by
  unfold InlineValues.bracedList
  split
  · exact write (by decide)
  · exact enclosed (by decide) (by decide) (commaList h)

/-- Types with a sign between them, of which some may be missing. -/
lemma types {sign : String} (hsign : OneLine sign.toList) {types : List (Option Node)}
    (h : (types.filterMap id).Forall P) :
    Pieced Q P fun emit => (InlineValues.write sign).intercalate (types.map emit) := by
  refine intercalate (f := fun o emit => emit o)
    (by simpa [InlineValues.write] using hQ.text hsign) fun o ho => part ?_
  refine List.forall_iff_forall_mem.mpr fun n hn => List.forall_iff_forall_mem.mp h n ?_
  exact List.mem_filterMap.mpr ⟨o, ho, Option.mem_toList.mp hn⟩

@[simp] lemma bracedMembers {members : Sequence Node} (h : members.items.Forall P) :
    Pieced Q P fun emit => bracedMembers emit members :=
  append (append (append (write (by decide))
    (flatMap fun _ hn => append line (part_of_mem h hn))) line) (write (by decide))

@[simp] lemma printEnumMembers {trailingComma : Bool} {members : List Node}
    (h : members.Forall P) :
    Pieced Q P fun emit => printEnumMembers emit trailingComma members := by
  induction members with
  | nil => exact nil
  | cons n rest ih =>
    rw [List.forall_cons] at h
    have hn : Pieced Q P fun emit => .line :: emit (some n) := append line (node h.1)
    cases rest with
    | nil => exact append hn (writeIf (by decide))
    | cons m rest => exact append (append hn (write (by decide))) (ih h.2)

section

variable {c : PrintContext} (hcomments : ∀ n, ∀ m ∈ commentsBefore c n, Q m)
include hcomments

lemma statementLines {statements : Sequence Node} (h : statements.items.Forall P) :
    Pieced Q P fun emit => statementLines c emit statements :=
  flatMap fun _ hn => append (append line (own (hcomments _))) (part_of_mem h hn)

lemma bracedStatements {statements : Sequence Node} (h : statements.items.Forall P) :
    Pieced Q P fun emit => bracedStatements c emit statements := by
  unfold InlineValues.bracedStatements
  split
  · exact write (by decide)
  · exact append (append (append (write (by decide)) (statementLines hcomments h)) line)
      (write (by decide))

end

/-! ## Functions, classes and their members -/

@[simp] lemma printSignature {parts : SignatureParts Node} (h : parts.children.Forall P) :
    Pieced Q P fun emit => printSignature emit parts := by
  simp only [SignatureParts.children, List.forall_append] at h
  exact append (append (angledList h.1.1) (parenthesizedList h.1.2)) ( annotation h.2)

@[simp] lemma printBody {body : Option Node} (h : body.toList.Forall P) :
    Pieced Q P fun emit => printBody emit body := by
  cases body with
  | none => exact semicolon
  | some body => exact append (write (by decide)) (part h)

lemma printFunctionType {keywords : String} (hkeywords : OneLine keywords.toList)
    {parts : SignatureParts Node} (h : parts.children.Forall P) :
    Pieced Q P fun emit => printFunctionType emit keywords parts := by
  simp only [SignatureParts.children, List.forall_append] at h
  exact append (append (append (append (write hkeywords) (angledList h.1.1))
    (parenthesizedList h.1.2)) (write (by decide))) (part h.2)

lemma printFunction {parts : FunctionParts Node} (h : parts.children.Forall P) :
    Pieced Q P fun emit => printFunction emit parts := by
  simp only [FunctionParts.children, List.forall_append] at h
  unfold InlineValues.printFunction
  repeat' with_reducible refine append ?_ ?_
  all_goals
    simp (disch := first | decide | simp [h, FunctionParts.signature, SignatureParts.children])

lemma printArrow {pos : Nat} {parts : FunctionParts Node} (h : parts.children.Forall P) :
    Pieced Q P fun emit => printArrow emit pos parts := by
  simp only [FunctionParts.children, List.forall_append] at h
  unfold InlineValues.printArrow
  split
  all_goals
    repeat' with_reducible refine append ?_ ?_
    all_goals
      simp (disch := first | decide | simp [h, FunctionParts.signature, SignatureParts.children])

lemma printParameter {parts : ParameterParts Node} (h : parts.children.Forall P) :
    Pieced Q P fun emit => printParameter emit parts := by
  simp only [ParameterParts.children, List.forall_append] at h
  unfold InlineValues.printParameter
  repeat' with_reducible refine append ?_ ?_
  all_goals simp (disch := first | decide | simp [h])

/-- Classes and interfaces differ in what stands in front of their name. -/
lemma printClassTail {parts : ClassParts Node} (h : parts.children.Forall P) :
    Pieced Q P fun emit => printClassTail emit parts := by
  simp only [ClassParts.children, List.forall_append] at h
  exact append (append (append (angledList h.1.1.2)
    (flatMap fun _ hn => append (write (by decide)) (part_of_mem h.1.2 hn))) (write (by decide)))
    (bracedMembers h.2)

lemma printClass {parts : ClassParts Node} (h : parts.children.Forall P) :
    Pieced Q P fun emit => printClass emit parts := by
  have htail := printClassTail (Q := Q) h
  simp only [ClassParts.children, List.forall_append] at h
  exact append (append (append (modified h.1.1.1.1) (write (by decide)))
    (preceded (by decide) h.1.1.1.2)) htail

lemma printInterface {parts : ClassParts Node} (h : parts.children.Forall P) :
    Pieced Q P fun emit => printInterface emit parts := by
  have htail := printClassTail (Q := Q) h
  simp only [ClassParts.children, List.forall_append] at h
  exact append (append (append (modified h.1.1.1.1) (write (by decide))) (part h.1.1.1.2)) htail

lemma printProperty {parts : PropertyParts Node} (h : parts.children.Forall P) :
    Pieced Q P fun emit => printProperty emit parts := by
  simp only [PropertyParts.children, List.forall_append, List.forall_cons] at h
  unfold InlineValues.printProperty
  repeat' with_reducible refine append ?_ ?_
  all_goals simp (disch := first | decide | simp [h])

lemma printMethod {parts : MethodParts Node} (h : parts.children.Forall P) :
    Pieced Q P fun emit => printMethod emit parts := by
  simp only [MethodParts.children, List.forall_append, List.forall_cons] at h
  unfold InlineValues.printMethod
  repeat' with_reducible refine append ?_ ?_
  all_goals simp (disch := first | decide | simp [h])

lemma printAccessor {keyword : String} (hkeyword : OneLine keyword.toList)
    {parts : AccessorParts Node} (h : parts.children.Forall P) :
    Pieced Q P fun emit => printAccessor emit keyword parts := by
  simp only [AccessorParts.children, List.forall_append] at h
  exact append (append (append (append (modified h.1.1.1) (write hkeyword)) (part h.1.1.2))
    (printSignature h.1.2)) (printBody h.2)

@[simp] lemma printSpecifier {typeOnly : Bool} {propertyName name : Option Node}
    (h : (propertyName.toList ++ name.toList).Forall P) :
    Pieced Q P fun emit => printSpecifier emit typeOnly propertyName name := by
  rw [List.forall_append] at h
  cases propertyName with
  | none => exact append (append (writeIf (by decide)) nil) (part h.2)
  | some n =>
    exact append (append (writeIf (by decide)) (append (part h.1) (write (by decide)))) (part h.2)

/-! ## Modules and mapped types -/

/-- The parts of a dotted module name nest one inside the other, and are printed as one name. -/
lemma printModuleBody {body : Option Node} (h : ∀ n ∈ body, ∀ m : Node, m.Within n → P m) :
    Pieced Q P fun emit => printModuleBody emit body := by
  induction body using printModuleBody.induct with
  | case1 =>
    simp only [InlineValues.printModuleBody]
    exact semicolon
  | case2 origin stop modifiers name body ih =>
    let inner : Node := ⟨origin, stop, .moduleDeclaration modifiers name body⟩
    have hpart (n : Node) (hn : n ∈ inner.children) (m : Node) (hm : m.Within n) : P m :=
      h inner rfl m (.child hn hm)
    have hname : name.toList.Forall P := List.forall_iff_forall_mem.mpr fun n hn =>
      hpart n (List.mem_append_left _ (List.mem_append_right _ hn)) n .refl
    have hrest := ih fun n hn => hpart n (List.mem_append_right _ (Option.mem_toList.mpr hn))
    simp only [InlineValues.printModuleBody]
    exact append (append (write (by decide)) (part hname)) hrest
  | case3 body hother =>
    simp only [printModuleBody.eq_3 _ _ hother]
    exact append (write (by decide)) (node (h _ rfl body .refl))

/-- The parameter of a mapped type is not printed itself, but its parts are. -/
lemma printMappedParameter {parameter : Node} (h : ∀ m : Node, m.Within parameter → P m) :
    Pieced Q P fun emit => printMappedParameter emit parameter := by
  have hparts : parameter.children.Forall P :=
    List.forall_iff_forall_mem.mpr fun m hm => h m (.child hm .refl)
  unfold InlineValues.printMappedParameter
  split
  case h_1 hform =>
    rw [Node.children, hform] at hparts
    simp only [Form.children, List.forall_append] at hparts
    exact append (append (part hparts.1.1.2) (write (by decide))) (part hparts.1.2)
  case h_2 => exact nil

lemma printMappedType {parts : MappedTypeParts Node} (h : parts.children.Forall P)
    (hparameter : ∀ m : Node, m.Within parts.parameter → P m) :
    Pieced Q P fun emit => printMappedType emit parts := by
  have hprinted := printMappedParameter (Q := Q) hparameter
  simp only [MappedTypeParts.children, List.forall_append, List.forall_cons] at h
  unfold InlineValues.printMappedType
  cases parts.readonlyMark <;> cases parts.optionalMark
  all_goals
    dsimp only
    repeat' with_reducible refine append ?_ ?_
    all_goals simp (disch := first | decide | simp [h]) [hprinted]

/-! ## Nodes -/

/-- A node is put together from nodes below it.  Of its own marks those of a leaf and those of the
comments in front of statements come from the source text. -/
theorem printNode {c : PrintContext} {n : Node}
    (hcomments : ∀ n, ∀ m ∈ commentsBefore c n, Q m)
    (hname : ∀ text, n.form.name? = some text → Q (.text text))
    (hleaf : ∀ kind text, n.kind = .token kind → ∀ m ∈ printLeaf c n kind text, Q m) :
    Pieced Q (fun m : Node => m.Below n) fun emit => printNode c emit n := by
  have hparts : n.children.Forall fun m : Node => m.Below n :=
    List.forall_iff_forall_mem.mpr fun m hm => ⟨m, hm, .refl⟩
  obtain ⟨origin, stop, form⟩ := n
  rw [Node.children] at hparts
  unfold InlineValues.printNode
  cases form
  case token kind => exact own (hleaf kind [] rfl)
  case literal kind text => exact own (hleaf kind text rfl)
  case identifier text | privateIdentifier text => exact own (by simpa using hname text rfl)
  case functionExpression parts | functionDeclaration parts => exact printFunction hparts
  case arrowFunction parts => exact printArrow hparts
  case classExpression parts | classDeclaration parts => exact printClass hparts
  case interfaceDeclaration parts => exact printInterface hparts
  case propertyDeclaration parts => exact printProperty hparts
  case methodDeclaration parts => exact printMethod hparts
  case getAccessor parts | setAccessor parts => exact printAccessor (by decide) hparts
  case parameter parts => exact printParameter hparts
  case moduleDeclaration modifiers name body =>
    have hbody :
        Pieced Q (fun m : Node => m.Below ⟨origin, stop, .moduleDeclaration modifiers name body⟩)
          fun emit => InlineValues.printModuleBody emit body :=
      printModuleBody fun n hn m hm => ⟨n, List.mem_append_right _ (Option.mem_toList.mpr hn), hm⟩
    simp only [Form.children, List.forall_append] at hparts
    exact append (append (append (modified hparts.1.1) (moduleKeyword c name)) (part hparts.1.2))
      hbody
  case mappedType parts => exact printMappedType hparts fun m hm => ⟨_, .head _, hm⟩
  case constructorDeclaration modifiers typeParameters parameters body =>
    simp only [Form.children, List.forall_append] at hparts
    have hsignature : (SignatureParts.children ⟨typeParameters, parameters, none⟩).Forall
        fun m : Node => m.Below ⟨origin, stop,
          .constructorDeclaration modifiers typeParameters parameters body⟩ := by
      simp [SignatureParts.children, hparts]
    exact append (append (append (modified hparts.1.1.1) (write (by decide)))
      (printSignature hsignature)) (printBody hparts.2)
  case ifStatement condition thenBranch elseBranch =>
    simp only [Form.children, List.forall_append] at hparts
    refine append (append (enclosed (by decide) (by decide) (part hparts.1.1))
      (embedded hparts.1.2)) ?_
    cases elseBranch with
    | none => exact nil
    | some n => exact append (append line (write (by decide))) (embedded hparts.2)
  case unionType list | intersectionType list => exact types (by decide) hparts
  case functionType signature => exact printFunctionType (by decide) hparts
  case constructorType isAbstract signature =>
    cases isAbstract <;> exact printFunctionType (by decide) hparts
  case typeLiteral members =>
    dsimp only
    split
    · exact write (by decide)
    · exact bracedMembers hparts
  -- Some forms are printed differently where a part is missing.
  case' new _ _ arguments => cases arguments
  case' catchClause binding _ => cases binding
  case' bindingElement _ propertyName _ _ => cases propertyName
  case' importDeclaration clause _ => cases clause
  case' exportDeclaration _ _ clause _ => cases clause
  all_goals
    simp only [Form.children, List.forall_append, List.forall_cons, Option.toList_some,
      itemsOf_some] at hparts
    dsimp only
    repeat' with_reducible refine append ?_ ?_
    all_goals
      simp (disch := first | decide | simp [hparts]) [statementLines hcomments,
        bracedStatements hcomments]

end Pieced

/-- A part that is missing has no marks. -/
@[simp] lemma marksOf_none (c : PrintContext) (depth : Nat) : marksOf c depth none = [] := by
  cases depth <;> rfl

end InlineValues
