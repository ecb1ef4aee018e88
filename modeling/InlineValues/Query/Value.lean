import InlineValues.Tree.Node

/-!
# Inline values

What an editor shows next to the code while a program is paused: either a variable, which the
debugger looks up by its name, or an expression, which it evaluates.  `Reported` is the same with
the node of the tree in the place of its span.
-/

namespace InlineValues

/-- A value that can be shown next to the code. -/
inductive InlineValue where
  | lookup (span : Span) (name : List Char)
  | expression (span : Span) (text : List Char)
  deriving DecidableEq, Repr

namespace InlineValue

/-- Where the variable or the expression stands. -/
def span : InlineValue → Span
  | lookup span _ => span
  | expression span _ => span

/-- The name of the variable, or the expression on one line. -/
def text : InlineValue → List Char
  | lookup _ name => name
  | expression _ text => text

/-- The same value with its span in other units. -/
def mapSpan (f : Span → Span) : InlineValue → InlineValue
  | lookup span name => lookup (f span) name
  | expression span text => expression (f span) text

@[simp] theorem text_mapSpan (f : Span → Span) (v : InlineValue) : (v.mapSpan f).text = v.text := by
  cases v <;> rfl

@[simp] theorem span_mapSpan (f : Span → Span) (v : InlineValue) :
    (v.mapSpan f).span = f v.span := by
  cases v <;> rfl

theorem mapSpan_mapSpan (f g : Span → Span) (v : InlineValue) :
    (v.mapSpan f).mapSpan g = v.mapSpan fun span => g (f span) := by
  cases v <;> rfl

theorem mapSpan_eq_self {f : Span → Span} {v : InlineValue} (h : f v.span = v.span) :
    v.mapSpan f = v := by
  cases v with
  | lookup span name => exact congrArg (lookup · name) h
  | expression span text => exact congrArg (expression · text) h

end InlineValue

/-- A node of the tree that has a value: a name, or an expression with its text on one line. -/
inductive Reported where
  | lookup (node : Node) (name : List Char)
  | expression (node : Node) (text : List Char)

namespace Reported

/-- The name or the expression. -/
def node : Reported → Node
  | lookup node _ => node
  | expression node _ => node

/-- What is shown next to the code. -/
def value (s : Source) : Reported → InlineValue
  | lookup node name => .lookup (node.span s) name
  | expression node text => .expression (node.span s) text

@[simp] theorem span_value (s : Source) (r : Reported) : (r.value s).span = r.node.span s := by
  cases r <;> rfl

end Reported

end InlineValues
