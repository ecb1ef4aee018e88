import InlineValues.Text.Bytes
import InlineValues.Text.CharClass

/-!
# Kinds of tokens

Every token of the language has a `TokenKind`.  The kinds are numbered in the order of their
constructors, which keeps related ones together: literals, punctuation, assignment operators,
names, reserved words, words reserved in strict code and contextual keywords are each an interval
of numbers.  The classifications below are tests on these intervals.

A kind with a fixed spelling is punctuation or a keyword.  What is written for a kind and what is
read as one are separate tables: `TokenKind.spelling` gives the characters of a kind,
`TokenKind.ofWord?` the keyword of a word, and `TokenKind.operator?` the punctuation at the front of
a text together with its length.
-/

namespace InlineValues

/-- The kinds of tokens, in the order of their numbers. -/
inductive TokenKind where
  -- Whatever is not a token, and the end of the text.
  | unknown | endOfFile
  -- Literals.
  | numericLiteral | bigIntLiteral | stringLiteral | regularExpressionLiteral
  | noSubstitutionTemplateLiteral
  -- Pieces of a template with substitutions.
  | templateHead | templateMiddle | templateTail
  -- Punctuation.
  | openBrace | closeBrace | openParen | closeParen | openBracket | closeBracket | dot
  | dotDotDot | semicolon | comma | questionDot | lessThan | greaterThan | lessThanEquals
  | greaterThanEquals | equalsEquals | exclamationEquals | equalsEqualsEquals
  | exclamationEqualsEquals | equalsGreaterThan | plus | minus | asterisk | asteriskAsterisk
  | slash | percent | plusPlus | minusMinus | lessThanLessThan | greaterThanGreaterThan
  | greaterThanGreaterThanGreaterThan | ampersand | bar | caret | exclamation | tilde
  | ampersandAmpersand | barBar | question | colon | atSign | questionQuestion
  -- Assignment operators.
  | equals | plusEquals | minusEquals | asteriskEquals | asteriskAsteriskEquals | slashEquals
  | percentEquals | lessThanLessThanEquals | greaterThanGreaterThanEquals
  | greaterThanGreaterThanGreaterThanEquals | ampersandEquals | barEquals | barBarEquals
  | ampersandAmpersandEquals | questionQuestionEquals | caretEquals
  -- Names.
  | identifier | privateIdentifier
  -- Reserved words.
  | breakKeyword | caseKeyword | catchKeyword | classKeyword | constKeyword | continueKeyword
  | debuggerKeyword | defaultKeyword | deleteKeyword | doKeyword | elseKeyword | enumKeyword
  | exportKeyword | extendsKeyword | falseKeyword | finallyKeyword | forKeyword | functionKeyword
  | ifKeyword | importKeyword | inKeyword | instanceOfKeyword | newKeyword | nullKeyword
  | returnKeyword | superKeyword | switchKeyword | thisKeyword | throwKeyword | trueKeyword
  | tryKeyword | typeOfKeyword | varKeyword | voidKeyword | whileKeyword | withKeyword
  -- Words reserved in strict code.
  | implementsKeyword | interfaceKeyword | letKeyword | packageKeyword | privateKeyword
  | protectedKeyword | publicKeyword | staticKeyword | yieldKeyword
  -- Contextual keywords.
  | abstractKeyword | accessorKeyword | asKeyword | assertsKeyword | anyKeyword | asyncKeyword
  | awaitKeyword | booleanKeyword | constructorKeyword | declareKeyword | getKeyword
  | inferKeyword | isKeyword | keyOfKeyword | moduleKeyword | namespaceKeyword | neverKeyword
  | readonlyKeyword | numberKeyword | objectKeyword | satisfiesKeyword | setKeyword
  | stringKeyword | symbolKeyword | typeKeyword | undefinedKeyword | uniqueKeyword
  | unknownKeyword | usingKeyword | fromKeyword | globalKeyword | bigIntKeyword | overrideKeyword
  | ofKeyword
  deriving DecidableEq, Repr, Inhabited

namespace TokenKind

/-- Every kind, in the order of the numbers. -/
def all : List TokenKind :=
  [unknown, endOfFile, numericLiteral, bigIntLiteral, stringLiteral, regularExpressionLiteral,
    noSubstitutionTemplateLiteral, templateHead, templateMiddle, templateTail, openBrace,
    closeBrace, openParen, closeParen, openBracket, closeBracket, dot, dotDotDot, semicolon,
    comma, questionDot, lessThan, greaterThan, lessThanEquals, greaterThanEquals, equalsEquals,
    exclamationEquals, equalsEqualsEquals, exclamationEqualsEquals, equalsGreaterThan, plus,
    minus, asterisk, asteriskAsterisk, slash, percent, plusPlus, minusMinus, lessThanLessThan,
    greaterThanGreaterThan, greaterThanGreaterThanGreaterThan, ampersand, bar, caret, exclamation,
    tilde, ampersandAmpersand, barBar, question, colon, atSign, questionQuestion, equals,
    plusEquals, minusEquals, asteriskEquals, asteriskAsteriskEquals, slashEquals, percentEquals,
    lessThanLessThanEquals, greaterThanGreaterThanEquals, greaterThanGreaterThanGreaterThanEquals,
    ampersandEquals, barEquals, barBarEquals, ampersandAmpersandEquals, questionQuestionEquals,
    caretEquals, identifier, privateIdentifier, breakKeyword, caseKeyword, catchKeyword,
    classKeyword, constKeyword, continueKeyword, debuggerKeyword, defaultKeyword, deleteKeyword,
    doKeyword, elseKeyword, enumKeyword, exportKeyword, extendsKeyword, falseKeyword,
    finallyKeyword, forKeyword, functionKeyword, ifKeyword, importKeyword, inKeyword,
    instanceOfKeyword, newKeyword, nullKeyword, returnKeyword, superKeyword, switchKeyword,
    thisKeyword, throwKeyword, trueKeyword, tryKeyword, typeOfKeyword, varKeyword, voidKeyword,
    whileKeyword, withKeyword, implementsKeyword, interfaceKeyword, letKeyword, packageKeyword,
    privateKeyword, protectedKeyword, publicKeyword, staticKeyword, yieldKeyword, abstractKeyword,
    accessorKeyword, asKeyword, assertsKeyword, anyKeyword, asyncKeyword, awaitKeyword,
    booleanKeyword, constructorKeyword, declareKeyword, getKeyword, inferKeyword, isKeyword,
    keyOfKeyword, moduleKeyword, namespaceKeyword, neverKeyword, readonlyKeyword, numberKeyword,
    objectKeyword, satisfiesKeyword, setKeyword, stringKeyword, symbolKeyword, typeKeyword,
    undefinedKeyword, uniqueKeyword, unknownKeyword, usingKeyword, fromKeyword, globalKeyword,
    bigIntKeyword, overrideKeyword, ofKeyword]

/-- The number of a kind. -/
def code (kind : TokenKind) : Nat := kind.ctorIdx

/-- The kind of a number, if it has one. -/
def ofCode? (n : Nat) : Option TokenKind := all[n]?

/-- The name under which a kind is reported. -/
def name : TokenKind → String
  | unknown => "Unknown"
  | endOfFile => "EndOfFileToken"
  | numericLiteral => "NumericLiteral"
  | bigIntLiteral => "BigIntLiteral"
  | stringLiteral => "StringLiteral"
  | regularExpressionLiteral => "RegularExpressionLiteral"
  | noSubstitutionTemplateLiteral => "NoSubstitutionTemplateLiteral"
  | templateHead => "TemplateHead"
  | templateMiddle => "TemplateMiddle"
  | templateTail => "TemplateTail"
  | openBrace => "OpenBraceToken"
  | closeBrace => "CloseBraceToken"
  | openParen => "OpenParenToken"
  | closeParen => "CloseParenToken"
  | openBracket => "OpenBracketToken"
  | closeBracket => "CloseBracketToken"
  | dot => "DotToken"
  | dotDotDot => "DotDotDotToken"
  | semicolon => "SemicolonToken"
  | comma => "CommaToken"
  | questionDot => "QuestionDotToken"
  | lessThan => "LessThanToken"
  | greaterThan => "GreaterThanToken"
  | lessThanEquals => "LessThanEqualsToken"
  | greaterThanEquals => "GreaterThanEqualsToken"
  | equalsEquals => "EqualsEqualsToken"
  | exclamationEquals => "ExclamationEqualsToken"
  | equalsEqualsEquals => "EqualsEqualsEqualsToken"
  | exclamationEqualsEquals => "ExclamationEqualsEqualsToken"
  | equalsGreaterThan => "EqualsGreaterThanToken"
  | plus => "PlusToken"
  | minus => "MinusToken"
  | asterisk => "AsteriskToken"
  | asteriskAsterisk => "AsteriskAsteriskToken"
  | slash => "SlashToken"
  | percent => "PercentToken"
  | plusPlus => "PlusPlusToken"
  | minusMinus => "MinusMinusToken"
  | lessThanLessThan => "LessThanLessThanToken"
  | greaterThanGreaterThan => "GreaterThanGreaterThanToken"
  | greaterThanGreaterThanGreaterThan => "GreaterThanGreaterThanGreaterThanToken"
  | ampersand => "AmpersandToken"
  | bar => "BarToken"
  | caret => "CaretToken"
  | exclamation => "ExclamationToken"
  | tilde => "TildeToken"
  | ampersandAmpersand => "AmpersandAmpersandToken"
  | barBar => "BarBarToken"
  | question => "QuestionToken"
  | colon => "ColonToken"
  | atSign => "AtToken"
  | questionQuestion => "QuestionQuestionToken"
  | equals => "EqualsToken"
  | plusEquals => "PlusEqualsToken"
  | minusEquals => "MinusEqualsToken"
  | asteriskEquals => "AsteriskEqualsToken"
  | asteriskAsteriskEquals => "AsteriskAsteriskEqualsToken"
  | slashEquals => "SlashEqualsToken"
  | percentEquals => "PercentEqualsToken"
  | lessThanLessThanEquals => "LessThanLessThanEqualsToken"
  | greaterThanGreaterThanEquals => "GreaterThanGreaterThanEqualsToken"
  | greaterThanGreaterThanGreaterThanEquals => "GreaterThanGreaterThanGreaterThanEqualsToken"
  | ampersandEquals => "AmpersandEqualsToken"
  | barEquals => "BarEqualsToken"
  | barBarEquals => "BarBarEqualsToken"
  | ampersandAmpersandEquals => "AmpersandAmpersandEqualsToken"
  | questionQuestionEquals => "QuestionQuestionEqualsToken"
  | caretEquals => "CaretEqualsToken"
  | identifier => "Identifier"
  | privateIdentifier => "PrivateIdentifier"
  | breakKeyword => "BreakKeyword"
  | caseKeyword => "CaseKeyword"
  | catchKeyword => "CatchKeyword"
  | classKeyword => "ClassKeyword"
  | constKeyword => "ConstKeyword"
  | continueKeyword => "ContinueKeyword"
  | debuggerKeyword => "DebuggerKeyword"
  | defaultKeyword => "DefaultKeyword"
  | deleteKeyword => "DeleteKeyword"
  | doKeyword => "DoKeyword"
  | elseKeyword => "ElseKeyword"
  | enumKeyword => "EnumKeyword"
  | exportKeyword => "ExportKeyword"
  | extendsKeyword => "ExtendsKeyword"
  | falseKeyword => "FalseKeyword"
  | finallyKeyword => "FinallyKeyword"
  | forKeyword => "ForKeyword"
  | functionKeyword => "FunctionKeyword"
  | ifKeyword => "IfKeyword"
  | importKeyword => "ImportKeyword"
  | inKeyword => "InKeyword"
  | instanceOfKeyword => "InstanceOfKeyword"
  | newKeyword => "NewKeyword"
  | nullKeyword => "NullKeyword"
  | returnKeyword => "ReturnKeyword"
  | superKeyword => "SuperKeyword"
  | switchKeyword => "SwitchKeyword"
  | thisKeyword => "ThisKeyword"
  | throwKeyword => "ThrowKeyword"
  | trueKeyword => "TrueKeyword"
  | tryKeyword => "TryKeyword"
  | typeOfKeyword => "TypeOfKeyword"
  | varKeyword => "VarKeyword"
  | voidKeyword => "VoidKeyword"
  | whileKeyword => "WhileKeyword"
  | withKeyword => "WithKeyword"
  | implementsKeyword => "ImplementsKeyword"
  | interfaceKeyword => "InterfaceKeyword"
  | letKeyword => "LetKeyword"
  | packageKeyword => "PackageKeyword"
  | privateKeyword => "PrivateKeyword"
  | protectedKeyword => "ProtectedKeyword"
  | publicKeyword => "PublicKeyword"
  | staticKeyword => "StaticKeyword"
  | yieldKeyword => "YieldKeyword"
  | abstractKeyword => "AbstractKeyword"
  | accessorKeyword => "AccessorKeyword"
  | asKeyword => "AsKeyword"
  | assertsKeyword => "AssertsKeyword"
  | anyKeyword => "AnyKeyword"
  | asyncKeyword => "AsyncKeyword"
  | awaitKeyword => "AwaitKeyword"
  | booleanKeyword => "BooleanKeyword"
  | constructorKeyword => "ConstructorKeyword"
  | declareKeyword => "DeclareKeyword"
  | getKeyword => "GetKeyword"
  | inferKeyword => "InferKeyword"
  | isKeyword => "IsKeyword"
  | keyOfKeyword => "KeyOfKeyword"
  | moduleKeyword => "ModuleKeyword"
  | namespaceKeyword => "NamespaceKeyword"
  | neverKeyword => "NeverKeyword"
  | readonlyKeyword => "ReadonlyKeyword"
  | numberKeyword => "NumberKeyword"
  | objectKeyword => "ObjectKeyword"
  | satisfiesKeyword => "SatisfiesKeyword"
  | setKeyword => "SetKeyword"
  | stringKeyword => "StringKeyword"
  | symbolKeyword => "SymbolKeyword"
  | typeKeyword => "TypeKeyword"
  | undefinedKeyword => "UndefinedKeyword"
  | uniqueKeyword => "UniqueKeyword"
  | unknownKeyword => "UnknownKeyword"
  | usingKeyword => "UsingKeyword"
  | fromKeyword => "FromKeyword"
  | globalKeyword => "GlobalKeyword"
  | bigIntKeyword => "BigIntKeyword"
  | overrideKeyword => "OverrideKeyword"
  | ofKeyword => "OfKeyword"

/-- The spelling of punctuation and keywords; literals, names and template pieces have none, which
is written as the empty one. -/
def spelling : TokenKind → List Char
  | openBrace => ['\x7b']
  | closeBrace => ['\x7d']
  | openParen => ['(']
  | closeParen => [')']
  | openBracket => ['[']
  | closeBracket => [']']
  | dot => ['.']
  | dotDotDot => ['.', '.', '.']
  | semicolon => [';']
  | comma => [',']
  | questionDot => ['?', '.']
  | lessThan => ['<']
  | greaterThan => ['>']
  | lessThanEquals => ['<', '=']
  | greaterThanEquals => ['>', '=']
  | equalsEquals => ['=', '=']
  | exclamationEquals => ['!', '=']
  | equalsEqualsEquals => ['=', '=', '=']
  | exclamationEqualsEquals => ['!', '=', '=']
  | equalsGreaterThan => ['=', '>']
  | plus => ['+']
  | minus => ['-']
  | asterisk => ['*']
  | asteriskAsterisk => ['*', '*']
  | slash => ['/']
  | percent => ['%']
  | plusPlus => ['+', '+']
  | minusMinus => ['-', '-']
  | lessThanLessThan => ['<', '<']
  | greaterThanGreaterThan => ['>', '>']
  | greaterThanGreaterThanGreaterThan => ['>', '>', '>']
  | ampersand => ['&']
  | bar => ['|']
  | caret => ['^']
  | exclamation => ['!']
  | tilde => ['~']
  | ampersandAmpersand => ['&', '&']
  | barBar => ['|', '|']
  | question => ['?']
  | colon => [':']
  | atSign => ['@']
  | questionQuestion => ['?', '?']
  | equals => ['=']
  | plusEquals => ['+', '=']
  | minusEquals => ['-', '=']
  | asteriskEquals => ['*', '=']
  | asteriskAsteriskEquals => ['*', '*', '=']
  | slashEquals => ['/', '=']
  | percentEquals => ['%', '=']
  | lessThanLessThanEquals => ['<', '<', '=']
  | greaterThanGreaterThanEquals => ['>', '>', '=']
  | greaterThanGreaterThanGreaterThanEquals => ['>', '>', '>', '=']
  | ampersandEquals => ['&', '=']
  | barEquals => ['|', '=']
  | barBarEquals => ['|', '|', '=']
  | ampersandAmpersandEquals => ['&', '&', '=']
  | questionQuestionEquals => ['?', '?', '=']
  | caretEquals => ['^', '=']
  | breakKeyword => ['b', 'r', 'e', 'a', 'k']
  | caseKeyword => ['c', 'a', 's', 'e']
  | catchKeyword => ['c', 'a', 't', 'c', 'h']
  | classKeyword => ['c', 'l', 'a', 's', 's']
  | constKeyword => ['c', 'o', 'n', 's', 't']
  | continueKeyword => ['c', 'o', 'n', 't', 'i', 'n', 'u', 'e']
  | debuggerKeyword => ['d', 'e', 'b', 'u', 'g', 'g', 'e', 'r']
  | defaultKeyword => ['d', 'e', 'f', 'a', 'u', 'l', 't']
  | deleteKeyword => ['d', 'e', 'l', 'e', 't', 'e']
  | doKeyword => ['d', 'o']
  | elseKeyword => ['e', 'l', 's', 'e']
  | enumKeyword => ['e', 'n', 'u', 'm']
  | exportKeyword => ['e', 'x', 'p', 'o', 'r', 't']
  | extendsKeyword => ['e', 'x', 't', 'e', 'n', 'd', 's']
  | falseKeyword => ['f', 'a', 'l', 's', 'e']
  | finallyKeyword => ['f', 'i', 'n', 'a', 'l', 'l', 'y']
  | forKeyword => ['f', 'o', 'r']
  | functionKeyword => ['f', 'u', 'n', 'c', 't', 'i', 'o', 'n']
  | ifKeyword => ['i', 'f']
  | importKeyword => ['i', 'm', 'p', 'o', 'r', 't']
  | inKeyword => ['i', 'n']
  | instanceOfKeyword => ['i', 'n', 's', 't', 'a', 'n', 'c', 'e', 'o', 'f']
  | newKeyword => ['n', 'e', 'w']
  | nullKeyword => ['n', 'u', 'l', 'l']
  | returnKeyword => ['r', 'e', 't', 'u', 'r', 'n']
  | superKeyword => ['s', 'u', 'p', 'e', 'r']
  | switchKeyword => ['s', 'w', 'i', 't', 'c', 'h']
  | thisKeyword => ['t', 'h', 'i', 's']
  | throwKeyword => ['t', 'h', 'r', 'o', 'w']
  | trueKeyword => ['t', 'r', 'u', 'e']
  | tryKeyword => ['t', 'r', 'y']
  | typeOfKeyword => ['t', 'y', 'p', 'e', 'o', 'f']
  | varKeyword => ['v', 'a', 'r']
  | voidKeyword => ['v', 'o', 'i', 'd']
  | whileKeyword => ['w', 'h', 'i', 'l', 'e']
  | withKeyword => ['w', 'i', 't', 'h']
  | implementsKeyword => ['i', 'm', 'p', 'l', 'e', 'm', 'e', 'n', 't', 's']
  | interfaceKeyword => ['i', 'n', 't', 'e', 'r', 'f', 'a', 'c', 'e']
  | letKeyword => ['l', 'e', 't']
  | packageKeyword => ['p', 'a', 'c', 'k', 'a', 'g', 'e']
  | privateKeyword => ['p', 'r', 'i', 'v', 'a', 't', 'e']
  | protectedKeyword => ['p', 'r', 'o', 't', 'e', 'c', 't', 'e', 'd']
  | publicKeyword => ['p', 'u', 'b', 'l', 'i', 'c']
  | staticKeyword => ['s', 't', 'a', 't', 'i', 'c']
  | yieldKeyword => ['y', 'i', 'e', 'l', 'd']
  | abstractKeyword => ['a', 'b', 's', 't', 'r', 'a', 'c', 't']
  | accessorKeyword => ['a', 'c', 'c', 'e', 's', 's', 'o', 'r']
  | asKeyword => ['a', 's']
  | assertsKeyword => ['a', 's', 's', 'e', 'r', 't', 's']
  | anyKeyword => ['a', 'n', 'y']
  | asyncKeyword => ['a', 's', 'y', 'n', 'c']
  | awaitKeyword => ['a', 'w', 'a', 'i', 't']
  | booleanKeyword => ['b', 'o', 'o', 'l', 'e', 'a', 'n']
  | constructorKeyword => ['c', 'o', 'n', 's', 't', 'r', 'u', 'c', 't', 'o', 'r']
  | declareKeyword => ['d', 'e', 'c', 'l', 'a', 'r', 'e']
  | getKeyword => ['g', 'e', 't']
  | inferKeyword => ['i', 'n', 'f', 'e', 'r']
  | isKeyword => ['i', 's']
  | keyOfKeyword => ['k', 'e', 'y', 'o', 'f']
  | moduleKeyword => ['m', 'o', 'd', 'u', 'l', 'e']
  | namespaceKeyword => ['n', 'a', 'm', 'e', 's', 'p', 'a', 'c', 'e']
  | neverKeyword => ['n', 'e', 'v', 'e', 'r']
  | readonlyKeyword => ['r', 'e', 'a', 'd', 'o', 'n', 'l', 'y']
  | numberKeyword => ['n', 'u', 'm', 'b', 'e', 'r']
  | objectKeyword => ['o', 'b', 'j', 'e', 'c', 't']
  | satisfiesKeyword => ['s', 'a', 't', 'i', 's', 'f', 'i', 'e', 's']
  | setKeyword => ['s', 'e', 't']
  | stringKeyword => ['s', 't', 'r', 'i', 'n', 'g']
  | symbolKeyword => ['s', 'y', 'm', 'b', 'o', 'l']
  | typeKeyword => ['t', 'y', 'p', 'e']
  | undefinedKeyword => ['u', 'n', 'd', 'e', 'f', 'i', 'n', 'e', 'd']
  | uniqueKeyword => ['u', 'n', 'i', 'q', 'u', 'e']
  | unknownKeyword => ['u', 'n', 'k', 'n', 'o', 'w', 'n']
  | usingKeyword => ['u', 's', 'i', 'n', 'g']
  | fromKeyword => ['f', 'r', 'o', 'm']
  | globalKeyword => ['g', 'l', 'o', 'b', 'a', 'l']
  | bigIntKeyword => ['b', 'i', 'g', 'i', 'n', 't']
  | overrideKeyword => ['o', 'v', 'e', 'r', 'r', 'i', 'd', 'e']
  | ofKeyword => ['o', 'f']
  | _ => []

/-! ## Classification -/

/-- Keywords, reserved or not. -/
def isAnyKeyword (kind : TokenKind) : Bool :=
  breakKeyword.code ≤ kind.code && kind.code ≤ ofKeyword.code

/-- Words that can never be identifiers. -/
def isReservedWord (kind : TokenKind) : Bool :=
  breakKeyword.code ≤ kind.code && kind.code ≤ withKeyword.code

/-- `=` and the compound assignment operators. -/
def isAssignmentOperator (kind : TokenKind) : Bool :=
  equals.code ≤ kind.code && kind.code ≤ caretEquals.code

/-- Literals, templates without substitutions included. -/
def isLiteral (kind : TokenKind) : Bool :=
  numericLiteral.code ≤ kind.code && kind.code ≤ noSubstitutionTemplateLiteral.code

/-- Templates and pieces of templates. -/
def isTemplatePiece (kind : TokenKind) : Bool :=
  noSubstitutionTemplateLiteral.code ≤ kind.code && kind.code ≤ templateTail.code

/-! ## Reading words and punctuation -/

/-- The words that are keywords, in alphabetical order. -/
def words : List (String × TokenKind) :=
  [("abstract", abstractKeyword), ("accessor", accessorKeyword), ("any", anyKeyword),
    ("as", asKeyword), ("asserts", assertsKeyword), ("async", asyncKeyword),
    ("await", awaitKeyword), ("bigint", bigIntKeyword), ("boolean", booleanKeyword),
    ("break", breakKeyword), ("case", caseKeyword), ("catch", catchKeyword),
    ("class", classKeyword), ("const", constKeyword), ("constructor", constructorKeyword),
    ("continue", continueKeyword), ("debugger", debuggerKeyword), ("declare", declareKeyword),
    ("default", defaultKeyword), ("delete", deleteKeyword), ("do", doKeyword),
    ("else", elseKeyword), ("enum", enumKeyword), ("export", exportKeyword),
    ("extends", extendsKeyword), ("false", falseKeyword), ("finally", finallyKeyword),
    ("for", forKeyword), ("from", fromKeyword), ("function", functionKeyword), ("get", getKeyword),
    ("global", globalKeyword), ("if", ifKeyword), ("implements", implementsKeyword),
    ("import", importKeyword), ("in", inKeyword), ("infer", inferKeyword),
    ("instanceof", instanceOfKeyword), ("interface", interfaceKeyword), ("is", isKeyword),
    ("keyof", keyOfKeyword), ("let", letKeyword), ("module", moduleKeyword),
    ("namespace", namespaceKeyword), ("never", neverKeyword), ("new", newKeyword),
    ("null", nullKeyword), ("number", numberKeyword), ("object", objectKeyword), ("of", ofKeyword),
    ("override", overrideKeyword), ("package", packageKeyword), ("private", privateKeyword),
    ("protected", protectedKeyword), ("public", publicKeyword), ("readonly", readonlyKeyword),
    ("return", returnKeyword), ("satisfies", satisfiesKeyword), ("set", setKeyword),
    ("static", staticKeyword), ("string", stringKeyword), ("super", superKeyword),
    ("switch", switchKeyword), ("symbol", symbolKeyword), ("this", thisKeyword),
    ("throw", throwKeyword), ("true", trueKeyword), ("try", tryKeyword), ("type", typeKeyword),
    ("typeof", typeOfKeyword), ("undefined", undefinedKeyword), ("unique", uniqueKeyword),
    ("unknown", unknownKeyword), ("using", usingKeyword), ("var", varKeyword),
    ("void", voidKeyword), ("while", whileKeyword), ("with", withKeyword), ("yield", yieldKeyword)]

/-- The keyword that a word is.  Keywords have two to eleven characters, the first of them a
lower-case letter, so that most words are not looked up. -/
def ofWord? (word : List Char) : Option TokenKind :=
  let length := byteLength word
  if 2 ≤ length && length ≤ 11 && word.head?.any fun c => 'a' ≤ c && c ≤ 'z' then
    words.lookup (String.ofList word)
  else none

/-- Punctuation as it is looked for: the characters, the kind, and how many characters it takes.
The rows with one first character stand together, longer ones before those they begin with.  Of the
kinds that begin with `>` there is the shortest alone: whether the characters behind it belong to it
depends on the grammar. -/
def punctuation : List (List Char × TokenKind × Nat) :=
  [(['!', '=', '='], exclamationEqualsEquals, 3), (['!', '='], exclamationEquals, 2),
    (['!'], exclamation, 1), (['%', '='], percentEquals, 2), (['%'], percent, 1),
    (['&', '&', '='], ampersandAmpersandEquals, 3), (['&', '&'], ampersandAmpersand, 2),
    (['&', '='], ampersandEquals, 2), (['&'], ampersand, 1), (['('], openParen, 1),
    ([')'], closeParen, 1), (['['], openBracket, 1), ([']'], closeBracket, 1),
    (['\x7b'], openBrace, 1), (['\x7d'], closeBrace, 1), ([','], comma, 1), ([';'], semicolon, 1),
    ([':'], colon, 1), (['~'], tilde, 1), (['@'], atSign, 1),
    (['*', '*', '='], asteriskAsteriskEquals, 3), (['*', '*'], asteriskAsterisk, 2),
    (['*', '='], asteriskEquals, 2), (['*'], asterisk, 1), (['+', '+'], plusPlus, 2),
    (['+', '='], plusEquals, 2), (['+'], plus, 1), (['-', '-'], minusMinus, 2),
    (['-', '='], minusEquals, 2), (['-'], minus, 1), (['.', '.', '.'], dotDotDot, 3),
    (['.'], dot, 1), (['/', '='], slashEquals, 2), (['/'], slash, 1),
    (['<', '<', '='], lessThanLessThanEquals, 3), (['<', '<'], lessThanLessThan, 2),
    (['<', '='], lessThanEquals, 2), (['<'], lessThan, 1), (['=', '=', '='], equalsEqualsEquals, 3),
    (['=', '='], equalsEquals, 2), (['=', '>'], equalsGreaterThan, 2), (['='], equals, 1),
    (['>'], greaterThan, 1), (['?', '.'], questionDot, 2),
    (['?', '?', '='], questionQuestionEquals, 3), (['?', '?'], questionQuestion, 2),
    (['?'], question, 1), (['^', '='], caretEquals, 2), (['^'], caret, 1),
    (['|', '|', '='], barBarEquals, 3), (['|', '|'], barBar, 2), (['|', '='], barEquals, 2),
    (['|'], bar, 1)]

/-- The punctuation at the front of a text, and how many characters it takes: the first row that
fits.  A `?.` in front of a digit does not, since the point then belongs to a number. -/
def operator? (cs : List Char) : Option (TokenKind × Nat) :=
  (punctuation.find? fun row =>
    row.1.isPrefixOf cs &&
      !(row.2.1 == questionDot && (cs.drop 2).head?.any isDecimalDigit)).map (·.2)

end TokenKind

end InlineValues
