import ContractAudit.Pattern.Search

/-!
# Families of patterns

What counts as evidence for a name in source text. Each family is a short list of patterns for one
name, and a text is evidence if any of them occurs in it. Names are taken as they stand, whatever
characters they hold.
-/

namespace ContractAudit

namespace Pattern

/-! ## Characters -/

def wordRanges : List (Char × Char) := [('A', 'Z'), ('a', 'z'), ('0', '9'), only '_']

def identifierRanges : List (Char × Char) := wordRanges ++ [only '$']

def quoteRanges : List (Char × Char) := [only '"', only '\'', only '\x60']

def quote : Pattern := within quoteRanges

def notIdentifier : Pattern := without identifierRanges

/-- The end of an identifier: another character, or the end of a line. -/
def identifierEnd : Pattern := .alt notIdentifier .lineEnd

/-- The start of an identifier: another character, or the start of a line. -/
def identifierStart : Pattern := .alt .lineStart notIdentifier

def wordEnd : Pattern := .alt (without wordRanges) .lineEnd

/-- A space or a tab. -/
def indentation : Pattern := .star (within [only ' ', only '\t'])

/-! ## Single patterns -/

/-- A name as a whole identifier. -/
def token (name : String) : Pattern := seqAll [identifierStart, literal name, identifierEnd]

/-- A name straight between quotes. -/
def quoted (name : String) : Pattern := seqAll [quote, literal name, quote]

/-- Type parameters between angle brackets, or none. -/
def typeParameters : Pattern :=
  maybe (seqAll [lit '<', .star (without [only '>', only '\n']), lit '>'])

/-- A name, perhaps with type parameters, and the bracket that opens its parameters. -/
def nameAndBracket (name : String) : Pattern :=
  seqAll [literal name, blanks, typeParameters, blanks, lit '(']

/-- A keyword that declares a type, and the name. -/
def typeDeclaration (name : String) : Pattern :=
  seqAll [.wordBoundary,
    anyOf ["type", "interface", "enum", "struct", "class", "trait", "record", "typedef", "protocol",
      "union", "object"],
    gap, literal name, identifierEnd]

def typeVariable (name : String) : Pattern :=
  seqAll [.wordBoundary, anyOf ["const", "let", "var", "val", "final"], gap, literal name,
    .star (within identifierRanges), blanks,
    maybe (seqAll [lit ':', many (without [only '=', only '\n'])]), lit '=']

/-- A line that gives a value to a name that begins with the name. -/
def typeAssignment (name : String) : Pattern :=
  seqAll [.lineStart, indentation, literal name, .star (within wordRanges), blanks, lit '=',
    without [only '=']]

/-- A method behind a word for its visibility. -/
def visibleMethod (name : String) : Pattern :=
  seqAll [.wordBoundary,
    oneOf [literal "public", literal "private", literal "protected", literal "internal",
      seqAll [literal "pub", maybe (seqAll [lit '(', many (within [('a', 'z')]), lit ')'])]],
    gap,
    maybe (seqAll [
      .star (without [only '\n', only ';', only '=', only '(', only ')', only '\x7b', only '\x7d']),
      blank]),
    nameAndBracket name]

def keywordMethod (name : String) : Pattern :=
  seqAll [.wordBoundary, anyOf ["fn", "def", "func", "function", "fun", "sub", "method"], gap,
    nameAndBracket name]

def receiverMethod (name : String) : Pattern :=
  seqAll [.wordBoundary, literal "func", blanks, lit '(', .star (without [only ')', only '\n']),
    lit ')', blanks, literal name, blanks, lit '(']

/-- A line that is a method's head: modifiers, name, parameters, and a body or a result type. -/
def bareMethod (name : String) : Pattern :=
  seqAll [.lineStart, indentation,
    .star (seqAll [
      anyOf ["static", "async", "override", "get", "set", "abstract", "virtual", "final",
        "synchronized"], gap]),
    nameAndBracket name, .star (without [only ')']), lit ')', blanks,
    oneOf [
      seqAll [maybe (seqAll [lit ':', .star (without [only '\x7b', only '\n', only ';'])]),
        lit '\x7b'],
      literal "=>",
      seqAll [lit ':', many (without [only '\x7b', only '\n', only ';']), lit ';']]]

def functionValue (name : String) : Pattern :=
  seqAll [identifierStart, literal name, blanks, within [only ':', only '='], blanks,
    maybe (seqAll [literal "async", gap]),
    oneOf [
      seqAll [literal "function", .wordBoundary],
      seqAll [lit '(', .star (without [only ')']), lit ')', blanks,
        maybe (seqAll [lit ':', many (without [only '=', only '\n'])]), literal "=>"],
      seqAll [many (within identifierRanges), blanks, literal "=>"]]]

def createTable (name : String) : Pattern :=
  ignoringCase (seqAll [.wordBoundary, literal "create", gap, literal "table", gap,
    maybe (seqAll [literal "if", gap, literal "not", gap, literal "exists", gap]),
    maybe (within [only '\x60', only '"', only '[']), literal name,
    maybe (within [only '\x60', only '"', only ']']), wordEnd])

def quotedPath (path : String) : Pattern := quoted path

def routerCall (method path : String) : Pattern :=
  seqAll [lit '.', ignoringCase (literal method), blanks, lit '(', blanks, quotedPath path]

def routeAnnotation (method path : String) : Pattern :=
  seqAll [lit '@', ignoringCase (literal method), maybe (literal "Mapping"), blanks, lit '(', blanks,
    maybe (seqAll [anyOf ["value", "path"], blanks, lit '=', blanks]), quotedPath path]

/-- The method as a word, and the path behind it on the line. -/
def methodThenPath (method path : String) : Pattern :=
  seqAll [.wordBoundary, ignoringCase (literal method), .wordBoundary, .star (without [only '\n']),
    quotedPath path]

/-- The path, and the method as a word behind it on the line. -/
def pathThenMethod (method path : String) : Pattern :=
  seqAll [quotedPath path, .star (without [only '\n']), .wordBoundary,
    ignoringCase (literal method), .wordBoundary]

def callOf (name : String) : Pattern := seqAll [identifierStart, literal name, blanks, lit '(']

def validatingMethod (schema : String) : Pattern :=
  seqAll [identifierStart, literal schema, blanks, lit '.', blanks,
    anyOf ["parse", "safeParse", "parseAsync", "safeParseAsync", "validate", "validateSync",
      "validateAsync", "check", "assert", "decode", "is"], blanks, lit '(']

/-- A validating function with a schema as its first argument. -/
def validatingFunction (schema : String) : Pattern :=
  seqAll [.wordBoundary, anyOf ["validate", "parse", "check", "assert"],
    .star (within wordRanges), blanks, lit '(', blanks, literal schema, identifierEnd]

/-- A statement that reads or writes a table. -/
def tableStatement (table : String) : Pattern :=
  ignoringCase (seqAll [.wordBoundary,
    oneOf [
      seqAll [literal "insert", gap,
        maybe (seqAll [literal "or", gap, many (within [('a', 'z')]), gap]), literal "into"],
      literal "update",
      seqAll [literal "delete", gap, literal "from"],
      seqAll [literal "replace", gap, literal "into"],
      seqAll [literal "merge", gap, literal "into"],
      seqAll [literal "upsert", gap, literal "into"],
      literal "from", literal "join", literal "into"],
    gap, maybe (within [only '\x60', only '"', only '[']), literal table,
    maybe (within [only '\x60', only '"', only ']']), wordEnd])

/-- A string on one line in which the table stands as a word. -/
def tableInString (table : String) : Pattern :=
  seqAll [quote,
    maybe (seqAll [.star (without (quoteRanges ++ [only '\n'])),
      without (wordRanges ++ quoteRanges ++ [only '\n'])]),
    literal table,
    maybe (seqAll [without (wordRanges ++ quoteRanges ++ [only '\n']),
      .star (without (quoteRanges ++ [only '\n']))]),
    quote]

end Pattern

/-! ## Families -/

namespace Evidence

open Pattern

def typePatterns (name : String) : List Pattern :=
  [typeDeclaration name, typeVariable name, typeAssignment name]

def methodPatterns (name : String) : List Pattern :=
  [visibleMethod name, keywordMethod name, receiverMethod name, bareMethod name, functionValue name]

def tablePatterns (name : String) : List Pattern := [createTable name]

/-- Evidence that a table is mentioned. -/
def tableReferencePatterns (table : String) : List Pattern := [ignoringCase (token table)]

def endpointPatterns (method path : String) : List Pattern :=
  [routerCall method path, routeAnnotation method path, methodThenPath method path,
    pathThenMethod method path]

def eventPatterns (name : String) : List Pattern := [quoted name, token name]

/-- Evidence that a name is written as a string. -/
def quotedLiteralPatterns (name : String) : List Pattern := [quoted name]

def callPatterns (name : String) : List Pattern := [callOf name]

/-- Evidence that a schema is used to validate. -/
def validationPatterns (schema : String) : List Pattern :=
  [validatingMethod schema, validatingFunction schema]

/-- Evidence that a table is read or written. -/
def tableAccessPatterns (table : String) : List Pattern := [tableStatement table, tableInString table]

def anyFound (patterns : List Pattern) (text : String) : Bool :=
  patterns.any fun p => p.found text.toList

end Evidence

end ContractAudit
