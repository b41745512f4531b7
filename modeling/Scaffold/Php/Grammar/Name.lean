import Scaffold.Php.Pattern

namespace Scaffold.Php

/-- The rules of the grammar that refer to each other. -/
inductive Rule where
  | statement
  | block
  | expression
  | term
  | unary
  | operand
  | clonable
  | place
  | access
  | arguments
  | element
  | squareTargets
  | listTargets
  | attributes
  | modifier
  | type
  | parameters
  | hooks
  | member
  | enumMember
  | stringPart
  deriving DecidableEq, Repr

namespace Grammar

open Pattern

/-- The words that a name by itself may not be, as that of a class or an alias. -/
def reservedWords : List String :=
  ["abstract", "and", "as", "break", "callable", "case", "catch", "class", "clone", "const",
    "continue", "declare", "default", "do", "echo", "else", "elseif", "enddeclare", "endfor",
    "endforeach", "endif", "endswitch", "endwhile", "extends", "final", "finally", "fn", "for",
    "foreach", "function", "global", "goto", "if", "implements", "include", "include_once",
    "instanceof", "insteadof", "interface", "match", "namespace", "new", "or", "print", "private",
    "protected", "public", "readonly", "require", "require_once", "return", "static", "switch",
    "throw", "trait", "try", "use", "var", "while", "xor", "yield", "int", "float", "bool",
    "string", "true", "false", "null", "void", "iterable", "object", "mixed", "never"]

/-- The words with a meaning of their own at the start of an expression. -/
def expressionWords : List String :=
  ["array", "list", "print", "new", "clone", "function", "fn", "static", "self", "parent", "match",
    "yield", "include", "include_once", "require", "require_once", "throw", "namespace", "null",
    "true", "false"]

/-- The words that start a statement and no expression. -/
def statementWords : List String :=
  ["if", "while", "do", "for", "foreach", "switch", "goto", "continue", "break", "return", "try",
    "declare", "echo", "exit", "unset", "const", "class", "interface", "trait", "enum", "use",
    "global", "abstract", "final", "readonly", "public", "protected", "private", "var"]

/-- The words that are types by themselves when they are spelled like this. -/
def typeWords : List String :=
  ["array", "iterable", "bool", "float", "int", "string", "void", "mixed", "false", "null", "true"]

/-- The words that name the types to which a value may be converted, apart from arrays. -/
def castWords : List String :=
  ["binary", "bool", "boolean", "double", "int", "integer", "float", "object", "real", "string",
    "unset"]

/-- The words that stand for the class at hand or its parent. -/
def scopeWords : List String := ["self", "parent", "static"]

def anyName : Pattern Rule := shaped .name

/-- A name of a class, an alias or the like. -/
def plainName : Pattern Rule := wordUnless reservedWords

/-- A word that is a type and no name of one. -/
def typeWord : Pattern Rule := alts [spelled typeWords, keyword "callable"]

def moreNames : Pattern Rule := .many (seqs [operator ["\\"], anyName])

/-- A name that may be qualified, also from the root or by the namespace at hand. -/
def pathFrom (first : Pattern Rule) : Pattern Rule :=
  alts
    [seqs [sym "\\", alts [seqs [sym "\\", anyName], seqs [anyName, moreNames]]],
    seqs [keyword "namespace", sym "\\", anyName, moreNames],
    seqs [first, moreNames]]

/-- A name of a class or an interface, where no expression could stand. -/
def classPath : Pattern Rule := pathFrom anyName

def commaList (p : Pattern Rule) : Pattern Rule := sepBy1 p (operator [","])

/-- A list with commas between its items, at the end too if there are any. -/
def looseList (p : Pattern Rule) : Pattern Rule := opt (seqs [commaList p, opt (sym ",")])

/-- A list with commas between its items and perhaps one behind it, which may also stand alone. -/
def openList (p : Pattern Rule) : Pattern Rule := seqs [opt (commaList p), opt (sym ",")]

def classPaths : Pattern Rule := commaList classPath

def expression : Pattern Rule := .rule .expression

/-- A variable whose name is given. -/
def variableName : Pattern Rule := alts [shaped .variable, seqs [sym "$", anyName]]

def braced : Pattern Rule := bracketed (sym "\x7b") expression "\x7d"

def simpleVariable : Pattern Rule :=
  alts [variableName, seqs [some1 (sym "$"), alts [variableName, braced]]]

def condition : Pattern Rule :=
  .node "parenthesized_expression" (bracketed (sym "(") expression ")")

/-- An ampersand that marks a reference. -/
def reference : Pattern Rule := .node "reference_modifier" (sym "&")

def byReference : Pattern Rule := seqs [sym "&", .rule .place]

/-- A value given after an equals sign. -/
def initial : Pattern Rule := seqs [operator ["="], expression]

def attributes : Pattern Rule := opt (.rule .attributes)

def blockBody : Pattern Rule := .field "body" (.rule .block)

/-- The parameters of a function, marked as such. -/
def parameters : Pattern Rule := .field "parameters" (.rule .parameters)

end Grammar

end Scaffold.Php
