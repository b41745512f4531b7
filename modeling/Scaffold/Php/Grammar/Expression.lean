import Scaffold.Php.Grammar.Name

namespace Scaffold.Php

namespace Grammar

open Pattern

def binaryOperator : Pattern Rule :=
  seqs
    [.goesOn,
      alts
        [syms ["+", "-", "*", "/", "%", "**", ".", "<<", ">>", "&", "|", "^", "&&", "||", "??", "<",
          ">", "<=", ">=", "==", "!=", "===", "!==", "<>", "<=>"],
        words ["and", "or", "xor"]]]

def anyExpression : Pattern Rule :=
  seqs
    [.rule .term,
      .many (alts
        [seqs [binaryOperator, .rule .term],
        seqs [operator ["?"], opt expression, sym ":", .rule .term]])]

/-- The accesses that the class of a new object allows. -/
def classAccess : Pattern Rule :=
  alts
    [bracketed (operator ["["]) (opt expression) "]",
    seqs [operator ["->", "?->"], alts [anyName, simpleVariable, braced]],
    seqs [operator ["::"], simpleVariable]]

def classReference : Pattern Rule :=
  alts
    [condition,
    seqs [simpleVariable, .many classAccess],
    seqs
      [pathFrom (wordUnless ["class"]),
        opt (seqs [operator ["::"], simpleVariable, .many classAccess])]]

def matchExpression : Pattern Rule :=
  let arm := seqs
    [alts
      [keyword "default",
      seqs [.absent (keyword "default"), commaList expression, opt (sym ",")]],
    sym "=>", expression]
  seqs [keyword "match", condition, bracketed (sym "\x7b") (looseList arm) "\x7d"]

/-- An operand that may be tested for its class. -/
def anyTerm : Pattern Rule :=
  alts
    [matchExpression,
    seqs [.rule .unary, opt (seqs [.goesOn, keyword "instanceof", classReference])]]

/-- A word and the expression that it evaluates, which together have a value that can be copied. -/
def simpleCommand : Pattern Rule := seqs [words ["print", "throw"], expression]

def delegation : Pattern Rule := .token none false fun t => t.shape == .delegation

/-- A word and the expression that it evaluates, which no conversion or copy reaches over. -/
def wideCommand : Pattern Rule :=
  seqs
    [alts [words ["include", "include_once", "require", "require_once"], delegation],
      expression]

def prefixCount : Pattern Rule := seqs [syms ["++", "--"], .rule .place]

/-- A type in parentheses, to which the operand behind is converted. -/
def cast : Pattern Rule :=
  seqs [sym "(", words ("array" :: castWords), sym ")"]

/-- An operand with the operators before it. A conversion does not reach over the words that end
with an expression of their own. -/
def anyUnary : Pattern Rule :=
  let wide :=
    alts
      [words ["include", "include_once", "require", "require_once", "yield", "match"],
      delegation]
  alts
    [seqs [syms ["!", "~", "-", "+", "@"], .rule .term],
    prefixCount,
    seqs [cast, .absent wide, .rule .unary],
    seqs [keyword "clone", .rule .clonable],
    simpleCommand,
    wideCommand,
    seqs [keyword "yield", opt (seqs [.goesOn, .rule .element])],
    .rule .operand]

/-- A step from a value to a place in it or to the result of a call. -/
def anyAccess : Pattern Rule :=
  alts
    [bracketed (operator ["["]) (opt expression) "]",
    seqs [operator ["->", "?->"], alts [anyName, simpleVariable, braced]],
    seqs [operator ["::"], simpleVariable],
    .rule .arguments]

/-- A step to a constant of a class, its name given or computed. -/
def constantAccess : Pattern Rule := seqs [operator ["::"], alts [anyName, braced]]

/-- Steps that end at a place. -/
def placeAccess : Pattern Rule := seqs [.many constantAccess, .rule .access]

/-- The ways to change a place. -/
def assignment : Pattern Rule :=
  alts
    [seqs [operator ["="], opt (sym "&"), expression],
    seqs
      [operator ["+=", "-=", "*=", "/=", ".=", "%=", "**=", "??=", "&=", "|=", "^=", "<<=", ">>="],
        expression]]

/-- What may follow a place: a change of it, or constants of its class. -/
def placeTail (change : Pattern Rule) : Pattern Rule :=
  alts [operator ["++", "--"], change, .many constantAccess]

/-- What may follow a value that is no place. -/
def valueTail (change : Pattern Rule) : Pattern Rule :=
  alts [seqs [some1 placeAccess, placeTail change], .many constantAccess]

def arrayLiteral : Pattern Rule :=
  alts
    [bracketed (sym "[") (openList (.rule .element)) "]",
    seqs [keyword "array", bracketed (sym "(") (openList (.rule .element)) ")"]]

def anyElement : Pattern Rule :=
  alts
    [seqs [sym "...", expression],
    byReference,
    seqs [expression, opt (seqs [operator ["=>"], alts [byReference, expression]])]]

/-- Places to which the elements of an array are assigned; any may be left out. -/
def targets (inner : Pattern Rule) : Pattern Rule :=
  let target := alts [inner, byReference, .rule .place]
  .within true (sepBy1
    (opt (alts [seqs [target, .absent (sym "=>")], seqs [expression, sym "=>", target]]))
    (sym ","))

def squareTargets : Pattern Rule :=
  seqs [sym "[", targets (.rule .squareTargets), sym "]"]

def listTargets : Pattern Rule :=
  seqs [keyword "list", sym "(", targets (.rule .listTargets), sym ")"]

def destructuring : Pattern Rule :=
  alts [.rule .squareTargets, .rule .listTargets]

/-- Strings without embedded expressions, and with them. -/
def stringLiteral : Pattern Rule :=
  let opens (test : String → Bool) : Pattern Rule :=
    .token none false fun t => t.shape == .quoteOpen && test t.text
  alts
    [shaped .literal,
    .node "encapsed_string" (seqs
      [opens (["\"", "b\"", "B\""].contains ·), .many (.rule .stringPart), .unquote "\""]),
    .node "heredoc" (seqs
      [opens (['<', '<', '<'].isPrefixOf ·.toList), .many (.rule .stringPart),
        shaped .quoteClose])]

def shellCommand : Pattern Rule :=
  .node "shell_command_expression" (seqs
    [.token none false fun t => t.shape == .quoteOpen && t.text == "\x60",
      .many (.rule .stringPart), .unquote "\x60"])

def anyStringPart : Pattern Rule :=
  alts
    [shaped .quoteText,
    seqs
      [shaped .variable,
        opt (alts
          [seqs [sym "[", alts [seqs [opt (sym "-"), shaped .number], anyName, shaped .variable],
            sym "]"],
          seqs [sym "->", anyName]])],
    braced,
    bracketed (sym "$\x7b") expression "\x7d"]

def number : Pattern Rule :=
  alts [shaped .number, seqs [sym ".", .glued, shaped .number]]

def parenthesized : Pattern Rule :=
  seqs [.absent (seqs [sym "(", words castWords]), condition]

/-- The values of which members can be taken. -/
def accessible : Pattern Rule :=
  alts [pathFrom (wordUnless expressionWords), stringLiteral, parenthesized, arrayLiteral]

def baseClause : Pattern Rule :=
  .node "base_clause" (seqs [keyword "extends", classPaths])

def interfaceClause : Pattern Rule :=
  .node "class_interface_clause" (seqs [keyword "implements", classPaths])

/-- The members of a class, trait or interface in braces. -/
def declarationList : Pattern Rule :=
  .field "body" (.node "declaration_list"
    (seqs [sym "\x7b", .within false (.many (.rule .member)), closer "\x7d"]))

def anonymousClass : Pattern Rule :=
  .node "anonymous_class" (seqs
    [attributes, .many (.rule .modifier), keyword "class", opt (.rule .arguments), opt baseClause,
      opt interfaceClause, declarationList])

/-- A new object. Without arguments it has to be put in parentheses before a member is taken. -/
def creation (change : Pattern Rule) : Pattern Rule :=
  seqs
    [keyword "new",
      alts
        [seqs [anonymousClass, valueTail change],
        seqs [classReference, opt (seqs [.rule .arguments, valueTail change])]]]

def returnType : Pattern Rule :=
  seqs [operator [":"], alts [spelled ["never"], .rule .type]]

def closure : Pattern Rule :=
  let static := opt (.node "static_modifier" (keyword "static"))
  let captures := seqs
    [keyword "use",
      bracketed (sym "(")
        (seqs [commaList (seqs [opt (sym "&"), variableName]), opt (sym ",")]) ")"]
  alts
    [.node "anonymous_function" (seqs
      [attributes, static, keyword "function", opt reference, parameters, opt captures,
        opt returnType, blockBody]),
    .node "arrow_function" (seqs
      [attributes, static, keyword "fn", opt reference, parameters, opt returnType, sym "=>",
        expression])]

/-- An operand, with the given ways to change it if it is a place. -/
def operandWith (change : Pattern Rule) : Pattern Rule :=
  alts
    [seqs [simpleVariable, .many placeAccess, placeTail change],
    seqs
      [.ahead (alts [sym "[", keyword "list"]), .behind (sym "="), destructuring, change],
    seqs [accessible, valueTail change],
    creation change,
    closure,
    seqs
      [words scopeWords,
        alts [seqs [some1 placeAccess, placeTail change], some1 constantAccess]],
    number, shellCommand, words ["null", "true", "false"]]

/-- What can be copied: an operand that is not changed, unless it is counted up or down. -/
def anyClonable : Pattern Rule :=
  alts [prefixCount, simpleCommand, operandWith (.absent .empty)]

/-- A place: a variable, a member, an element or the result of a call. -/
def anyPlace : Pattern Rule :=
  alts
    [seqs [cast, .rule .place],
    seqs [simpleVariable, .many placeAccess],
    seqs [accessible, some1 placeAccess],
    seqs [words scopeWords, some1 placeAccess]]

/-- The words that cannot name an argument, since an expression may start with them. -/
def unnamedWords : List String :=
  ["list", "print", "new", "clone", "yield", "include", "include_once", "require", "require_once"]

def argument : Pattern Rule :=
  seqs
    [opt (seqs [wordUnless unnamedWords, sym ":"]), opt (sym "&"),
      alts [seqs [sym "...", expression], expression, words scopeWords]]

def argumentList : Pattern Rule :=
  .node "arguments" (seqs
    [operator ["("],
      .within true (alts
        [seqs [sym "...", sym ")"], seqs [looseList argument, closer ")"]])])

def attributeLists : Pattern Rule :=
  .node "attribute_list" (some1 (bracketed (sym "#[")
    (seqs [commaList (seqs [classPath, opt (.rule .arguments)]), opt (sym ",")]) "]"))

end Grammar

end Scaffold.Php
