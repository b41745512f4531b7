import Scaffold.Php.Grammar.Declaration

namespace Scaffold.Php

namespace Grammar

open Pattern

def statement : Pattern Rule := .rule .statement

def bodyStatement : Pattern Rule := .field "body" statement

def statementsUntil (ends : List String) : Pattern Rule :=
  .many (seqs [.absent (words ends), statement])

/-- Statements behind a colon, up to one of some words. -/
def colonBlock (ends : List String) : Pattern Rule :=
  .field "body" (.node "colon_block" (seqs [sym ":", statementsUntil ends]))

def namespaceDefinition : Pattern Rule :=
  .node "namespace_definition" (seqs
    [keyword "namespace",
      alts
        [seqs [.field "name" (.node "namespace_name" (seqs [anyName, moreNames])),
          alts [seqs [.goesOn, blockBody], terminator]],
        blockBody]])

/-- Names taken over from other namespaces: one by one, or several from the same. -/
def useDeclaration : Pattern Rule :=
  let kind := opt (words ["function", "const"])
  let name := wordUnless ["function", "const"]
  let newName := opt (seqs [.goesOn, keyword "as", plainName])
  let path := alts
    [seqs [sym "\\", alts [seqs [sym "\\", anyName], seqs [anyName, moreNames]]],
    seqs [name, moreNames]]
  let group := seqs
    [kind, name, moreNames, operator ["\\"],
      bracketed (sym "\x7b") (commaList (seqs [kind, name, moreNames, newName])) "\x7d"]
  .node "namespace_use_declaration" (seqs
    [keyword "use", alts [group, commaList (seqs [kind, path, newName])], terminator])

def ifStatement : Pattern Rule :=
  let elseIf (body : Pattern Rule) : Pattern Rule :=
    .node "else_if_clause" (seqs [keyword "elseif", condition, body])
  let otherwise (body : Pattern Rule) : Pattern Rule :=
    .node "else_clause" (seqs [keyword "else", body])
  let ends := ["elseif", "else", "endif"]
  .node "if_statement" (seqs
    [keyword "if", condition,
      alts
        [seqs [colonBlock ends, .many (elseIf (colonBlock ends)),
          opt (otherwise (colonBlock ["endif"])), keyword "endif", terminator],
        seqs [bodyStatement, .many (elseIf bodyStatement), opt (otherwise bodyStatement)]]])

def switchStatement : Pattern Rule :=
  let clauses (ends : List String) : Pattern Rule :=
    let statements := seqs [syms [":", ";"], statementsUntil ("case" :: "default" :: ends)]
    .many (alts
      [.node "case_statement" (seqs [keyword "case", .within true expression, statements]),
      .node "default_statement" (seqs [keyword "default", statements])])
  .node "switch_statement" (seqs
    [keyword "switch", condition,
      .field "body" (.node "switch_block" (alts
        [seqs [sym "\x7b", .within false (clauses []), closer "\x7d"],
        seqs [sym ":", clauses ["endswitch"], keyword "endswitch", terminator]]))])

def whileStatement : Pattern Rule :=
  .node "while_statement" (seqs
    [keyword "while", condition,
      alts [seqs [colonBlock ["endwhile"], keyword "endwhile", terminator], bodyStatement]])

def forStatement : Pattern Rule :=
  let expressions := opt (commaList expression)
  .node "for_statement" (seqs
    [keyword "for",
      bracketed (sym "(") (seqs [expressions, sym ";", expressions, sym ";", expressions]) ")",
      alts
        [seqs [sym ":", .many (seqs [.absent (keyword "endfor"), bodyStatement]), keyword "endfor",
          terminator],
        seqs [.goesOn, bodyStatement], terminator]])

def foreachStatement : Pattern Rule :=
  let value := alts [byReference, seqs [destructuring, .ahead (sym ")")], expression]
  .node "foreach_statement" (seqs
    [keyword "foreach",
      bracketed (sym "(")
        (seqs
          [expression, keyword "as",
            alts [seqs [value, .ahead (sym ")")], seqs [expression, sym "=>", value], value]])
        ")",
      alts
        [seqs [colonBlock ["endforeach"], keyword "endforeach", terminator],
        seqs [.goesOn, bodyStatement], terminator]])

def tryStatement : Pattern Rule :=
  .node "try_statement" (seqs
    [keyword "try", blockBody,
      some1 (alts
        [.node "catch_clause" (seqs
          [keyword "catch",
            bracketed (sym "(") (seqs [sepBy1 classPath (sym "|"), opt variableName]) ")",
            blockBody]),
        .node "finally_clause" (seqs [keyword "finally", blockBody])])])

/-- Settings of the compiler, given as literals. -/
def declareStatement : Pattern Rule :=
  let literal := alts [number, stringLiteral, words ["null", "true", "false"]]
  .node "declare_statement" (seqs
    [keyword "declare",
      bracketed (sym "(")
        (seqs [spelled ["ticks", "encoding", "strict_types"], sym "=", literal]) ")",
      alts
        [seqs [sym ":", statementsUntil ["enddeclare"], keyword "enddeclare", terminator],
        seqs [.goesOn, statement], terminator]])

/-- Statements that start with a keyword and end with a semicolon. -/
def simpleStatement : Pattern Rule :=
  let value := opt (seqs [.goesOn, expression])
  alts
    [.node "echo_statement" (seqs [keyword "echo", commaList expression, terminator]),
    .node "return_statement" (seqs [keyword "return", value, terminator]),
    .node "break_statement" (seqs [keyword "break", value, terminator]),
    .node "continue_statement" (seqs [keyword "continue", value, terminator]),
    .node "goto_statement" (seqs [keyword "goto", plainName, terminator]),
    .node "exit_statement" (seqs
      [keyword "exit", opt (bracketed (operator ["("]) (opt expression) ")"), terminator]),
    .node "unset_statement" (seqs
      [keyword "unset", bracketed (sym "(") (seqs [commaList (.rule .place), opt (sym ",")]) ")",
        terminator]),
    .node "global_declaration" (seqs [keyword "global", commaList simpleVariable, terminator]),
    .node "function_static_declaration" (seqs
      [keyword "static", .ahead variableName, commaList (seqs [variableName, opt initial]),
        terminator]),
    .node "do_statement" (seqs
      [keyword "do", bodyStatement, keyword "while", condition, terminator])]

/-- Any statement; labels and expressions come last, since they may start with almost any word. -/
def anyStatement : Pattern Rule :=
  alts
    [.node "empty_statement" (sym ";"),
    .rule .block,
    namespaceDefinition, useDeclaration, classDeclaration, interfaceDeclaration,
    traitDeclaration, enumDeclaration, functionDefinition, constDeclaration, ifStatement,
    whileStatement, forStatement, foreachStatement, switchStatement, tryStatement,
    declareStatement, simpleStatement,
    .node "named_label_statement"
      (seqs [wordUnless (expressionWords ++ statementWords), sym ":"]),
    .node "expression_statement" (seqs [.absent (words statementWords), expression, terminator])]

end Grammar

end Scaffold.Php
