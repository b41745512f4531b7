import Scaffold.Php.Grammar.Statement

namespace Scaffold.Php

namespace Grammar

open Pattern

def rules : Rule → Pattern Rule
  | .statement => anyStatement
  | .block =>
    .node "compound_statement"
      (seqs [sym "\x7b", .within false (.many statement), closer "\x7d"])
  | .expression => anyExpression
  | .term => anyTerm
  | .unary => anyUnary
  | .operand => operandWith assignment
  | .clonable => anyClonable
  | .place => anyPlace
  | .access => anyAccess
  | .arguments => argumentList
  | .element => anyElement
  | .squareTargets => squareTargets
  | .listTargets => listTargets
  | .attributes => attributeLists
  | .modifier => anyModifier
  | .type => anyType
  | .parameters => parameterList
  | .hooks => hookList
  | .member => alts [methodDeclaration, constDeclaration, traitUse, propertyDeclaration]
  | .enumMember => alts [enumCase, methodDeclaration, constDeclaration, traitUse]
  | .stringPart => anyStringPart

end Grammar

end Scaffold.Php
