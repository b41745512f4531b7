import Scaffold.Php.Grammar.Expression

namespace Scaffold.Php

namespace Grammar

open Pattern

/-- An ampersand between two types, which one before a parameter's name is not. -/
def intersection : Pattern Rule :=
  seqs [operator ["&"], .absent (alts [sym "$", shaped .variable, sym "...", sym "&"])]

/-- A type that is one word or one name, and may be null with a question mark. -/
def simpleType : Pattern Rule :=
  seqs [opt (sym "?"), alts [typeWord, keyword "static", classPath]]

/-- A type: a single one, several that all have to fit, or several of which one has to fit. -/
def anyType : Pattern Rule :=
  let all := sepBy1 simpleType intersection
  .node "type" (alts
    [seqs [simpleType, some1 (seqs [intersection, simpleType])],
    sepBy1 (alts [seqs [sym "(", .within true all, sym ")"], simpleType]) (operator ["|"])])

/-- The words that say who may see a member, perhaps only for writing it. -/
def visibility : Pattern Rule :=
  .node "visibility_modifier" (seqs
    [alts [keyword "public", keyword "protected", keyword "private"],
      opt (seqs [.glued, sym "(", .glued, spelled ["get", "set"], .glued, sym ")"])])

def anyModifier : Pattern Rule :=
  alts
    [visibility,
    .node "static_modifier" (keyword "static"),
    .node "final_modifier" (keyword "final"),
    .node "abstract_modifier" (keyword "abstract"),
    .node "readonly_modifier" (keyword "readonly"),
    .node "var_modifier" (keyword "var")]

/-- Parameters in parentheses. One with a visibility becomes a property. -/
def parameterList : Pattern Rule :=
  let property := seqs
    [attributes, visibility, opt (.node "readonly_modifier" (keyword "readonly")),
      opt (.rule .type), alts [byReference, variableName], opt initial, opt (.rule .hooks)]
  let plain := seqs
    [attributes, .absent visibility, opt (.rule .type), opt (sym "&"),
      alts [seqs [sym "...", variableName], seqs [variableName, opt initial]]]
  .node "formal_parameters" (bracketed (sym "(") (openList (alts [property, plain])) ")")

/-- The accessors of a property in braces. -/
def hookList : Pattern Rule :=
  let hook := seqs
    [attributes, opt (.node "final_modifier" (keyword "final")), opt reference, plainName,
      opt (.rule .parameters),
      alts
        [seqs [.goesOn, sym "=>", expression, terminator],
        seqs [.goesOn, blockBody],
        terminator]]
  .node "property_hook_list"
    (seqs [sym "\x7b", .within false (.many hook), closer "\x7d"])

def functionHeader : Pattern Rule :=
  seqs
    [keyword "function", opt reference, .field "name" anyName, parameters, opt returnType]

def functionDefinition : Pattern Rule :=
  .node "function_definition" (seqs [attributes, functionHeader, blockBody])

def methodDeclaration : Pattern Rule :=
  .node "method_declaration" (seqs
    [attributes, .many (.rule .modifier), functionHeader,
      alts [seqs [.goesOn, blockBody], terminator]])

/-- Constants, with a type or without. A word that is a type is never the name of the first. -/
def constDeclaration : Pattern Rule :=
  .node "const_declaration" (seqs
    [attributes, .many (.rule .modifier), keyword "const",
      alts
        [seqs [.rule .type, anyName, initial],
        seqs [.absent typeWord, anyName, initial]],
      .many (seqs [operator [","], anyName, initial]), terminator])

/-- Traits taken into a class, with the names that are changed on the way. -/
def traitUse : Pattern Rule :=
  let method := alts [seqs [classPath, sym "::", anyName], anyName]
  let change := alts
    [seqs [keyword "insteadof", plainName],
    seqs [keyword "as", alts [seqs [visibility, opt (seqs [.goesOn, plainName])], plainName]]]
  .node "use_declaration" (seqs
    [keyword "use", classPaths,
      alts
        [seqs [operator ["\x7b"], .within false (.many (seqs [method, change, terminator])),
          closer "\x7d"],
        terminator]])

def propertyDeclaration : Pattern Rule :=
  .node "property_declaration" (seqs
    [attributes, some1 (.rule .modifier), .absent (words ["function", "const"]), opt (.rule .type),
      commaList (seqs [variableName, opt initial]),
      alts [seqs [.goesOn, .rule .hooks], terminator]])

def enumCase : Pattern Rule :=
  .node "enum_case"
    (seqs [attributes, keyword "case", .field "name" anyName, opt initial, terminator])

def classDeclaration : Pattern Rule :=
  .node "class_declaration" (seqs
    [attributes, .many (.rule .modifier), keyword "class", .field "name" plainName, opt baseClause,
      opt interfaceClause, declarationList])

def interfaceDeclaration : Pattern Rule :=
  .node "interface_declaration" (seqs
    [attributes, keyword "interface", .field "name" plainName, opt baseClause, declarationList])

def traitDeclaration : Pattern Rule :=
  .node "trait_declaration" (seqs
    [attributes, keyword "trait", .field "name" plainName, declarationList])

def enumDeclaration : Pattern Rule :=
  .node "enum_declaration" (seqs
    [attributes, keyword "enum", .field "name" plainName,
      opt (seqs [sym ":", spelled ["string", "int"]]), opt interfaceClause,
      .field "body" (.node "enum_declaration_list"
        (seqs [sym "\x7b", .within false (.many (.rule .enumMember)), closer "\x7d"]))])

end Grammar

end Scaffold.Php
