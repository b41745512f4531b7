import Scaffold.Text.Blank
import Scaffold.Tree.Concrete

namespace Scaffold.Php

inductive Shape where
  /-- Text before the first code island. -/
  | html
  /-- The tag that opens the first code island. -/
  | openTag
  /-- Leaving code, the text up to the next island, and the tag that opens it. -/
  | interlude
  | comment
  | name
  /-- The two words that hand over to another generator. -/
  | delegation
  | variable
  | number
  /-- A string without embedded expressions. -/
  | literal
  /-- The start of a string that may embed expressions. -/
  | quoteOpen
  /-- A stretch of text inside such a string. -/
  | quoteText
  | quoteClose
  | symbol
  /-- A string that the end of the text cuts off. -/
  | openString
  /-- A remark that the end of the text cuts off. -/
  | openComment
  deriving DecidableEq, Repr, Inhabited

structure Token where
  shape : Shape
  text : String
  span : Span
  deriving Repr, Inhabited

namespace Token

/-- Whether a token may stand between any two others. -/
def isExtra (t : Token) : Bool :=
  t.shape == .comment || t.shape == .interlude

/-- Whether the end of the text cuts the token off. -/
def isOpen (t : Token) : Bool :=
  t.shape == .openString || t.shape == .openComment

/-- Whether a token is a remark that starts with two slashes. -/
def isLineRemark (t : Token) : Bool :=
  t.shape == .comment && ['/', '/'].isPrefixOf t.text.toList

/-- Whether a token is one of some words, ASCII capitals and small letters being the same. -/
def isWordOf (t : Token) (words : List String) : Bool :=
  t.shape == .name && words.contains (Text.asciiLower t.text)

/-- The kind of the leaf that stands for a token when the grammar asks for no other. -/
def kind (t : Token) : String :=
  match t.shape with
  | .html => "text"
  | .openTag => "php_tag"
  | .interlude => "text_interpolation"
  | .comment => "comment"
  | .name => "name"
  | .variable => "variable_name"
  | .number => "integer"
  | .literal => "string"
  | .quoteText => "string_content"
  | .quoteClose => "heredoc_end"
  | .openString | .openComment => "ERROR"
  | .delegation | .quoteOpen | .symbol => t.text

/-- Whether the leaf of a token is a named node. -/
def named (t : Token) : Bool :=
  match t.shape with
  | .symbol | .delegation | .quoteOpen | .quoteClose | .openString | .openComment => false
  | _ => true

/-- The leaf that stands for a token. -/
def leaf (t : Token) : Concrete :=
  .node t.kind t.named none t.span []

end Token

end Scaffold.Php
