import VgiWorker.Catalog.SqlParser

/-!
# The grammar of scalar SQL

The token strings of each level, each with the tree that it stands for: OR, AND,
NOT, IS, comparison, the other operators, additive, multiplicative, power, unary,
postfix and primary expressions. A level is written over the language of nested
expressions, and an expression is a string of the first level in which the
nested ones are expressions again.
-/

set_option autoImplicit false

namespace VgiWorker.Catalog.Sql

open VgiWorker.Js

namespace Grammar

abbrev Strings (Value : Type) : Type := Language Token Value

def op (v : String) : Token :=
  .op (text v)

/-- Components behind the first one of a name. -/
inductive Components : Strings (List Text) where
  | last : Components [] []
  | more {v : Text} {quoted : Bool} {rest : List Token} {names : List Text}
      (others : Components rest names) :
      Components (op "." :: .ident v quoted :: rest) (v :: names)

inductive TypeParameters : Strings (List Text) where
  | last {v : Text} : TypeParameters [.num v] [v]
  | more {v : Text} {rest : List Token} {params : List Text} (others : TypeParameters rest params) :
      TypeParameters (.num v :: op "," :: rest) (v :: params)

inductive ParameterList : Strings (List Text) where
  | absent : ParameterList [] []
  | given {used : List Token} {params : List Text} (read : TypeParameters used params) :
      ParameterList (op "(" :: used ++ [op ")"]) params

section

variable (toLowerCase : Text → Text)

/-- The second word of `double precision` and of `character varying`, if it is there. -/
inductive SecondWord (first : Text) : Strings Text where
  | absent : SecondWord first [] first
  | precision {token : Token} (double : first = text "double")
      (word : token.isWord toLowerCase "precision" = true) :
      SecondWord first [token] (text "double")
  | varying {token : Token} (character : first = text "character")
      (word : token.isWord toLowerCase "varying" = true) :
      SecondWord first [token] (text "varchar")

inductive TypeName : Strings CastTarget where
  | named {v name : Text} {quoted : Bool} {others params : List Text}
      {qualifiers second parameters : List Token} (qualified : Components qualifiers others)
      (word : SecondWord toLowerCase (toLowerCase v) second name)
      (list : ParameterList parameters params) :
      TypeName (.ident v quoted :: qualifiers ++ second ++ parameters)
        (castTarget name params (others ≠ []))

variable (Inner : Strings ScalarNode)

/-- Arguments between commas, none of which starts like a named one. -/
inductive Arguments : Strings (List ScalarNode) where
  | last {used : List Token} {child : ScalarNode} (positional : isNamedArgument used = false)
      (read : Inner used child) : Arguments used [child]
  | more {used rest : List Token} {child : ScalarNode} {children : List ScalarNode}
      (positional : isNamedArgument used = false) (read : Inner used child)
      (others : Arguments rest children) :
      Arguments (used ++ op "," :: rest) (child :: children)

inductive CallArguments : Strings (List ScalarNode) where
  | none : CallArguments [] []
  | given {used : List Token} {children : List ScalarNode} (read : Arguments Inner used children) :
      CallArguments used children

/-- An identifier that may start a name: it is quoted or not a reserved word. -/
def Nameable (v : Text) (quoted : Bool) : Prop :=
  quoted = false → toLowerCase v ∉ reserved

inductive Primary : Strings ScalarNode where
  | numeral {v : Text} : Primary [.num v] (literalNumber v false)
  | string {v : Text} : Primary [.str v] (.constant .varchar none)
  | parenthesised {used : List Token} {inner : ScalarNode} (read : Inner used inner) :
      Primary (op "(" :: used ++ [op ")"]) inner
  | null {token : Token} (word : token.isWord toLowerCase "null" = true) :
      Primary [token] (.constant .null none)
  | boolean {token : Token}
      (word : token.isWord toLowerCase "true" = true ∨ token.isWord toLowerCase "false" = true) :
      Primary [token] (.constant .boolean none)
  | cast {token as : Token} {used target : List Token} {child : ScalarNode} {type : CastTarget}
      (word : token.isWord toLowerCase "cast" = true) (read : Inner used child)
      (asWord : as.isWord toLowerCase "as" = true) (typed : TypeName toLowerCase target type) :
      Primary (token :: op "(" :: used ++ as :: target ++ [op ")"]) (.cast type child)
  | column {v : Text} {quoted : Bool} {rest : List Token} {others : List Text}
      (nameable : Nameable toLowerCase v quoted) (components : Components rest others) :
      Primary (.ident v quoted :: rest) (.column (v :: others))
  | call {v : Text} {quoted : Bool} {rest used : List Token} {others : List Text}
      {children : List ScalarNode} (nameable : Nameable toLowerCase v quoted)
      (components : Components rest others) (arguments : CallArguments Inner used children) :
      Primary (.ident v quoted :: rest ++ op "(" :: used ++ [op ")"])
        (callNode toLowerCase v quoted others children)

inductive CastTail : Strings (ScalarNode → ScalarNode) where
  | cast {used : List Token} {target : CastTarget} (typed : TypeName toLowerCase used target) :
      CastTail (op "::" :: used) (.cast target)

def Postfix : Strings ScalarNode :=
  Suffixed (Primary toLowerCase Inner) (CastTail toLowerCase)

def Unary : Strings ScalarNode :=
  Prefixed signOperator (Postfix toLowerCase Inner)

/-- A left-associative level over the next one. -/
def LeftAssociative (operator : Token → Option (ScalarNode → ScalarNode → ScalarNode))
    (Operand : Strings ScalarNode) : Strings ScalarNode :=
  Suffixed Operand (Infix operator Operand)

def Power : Strings ScalarNode :=
  LeftAssociative (functionOperator ["^"]) (Unary toLowerCase Inner)

def Multiplicative : Strings ScalarNode :=
  LeftAssociative (functionOperator ["*", "/", "%"]) (Power toLowerCase Inner)

def Additive : Strings ScalarNode :=
  LeftAssociative (functionOperator ["+", "-"]) (Multiplicative toLowerCase Inner)

def OtherOp : Strings ScalarNode :=
  LeftAssociative (functionOperator ["||", "//", "**"]) (Additive toLowerCase Inner)

/-- One operand, or two that are compared; comparisons do not chain. -/
inductive Comparison : Strings ScalarNode where
  | operand {used : List Token} {node : ScalarNode} (read : OtherOp toLowerCase Inner used node) :
      Comparison used node
  | compared {used rest : List Token} {token : Token} {left right : ScalarNode}
      {combine : ScalarNode → ScalarNode → ScalarNode}
      (readLeft : OtherOp toLowerCase Inner used left)
      (known : comparisonOperator token = some combine)
      (readRight : OtherOp toLowerCase Inner rest right) :
      Comparison (used ++ token :: rest) (combine left right)

inductive IsTail : Strings (ScalarNode → ScalarNode) where
  | isnull {token : Token} (word : token.isWord toLowerCase "isnull" = true) :
      IsTail [token] fun left => .operator .isNull [left]
  | notnull {token : Token} (word : token.isWord toLowerCase "notnull" = true) :
      IsTail [token] fun left => .operator .isNotNull [left]
  | isNull {is null : Token} (isWord : is.isWord toLowerCase "is" = true)
      (nullWord : null.isWord toLowerCase "null" = true) :
      IsTail [is, null] fun left => .operator .isNull [left]
  | isNotNull {is not null : Token} (isWord : is.isWord toLowerCase "is" = true)
      (notWord : not.isWord toLowerCase "not" = true)
      (nullWord : null.isWord toLowerCase "null" = true) :
      IsTail [is, not, null] fun left => .operator .isNotNull [left]

def Is : Strings ScalarNode :=
  Suffixed (Comparison toLowerCase Inner) (IsTail toLowerCase)

def Not : Strings ScalarNode :=
  Prefixed (wordOperator toLowerCase "not" fun child => .operator .not [child])
    (Is toLowerCase Inner)

def And : Strings ScalarNode :=
  LeftAssociative
    (wordOperator toLowerCase "and" fun left right => .conjunction .and [left, right])
    (Not toLowerCase Inner)

def Or : Strings ScalarNode :=
  LeftAssociative (wordOperator toLowerCase "or" fun left right => .conjunction .or [left, right])
    (And toLowerCase Inner)

end

/-- Expressions with fewer than `depth` levels of nested ones. -/
def ExpressionTo (toLowerCase : Text → Text) : Nat → Strings ScalarNode
  | 0 => fun _ _ => False
  | depth + 1 => Or toLowerCase (ExpressionTo toLowerCase depth)

def Expression (toLowerCase : Text → Text) : Strings ScalarNode :=
  fun used node => ∃ depth, ExpressionTo toLowerCase depth used node

end Grammar

end VgiWorker.Catalog.Sql
