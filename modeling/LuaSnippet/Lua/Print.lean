import LuaSnippet.Lua.Tree
import LuaSnippet.Lua.Name
import LuaSnippet.Lua.Quoted
import LuaSnippet.Text.Blank

/-!
# Printing Lua

A Lua tree as text. Every statement starts on a line of its own, four spaces further in for each
block around it, and an expression stays on its line, except for the body of a function.
-/

namespace LuaSnippet.Lua

/-- What a line starts with at a depth. -/
def indent : Nat → String
  | 0 => ""
  | n + 1 => "    " ++ indent n

def paramsText (params : List Param) : String :=
  Text.join ", " (params.map fun
    | .name n => n
    | .dots => "...")

def namesText (names : List String) : String :=
  Text.join ", " names

/-- The line that packs the further arguments of a function under a name. -/
def packText (name : String) : String :=
  "local " ++ name ++ " = \x7b...\x7d"

/-- The sign of a unary operator, up to its operand. -/
def UnOp.sign : UnOp → String
  | not => "not "
  | neg => "-"
  | bnot => "~"

mutual

/-- The text of an expression that starts at a depth. -/
def exprText (newLine : String) (depth : Nat) : Expr → String
  | .number text => text
  | .string value => quote value
  | .bool true => "true"
  | .bool false => "false"
  | .nil => "nil"
  | .name n => n
  | .builtin b => b.text
  | .dots => "..."
  | .table fields => "\x7b" ++ fieldsText newLine depth fields ++ "\x7d"
  | .call callee args =>
    exprText newLine depth callee ++ "(" ++ exprsText newLine depth args ++ ")"
  | .member owner key =>
    if isName key then exprText newLine depth owner ++ "." ++ key
    else exprText newLine depth owner ++ "[" ++ quote key ++ "]"
  | .paren inner => "(" ++ exprText newLine depth inner ++ ")"
  | .unary op operand => op.sign ++ exprText newLine depth operand
  | .binary op lhs rhs =>
    exprText newLine depth lhs ++ " " ++ op.sign ++ " " ++ exprText newLine depth rhs
  | .lambda params none value =>
    "function(" ++ paramsText params ++ ") return " ++ exprText newLine depth value ++ " end"
  | .lambda params (some name) value =>
    "function(" ++ paramsText params ++ ") " ++ packText name ++ "; return " ++
      exprText newLine depth value ++ " end"
  | .function params body =>
    "function(" ++ paramsText params ++ ")" ++ newLine ++ stmtsText newLine (depth + 1) body ++
      indent depth ++ "end"

def exprsText (newLine : String) (depth : Nat) : List Expr → String
  | [] => ""
  | [e] => exprText newLine depth e
  | e :: e' :: rest => exprText newLine depth e ++ ", " ++ exprsText newLine depth (e' :: rest)

def fieldText (newLine : String) (depth : Nat) : Field → String
  | .item value => exprText newLine depth value
  | .entry key value =>
    if isName key then key ++ " = " ++ exprText newLine depth value
    else "[" ++ quote key ++ "] = " ++ exprText newLine depth value

def fieldsText (newLine : String) (depth : Nat) : List Field → String
  | [] => ""
  | [f] => fieldText newLine depth f
  | f :: f' :: rest => fieldText newLine depth f ++ ", " ++ fieldsText newLine depth (f' :: rest)

def stmtText (newLine : String) (depth : Nat) : Stmt → String
  | .declare names none => indent depth ++ "local " ++ namesText names ++ newLine
  | .declare names (some value) =>
    indent depth ++ "local " ++ namesText names ++ " = " ++ exprText newLine depth value ++ newLine
  | .function name params body =>
    indent depth ++ "local function " ++ name ++ "(" ++ paramsText params ++ ")" ++ newLine ++
      stmtsText newLine (depth + 1) body ++ indent depth ++ "end" ++ newLine
  | .assign target value =>
    indent depth ++ exprText newLine depth target ++ " = " ++ exprText newLine depth value ++
      newLine
  | .call value => indent depth ++ exprText newLine depth value ++ newLine
  | .discard value => indent depth ++ "local ____ = " ++ exprText newLine depth value ++ newLine
  | .result none => indent depth ++ "return" ++ newLine
  | .result (some value) => indent depth ++ "return " ++ exprText newLine depth value ++ newLine
  | .block body =>
    indent depth ++ "do" ++ newLine ++ stmtsText newLine (depth + 1) body ++
      indent depth ++ "end" ++ newLine
  | .cond test body rest =>
    indent depth ++ "if " ++ exprText newLine depth test ++ " then" ++ newLine ++
      stmtsText newLine (depth + 1) body ++ elseText newLine depth rest
  | .forIn names iterator body =>
    indent depth ++ "for " ++ namesText names ++ " in " ++ exprText newLine depth iterator ++
      " do" ++ newLine ++ stmtsText newLine (depth + 1) body ++ indent depth ++ "end" ++ newLine

/-- The lines of a conditional behind a branch. -/
def elseText (newLine : String) (depth : Nat) : Else → String
  | .done => indent depth ++ "end" ++ newLine
  | .otherwise body =>
    indent depth ++ "else" ++ newLine ++ stmtsText newLine (depth + 1) body ++
      indent depth ++ "end" ++ newLine
  | .elseIf test body rest =>
    indent depth ++ "elseif " ++ exprText newLine depth test ++ " then" ++ newLine ++
      stmtsText newLine (depth + 1) body ++ elseText newLine depth rest

/-- The lines of several statements. -/
def stmtsText (newLine : String) (depth : Nat) : List Stmt → String
  | [] => ""
  | s :: rest => stmtText newLine depth s ++ stmtsText newLine depth rest

end

end LuaSnippet.Lua
