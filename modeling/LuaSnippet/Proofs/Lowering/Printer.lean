import LuaSnippet.Program.Emission
import LuaSnippet.Proofs.Lowering.Resolution

/-!
# Printing while lowering

Lowering and printing in one pass, by a printer with a state: the text so far, how deep it is, the
scopes that are open and what has been reported. A statement writes lines, an expression is handed
back as a text. A closure has statements in the middle of an expression, so its lines are written
aside, on an empty text, and the text before it is put back.

The decisions are those of `lowerExpr` and `lowerInner`. What differs is how the scopes and the depth
get there: as parts of a state that is changed and restored, instead of arguments. What is printed is
the same (`run_printStmts`).
-/

namespace LuaSnippet.Lowering

open Script (UnaryOp BinaryOp Expr Arg Field Stmt Param Binding declaredNames)

/-! ### The state of a printer -/

/-- What printing a file depends on beside its statements. -/
structure Job where
  setting : Setting
  newLine : String
  /-- The name of the file. -/
  name : String
  /-- The text of the file. -/
  text : String

def Job.diagnostics (job : Job) (rs : List Report) : List Diagnostic :=
  rs.map fun r => r.diagnostic job.setting.dialect job.name job.text

/-- The state of a printer. -/
@[ext]
structure Printer where
  /-- What has been written. -/
  out : String
  depth : Nat
  scopes : Scopes
  diagnostics : List Diagnostic

/-- A printer before a file: one scope is open, and nothing is written. -/
def Printer.start : Printer := ⟨"", 0, [[]], []⟩

abbrev Printing := StateM Printer

variable {α : Type}

def Job.line (job : Job) (text : String) : Printing Unit :=
  modify fun p => { p with out := p.out ++ (Lua.indent p.depth ++ text ++ job.newLine) }

def Job.report (job : Job) (lack : Option Lack) (offset : Nat) : Printing Unit :=
  modify fun p =>
    { p with diagnostics := p.diagnostics ++ job.diagnostics (reportOf lack offset) }

namespace Printing

def declare (names : List String) : Printing Unit :=
  modify fun p => { p with scopes := p.scopes.declareAll names }

def deeper (act : Printing α) : Printing α := do
  modify fun p => { p with depth := p.depth + 1 }
  let a ← act
  modify fun p => { p with depth := p.depth - 1 }
  return a

/-- Acts in a scope of its own that starts with some names. -/
def within (names : List String) (act : Printing α) : Printing α := do
  modify fun p => { p with scopes := names :: p.scopes }
  let a ← act
  modify fun p => { p with scopes := p.scopes.tail }
  return a

/-- Acts on an empty text and hands it back. The text before it is put back. -/
def aside (act : Printing Unit) : Printing String := do
  let outer ← modifyGet fun p => (p.out, { p with out := "" })
  act
  modifyGet fun p => (p.out, { p with out := outer })

end Printing

open Printing (declare deeper within aside)

namespace Job

/-- Packs the further arguments of a function, if it takes any. -/
def pack (job : Job) (params : List Param) : Printing Unit :=
  match restName? params with
  | some name => job.line (Lua.packText name)
  | none => pure ()

/-- The body of a function or a branch: one level deeper and in a scope with the parameters. -/
def nested (job : Job) (params : List Param) (body : Printing Unit) : Printing Unit :=
  deeper <| within (paramNames params) do
    job.pack params
    body

def block (job : Job) (body : Printing Unit) : Printing Unit := do
  job.line "do"
  job.nested [] body
  job.line "end"

def unpackText (job : Job) (text : String) : String :=
  (unpackBuiltin job.setting.dialect).text ++ "(" ++ text ++ ")"

/-- One value: several values are collected into a table. -/
def single (job : Job) (e : Expr) (act : Printing String) : Printing String := do
  let text ← act
  return if isMulti job.setting (← get).scopes e then "\x7b" ++ text ++ "\x7d" else text

/-- All values: those of a table, unless there are several values already. -/
def spread (job : Job) (e : Expr) (act : Printing String) : Printing String := do
  let multi := isMulti job.setting (← get).scopes e
  let text ← act
  return if multi then text else job.unpackText text

def loopHead (job : Job) (b : Binding) (iterable : Bool) (text : String) : Printing Unit := do
  let names := Lua.namesText ((bindingNames b).map Lua.nameOf)
  if iterable then
    job.line ("for " ++ names ++ " in " ++ text ++ " do")
  else if isPattern b then
    job.line ("for ____, ____value in ipairs(" ++ text ++ ") do")
    deeper (job.line ("local " ++ names ++ " = " ++ job.unpackText "____value"))
  else
    job.line ("for ____, " ++ names ++ " in ipairs(" ++ text ++ ") do")

end Job

/-! ### Printing expressions and statements -/

def encloseIf (group : Bool) (text : String) : String :=
  if group then "(" ++ text ++ ")" else text

/-- A binary operation as a text, between the texts of its operands. -/
def binaryText (d : Dialect) (op : BinaryOp) (lhs rhs : Expr) (left right : String) : String :=
  match bitCall? d op with
  | some f => f.text ++ "(" ++ left ++ ", " ++ right ++ ")"
  | none =>
    let op' := binOp op lhs rhs
    encloseIf (needsGroup d lhs op'.level op'.fromRight) left ++ " " ++ op'.sign ++ " " ++
      encloseIf (needsGroup d rhs op'.level !op'.fromRight) right

/-- The start of a function, up to its body. -/
def functionHead (params : List Param) : String :=
  "function(" ++ Lua.paramsText (params.map lowerParam) ++ ")"

def arrowText (params : List Param) (text : String) : String :=
  match restName? params with
  | some name => functionHead params ++ " " ++ Lua.packText name ++ "; return " ++ text ++ " end"
  | none => functionHead params ++ " return " ++ text ++ " end"

mutual

/-- Prints an expression. -/
def printExpr (job : Job) : Expr → Printing String
  | .number text _ => pure text
  | .string value _ => pure (Lua.quote value)
  | .bool value _ => pure (if value then "true" else "false")
  | .absent _ => pure "nil"
  | .ident id => pure (Lua.nameOf id.name)
  | .array elements _ => do
    let texts ← printArgs job elements
    return "\x7b" ++ Text.join ", " texts ++ "\x7d"
  | .object fields _ => do
    let texts ← printFields job fields
    return "\x7b" ++ Text.join ", " texts ++ "\x7d"
  | .call callee args _ => do
    let text ← printExpr job callee
    let texts ← printArgs job args
    return encloseIf (groupsAsCallee callee) text ++ "(" ++ Text.join ", " texts ++ ")"
  | .member owner property => do
    let text ← printExpr job owner
    return encloseIf (groupsAsCallee owner) text ++
      if Lua.isName property.name then "." ++ property.name
      else "[" ++ Lua.quote property.name ++ "]"
  | .nonNull inner => printExpr job inner
  | .paren inner _ => do
    let text ← printExpr job inner
    return "(" ++ text ++ ")"
  | .unary op operand span => do
    let bare ← printExpr job operand
    let text := encloseIf (needsGroup job.setting.dialect operand Lua.unaryLevel false) bare
    match op with
    | .not => return "not " ++ text
    | .neg => return "-" ++ encloseIf (text.toList.head? = some '-') text
    | .bitNot =>
      match bitLibrary? job.setting.dialect with
      | some lib =>
        -- The operand is printed a second time, without a group.
        let again ← printExpr job operand
        return (lib .bnot).text ++ "(" ++ again ++ ")"
      | none =>
        job.report (unaryLack job.setting.dialect op) span.start
        return "~" ++ text
  | .binary op lhs rhs => do
    job.report (binaryLack job.setting.dialect op) lhs.span.start
    let left ← printExpr job lhs
    let right ← printExpr job rhs
    return binaryText job.setting.dialect op lhs rhs left right
  | .arrow params value _ => do
    let text ← within (paramNames params) (printExpr job value)
    return arrowText params text
  | .closure params body _ => do
    let lines ← aside (job.nested params (printStmts job body))
    return functionHead params ++ job.newLine ++ lines ++ Lua.indent (← get).depth ++ "end"

/-- Prints an argument: all elements of a spread one, one value of another. -/
def printArg (job : Job) : Arg → Printing String
  | .plain value => job.single value (printExpr job value)
  | .spread value => job.spread value (printExpr job value)

def printArgs (job : Job) : List Arg → Printing (List String)
  | [] => pure []
  | a :: rest => do
    let text ← printArg job a
    let texts ← printArgs job rest
    return text :: texts

def printField (job : Job) : Field → Printing String
  | .mk key value => do
    let text ← job.single value (printExpr job value)
    return if Lua.isName key then key ++ " = " ++ text
      else "[" ++ Lua.quote key ++ "] = " ++ text

def printFields (job : Job) : List Field → Printing (List String)
  | [] => pure []
  | f :: rest => do
    let text ← printField job f
    let texts ← printFields job rest
    return text :: texts

/-- Prints a statement. Of a block only the statements are printed, so that a branch is printed alike
with and without braces. -/
def printInner (job : Job) : Stmt → Printing Unit
  | .bind _ binding none _ => do
    declare (bindingNames binding)
    job.line ("local " ++ Lua.namesText ((bindingNames binding).map Lua.nameOf))
  | .bind _ binding (some init) _ => do
    let text ← (if isPattern binding then job.spread init (printExpr job init)
      else job.single init (printExpr job init))
    declare (bindingNames binding)
    job.line ("local " ++ Lua.namesText ((bindingNames binding).map Lua.nameOf) ++ " = " ++ text)
  | .function name params body _ => do
    declare [name.name]
    job.line ("local function " ++ Lua.nameOf name.name ++ "(" ++
      Lua.paramsText (params.map lowerParam) ++ ")")
    job.nested params (printStmts job body)
    job.line "end"
  | .assign target value _ => do
    let left ← printExpr job target
    let right ← job.single value (printExpr job value)
    job.line (left ++ " = " ++ right)
  | .forOf binding iterable body _ => do
    let text ← printExpr job iterable
    let generic := isIterable job.setting (← get).scopes iterable
    within [] do
      declare (bindingNames binding)
      job.loopHead binding generic text
      job.nested [] (printInner job body)
    job.line "end"
  | .cond test whenTrue whenFalse _ => do
    let text ← printExpr job test
    job.line ("if " ++ text ++ " then")
    job.nested [] (printInner job whenTrue)
    printElse job whenFalse
  | .result none _ => job.line "return"
  | .result (some value) _ => do
    let text ← printExpr job value
    job.line ("return " ++ text)
  | .block body _ => printStmts job body
  | .expr e => do
    let text ← printExpr job e
    job.line (if isCall e then text else "local ____ = " ++ text)
  | .declare _ _ | .typeOnly _ | .empty _ => pure ()

/-- Prints how a conditional goes on behind its first branch, up to its end. -/
def printElse (job : Job) : Option Stmt → Printing Unit
  | none => job.line "end"
  | some (.cond test whenTrue whenFalse _) => do
    let text ← printExpr job test
    job.line ("elseif " ++ text ++ " then")
    job.nested [] (printInner job whenTrue)
    printElse job whenFalse
  | some s => do
    job.line "else"
    job.nested [] (printInner job s)
    job.line "end"

/-- Prints some statements, one after the other. -/
def printStmts (job : Job) : List Stmt → Printing Unit
  | [] => pure ()
  | s :: rest => do
    (if isBlock s then job.block (printInner job s) else printInner job s)
    printStmts job rest

end

/-- Prints a statement. -/
def printStmt (job : Job) (s : Stmt) : Printing Unit :=
  if isBlock s then job.block (printInner job s) else printInner job s

theorem printStmts_cons (job : Job) (s : Stmt) (rest : List Stmt) :
    printStmts job (s :: rest) = (printStmt job s >>= fun _ => printStmts job rest) := rfl

/-! ### Scopes -/

theorem declareAll_append (ss : Scopes) (names names' : List String) :
    ss.declareAll (names ++ names') = (ss.declareAll names).declareAll names' :=
  List.foldl_append

theorem tail_declareAll (s : List String) (ss : Scopes) (names : List String) :
    (Scopes.declareAll (s :: ss) names).tail = ss := by
  obtain ⟨s', hdeclared, -⟩ := declareAll_cons names s ss
  rw [hdeclared, List.tail_cons]

/-- The names that a statement declares where no scope is opened for it, not even for a block. -/
def innerNames : Stmt → List String
  | .block body _ => body.flatMap declaredNames
  | s => declaredNames s

end LuaSnippet.Lowering

namespace LuaSnippet.Program

/-- The job of printing a file of a program. -/
def job (p : Program) (f : Script.File) : Lowering.Job :=
  ⟨p.setting, p.newLine, f.name, f.text⟩

end LuaSnippet.Program
