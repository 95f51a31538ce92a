import LuaSnippet.Peg.Match
import LuaSnippet.Script.Rule
import LuaSnippet.Script.Blank

/-!
# The grammar of the script language

What each rule matches. Declarations come in the form found in declaration files, statements and
expressions in the form found in snippets; the grouping of operators is left to the levels of the
operators. Words and identifiers are matched character by character, so that no blank is passed over
within them.
-/

namespace LuaSnippet.Script

open Peg (Pattern Manner Grammar)

namespace Rule

def startsName (c : Char) : Bool :=
  c.isAlpha || c = '_' || c = '$'

/-- The characters that a name may go on with. -/
def continuesName (c : Char) : Bool :=
  c.isAlphanum || c = '_' || c = '$'

/-- The digits of numbers to base sixteen. -/
def isHexDigit (c : Char) : Bool :=
  c.isDigit || ('a' ≤ c && c ≤ 'f') || ('A' ≤ c && c ≤ 'F')

/-- A name, read as far as it goes. -/
def nameChars : Pattern Rule :=
  .seq (.char startsName) (.many (.char continuesName))

/-- A word that is not the beginning of a longer name. -/
def wholeWord (w : Pattern Rule) : Pattern Rule :=
  .seq w (.forbid (.char continuesName))

def digits : Pattern Rule := .repeated (.char Char.isDigit)

def commaSeparated (p : Pattern Rule) : Pattern Rule :=
  .seq p (.many (.seq (.lit ",") p))

/-- The characters of a string up to a quote: escapes, and what is no quote, backslash or line
end. -/
def quotedChars (quote : Char) : Pattern Rule :=
  .many (.alt (.seq (.lit "\\") (.char fun _ => true))
    (.char fun c => c ≠ quote && c ≠ '\\' && !isLineEnd c))

def binding : Pattern Rule := .alt (.call arrayPattern) (.call ident)

/-- An operand with the operators before it, and the calls, members and marks after it. -/
def operand : Pattern Rule :=
  .inOrder (.many (.firstOf (.call (unaryOp .not)) [.call (unaryOp .neg), .call (unaryOp .bitNot)]))
    [.call primary, .many (.firstOf (.call callArgs) [.call member, .call nonNull])]

def sign : BinaryOp → String
  | .or => "||"
  | .and => "&&"
  | .bitOr => "|"
  | .bitXor => "^"
  | .bitAnd => "&"
  | .strictEq => "==="
  | .strictNe => "!=="
  | .eq => "=="
  | .ne => "!="
  | .lt => "<"
  | .le => "<="
  | .gt => ">"
  | .ge => ">="
  | .shl => "<<"
  | .shr => ">>"
  | .ushr => ">>>"
  | .add => "+"
  | .sub => "-"
  | .mul => "*"
  | .div => "/"
  | .mod => "%"

/-- The head of a function from its type parameters to its result. -/
def functionHead : List (Pattern Rule) :=
  [.opt (.call typeParams), .lit "(", .opt (.call params), .lit ")", .opt (.call returnType)]

def semicolon : Pattern Rule := .opt (.lit ";")

def body : Rule → Pattern Rule
  | finish => .finish
  | keyword k => wholeWord (.lit k.word)
  | reserved => wholeWord (.firstOf (.lit "const") [.lit "let", .lit "var", .lit "function",
      .lit "for", .lit "if", .lit "else", .lit "return", .lit "true", .lit "false", .lit "null",
      .lit "undefined"])
  | ident => .seq (.forbid (.call reserved)) nameChars
  | propName => nameChars
  | program => .inOrder (.word []) [.many (.call statement), .call finish]
  | statement => .firstOf (.call declareStmt) [.call interfaceDecl, .call typeAlias,
      .call functionDecl, .call varStmt, .call forOfStmt, .call ifStmt, .call returnStmt,
      .call block, .call emptyStmt, .call assignStmt, .call exprStmt]
  | declareStmt => .seq (.call (keyword .declare))
      (.firstOf (.call fnSignature) [.call varSignature, .call spaceDecl])
  | fnSignature => .inOrder (.call (keyword .function))
      ([.call propName] ++ functionHead ++ [semicolon])
  | varSignature => .inOrder (.call varKind) [.call propName, .lit ":", .call type, semicolon]
  | spaceDecl => .inOrder (.call (keyword .space)) [.call ident, .lit "\x7b",
      .many (.alt (.call fnSignature) (.call varSignature)), .lit "\x7d"]
  | interfaceDecl => .inOrder (.opt (.call (keyword .declare))) [.call (keyword .interface),
      .call ident, .opt (.call typeParams),
      .opt (.seq (.call (keyword .extends)) (commaSeparated (.call typeRef))), .call objType]
  | typeAlias => .inOrder (.opt (.call (keyword .declare))) [.call (keyword .type), .call ident,
      .opt (.call typeParams), .lit "=", .call type, semicolon]
  | functionDecl => .inOrder (.call (keyword .function))
      ([.call ident] ++ functionHead ++ [.call block])
  | varStmt => .inOrder (.call varKind) [binding, .opt (.seq (.lit ":") (.call type)),
      .opt (.seq (.lit "=") (.call expr)), semicolon]
  | varKind => .firstOf (.call (keyword .const)) [.call (keyword .let), .call (keyword .var)]
  | arrayPattern => .inOrder (.lit "[") [.opt (commaSeparated (.call ident)), .opt (.lit ","),
      .lit "]"]
  | forOfStmt => .inOrder (.call (keyword .for)) [.lit "(", .call varKind, binding,
      .call (keyword .of), .call expr, .lit ")", .call statement]
  | ifStmt => .inOrder (.call (keyword .if)) [.lit "(", .call expr, .lit ")", .call statement,
      .opt (.seq (.call (keyword .else)) (.call statement))]
  | returnStmt => .inOrder (.call (keyword .return)) [.opt (.call expr), semicolon]
  | block => .inOrder (.lit "\x7b") [.many (.call statement), .lit "\x7d"]
  | emptyStmt => .lit ";"
  | assignStmt => .inOrder (.call assignTarget) [.lit "=", .forbid (.alt (.lit "=") (.lit ">")),
      .call expr, semicolon]
  | assignTarget => .seq (.call ident) (.many (.seq (.lit ".") (.call propName)))
  | exprStmt => .seq (.call expr) semicolon
  | params => .seq (commaSeparated (.call param)) (.opt (.lit ","))
  | param => .inOrder (.opt (.call restMarker)) [.call propName, .opt (.call optionalMarker),
      .opt (.seq (.lit ":") (.call type))]
  | restMarker => .lit "..."
  | optionalMarker => .lit "?"
  | returnType => .seq (.lit ":") (.call type)
  | typeParams => .inOrder (.lit "<") [commaSeparated (.call typeParam), .lit ">"]
  | typeParam => .inOrder (.call ident) [.opt (.seq (.call (keyword .extends)) (.call type)),
      .opt (.seq (.lit "=") (.call type))]
  | type => .seq (.call typeMember)
      (.many (.seq (.alt (.lit "|") (.lit "&")) (.call typeMember)))
  | typeMember => .seq (.call typePrimary) (.many (.call arraySuffix))
  | arraySuffix => .seq (.lit "[") (.lit "]")
  | typePrimary => .firstOf (.call fnType) [.call parenType, .call tupleType, .call objType,
      .call stringLit, .call numberLit, .call typeRef]
  | fnType => .inOrder (.opt (.call typeParams)) [.lit "(", .opt (.call params), .lit ")",
      .lit "=>", .call type]
  | parenType => .inOrder (.lit "(") [.call type, .lit ")"]
  | tupleType => .inOrder (.lit "[") [.opt (commaSeparated (.call tupleElem)), .opt (.lit ","),
      .lit "]"]
  | tupleElem => .inOrder (.opt (.call restMarker)) [.call type, .opt (.call optionalMarker)]
  | objType => .inOrder (.lit "\x7b")
      [.many (.seq (.call objMember) (.opt (.alt (.lit ";") (.lit ",")))), .lit "\x7d"]
  | objMember => .firstOf (.call indexSignature) [.call methodSignature, .call propertySignature]
  | indexSignature => .inOrder (.opt (.call (keyword .readonly))) [.lit "[", .call propName,
      .lit ":", .call type, .lit "]", .lit ":", .call type]
  | methodSignature => .inOrder (.call propName) (.opt (.call optionalMarker) :: functionHead)
  | propertySignature => .inOrder (.opt (.call (keyword .readonly))) [.call propName,
      .opt (.call optionalMarker), .lit ":", .call type]
  | typeRef => .seq (.call qualifiedName) (.opt (.call typeArgs))
  | qualifiedName => .seq nameChars (.many (.seq (.lit ".") nameChars))
  | typeArgs => .inOrder (.lit "<") [commaSeparated (.call type), .lit ">"]
  | expr => .seq operand (.many (.seq
      (.firstOf (.call (binaryOp .strictEq)) (binaryOps.tail.map fun op => .call (binaryOp op)))
      operand))
  | unaryOp .not => .lit "!"
  | unaryOp .neg => .lit "-"
  | unaryOp .bitNot => .lit "~"
  | callArgs => .inOrder (.lit "(") [.opt (commaSeparated (.call arg)), .opt (.lit ","), .lit ")"]
  | member => .seq (.lit ".") (.call propName)
  | nonNull => .seq (.lit "!") (.forbid (.lit "="))
  | arg => .seq (.opt (.call spread)) (.call expr)
  | spread => .lit "..."
  | binaryOp op => .lit (sign op)
  | primary => .firstOf (.call arrowFn) [.call parenExpr, .call arrayLit, .call objectLit,
      .call numberLit, .call stringLit, .call trueLit, .call falseLit, .call absentLit, .call ident]
  | arrowFn => .inOrder (.call arrowParams) [.opt (.call returnType), .lit "=>",
      .alt (.call block) (.call expr)]
  | arrowParams => .alt (.inOrder (.lit "(") [.opt (.call params), .lit ")"]) (.call ident)
  | parenExpr => .inOrder (.lit "(") [.call expr, .lit ")"]
  | arrayLit => .inOrder (.lit "[") [.opt (commaSeparated (.call arg)), .opt (.lit ","), .lit "]"]
  | objectLit => .inOrder (.lit "\x7b") [.opt (commaSeparated (.call property)), .opt (.lit ","),
      .lit "\x7d"]
  | property => .alt
      (.inOrder (.alt (.call propName) (.call stringLit)) [.lit ":", .call expr]) (.call ident)
  | numberLit => .alt
      (.seq (.alt (.lit "0x") (.lit "0X")) (.repeated (.char isHexDigit)))
      (.inOrder digits [.opt (.seq (.lit ".") digits),
        .opt (.inOrder (.alt (.lit "e") (.lit "E")) [.opt (.alt (.lit "+") (.lit "-")), digits])])
  | stringLit => .alt (.inOrder (.lit "\"") [.call doubleQuoted, .lit "\""])
      (.inOrder (.lit "'") [.call singleQuoted, .lit "'"])
  | doubleQuoted => quotedChars '"'
  | singleQuoted => quotedChars '\''
  | trueLit => wholeWord (.lit "true")
  | falseLit => wholeWord (.lit "false")
  | absentLit => wholeWord (.alt (.lit "null") (.lit "undefined"))

def manner : Rule → Manner
  | keyword _ | reserved | ident | propName | qualifiedName | nonNull | numberLit | doubleQuoted
  | singleQuoted | trueLit | falseLit | absentLit => .atomic
  | stringLit => .compound
  | statement | typePrimary | primary => .silent
  | _ => .normal

end Rule

/-- The grammar of the script language. -/
def grammar : Grammar Rule where
  rules := Rule.all
  manner := Rule.manner
  body := Rule.body
  skip := skipBlanks

end LuaSnippet.Script
