import LuaSnippet.Script.Operator

/-!
# The rules of the script language

The names of the rules by which a script is read, in the order in which an error message lists them.
-/

namespace LuaSnippet.Script

/-- The words that introduce a construct. -/
inductive Keyword where
  | const
  | «let»
  | var
  | function
  | declare
  | space
  | interface
  | type
  | extends
  | readonly
  | «for»
  | of
  | «if»
  | «else»
  | «return»
deriving DecidableEq, Repr

def Keyword.word : Keyword → String
  | .const => "const"
  | .let => "let"
  | .var => "var"
  | .function => "function"
  | .declare => "declare"
  | .space => "namespace"
  | .interface => "interface"
  | .type => "type"
  | .extends => "extends"
  | .readonly => "readonly"
  | .for => "for"
  | .of => "of"
  | .if => "if"
  | .else => "else"
  | .return => "return"

/-- A rule of the script language. -/
inductive Rule where
  | finish
  | keyword (k : Keyword)
  | reserved
  | ident
  | propName
  | program
  | statement
  | declareStmt
  | fnSignature
  | varSignature
  | spaceDecl
  | interfaceDecl
  | typeAlias
  | functionDecl
  | varStmt
  | varKind
  | arrayPattern
  | forOfStmt
  | ifStmt
  | returnStmt
  | block
  | emptyStmt
  | assignStmt
  | assignTarget
  | exprStmt
  | params
  | param
  | restMarker
  | optionalMarker
  | returnType
  | typeParams
  | typeParam
  | type
  | typeMember
  | arraySuffix
  | typePrimary
  | fnType
  | parenType
  | tupleType
  | tupleElem
  | objType
  | objMember
  | indexSignature
  | methodSignature
  | propertySignature
  | typeRef
  | qualifiedName
  | typeArgs
  | expr
  | unaryOp (op : UnaryOp)
  | callArgs
  | member
  | nonNull
  | arg
  | spread
  | binaryOp (op : BinaryOp)
  | primary
  | arrowFn
  | arrowParams
  | parenExpr
  | arrayLit
  | objectLit
  | property
  | numberLit
  | stringLit
  | doubleQuoted
  | singleQuoted
  | trueLit
  | falseLit
  | absentLit
deriving DecidableEq, Repr

namespace Rule

/-- The keywords, in the order of their rules. -/
def keywords : List Keyword :=
  [.const, .let, .var, .function, .declare, .space, .interface, .type, .extends, .readonly, .for,
    .of, .if, .else, .return]

/-- The binary operators, in the order of their rules: a longer sign stands before its beginnings. -/
def binaryOps : List BinaryOp :=
  [.strictEq, .strictNe, .eq, .ne, .and, .or, .shl, .ushr, .shr, .le, .ge, .lt, .gt, .bitAnd,
    .bitOr, .bitXor, .add, .sub, .mul, .div, .mod]

def all : List Rule :=
  [finish] ++ keywords.map keyword ++
  [reserved, ident, propName, program, statement, declareStmt, fnSignature, varSignature, spaceDecl,
    interfaceDecl, typeAlias, functionDecl, varStmt, varKind, arrayPattern, forOfStmt, ifStmt,
    returnStmt, block, emptyStmt, assignStmt, assignTarget, exprStmt, params, param, restMarker,
    optionalMarker, returnType, typeParams, typeParam, type, typeMember, arraySuffix, typePrimary,
    fnType, parenType, tupleType, tupleElem, objType, objMember, indexSignature, methodSignature,
    propertySignature, typeRef, qualifiedName, typeArgs, expr, unaryOp .not, unaryOp .neg,
    unaryOp .bitNot, callArgs, member, nonNull, arg, spread] ++
  binaryOps.map binaryOp ++
  [primary, arrowFn, arrowParams, parenExpr, arrayLit, objectLit, property, numberLit, stringLit,
    doubleQuoted, singleQuoted, trueLit, falseLit, absentLit]

def unaryName : UnaryOp → String
  | .not => "not_op"
  | .neg => "neg_op"
  | .bitNot => "bitnot_op"

/-- The name of a binary operator in messages. -/
def binaryName : BinaryOp → String
  | .or => "or"
  | .and => "and"
  | .bitOr => "bit_or"
  | .bitXor => "bit_xor"
  | .bitAnd => "bit_and"
  | .strictEq => "strict_eq"
  | .strictNe => "strict_ne"
  | .eq => "eq"
  | .ne => "ne"
  | .lt => "lt"
  | .le => "le"
  | .gt => "gt"
  | .ge => "ge"
  | .shl => "shl"
  | .shr => "shr"
  | .ushr => "ushr"
  | .add => "add"
  | .sub => "sub"
  | .mul => "mul"
  | .div => "div"
  | .mod => "modulo"

def name : Rule → String
  | finish => "EOI"
  | keyword k => "kw_" ++ k.word
  | reserved => "reserved"
  | ident => "ident"
  | propName => "prop_name"
  | program => "program"
  | statement => "statement"
  | declareStmt => "declare_stmt"
  | fnSignature => "fn_signature"
  | varSignature => "var_signature"
  | spaceDecl => "namespace_decl"
  | interfaceDecl => "interface_decl"
  | typeAlias => "type_alias"
  | functionDecl => "function_decl"
  | varStmt => "var_stmt"
  | varKind => "var_kind"
  | arrayPattern => "array_pattern"
  | forOfStmt => "for_of_stmt"
  | ifStmt => "if_stmt"
  | returnStmt => "return_stmt"
  | block => "block"
  | emptyStmt => "empty_stmt"
  | assignStmt => "assign_stmt"
  | assignTarget => "assign_target"
  | exprStmt => "expr_stmt"
  | params => "params"
  | param => "param"
  | restMarker => "rest_marker"
  | optionalMarker => "optional_marker"
  | returnType => "return_type"
  | typeParams => "type_params"
  | typeParam => "type_param"
  | type => "ty"
  | typeMember => "ty_member"
  | arraySuffix => "array_suffix"
  | typePrimary => "ty_primary"
  | fnType => "fn_type"
  | parenType => "paren_type"
  | tupleType => "tuple_type"
  | tupleElem => "tuple_elem"
  | objType => "obj_type"
  | objMember => "obj_member"
  | indexSignature => "index_signature"
  | methodSignature => "method_signature"
  | propertySignature => "property_signature"
  | typeRef => "ty_ref"
  | qualifiedName => "qualified_name"
  | typeArgs => "type_args"
  | expr => "expr"
  | unaryOp op => unaryName op
  | callArgs => "call_args"
  | member => "member"
  | nonNull => "non_null"
  | arg => "arg"
  | spread => "spread"
  | binaryOp op => binaryName op
  | primary => "primary"
  | arrowFn => "arrow_fn"
  | arrowParams => "arrow_params"
  | parenExpr => "paren_expr"
  | arrayLit => "array_lit"
  | objectLit => "object_lit"
  | property => "property"
  | numberLit => "number_lit"
  | stringLit => "string_lit"
  | doubleQuoted => "dq_chars"
  | singleQuoted => "sq_chars"
  | trueLit => "true_lit"
  | falseLit => "false_lit"
  | absentLit => "null_lit"

end Rule

end LuaSnippet.Script
