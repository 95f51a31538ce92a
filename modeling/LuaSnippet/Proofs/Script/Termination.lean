import LuaSnippet.Script.Reading
import LuaSnippet.Proofs.Peg.Termination

/-!
# Matching a script ends

The rules of the script language are ranked (`ranked_grammar`): what a rule calls before a character
is read has a smaller rank. With the limit that a reading is given, matching ends for every text
(`finished_parse`).
-/

namespace LuaSnippet.Script

open Peg (Context Cursor Pattern Grammar)

/-! ### Blanks -/

/-- Whether a comment that a reader is in, if it is one that has to be closed, opened behind a
cursor. -/
def BlankState.OpenedBehind (origin : Cursor) : BlankState → Prop
  | .between | .line => True
  | .block opened => origin.Leads opened

/-- Passing over blanks leads forward, also where a comment that is never closed is given up. -/
theorem leads_skipFrom {origin : Cursor} {state : BlankState} {offset : Nat} {cs : List Char}
    (hopened : state.OpenedBehind origin) (h : origin.Leads ⟨offset, cs⟩) :
    origin.Leads (skipFrom state offset cs) := by
  have hpast : ∀ {offset : Nat} {c : Char} {cs : List Char}, origin.Leads ⟨offset, c :: cs⟩ →
      origin.Leads ⟨offset + c.utf8Size, cs⟩ :=
    fun h => h.trans (.past rfl)
  fun_induction skipFrom state offset cs with
  | case1 | case2 | case5 | case8 | case9 => exact h
  | case3 | case12 => exact hopened
  | case4 offset c cs _ ih | case10 offset c cs _ ih | case11 offset c cs _ ih =>
    exact ih trivial (hpast h)
  | case6 offset ds _ ih => exact ih trivial (hpast (hpast h))
  | case7 offset ds _ _ ih => exact ih h (hpast (hpast h))
  | case13 opened offset ds ih => exact ih trivial (hpast (hpast h))
  | case14 opened offset d ds _ ih => exact ih hopened (hpast h)
  | case15 opened offset c cs _ ih => exact ih hopened (hpast h)

theorem skipsAhead_grammar : grammar.SkipsAhead := by
  intro cur
  show cur.Leads (skipFrom .between cur.offset cur.rest)
  exact leads_skipFrom trivial (.refl cur)

/-- Behind the blanks there are no blanks. A comment that is never closed is none, also when the reader
comes to it again. -/
theorem skipBlanks_skipFrom {state : BlankState} {offset : Nat} {cs : List Char}
    (hstate : ∀ opened, state = .block opened → skipBlanks opened = skipFrom state offset cs) :
    skipBlanks (skipFrom state offset cs) = skipFrom state offset cs := by
  fun_induction skipFrom state offset cs with
  | case1 | case2 => rfl
  | case3 opened | case12 opened => exact hstate opened rfl
  | case4 _ _ _ _ ih | case6 _ _ _ ih | case10 _ _ _ _ ih | case11 _ _ _ _ ih
  | case13 _ _ _ ih => exact ih (by simp)
  | case7 _ _ _ _ ih =>
    refine ih fun opened hopened => ?_
    cases hopened
    rfl
  | case14 opened _ _ _ _ ih | case15 opened _ _ _ _ ih =>
    refine ih fun _ hopened => ?_
    cases hopened
    exact hstate opened rfl
  | case5 | case8 | case9 =>
    rw [skipBlanks, skipFrom.eq_def]
    simp [*]

theorem pass_pass (ctx : Context) (cur : Cursor) :
    grammar.pass ctx (grammar.pass ctx cur) = grammar.pass ctx cur := by
  unfold Peg.Grammar.pass
  split
  · exact skipBlanks_skipFrom nofun
  · rfl

/-! ### Ranks -/

namespace Rule

/-- The rules that may match without reading a character. -/
def isNullable : Rule → Bool
  | finish | program | doubleQuoted | singleQuoted => true
  | _ => false

/-- The ranks of the rules: a rule is ranked above those that its body starts with. -/
def rank : Rule → Nat
  | program => 48
  | statement => 44
  | exprStmt | arg => 32
  | expr => 30
  | primary => 26
  | assignStmt | tupleElem | arrowFn => 21
  | assignTarget | type | typeParam | arrowParams | property => 18
  | ident | typeMember => 16
  | typePrimary => 14
  | reserved => 13
  | varSignature | varStmt | params | objMember => 10
  | declareStmt | fnSignature | spaceDecl | interfaceDecl | typeAlias | functionDecl | varKind
  | forOfStmt | ifStmt | returnStmt | param | fnType | indexSignature | methodSignature
  | propertySignature | typeRef => 7
  | _ => 4

/-- How many calls at most lie one within the other between two characters of a script. -/
def depthBound : Nat := 60

end Rule

/-- **No rule comes back to itself, and no repetition goes round, without reading a character.** -/
theorem ranked_grammar : grammar.Ranked Rule.isNullable Rule.rank Rule.depthBound where
  skipsAhead := skipsAhead_grammar
  nullable r := by
    cases r with
    | keyword k => cases k <;> decide
    | unaryOp op => cases op <;> decide
    | binaryOp op => cases op <;> decide
    | _ => decide
  bounded r := by
    cases r with
    | keyword k => cases k <;> decide
    | unaryOp op => cases op <;> decide
    | binaryOp op => cases op <;> decide
    | _ => decide
  falls r := by
    cases r with
    | keyword k => cases k <;> decide
    | unaryOp op => cases op <;> decide
    | binaryOp op => cases op <;> decide
    | _ => decide

theorem finished_parse (text : List Char) : (grammar.parse .program text).IsFinished := by
  apply ranked_grammar.finished
  · rfl
  · have hdepth : grammar.depth = 950 := by decide
    show text.length * Rule.depthBound + (48 + 1) ≤ (text.length + 1) * grammar.depth
    rw [hdepth, Rule.depthBound]
    omega

end LuaSnippet.Script
