import LuaSnippet.Peg.Grammar
import LuaSnippet.Peg.Attempts

/-!
# Matching

Matching a pattern at a cursor gives the nodes of the rules that matched and the cursor behind them,
or fails; either way it keeps the record of attempts. The depth of the calls is limited by a number,
and a run that would go deeper is left unfinished. `Grammar.parse` takes a limit that a grammar
without left recursion never reaches.
-/

namespace LuaSnippet.Peg

/-- A rule that matched from one place to another, with the rules that matched within. -/
inductive Node (R : Type) where
  | mk (rule : R) (start stop : Cursor) (children : List (Node R))

namespace Node

variable {R : Type}

def rule : Node R → R
  | .mk r _ _ _ => r

def start : Node R → Cursor
  | .mk _ a _ _ => a

def stop : Node R → Cursor
  | .mk _ _ b _ => b

def children : Node R → List (Node R)
  | .mk _ _ _ xs => xs

end Node

/-- Whether blanks are passed over, and whether rules leave a trace. -/
inductive Atomicity where
  | spaced
  | compound
  | atomic
deriving DecidableEq, Repr

/-- The circumstances of a match. -/
structure Context where
  atomicity : Atomicity
  look : Look
deriving DecidableEq, Repr

namespace Context

/-- Whether a rule that matches becomes a node. -/
def makesNodes (ctx : Context) : Bool :=
  ctx.look = .none && ctx.atomicity ≠ .atomic

/-- Whether the attempt at a rule is recorded. -/
def records (ctx : Context) : Bool :=
  ctx.atomicity ≠ .atomic

/-- The circumstances in which a rule itself is tried. -/
def outer (ctx : Context) : Manner → Context
  | .compound => { ctx with atomicity := .compound }
  | .normal | .atomic | .silent => ctx

/-- The circumstances in which the body of a rule is tried. -/
def inner (ctx : Context) : Manner → Context
  | .compound => { ctx with atomicity := .compound }
  | .atomic => { ctx with atomicity := .atomic }
  | .normal | .silent => ctx

/-- The circumstances within a forbidding look ahead. -/
def ahead (ctx : Context) : Context := { ctx with look := ctx.look.inside }

end Context

/-- How a match ends. -/
inductive Outcome (R : Type) where
  | matched (nodes : List (Node R)) (stop : Cursor) (log : Attempts R)
  | failed (log : Attempts R)
  /-- The limit on the depth of calls was reached. -/
  | unfinished

namespace Grammar

variable {R : Type}

/-- The cursor behind the blanks that may stand here. -/
def pass (g : Grammar R) (ctx : Context) (cur : Cursor) : Cursor :=
  if ctx.atomicity = .spaced then g.skip cur else cur

/-- Ends the attempt at a rule: a node if it matched, and an entry in the record if it failed, or if
it matched where it is forbidden. -/
def close (ctx : Context) (r : R) (cur : Cursor) (before : Attempts R) : Outcome R → Outcome R
  | .matched nodes stop log =>
    .matched (if ctx.makesNodes then [.mk r cur stop nodes] else nodes) stop
      (if ctx.records && ctx.look = .forbidding then log.enter before ctx.look r cur.offset
        else log)
  | .failed log =>
    .failed (if ctx.records && ctx.look ≠ .forbidding then log.enter before ctx.look r cur.offset
      else log)
  | .unfinished => .unfinished

/-- Matches a pattern at a cursor, with at most `depth` calls one within the other. -/
def run (g : Grammar R) : Nat → Context → Pattern R → Cursor → Attempts R → Outcome R
  | 0, _, _, _, _ => .unfinished
  | _ + 1, _, .word w, cur, log =>
    match cur.take? w with
    | some stop => .matched [] stop log
    | none => .failed log
  | _ + 1, _, .char p, cur, log =>
    match cur.rest with
    | c :: cs => if p c then .matched [] (cur.past c cs) log else .failed log
    | [] => .failed log
  | _ + 1, _, .finish, cur, log =>
    match cur.rest with
    | [] => .matched [] cur log
    | _ :: _ => .failed log
  | depth + 1, ctx, .seq a b, cur, log =>
    match g.run depth ctx a cur log with
    | .matched xs mid log =>
      match g.run depth ctx b (g.pass ctx mid) log with
      | .matched ys stop log => .matched (xs ++ ys) stop log
      | other => other
    | other => other
  | depth + 1, ctx, .alt a b, cur, log =>
    match g.run depth ctx a cur log with
    | .failed log => g.run depth ctx b cur log
    | other => other
  | depth + 1, ctx, .opt a, cur, log =>
    match g.run depth ctx a cur log with
    | .failed log => .matched [] cur log
    | other => other
  | depth + 1, ctx, .many a, cur, log =>
    match g.run depth ctx a cur log with
    | .matched xs mid log =>
      match g.run depth ctx (.further a) mid log with
      | .matched ys stop log => .matched (xs ++ ys) stop log
      | other => other
    | .failed log => .matched [] cur log
    | .unfinished => .unfinished
  | depth + 1, ctx, .further a, cur, log =>
    match g.run depth ctx a (g.pass ctx cur) log with
    | .matched xs mid log =>
      match g.run depth ctx (.further a) mid log with
      | .matched ys stop log => .matched (xs ++ ys) stop log
      | other => other
    | .failed log => .matched [] cur log
    | .unfinished => .unfinished
  | depth + 1, ctx, .forbid a, cur, log =>
    match g.run depth ctx.ahead a cur log with
    | .matched _ _ log => .failed log
    | .failed log => .matched [] cur log
    | .unfinished => .unfinished
  | depth + 1, ctx, .call r, cur, log =>
    match g.manner r with
    | .silent => g.run depth ctx (g.body r) cur log
    | manner =>
      close (ctx.outer manner) r cur log (g.run depth (ctx.inner manner) (g.body r) cur log)

/-- The limit that a reading of a text is given. -/
def limit (g : Grammar R) (text : List Char) : Nat :=
  (text.length + 1) * g.depth

/-- Reads a text from its start by one rule. -/
def parse (g : Grammar R) (r : R) (text : List Char) : Outcome R :=
  g.run (g.limit text) ⟨.spaced, .none⟩ (.call r) (Cursor.start text) .empty

end Grammar

end LuaSnippet.Peg
