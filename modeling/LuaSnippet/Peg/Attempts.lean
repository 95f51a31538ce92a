/-!
# What was looked for

A failed reading is explained by the furthest place at which a rule was tried, and by the rules that
were wanted there, or that stood there although they were forbidden. The record is kept while
matching: every attempt notes how much was recorded when it began, and on failing it replaces what
its own parts recorded at the same place, unless that is exactly one entry, which says more than the
rule itself.
-/

namespace LuaSnippet.Peg

/-- Whether matching happens within a look ahead, and whether that one forbids. -/
inductive Look where
  | none
  | forbidding
  | requiring
deriving DecidableEq, Repr

def Look.inside : Look → Look
  | .forbidding => .requiring
  | .none | .requiring => .forbidding

/-- The rules recorded at the furthest place tried, latest first. -/
structure Attempts (R : Type) where
  furthest : Nat
  wanted : List R
  unwanted : List R
deriving DecidableEq, Repr

namespace Attempts

variable {R : Type}

/-- The record before anything is tried. -/
def empty : Attempts R := ⟨0, [], []⟩

/-- How many rules are recorded at a place. -/
def countAt (log : Attempts R) (place : Nat) : Nat :=
  if place = log.furthest then log.wanted.length + log.unwanted.length else 0

/-- The first `n` entries made, of entries listed latest first. -/
def earliest (n : Nat) (rules : List R) : List R :=
  rules.drop (rules.length - n)

/-- The record without the entries made at a place since an attempt began there. -/
def rewind (log before : Attempts R) (place : Nat) : Attempts R :=
  if place = log.furthest then
    if place = before.furthest then
      ⟨log.furthest, earliest before.wanted.length log.wanted,
        earliest before.unwanted.length log.unwanted⟩
    else ⟨log.furthest, [], []⟩
  else if log.furthest < place then ⟨place, [], []⟩
  else log

/-- Enters a rule that was tried at a place, given the record from before the attempt. -/
def enter (log before : Attempts R) (look : Look) (rule : R) (place : Nat) : Attempts R :=
  if log.countAt place = before.countAt place + 1 then log
  else
    let log := log.rewind before place
    if place = log.furthest then
      if look = .forbidding then { log with unwanted := rule :: log.unwanted }
      else { log with wanted := rule :: log.wanted }
    else log

end Attempts

end LuaSnippet.Peg
