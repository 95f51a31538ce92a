import LuaSnippet.Session.Basic

/-!
# Steps of a session

A session on a disk goes step by step: it compiles snippets, changes which declaration files belong
to the dialects and looks at its store, while files of the disk are written and deleted. Every step
has an answer.
-/

namespace LuaSnippet.Session

/-- What can be done next. -/
inductive Step where
  | run (d : Dialect) (snippet : String)
  /-- A run that is expected to succeed. -/
  | require (d : Dialect) (snippet : String)
  | setDeclaration (d : Dialect) (path : Option String)
  | showDeclarations
  | textOf (name : String)
  | isKept (name : String)
  | describe
  | write (path text : String)
  | delete (path : String)
deriving Repr

inductive Answer where
  | outcome (result : Except Failure String)
  /-- The Lua text, or nothing where a run that had to succeed did not. -/
  | required (lua : Option String)
  | replaced (path : Option String)
  | declarations (paths : List (Option String))
  | text (text : Option String)
  | kept (answer : Bool)
  | description (text : String)
  | done

/-- A session and the disk that it reads from. -/
structure World where
  disk : Disk
  session : Session

namespace World

def step (w : World) : Step → Answer × World
  | .run d snippet =>
    let r := w.session.run w.disk d snippet
    (.outcome r.1, { w with session := r.2 })
  | .require d snippet =>
    let r := w.session.run w.disk d snippet
    (.required r.1.toOption, { w with session := r.2 })
  | .setDeclaration d path =>
    (.replaced (w.session.declarations d),
      { w with session := { w.session with declarations := w.session.declarations.set d path } })
  | .showDeclarations => (.declarations w.session.declarations.paths, w)
  | .textOf name => (.text (w.session.store.texts.get? name), w)
  | .isKept name => (.kept (w.session.store.texts.get? name).isSome, w)
  | .describe => (.description w.session.store.texts.describe, w)
  | .write path text => (.done, { w with disk := w.disk.write path text })
  | .delete path => (.done, { w with disk := w.disk.delete path })

/-- The world after some steps. -/
def after (w : World) (steps : List Step) : World :=
  steps.foldl (fun w s => (w.step s).2) w

end World

end LuaSnippet.Session
