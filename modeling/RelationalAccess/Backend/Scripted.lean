import RelationalAccess.Backend

/-!
A backend that answers from a list of replies made beforehand, and keeps a
record of what was sent to it.
-/

namespace RelationalAccess

/-- The reply to one statement, whichever way it is run. -/
structure Reply where
  rows : List (List Value) := []
  affected : Nat := 1
  insertedKey : Option Int64 := none
  failure : Option Error := none

/-- What is sent to a backend. -/
inductive Message where
  | query (statement : Statement)
  | execute (statement : Statement)
  | start
  | commit
  | rollback

/-- What a scripted backend is going to answer, and what it was sent. -/
structure Script where
  replies : List Reply := []
  startFailure : Option Error := none
  commitFailure : Option Error := none
  rollbackFailure : Option Error := none
  /-- How many transactions were started. -/
  started : Nat := 0
  /-- What was sent, within the transaction of a handle or outside any. -/
  sent : List (Option Nat × Message) := []

namespace Script

def record (handle : Option Nat) (message : Message) : Action Script Unit :=
  modify fun script => { script with sent := script.sent ++ [(handle, message)] }

/-- The next reply. When none is left, statements find no row and change one. -/
def reply : Action Script Reply := do
  let script ← get
  set { script with replies := script.replies.tail }
  let next := script.replies.headD {}
  match next.failure with
  | some error => throw error
  | none => return next

/-- Fails with an error if there is one. -/
def failWith : Option Error → Action Script Unit
  | some error => throw error
  | none => return ()

/-- The backend that follows a script. A call that is to fail fails once. -/
def backend : Backend Script where
  query statement := do
    record none (.query statement)
    return (← reply).rows
  start := do
    record none .start
    let script ← get
    set { script with startFailure := none }
    failWith script.startFailure
    set { script with startFailure := none, started := script.started + 1 }
    return script.started
  execute handle statement := do
    record (some handle) (.execute statement)
    let next ← reply
    return ⟨next.affected, next.insertedKey⟩
  commit handle := do
    record (some handle) .commit
    let script ← get
    set { script with commitFailure := none }
    failWith script.commitFailure
  rollback handle := do
    record (some handle) .rollback
    let script ← get
    set { script with rollbackFailure := none }
    failWith script.rollbackFailure

end Script

end RelationalAccess
