import Batchwork.Table.Session

/-!
# Databases

What a table writer asks of the database at the other end of its session.
-/

namespace Batchwork.Table

/-- A database with sessions `δ`. A session may change also if a request is refused. -/
structure Database (δ : Type) where
  begin : δ → Except Fault Unit × δ
  /-- Inserts rows by one statement, of which the head is given. -/
  insert : (head : String) → (rows : List (List Cell)) → δ → Except Fault Unit × δ
  commit : δ → Except Fault Unit × δ
  rollback : δ → Except Fault Unit × δ
  /-- Takes back a transaction that nobody will end. -/
  abandon : δ → δ

/-- The answer to a request that leaves the session as it is if it is refused. -/
def answered {δ : Type} (session : δ) : Except Fault δ → Except Fault Unit × δ
  | .ok after => (.ok (), after)
  | .error fault => (.error fault, session)

def Session.database : Database Session where
  begin session := answered session session.begin
  insert head rows session := session.insert head rows
  commit session := answered session session.commit
  rollback session := answered session session.rollback
  abandon session := session.abandon

end Batchwork.Table
