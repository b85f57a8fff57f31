import Quilkin.Corrosion.ServerIter
import Mathlib.Logic.Function.Basic

/-!
# The servers table a corrosion server writes for its mutation clients

Model of what `DbMutator::submit` of `BroadcastingTransactor`
(`crates/corrosion/src/persistent/mutator.rs`) does to the `servers` table with the changes a
client sends, through the statements of `Server` (`crates/corrosion/src/db/write.rs`): an upsert
is an `INSERT` of the endpoint's row that updates the row when there is one, a removal a `DELETE`
of the row whatever its contributors (`remove_immediate`), and an update an `UPDATE` of the row,
which changes nothing when there is no row. The statements of a request run in order.

The table is its `tokens` column, keyed by `endpoint`. The ICAO code, the contributors and the
time they last changed, and the `dc` table that the same statements write, are left out: nothing
that reads the table in this model looks at them. A change to the mutator (`UpdateMutator`)
writes only the `dc` table. The failure of a statement, which rolls its request back, is left
out as well.
-/

namespace Quilkin.Corrosion

variable {Ep Ts Mu : Type}

/-- `ServerUpsert`, without its ICAO code. -/
structure ServerUpsert (Ep Ts : Type) where
  endpoint : Ep
  tokens : Ts

/-- `ServerUpdate`, without its ICAO code. -/
structure ServerUpdate (Ep Ts : Type) where
  endpoint : Ep
  tokens : Option Ts

/-- The changes of the mutation protocol, as the push provider sends them. -/
abbrev PushChange (Ep Ts Mu : Type) := ServerChange (ServerUpsert Ep Ts) Ep (ServerUpdate Ep Ts) Mu

/-- The `servers` table: the token set in the row of each endpoint. -/
abbrev ServersTable (Ep Ts : Type) := Ep → Option Ts

namespace ServersTable

variable [DecidableEq Ep] (t : ServersTable Ep Ts)

/-- `Server::upsert`: the row of the endpoint gets the token set, made when there is none. -/
def upsert (endpoint : Ep) (tokens : Ts) : ServersTable Ep Ts :=
  Function.update t endpoint (some tokens)

/-- `Server::remove_immediate`: the row of the endpoint is deleted. -/
def removeImmediate (endpoint : Ep) : ServersTable Ep Ts :=
  Function.update t endpoint none

/-- `Server::update`: the row of the endpoint, if there is one, gets the token set given. With
no token set the statement changes only the ICAO code, or is not made. -/
def update (endpoint : Ep) (tokens : Option Ts) : ServersTable Ep Ts :=
  match tokens, t endpoint with
  | some tokens, some _ => Function.update t endpoint (some tokens)
  | _, _ => t

end ServersTable

variable [DecidableEq Ep]

/-- The statements `submit` makes for one change, run in order. -/
def submitChange (t : ServersTable Ep Ts) : PushChange Ep Ts Mu → ServersTable Ep Ts
  | .upsert us => us.foldl (fun t u => t.upsert u.endpoint u.tokens) t
  | .remove rs => rs.foldl ServersTable.removeImmediate t
  | .update us => us.foldl (fun t u => t.update u.endpoint u.tokens) t
  | .updateMutator _ => t

/-- `submit`: the changes of a request, in order. -/
def submit (t : ServersTable Ep Ts) (changes : List (PushChange Ep Ts Mu)) : ServersTable Ep Ts :=
  changes.foldl submitChange t

end Quilkin.Corrosion
