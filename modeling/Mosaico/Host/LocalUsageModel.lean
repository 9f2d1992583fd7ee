import Mosaico.Host.TokenHistoryModel
import Mosaico.Library.CText
import Mosaico.Library.LineStream
import Mosaico.Library.Sha256
import Mathlib.Algebra.Group.Nat.Defs
import Mathlib.Algebra.Group.Int.Defs

/-! `tools/local_usage.py`: usage events read from a log that other programs append to, and the outbox they
wait in until the service has them. What the standard library does with a line, a time and a document is a
parameter. -/
namespace Mosaico.Host.LocalUsage

open TokenHistory LineStream

def maxTokens : Int := 2 ^ 53 - 1

/-- `json.loads` of a line, where a number has a value if it is an `int`; the epoch of a time text that has an offset;
`json.dumps` with sorted keys. -/
structure Runtime where
  loads : List UInt8 → Option Json
  isoEpoch : String → Option Int
  dumps : Json → List UInt8

structure Event where
  id : Sha256.Digest
  epoch : Int
  tokens : Int
  deriving DecidableEq

/-- What a record says once it has passed every check. -/
structure Reading where
  timestamp : String
  epoch : Int
  cumulative : Json
  recent : Json
  total : Int
  last : Int

def isDict : Option Json → Bool
  | some (.object _) => true
  | _ => false

def tokenCount (usage : Option Json) : Option Int :=
  match item usage "total_tokens" with
  | some (.number (some v)) => if 0 ≤ v ∧ v ≤ maxTokens then some v else none
  | _ => none

def reading (rt : Runtime) (record : Json) : Option Reading :=
  let payload := some ((item (some record) "payload").getD (.object []))
  if !isDict payload || text (some record) "type" ≠ some "event_msg" || text payload "type" ≠
    some "token_count" then none
  else
    let info := item payload "info"
    match item info "total_token_usage", item info "last_token_usage" with
    | some cumulative, some recent =>
      match tokenCount (some cumulative), tokenCount (some recent), text (some record) "timestamp" with
      | some total, some last, some timestamp =>
        (rt.isoEpoch timestamp).map fun epoch => { timestamp, epoch, cumulative, recent, total, last }
      | _, _, _ => none
    | _, _ => none

def identity (rt : Runtime) (r : Reading) : Sha256.Digest :=
  Sha256.sha256 (rt.dumps (.array [.string r.timestamp, r.cumulative, r.recent]))

def eventFromRecord (rt : Runtime) (record : Json) (previous : Option Int) : Option Event × Option Int :=
  match reading rt record with
  | none => (none, previous)
  | some r =>
    -- Equal cumulative totals are repeated notifications, not fresh usage.
    if some r.total = previous then (none, some r.total)
    else if r.last = 0 then (none, some r.total)
    else (some { id := identity rt r, epoch := r.epoch, tokens := r.last }, some r.total)

structure Cursor where
  offset : Nat
  previous : Option Int
  identity : String
  deriving DecidableEq

/-- The database, as far as one log goes. `placed` is no table: it remembers every row that was ever inserted. -/
structure Db where
  cursor : Option Cursor := none
  outbox : List Event := []
  placed : List Event := []
  deriving DecidableEq

/-- `INSERT OR IGNORE`. -/
def Db.insert (db : Db) (event : Event) : Db :=
  if db.outbox.any fun row => row.id = event.id then db
  else { db with outbox := db.outbox ++ [event], placed := db.placed ++ [event] }

structure File where
  identity : String
  mtime : Int
  content : List UInt8 := []

def cutoff (now : Int) : Int := now - 30 * 86400

def newline (c : UInt8) : Bool := c = 10

def marker : List UInt8 := CText.ascii "\"token_count\""

/-- The event of a line, if it has one, and the total that the next one is compared with. -/
def lineEvent (rt : Runtime) (previous : Option Int) (line : List UInt8) : Option Event × Option Int :=
  if CText.strstr marker line = none then (none, previous)
  else match rt.loads line with
    | some (.object members) => eventFromRecord rt (.object members) previous
    | _ => (none, previous)

def readLine (rt : Runtime) (now : Int) (s : Option Int × Db) (line : List UInt8) : Option Int × Db :=
  match lineEvent rt s.1 line with
  | (some event, previous) =>
    (previous, if cutoff now ≤ event.epoch ∧ event.epoch ≤ now + 300 then s.2.insert event else s.2)
  | (none, previous) => (previous, s.2)

def resume (file : File) (db : Db) : Nat × Option Int :=
  match db.cursor with
  | some row => if row.identity = file.identity ∧ row.offset ≤ file.content.length
      then (row.offset, row.previous) else (0, none)
  | none => (0, none)

def scanFile (rt : Runtime) (now : Int) (file : File) (db : Db) : Db :=
  if file.mtime < cutoff now then db
  else
    let (offset, previous) := resume file db
    if (db.cursor.any fun row => row.identity = file.identity) ∧ offset = file.content.length then db
    else
      let fresh := lines newline (file.content.drop offset)
      let (previous, db) := fresh.foldl (readLine rt now) (previous, db)
      { db with cursor := some { offset := offset + fresh.flatten.length, previous, identity := file.identity } }

def scan (rt : Runtime) (now : Int) (file : File) (db : Db) : Db :=
  let db := scanFile rt now file db
  { db with outbox := db.outbox.filter fun event => cutoff now ≤ event.epoch }

def pending (db : Db) (limit : Nat) : List Event :=
  (db.outbox.mergeSort fun a b => a.epoch ≤ b.epoch).take limit

def acknowledge (db : Db) (events : List Event) : Db :=
  { db with outbox := db.outbox.filter fun row => !events.any fun event => event.id = row.id }

/-- What may happen between two scans. A restart opens the same database. -/
inductive Op where
  | append (data : List UInt8) (mtime : Int)
  | scan
  | deliver (limit : Nat)
  | restart
  deriving DecidableEq

structure State where
  file : File
  db : Db := {}

def step (rt : Runtime) (now : Int) (s : State) : Op → State
  | .append data mtime => { s with file := { s.file with content := s.file.content ++ data, mtime } }
  | .scan => { s with db := scan rt now s.file s.db }
  | .deliver limit => { s with db := acknowledge s.db (pending s.db limit) }
  | .restart => s

def run (rt : Runtime) (now : Int) (s : State) (ops : List Op) : State := ops.foldl (step rt now) s

end Mosaico.Host.LocalUsage
