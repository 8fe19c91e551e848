import Suwappu.Lib.Machine
import Suwappu.Lib.Checked
import Suwappu.MpcSigner.Bytes

/-!
# The ledger of executions

A signing execution is reserved by a file that is created once and never removed. The calls of all
processes take turns, one operation on the file system at a time, each of which may fail; a process
may be killed, and a power loss takes with it what has not been synced.
-/

namespace Suwappu.MpcSigner.ExecutionLedger

open Checked

def RECORD_MAGIC : Bytes := ascii "SUWAPPU-MPC-EXEC-v1\n"

inductive LedgerError where
  | InvalidIdentifier | MissingParent | Replay | Io
deriving DecidableEq, Repr

/-- SHA-512 -/
abbrev Sha512 := Bytes → { digest : Bytes // digest.length = 64 }

/-- The arguments of `reserve`; texts are their bytes. -/
structure Request where
  keyId : Bytes
  executionId : Bytes
  intentHash : Bytes32
deriving DecidableEq

/-! ### Records -/

def validateIdentifier (value : Bytes) : Except LedgerError Unit :=
  guard (¬ (value = [] ∨ value.length > 256)) .InvalidIdentifier

def HEX : Bytes := ascii "0123456789abcdef"

def hexByte (byte : UInt8) : Bytes :=
  [HEX.getD (byte >>> 4).toNat 0, HEX.getD (byte &&& 0x0f).toNat 0]

def toHex (bytes : Bytes) : Bytes := bytes.flatMap hexByte

/-- What `record_id` hashes. -/
def preimage (keyId executionId : Bytes) : Bytes :=
  ascii "suwappu/native-mpc/execution-ledger/v1\x00" ++ toBeBytes 8 keyId.length ++ keyId ++
    toBeBytes 8 executionId.length ++ executionId

def recordId (sha512 : Sha512) (keyId executionId : Bytes) : Bytes :=
  toHex ((sha512 (preimage keyId executionId)).val.take 32)

/-- The name of the file in the ledger's directory. -/
def fileName (sha512 : Sha512) (keyId executionId : Bytes) : Bytes :=
  recordId sha512 keyId executionId ++ ascii ".exec"

def Request.name (sha512 : Sha512) (r : Request) : Bytes := fileName sha512 r.keyId r.executionId

/-- The contents of a complete reservation. -/
def Request.record (r : Request) : Bytes :=
  RECORD_MAGIC ++ ascii "intent=" ++ toHex r.intentHash.val ++ ascii "\nstate=reserved\n"

/-! ### Files -/

/-- An operation of a call on its file or on the directory. -/
inductive Op where
  | writeAll (bytes : Bytes)
  | syncAll
  | fsyncDir
deriving DecidableEq

/-- What `reserve` does after it has created the file. -/
def Request.ops (r : Request) : List Op :=
  [.writeAll RECORD_MAGIC, .writeAll (ascii "intent="), .writeAll (toHex r.intentHash.val),
    .writeAll (ascii "\nstate=reserved\n"), .syncAll, .fsyncDir]

/-- What `mark_completed` does after it has opened the file. -/
def completedOps : List Op := [.writeAll (ascii "state=completed\n"), .syncAll, .fsyncDir]

structure Entry where
  contents : Bytes
  /-- how many of the bytes are on the disk -/
  synced : ℕ
  /-- whether the entry of the directory is on the disk -/
  linked : Bool
deriving DecidableEq

/-- A call that is under way. -/
structure Task where
  name : Bytes
  ops : List Op
  /-- the reservation it returns, if it is one of `reserve` -/
  request : Option Request

/-- The directory of the ledger, and the calls of all processes. -/
structure State where
  /-- whether the directory exists, and then whether it is on the disk of its parent -/
  root : Option Bool
  files : Bytes → Option Entry
  tasks : ℕ → Option Task
  /-- the calls of `reserve` that have returned a reservation -/
  reserved : List Request

def State.init : State := ⟨none, fun _ => none, fun _ => none, []⟩

def Entry.write (e : Entry) (bytes : Bytes) : Entry := { e with contents := e.contents ++ bytes }

def Entry.sync (e : Entry) : Entry := { e with synced := e.contents.length }

def Entry.link (e : Entry) : Entry := { e with linked := true }

/-- What is left after a power loss that spares `kept` bytes beyond those synced. -/
def Entry.cut (e : Entry) (kept : ℕ) : Entry :=
  let contents := e.contents.take (e.synced + kept)
  ⟨contents, contents.length, true⟩

namespace State

def modify (s : State) (name : Bytes) (f : Entry → Entry) : State :=
  { s with files := Function.update s.files name ((s.files name).map f) }

def perform (s : State) (name : Bytes) : Op → State
  | .writeAll bytes => s.modify name fun e => e.write bytes
  | .syncAll        => s.modify name Entry.sync
  | .fsyncDir       => { s with files := fun name => (s.files name).map Entry.link }

def setTask (s : State) (slot : ℕ) (task : Option Task) : State :=
  { s with tasks := Function.update s.tasks slot task }

end State

/-! ### Runs -/

inductive Event where
  /-- `open` creates the directory -/
  | createRoot
  /-- `open` syncs the directory it has created -/
  | syncRoot
  /-- a call of `reserve` creates its file -/
  | reserve (slot : ℕ) (request : Request)
  /-- a call of `mark_completed` opens the file of its reservation -/
  | markCompleted (slot : ℕ) (request : Request)
  /-- a call takes its next operation, or returns -/
  | run (slot : ℕ)
  /-- a call fails after it has written some bytes, or its process is killed -/
  | fail (slot written : ℕ)
  /-- what has not been synced may be lost, and every process is -/
  | powerLoss (rootKept : Bool) (entryKept : Bytes → Bool) (bytesKept : Bytes → ℕ)

/-- The task of a call of `reserve`. -/
def Request.task (sha512 : Sha512) (r : Request) : Task :=
  ⟨r.name sha512, r.ops, some r⟩

def step (sha512 : Sha512) (s : State) : Event → Except LedgerError State
  | .createRoot => do
    guard (s.root = none) .Io
    return { s with root := some false }
  | .syncRoot => do
    guard (s.root ≠ none) .Io
    return { s with root := some true }
  | .reserve slot r => do
    validateIdentifier r.keyId
    validateIdentifier r.executionId
    let name := r.name sha512
    guard (s.root ≠ none) .Io
    guard (s.files name = none) .Replay
    guard (s.tasks slot = none) .Io
    return { s with files := Function.update s.files name (some ⟨[], 0, false⟩) }.setTask slot
      (some (r.task sha512))
  | .markCompleted slot r => do
    let name := r.name sha512
    guard (r ∈ s.reserved) .Io
    guard (s.files name ≠ none) .Io
    guard (s.tasks slot = none) .Io
    return s.setTask slot (some ⟨name, completedOps, none⟩)
  | .run slot =>
    match s.tasks slot with
    | none      => .error .Io
    | some task =>
      match task.ops with
      | []        => .ok { s.setTask slot none with
          reserved := s.reserved ++ task.request.toList }
      | op :: ops => .ok ((s.perform task.name op).setTask slot (some { task with ops := ops }))
  | .fail slot written =>
    match s.tasks slot with
    | none      => .error .Io
    | some task =>
      match task.ops with
      | .writeAll bytes :: _ =>
        .ok ((s.perform task.name (.writeAll (bytes.take written))).setTask slot none)
      | _ => .ok (s.setTask slot none)
  | .powerLoss rootKept entryKept bytesKept =>
    if s.root = some true ∨ rootKept = true then
      .ok { s with
        root := s.root.map fun _ => true
        files name := ((s.files name).filter fun e => e.linked || entryKept name).map
          fun e => e.cut (bytesKept name)
        tasks _ := none }
    else .ok { s with root := none, files := fun _ => none, tasks := fun _ => none }

def machine (sha512 : Sha512) : Machine State Event LedgerError := ⟨step sha512⟩

/-- The power is lost only where the directory is on the disk, or is spared. -/
def KeepsRoot (s : State) : Event → Prop
  | .powerLoss rootKept _ _ => s.root = some true ∨ s.root = none ∨ rootKept = true
  | _                       => True

instance decidableKeepsRoot (s : State) : ∀ event, Decidable (KeepsRoot s event)
  | .powerLoss _ _ _ => inferInstanceAs (Decidable (_ ∨ _ ∨ _))
  | .createRoot | .syncRoot | .reserve _ _ | .markCompleted _ _ | .run _ | .fail _ _ =>
    .isTrue trivial

end Suwappu.MpcSigner.ExecutionLedger
