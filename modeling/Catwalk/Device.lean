import Catwalk.DirScan
import Catwalk.Host.Query
import Catwalk.Reader

/-!
# Devices

A device answers reads from one of four sources: the host, fixed listings, foreign directories, or a
script of answers that pays no heed to the calls. It notes every call, and can be set to fail one.
-/

namespace Catwalk

/-- How an answer from a script ends. -/
inductive ScriptedEnd where
  | batch (batch : Batch)
  | failure (number : Int)
  | overflow (needed available : Int)
deriving DecidableEq, Repr

/-- An answer from a script. -/
structure ScriptedAnswer where
  data : Bytes
  ending : ScriptedEnd
deriving DecidableEq, Repr

/-- Where a device takes its catalogues from. -/
inductive Source where
  | host
  | listings (listings : List (Text × List Entry))
  | script (answers : List ScriptedAnswer)
  | directories (directories : List (Text × List Item))
deriving DecidableEq, Repr

/-- A source of catalogues and a host beside it. -/
structure Device where
  host : Host
  source : Source
  /-- The number of reads before one that fails. -/
  countdown : Option Nat
  /-- The calls so far, the latest first. -/
  calls : List ReadCall
deriving DecidableEq, Repr

namespace Device

/-- Answers a call from a listing, unless getting hold of that has failed. -/
def answerFrom (call : ReadCall) : Except Fault (List Entry) → Deposit Batch
  | .ok listing => call.fill listing
  | .error fault => .refuse fault

/-- What a list of directories holds under a path, by its first entry for it. -/
def directory (directories : List (Text × α)) (path : Text) : Except Fault α :=
  match directories.lookup path with
  | some found => .ok found
  | none => .error (.noListing path)

/-- The next answer from a script, and what is left of it. An answer that does not fit stays. -/
def answerFromScript (call : ReadCall) :
    List ScriptedAnswer → Deposit Batch × List ScriptedAnswer
  | [] => (.refuse .scriptExhausted, [])
  | answer :: answers =>
    if call.room < answer.data.length then
      (.refuse (.overflow answer.data.length call.room), answer :: answers)
    else
      match answer.ending with
      | .failure number => (.refuse (.scriptedFailure number), answers)
      | .overflow needed available => (.refuse (.overflow needed available), answers)
      | .batch batch => (⟨answer.data, .ok batch⟩, answers)

/-- The catalogue of a foreign directory. -/
def scan (directories : List (Text × List Item)) (path : Text) : Except Fault (List Entry) := do
  Item.catalogue (← directory directories path)

/-- The answer of the device's source. -/
def answer (call : ReadCall) (device : Device) : Deposit Batch × Device :=
  match device.source with
  | .host => (answerFrom call (device.host.catalogue call.path), device)
  | .listings listings => (answerFrom call (directory listings call.path), device)
  | .directories directories => (answerFrom call (scan directories call.path), device)
  | .script answers =>
    let (deposit, answers) := answerFromScript call answers
    (deposit, { device with source := .script answers })

/-- Notes a call and answers it, or fails if the countdown has run out. -/
def read (call : ReadCall) (device : Device) : Deposit Batch × Device :=
  let device := { device with calls := call :: device.calls }
  match device.countdown with
  | some 0 => (.refuse .discError, { device with countdown := none })
  | some (n + 1) => answer call { device with countdown := some n }
  | none => answer call device

/-- The reader of a device whose paths have a separator. -/
def reader (separator : Text) : Reader Device := ⟨separator, read⟩

end Device

end Catwalk
