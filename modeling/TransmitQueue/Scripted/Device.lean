import TransmitQueue.Device
import TransmitQueue.Scripted.Packet
import TransmitQueue.Scripted.Table

/-!
# Scripted devices

A device whose answers are written down beforehand, packet number by packet number,
and which keeps a log of what it was given and asked. A packet without a script is
reported as sent.
-/

namespace TransmitQueue

/-- What a scripted device reports about a packet. -/
inductive StatusScript where
  /-- Pending until another script is entered. -/
  | hold
  /-- Pending a number of times, then sent. -/
  | holdFor (queries : Nat)
  | report (status : DeviceStatus)
  deriving DecidableEq

/-- The answer to a query, and the script for the queries after it. -/
def StatusScript.answer : StatusScript → DeviceStatus × StatusScript
  | hold => (.pending, hold)
  | holdFor 0 => (.success, holdFor 0)
  | holdFor (queries + 1) => (.pending, holdFor queries)
  | report status => (status, report status)

/-- A device that follows a script. -/
structure ScriptedDevice where
  scripts : ScriptTable StatusScript := []
  /-- The policy's answers; the first entry for a packet counts. -/
  overrides : List (Nat × BounceDecision) := []
  /-- Whether the device has a bounce policy at all. -/
  hasPolicy : Bool := true
  flushes : Nat := 0
  /-- Packets handed over, each with its list, newest first. -/
  programLog : List (Nat × List SgElement) := []
  /-- Packets whose status was asked, newest first. -/
  statusLog : List Nat := []
  /-- Packets about which the policy was asked, newest first. -/
  policyLog : List Nat := []

namespace ScriptedDevice

variable (device : ScriptedDevice)

/-- Packets handed over, each with its list, in order. -/
def programmed : List (Nat × List SgElement) := device.programLog.reverse

/-- Packets whose status was asked, in order. -/
def statusQueries : List Nat := device.statusLog.reverse

/-- Packets about which the policy was asked, in order. -/
def policyQueries : List Nat := device.policyLog.reverse

def enter (id : Nat) (script : StatusScript) : ScriptedDevice :=
  { device with scripts := device.scripts.insert id script }

def hold (id : Nat) : ScriptedDevice := device.enter id .hold

def holdFor (id queries : Nat) : ScriptedDevice := device.enter id (.holdFor queries)

def complete (id : Nat) : ScriptedDevice := device.enter id (.report .success)

def fail (id : Nat) : ScriptedDevice := device.enter id (.report .error)

/-- Adds an answer of the bounce policy behind those already there. -/
def addOverride (id : Nat) (decision : BounceDecision) : ScriptedDevice :=
  { device with overrides := device.overrides ++ [(id, decision)] }

/-- The reply to a status query, in the log and by the script. -/
def queryStatus (id : Nat) : DeviceStatus × ScriptedDevice :=
  let device := { device with statusLog := id :: device.statusLog }
  match device.scripts.get? id with
  | none => (.success, device)
  | some script => (script.answer.1, device.enter id script.answer.2)

/-- The reply of the bounce policy, in the log and by the list of overrides. A
device without a policy has no opinion and logs nothing. -/
def queryPolicy (id : Nat) : Option BounceDecision × ScriptedDevice :=
  if device.hasPolicy then
    (device.overrides.lookup id, { device with policyLog := id :: device.policyLog })
  else (none, device)

instance : Device ScriptedPacket ScriptedDevice where
  program device packet list :=
    { device with programLog := (packet.id, list.elements) :: device.programLog }
  status device packet := device.queryStatus packet.id
  flush device := { device with flushes := device.flushes + 1 }
  bouncePolicy device packet := device.queryPolicy packet.id

end ScriptedDevice

end TransmitQueue
