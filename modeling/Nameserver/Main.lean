import Nameserver.CommandLine

/-!
# The program

Reads the configuration that is named on the command line and says whether a service can be started
from it.
-/

/-- The octets of a file, if it can be read. -/
def Nameserver.readFile? (path : String) : IO (Option Nameserver.Bytes) := do
  try
    let contents ← IO.FS.readBinFile path
    return some contents.toList
  catch _ => return none

/-- Complains on standard error and ends with one if the service cannot be started. -/
def main (arguments : List String) : IO UInt32 := do
  let contents? ← match arguments with
    | [] => pure none
    | path :: _ => Nameserver.readFile? path
  let started := Nameserver.CommandLine.start (fun _ => contents?) "nameserver".toList
    (arguments.map String.toList)
  match started with
  | .error line =>
    IO.eprintln (String.ofList line)
    return 1
  | .ok service =>
    let zones := service.zones.size
    IO.println s!"loaded {zones} zone(s)"
    return 0
