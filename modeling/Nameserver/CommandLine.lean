import Nameserver.Service

/-!
# Command line

The program takes one argument, the path of its configuration.  `CommandLine.start` does everything
that can fail before the first listener is bound: it reads the configuration, checks it and makes
the zones.  What goes wrong is told in one sentence.
-/

namespace Nameserver.CommandLine

/-- Reads the configuration from the contents of a file, if there is such a file. -/
def load (contents? : Option Bytes) : Except Failure Configuration :=
  match contents? with
  | none => .error .io
  | some contents => Configuration.ofDocument contents

/-- The sentence for a start that went wrong. -/
def complaint (reason : Text) : Text := "Error: ".toList ++ reason

/-- How the program is called. -/
def usage (program : Text) : Text := "usage: ".toList ++ program ++ " /path/to/config.json".toList

/-- The service that the arguments ask for, or the sentence that says why there is none.  Arguments
after the first are not looked at. -/
def start (file : Text → Option Bytes) (program : Text) (arguments : List Text) :
    Except Text Service :=
  match arguments with
  | [] => .error (complaint (usage program))
  | path :: _ =>
    match load (file path) >>= Service.start with
    | .ok service => .ok service
    | .error failure => .error (complaint failure.message)

end Nameserver.CommandLine
