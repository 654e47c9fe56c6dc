import GraphScript.File.Graph
import GraphScript.File.Path
import GraphScript.File.Store
import GraphScript.Note
import GraphScript.Text.Quoted

/-!
# File.Load — loading graphs from files

- The extension of a file decides how its text is read.
- `LoadError` lists why loading fails, for graphs and for play configurations.
-/

namespace GraphScript

inductive LoadError where
  | unreadable (path : String) (cause : ReadError)
  | invalidJson (fault : Fault)
  | invalidRon (fault : Ron.PlacedFault)
  | unsupported (path : String)
  | unreadableConfig (path : String) (cause : ReadError)
  | invalidConfig (fault : Ron.PlacedFault)
  deriving DecidableEq

namespace LoadError

def faultMessage? : LoadError → Option String
  | invalidJson fault => Json.message? fault
  | invalidRon fault => Ron.message? fault.fault
  | invalidConfig fault => Ron.message? fault.fault
  | _ => none

/-- The error in words. `mark` writes the place of a fault, where it is known. -/
def describe (mark : TextPlace → String) (e : LoadError) : String :=
  let detail := e.faultMessage?.getD "malformed text"
  match e with
  | unreadable path cause =>
    "Failed to read " ++ Quoted.inspect path ++ ": " ++ cause.message
  | invalidJson _ => "Invalid JSON graph: " ++ detail
  | invalidRon fault => "Invalid RON graph: " ++ mark fault.place ++ detail
  | unsupported path => "Unsupported graph format: " ++ Quoted.inspect path
  | unreadableConfig path cause =>
    "Failed to read config " ++ Quoted.inspect path ++ ": " ++ cause.message
  | invalidConfig fault => "Invalid config: " ++ mark fault.place ++ detail

def message (e : LoadError) : String := e.describe fun _ => ""

def placedMessage (e : LoadError) : String := e.describe fun p => p.display ++ ": "

end LoadError

inductive Encoding where
  | json
  | ron
  deriving DecidableEq

/-- The encoding that the extension of a path announces, in any case. -/
def Encoding.ofPath? (path : String) : Option Encoding :=
  match (Path.extension? path).map String.toLower with
  | some "json" => some json
  | some "ron" => some ron
  | _ => none

def Encoding.readGraph (encoding : Encoding) (text : String) (supply : IdSupply) :
    Except LoadError (Graph × IdSupply) :=
  match encoding with
  | json => (Graph.ofJson text supply).mapError .invalidJson
  | ron => (Graph.ofRon text supply).mapError .invalidRon

/-- Load a graph. The encoding is checked before the file is looked for. -/
def Graph.load {m : Type → Type} [Monad m] (store : Store m) (supply : IdSupply) (path : String) :
    m (Except LoadError (Graph × IdSupply × List Note)) := do
  match Encoding.ofPath? path with
  | none => pure (.error (.unsupported path))
  | some encoding =>
    match ← store.readText path with
    | .error cause => pure (.error (.unreadable path cause))
    | .ok text =>
      pure do
        let (g, supply) ← encoding.readGraph text supply
        pure (g, supply, [.graphLoaded path g.nodes.length g.connections.length])

end GraphScript
