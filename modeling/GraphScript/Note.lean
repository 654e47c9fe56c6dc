import GraphScript.Issue
import GraphScript.Scene
import GraphScript.Text.Quoted

/-!
# Note — what the machinery reports while it works

- A `Note` is something that happened and may be of interest; it never changes the outcome.
- `level` says how important it is, `message` puts it into words.
-/

namespace GraphScript

inductive Level where
  | trace
  | debug
  | info
  | warn
  | error
  deriving DecidableEq, Repr

namespace Level

def name : Level → String
  | trace => "TRACE"
  | debug => "DEBUG"
  | info => "INFO"
  | warn => "WARN"
  | error => "ERROR"

def rank : Level → Nat
  | trace => 0
  | debug => 1
  | info => 2
  | warn => 3
  | error => 4

end Level

/-- Something that happened. -/
inductive Note where
  -- loading and set-up
  | graphLoaded (path : String) (nodes connections : Nat)
  | kindReplaced (kind : KindName)
  | issueFound (issue : Issue)
  | graphCompiled (nodes startNodes : Nat)
  -- passes
  | kindMissing (kind : KindName) (node : NodeId)
  | produced (node : NodeId) (kind : KindName) (count : Nat)
  | nothingToPush (node : NodeId) (port : PortId) (connection : ConnectionId)
  | targetMissing (connection : ConnectionId) (node : NodeId)
  | depthLimit (limit : Nat) (node target : NodeId)
  | nothingToPull (node : NodeId) (port : PortId)
  | memoryReplaced (typeName : String)
  | executorReset
  -- nodes
  | startFired (node : NodeId)
  | keyUnknown (node : NodeId) (key : String)
  | timerFired (node : NodeId) (interval time : Float)
  | operatorUnknown (node : NodeId) (operator : String)
  | spawned (node : NodeId) (request : SpawnRequest)
  | destroyed (node : NodeId) (entity : EntityId)
  | worldCleared (node : NodeId) (entities : Nat)
  -- sessions
  | entered (startNodes : Nat)
  | resumed
  | paused
  | stopped
  | restarting (frame : Nat)

namespace Note

def level : Note → Level
  | produced .. => .trace
  | graphLoaded .. | worldCleared .. => .info
  | entered .. | resumed | paused | stopped | restarting .. => .info
  | kindReplaced .. | issueFound .. | depthLimit .. => .warn
  | _ => .debug

def message : Note → String
  | graphLoaded path nodes connections =>
    "Loaded graph " ++ Quoted.inspect path ++ ": " ++ toString nodes ++ " nodes, "
      ++ toString connections ++ " connections"
  | kindReplaced kind => "Node kind " ++ kind ++ " registered twice; replacing"
  | issueFound issue => "Graph issue: " ++ issue.message
  | graphCompiled nodes startNodes =>
    "Compiled graph: " ++ toString nodes ++ " nodes, " ++ toString startNodes ++ " start nodes"
  | kindMissing kind node => "Node kind " ++ kind ++ " not found in registry; skipping " ++ node
  | produced node kind count =>
    node ++ " (" ++ kind ++ ") produced " ++ toString count ++ " outputs"
  | nothingToPush node port connection =>
    node ++ " produced no value for port " ++ port ++ "; skipping connection " ++ connection
  | targetMissing connection node =>
    "Connection " ++ connection ++ " targets missing node " ++ node
  | depthLimit limit node target =>
    "Push depth limit " ++ toString limit ++ " reached at " ++ node ++ "; not entering " ++ target
  | nothingToPull node port => node ++ " produced no value for port " ++ port
  | memoryReplaced typeName => "Node state replaced with " ++ typeName
  | executorReset => "Executor reset"
  | startFired node => "OnStart " ++ node ++ " fired"
  | keyUnknown node key => "OnKey " ++ node ++ ": " ++ Key.unknownMessage key
  | timerFired node interval time =>
    "Every " ++ node ++ " fired: interval=" ++ Layout.plain.floatText interval ++ "ms, time="
      ++ Layout.plain.floatText time
  | operatorUnknown node operator => "Compare " ++ node ++ ": unknown operator " ++ operator
  | spawned node request =>
    "Spawn " ++ node ++ ": entity=" ++ request.id ++ ", sprite=" ++ request.sprite ++ ", x="
      ++ Layout.plain.floatText request.x ++ ", y=" ++ Layout.plain.floatText request.y
  | destroyed node entity => "Destroy " ++ node ++ ": removed " ++ entity
  | worldCleared node entities =>
    "ResetGame " ++ node ++ " clearing " ++ toString entities ++ " entities"
  | entered startNodes => "Entered play mode: " ++ toString startNodes ++ " start nodes"
  | resumed => "Resumed play mode"
  | paused => "Paused play mode"
  | stopped => "Stopped play mode"
  | restarting frame => "Restarting scene at frame " ++ toString frame

end Note

end GraphScript
