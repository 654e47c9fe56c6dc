import GraphScript.Graph

/-!
# Issue — what is wrong with a graph
-/

namespace GraphScript

/-- A defect of an authored graph. -/
inductive Issue where
  | unknownKind (node : NodeId) (kind : KindName)
  | duplicateNode (node : NodeId)
  | dangling (connection : ConnectionId) (node : NodeId)
  | unknownPort (connection : ConnectionId) (node : NodeId) (port : PortId)
  | incompatiblePorts (connection : ConnectionId) (source target : PortType)
  deriving DecidableEq

def Issue.message : Issue → String
  | unknownKind node kind => "Node " ++ node ++ " has unknown kind " ++ kind
  | duplicateNode node => "Duplicate node ID: " ++ node
  | dangling connection node =>
    "Connection " ++ connection ++ " references missing node " ++ node
  | unknownPort connection node port =>
    "Connection " ++ connection ++ " uses undeclared port " ++ node ++ "." ++ port
  | incompatiblePorts connection source target =>
    "Connection " ++ connection ++ " links incompatible ports (" ++ source.name ++ " -> "
      ++ target.name ++ ")"

end GraphScript
