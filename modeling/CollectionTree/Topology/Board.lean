import CollectionTree.Topology.Address

/-!
# Discovery board

The board stands in for a radio neighbourhood: it knows who hears whom, and which hop count every
started node announces. A round of discovery lets every started node hear the announcement of each
started neighbour and then ticks every started node once, all in ascending order of addresses.
-/

namespace CollectionTree

/-- What discovery tells a node. -/
inductive Beacon where
  /-- A neighbour announced its hop count. -/
  | heard (neighbor : Address) (hop : UInt8)
  /-- A round of discovery is over. -/
  | tick
  deriving DecidableEq, Repr

/-- Why the board refuses a question or a link. -/
inductive TopologyError where
  | unknownNode (node : Address)
  | selfLink (node : Address)
  deriving DecidableEq, Repr

/-- The wording of an error. -/
def TopologyError.message : TopologyError → String
  | unknownNode node => "unknown node " ++ node.text
  | selfLink node => "self link on node " ++ node.text

/-- Who hears whom, for every known node, and the hop count that every started node announces. -/
structure Board where
  announced : Table Address UInt8 := .empty
  links : Table Address (OrderedSet Address) := .empty
  deriving DecidableEq

namespace Board

/-- A board that knows no node. -/
def empty : Board := {}

/-- The neighbours of a node in the middle or at an end of a line of `n` nodes. -/
def lineNeighbors (n i : Nat) : OrderedSet Address :=
  let before : OrderedSet Address :=
    if 0 < i then Table.empty.insert (.ofNat (i - 1)) () else .empty
  if i + 1 < n then before.add (.ofNat (i + 1)) else before

/-- A board with the nodes `0` to `n - 1` in a line, where each hears the one before and the one
after it. -/
def line (n : Nat) : Board where
  links := (List.range n).foldr (fun i links ↦ links.insert (.ofNat i) (lineNeighbors n i)) .empty

/-- Let the first node hear the second. -/
def addLink (links : Table Address (OrderedSet Address)) (a b : Address) :
    Table Address (OrderedSet Address) :=
  links.alter a .empty (·.add b)

/-- Let two nodes hear each other, unless they are one. -/
def connect (board : Board) (a b : Address) : Except TopologyError Board :=
  if a = b then .error (.selfLink a)
  else .ok { board with links := addLink (addLink board.links a b) b a }

/-- The neighbours of a node in ascending order, if the board knows the node. -/
def neighbors (board : Board) (node : Address) : Except TopologyError (List Address) :=
  match board.links.get? node with
  | some set => .ok set.keys
  | none => .error (.unknownNode node)

/-- Make sure that the board knows a node. -/
def register (board : Board) (node : Address) : Board :=
  { board with links := board.links.alter node .empty id }

/-- The hop count that a node announces, if it was started. -/
def announcedBy (board : Board) (node : Address) : Option UInt8 := board.announced.get? node

/-- Let a node announce a hop count from now on. -/
def start (board : Board) (node : Address) (hop : UInt8) : Board :=
  { board with announced := board.announced.insert node hop }

/-- Change the hop count that a node announces, if it was started. -/
def announce (board : Board) (node : Address) (hop : UInt8) : Board :=
  { board with announced := board.announced.modify node fun _ ↦ hop }

/-- Let a node announce nothing from now on. -/
def stop (board : Board) (node : Address) : Board :=
  { board with announced := board.announced.erase node }

/-- What a node hears in a round: every started neighbour, if it is started itself. -/
def heardBy (board : Board) (node : Address) (neighbors : OrderedSet Address) :
    List (Address × Beacon) :=
  if board.announced.contains node then
    neighbors.keys.filterMap fun neighbor ↦
      (board.announcedBy neighbor).map fun hop ↦ (node, .heard neighbor hop)
  else []

/-- The events of one round: what every node hears, and then a tick for every started node. -/
def round (board : Board) : List (Address × Beacon) :=
  board.links.entries.flatMap (fun e ↦ board.heardBy e.1 e.2) ++
    board.announced.keys.map fun node ↦ (node, .tick)

end Board

end CollectionTree
