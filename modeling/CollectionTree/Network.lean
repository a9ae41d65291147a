import CollectionTree.Node.Basic
import CollectionTree.Radio.Medium

/-!
# Networks

A network is a set of nodes on one radio medium and one discovery board. What the nodes want done is
carried out on the medium and the board at once; what the medium and the board have to tell is
handed to the nodes in the order in which it was told. What reached a sink is reported with the
sink's address.
-/

namespace CollectionTree

/-- Nodes on one medium and one board. -/
structure Network where
  medium : Medium
  board : Board := {}
  nodes : Table Address Node := .empty

namespace Network

/-- Carry out what a node wants done. -/
def perform (net : Network) (address : Address) : Output → Network
  | .start hop => { net with board := net.board.start address hop }
  | .announce hop => { net with board := net.board.announce address hop }
  | .stop => { net with board := net.board.stop address, medium := net.medium.detach address }
  | .offer frame _ =>
    match net.medium.submit address frame with
    | .ok medium => { net with medium }
    | .error _ => net
  | .consume _ _ _ => net

/-- Put a node's new state into its place and carry out what it wants done. -/
def settleReaction {α : Type} (net : Network) (address : Address) (r : Reaction α Node Output) :
    Reaction α Network (Address × Output) where
  answer := r.answer
  state := r.outputs.foldl (·.perform address)
    { net with nodes := net.nodes.insert address r.state }
  outputs := r.outputs.map (address, ·)

/-- Let a node take a step, if there is one at this address. -/
def act? {α : Type} (net : Network) (address : Address)
    (step : Radio → Node → Reaction α Node Output) :
    Option (Reaction α Network (Address × Output)) :=
  (net.nodes.get? address).map fun n ↦
    net.settleReaction address (step (net.medium.radio address) n)

/-- Open a node: its radio, its place on the board, and the node itself. -/
def openNode (net : Network) (address : Address) (isSink : Bool) (config : NodeConfig)
    (source : Source) : Network :=
  ({ net with
      medium := net.medium.attach address
      board := net.board.register address }.settleReaction address
    (Node.opened address isSink config source)).state

/-- Change a node, if there is one at this address, without anything being done. -/
def modifyNode (net : Network) (address : Address) (change : Node → Node) : Network :=
  { net with nodes := net.nodes.modify address change }

/-- Hand events to the nodes that they are for, in order; events for others are lost. -/
def deliver {ε : Type} (react : Node → Radio → ε → Reaction Unit Node Output) (net : Network) :
    List (Address × ε) → Reaction Unit Network (Address × Output)
  | [] => ⟨(), net, []⟩
  | (address, event) :: rest =>
    match net.act? address fun radio n ↦ react n radio event with
    | none => deliver react net rest
    | some first =>
      let last := deliver react first.state rest
      ⟨(), last.state, first.outputs ++ last.outputs⟩

/-- One round of discovery, of which the nodes are told at once. -/
def discover (net : Network) : Reaction (List (Address × Beacon)) Network (Address × Output) :=
  let events := net.board.round
  let told := net.deliver (fun n _ beacon ↦ n.onBeacon beacon) events
  ⟨events, told.state, told.outputs⟩

/-- Settle every frame under way, of which the nodes are told at once. -/
def pump (net : Network) : Reaction (List (Address × Signal)) Network (Address × Output) :=
  let (events, medium) := net.medium.pump
  let told := { net with medium }.deliver Node.onSignal events
  ⟨events, told.state, told.outputs⟩

/-- Pump until nothing is under way, but at most so often; the answer has the events of each time
that there were any. -/
def settle (net : Network) :
    (rounds : Nat) → Reaction (List (List (Address × Signal))) Network (Address × Output)
  | 0 => ⟨[], net, []⟩
  | rounds + 1 =>
    let first := net.pump
    if first.answer.isEmpty then ⟨[], first.state, first.outputs⟩
    else
      let last := first.state.settle rounds
      ⟨first.answer :: last.answer, last.state, first.outputs ++ last.outputs⟩

/-- Flush some nodes in order; the answers are whether each had a frame taken. -/
def flushEach (net : Network) (urgent : Bool) :
    List Address → Reaction (List Bool) Network (Address × Output)
  | [] => ⟨[], net, []⟩
  | address :: rest =>
    match net.act? address fun radio n ↦ n.flush radio urgent with
    | none => net.flushEach urgent rest
    | some first =>
      let last := first.state.flushEach urgent rest
      ⟨first.answer :: last.answer, last.state, first.outputs ++ last.outputs⟩

/-- Flush every node in ascending order of addresses. -/
def flushAll (net : Network) (urgent : Bool) : Reaction (List Bool) Network (Address × Output) :=
  net.flushEach urgent net.nodes.keys

/-- One round of discovery, a flush by the clock of every node, and pumping until nothing is under
way but at most `pumps` times. The answer is how many nodes heard something how often, who had a
frame taken, and the radio's events. -/
def round (net : Network) (pumps : Nat) :
    Reaction (Nat × List Bool × List (List (Address × Signal))) Network (Address × Output) :=
  let found := net.discover
  let flushed := found.state.flushAll false
  let settled := flushed.state.settle pumps
  ⟨(found.answer.length, flushed.answer, settled.answer), settled.state,
    found.outputs ++ flushed.outputs ++ settled.outputs⟩

/-- Let two nodes hear each other, unless they are one. -/
def connect (net : Network) (a b : Address) : Except TopologyError Network :=
  (net.board.connect a b).map fun board ↦ { net with board }

end Network

end CollectionTree
