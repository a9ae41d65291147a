import CollectionTree.Main
import CollectionTree.Store.Pool
import CollectionTree.Workload.Bytewise
import CollectionTree.Proofs.Node.Conservation
import CollectionTree.Proofs.Network.Completion
import CollectionTree.Proofs.Simulation.Conservation
import CollectionTree.Proofs.Wire.Assembly
import CollectionTree.Proofs.Store.Transfer
import CollectionTree.Proofs.Node.Arrival
import CollectionTree.Proofs.Simulation.Sightings
import CollectionTree.Proofs.Store.OnePerKey
import CollectionTree.Proofs.Node.Depot
import CollectionTree.Proofs.Network.Descent
import CollectionTree.Proofs.Network.Rounds
import CollectionTree.Proofs.Network.ShortestPaths
import CollectionTree.Proofs.Node.Holding
import CollectionTree.Proofs.Radio.Traffic
import CollectionTree.Proofs.Node.Loading
import CollectionTree.Proofs.Store.Regrouping
import CollectionTree.Proofs.Simulation.Quieting
import CollectionTree.Proofs.Node.Hop
import CollectionTree.Proofs.Node.Draining
import CollectionTree.Proofs.Node.Closing
import CollectionTree.Proofs.Node.Moving
import CollectionTree.Proofs.Simulation.Counting
import CollectionTree.Proofs.Network.Locality
import CollectionTree.Proofs.Simulation.Alerts
import CollectionTree.Proofs.Simulation.Progress
import CollectionTree.Proofs.Store.Blocking
import CollectionTree.Proofs.Node.Retrying
import CollectionTree.Proofs.Node.Consuming
import CollectionTree.Proofs.Wire.Pulling
import CollectionTree.Proofs.Workload.Statistics
import CollectionTree.Proofs.Simulation.Rows
import CollectionTree.Proofs.Wire.InPlace
import CollectionTree.Proofs.Wire.Scanning
import CollectionTree.Proofs.Node.Jitter
import CollectionTree.Proofs.Node.Congestion
import CollectionTree.Proofs.Topology.Hearing
import CollectionTree.Proofs.Node.Routing
