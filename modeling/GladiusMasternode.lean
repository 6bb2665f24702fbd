import GladiusMasternode.Library.Run
import GladiusMasternode.Library.Unwinding
import GladiusMasternode.Library.WriteOnce
import GladiusMasternode.Library.Nearest
import GladiusMasternode.Library.RequestTarget
import GladiusMasternode.Library.Numbered
import GladiusMasternode.Library.Sphere
import GladiusMasternode.Library.Pieces
import GladiusMasternode.Library.Pattern
import GladiusMasternode.Model.System
import GladiusMasternode.Model.Router
import GladiusMasternode.Model.DirectHandler
import GladiusMasternode.Model.Interleaving
import GladiusMasternode.Model.DiskCache
import GladiusMasternode.Model.KdTree
import GladiusMasternode.Model.Server
import GladiusMasternode.Model.HttpClient
import GladiusMasternode.Proxy.Effects
import GladiusMasternode.Proxy.Invariant
import GladiusMasternode.Proxy.Lifetime
import GladiusMasternode.Proxy.Forwarding
import GladiusMasternode.Proxy.Response
import GladiusMasternode.Proxy.FlowControl
import GladiusMasternode.Cache.Inserts
import GladiusMasternode.Cache.Integrity
import GladiusMasternode.Cache.Agreement
import GladiusMasternode.Cache.Assets
import GladiusMasternode.Cache.Limit
import GladiusMasternode.Cache.Disk
import GladiusMasternode.Proxy.Transparency
import GladiusMasternode.Router.Redirect
import GladiusMasternode.Network.Nearest
import GladiusMasternode.Network.DirectSafety
import GladiusMasternode.Network.Snapshot
import GladiusMasternode.Network.Parsing
import GladiusMasternode.Network.Numbers
import GladiusMasternode.Network.LastPoll
import GladiusMasternode.Network.Coordinates
import GladiusMasternode.Network.Hostnames
import GladiusMasternode.Network.GreatCircle
import GladiusMasternode.KdTree.Split
import GladiusMasternode.KdTree.Build
import GladiusMasternode.KdTree.ResultSet
import GladiusMasternode.KdTree.Search
import GladiusMasternode.KdTree.Nodes
import GladiusMasternode.Httplib.Reading
import GladiusMasternode.Httplib.Chunked
import GladiusMasternode.Httplib.Head
import GladiusMasternode.Httplib.Gateway
import GladiusMasternode.Server.Step
import GladiusMasternode.Cache.Origins
import GladiusMasternode.Server.Provenance
import GladiusMasternode.Proxy.Escapes
import GladiusMasternode.Server.Crashes
import GladiusMasternode.Server.Advertised
import GladiusMasternode.Server.Answers
import GladiusMasternode.Server.Isolation
