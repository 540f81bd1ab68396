import VnfDockerNet.Lib.Struct
import VnfDockerNet.Lib.Python
import VnfDockerNet.Lib.Networkx
import VnfDockerNet.Lib.FnGraph
import VnfDockerNet.Lib.Runs
import VnfDockerNet.Lib.Forwarding
import VnfDockerNet.MsgProto
import VnfDockerNet.MsgHandler
import VnfDockerNet.MsgSound
import VnfDockerNet.RecvLoop
import VnfDockerNet.RecvSound
import VnfDockerNet.Central
import VnfDockerNet.CentralSpec
import VnfDockerNet.RoleSound
import VnfDockerNet.Registry
import VnfDockerNet.HostSound
import VnfDockerNet.OwnerSound
import VnfDockerNet.RoamSound
import VnfDockerNet.TopoSound
import VnfDockerNet.PathSound
import VnfDockerNet.MigrateSound
import VnfDockerNet.Layer2
import VnfDockerNet.Lib.Placement
import VnfDockerNet.Layer2Spec
import VnfDockerNet.LocalHostSound
import VnfDockerNet.ReplaySound
import VnfDockerNet.Agent
import VnfDockerNet.HelloSound
import VnfDockerNet.LoadSound
import VnfDockerNet.Network
import VnfDockerNet.XidSound
import VnfDockerNet.RuleSound
import VnfDockerNet.RyuNet
import VnfDockerNet.RyuNetSpec
import VnfDockerNet.MirrorSound
import VnfDockerNet.ChainSound
import VnfDockerNet.ChainFlowSound
import VnfDockerNet.PortSound
import VnfDockerNet.FailSound
import VnfDockerNet.FrameSound
import VnfDockerNet.LinkPortSound
import VnfDockerNet.OutlineSound
import VnfDockerNet.DeclaredSound
import VnfDockerNet.WinDpidSound
import VnfDockerNet.IdSound
import VnfDockerNet.CountSound
import VnfDockerNet.WindowRuleSound
import VnfDockerNet.PurgeSound
import VnfDockerNet.WindowLinkSound
import VnfDockerNet.PlaceSound
import VnfDockerNet.BranchSound
import VnfDockerNet.ReleaseSound
import VnfDockerNet.LinkSound
import VnfDockerNet.FlowStats
import VnfDockerNet.StatsSound
import VnfDockerNet.L2Topology
import VnfDockerNet.PresentSound
import VnfDockerNet.PendingSound
import VnfDockerNet.ReportSound
import VnfDockerNet.SweepSound
import VnfDockerNet.InstallSound
import VnfDockerNet.MatchSound
import VnfDockerNet.StraySound
import VnfDockerNet.GroupSound
import VnfDockerNet.AgainSound
import VnfDockerNet.ListenerSound
import VnfDockerNet.InterDomain
import VnfDockerNet.DockerTopo
import VnfDockerNet.InterDomainSound
import VnfDockerNet.AddressSound
import VnfDockerNet.Lib.Float64
import VnfDockerNet.HelperFunction
import VnfDockerNet.FeasibleSound
import VnfDockerNet.ServerSound
import VnfDockerNet.Lldp
import VnfDockerNet.LldpSound
import VnfDockerNet.InventorySound
import VnfDockerNet.ViewSound
import VnfDockerNet.Lib.Linked
import VnfDockerNet.Switches
import VnfDockerNet.SwitchesSpec
import VnfDockerNet.PortTableSound
import VnfDockerNet.DiscoverySound
import VnfDockerNet.LinkDiscoverySound
import VnfDockerNet.DeliverySound
import VnfDockerNet.StationSound
import VnfDockerNet.Lib.Flooding
import VnfDockerNet.Multipath
import VnfDockerNet.MultipathSound
import VnfDockerNet.MultipathRuleSound
