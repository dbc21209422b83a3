import Bpfilter.Ebpf.Insn
import Bpfilter.Ebpf.Memory
import Bpfilter.Ebpf.Machine
import Bpfilter.Ebpf.Fragment
import Bpfilter.Lib.Matcher
import Bpfilter.Lib.Chain
import Bpfilter.Cgen.Program
import Bpfilter.Cgen.Runtime
import Bpfilter.Cgen.Stub
import Bpfilter.Cgen.Flavor
import Bpfilter.Cgen.Matcher
import Bpfilter.Cgen.Generate
import Bpfilter.Cgen.Slots
import Bpfilter.Cgen.Head
import Bpfilter.Cgen.Rules
import Bpfilter.Cgen.Linking
import Bpfilter.Cgen.Assembly
import Bpfilter.Cgen.Sequencing
import Bpfilter.Cgen.MatcherSlots
import Bpfilter.Cgen.MatcherSizes
import Bpfilter.Cgen.JumpOffsets
import Bpfilter.Bpf.ParseIpv6
import Bpfilter.Cgen.Ipv6Walk
import Bpfilter.Cgen.StubAgreement
import Bpfilter.Cgen.Ip4Match
import Bpfilter.Xlate.Ipt
import Bpfilter.Xlate.IptMatch
import Bpfilter.Xlate.IptRoundTrip
import Bpfilter.Lib.Set
import Bpfilter.Cgen.SetMatcher
import Bpfilter.Lib.Pack
import Bpfilter.Lib.ChainPack
import Bpfilter.Lib.Hook
import Bpfilter.Proc.Hoare
import Bpfilter.Daemon.Sys
import Bpfilter.Daemon.Cgen
import Bpfilter.Daemon.Front
import Bpfilter.Daemon.Steps
import Bpfilter.Daemon.Namespaces
import Bpfilter.Daemon.Requests
import Bpfilter.Daemon.IptFrame
import Bpfilter.Daemon.Attachment
import Bpfilter.Daemon.Validation
import Bpfilter.Daemon.Update
import Bpfilter.Daemon.Priorities
import Bpfilter.Cgen.Slices
import Bpfilter.Cgen.Prologue
import Bpfilter.Lib.Stream
import Bpfilter.Daemon.Context
import Bpfilter.Daemon.IptStatus
import Bpfilter.Daemon.Pins
import Bpfilter.Daemon.PinOwners
import Bpfilter.Xlate.IptBlob
import Bpfilter.Xlate.IptDump
import Bpfilter.Xlate.IptGenerate
import Bpfilter.Daemon.Save
import Bpfilter.Daemon.Restart
import Bpfilter.Cgen.Headers
import Bpfilter.Cgen.MatcherRuns
import Bpfilter.Cgen.Observed
import Bpfilter.Cgen.MetaMatch
import Bpfilter.Cgen.PortMatch
import Bpfilter.Cgen.AddrMatch
import Bpfilter.Cgen.Marks
import Bpfilter.Daemon.LinkOptions
import Bpfilter.Daemon.RulesetGet
import Bpfilter.Bpf.HeaderChain
import Bpfilter.Cgen.Protocols
import Bpfilter.Cgen.ProtoMatch
import Bpfilter.Cgen.NexthdrMatch
import Bpfilter.Cstr.Token
import Bpfilter.Lib.PayloadText
import Bpfilter.Lib.TextExact
import Bpfilter.Lib.InetText
import Bpfilter.Cgen.FlagMatch
import Bpfilter.Lib.SetParse
import Bpfilter.Lib.SetText
import Bpfilter.Lib.PayloadPrint
import Bpfilter.Lib.SetPrint
import Bpfilter.Lib.HookText
import Bpfilter.Bfcli.Parser
import Bpfilter.Bfcli.SetRefs
import Bpfilter.Bfcli.LogMask
import Bpfilter.Daemon.SetNames
import Bpfilter.Lib.ChainBuild
import Bpfilter.Daemon.Rejection
import Bpfilter.Cgen.Load
import Bpfilter.Daemon.Printer
import Bpfilter.Lib.Dynbuf
import Bpfilter.Lib.List
import Bpfilter.Cgen.Swich
import Bpfilter.Cgen.Lifecycle
import Bpfilter.Cgen.Fixups
import Bpfilter.Filter.FirstMatch
import Bpfilter.Cgen.PacketView
import Bpfilter.Cgen.ViewMatch
import Bpfilter.Cgen.Verdict
import Bpfilter.Cgen.Arrival
import Bpfilter.Cgen.Granted
import Bpfilter.Bpf.RuleStubs
import Bpfilter.Cgen.Logging
import Bpfilter.Cgen.Filtering
import Bpfilter.Cgen.Publishing
import Bpfilter.Cgen.RuleTexts
import Bpfilter.Cgen.Acceptance
import Bpfilter.Daemon.Counting
import Bpfilter.Bfcli.Meaning
import Bpfilter.Cgen.StubVerdicts
import Bpfilter.Bfcli.Enforced
