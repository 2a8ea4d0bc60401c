import NagiosPlugins.Libc.Bytes
import NagiosPlugins.Libc.Strtod
import NagiosPlugins.Common
import NagiosPlugins.Thresholds.Basic
import NagiosPlugins.Thresholds.RangeSyntax
import NagiosPlugins.Thresholds.Properties
import NagiosPlugins.Collection.Basic
import NagiosPlugins.Collection.Refinement
import NagiosPlugins.Container.Basic
import NagiosPlugins.Data.JsonText
import NagiosPlugins.Json.Documents
import NagiosPlugins.Container.Search
import NagiosPlugins.Container.Properties
import NagiosPlugins.Files.Basic
import NagiosPlugins.Files.Properties
import NagiosPlugins.Processes.Basic
import NagiosPlugins.Processes.Properties
import NagiosPlugins.Libc.Stdlib
import NagiosPlugins.Procparser
import NagiosPlugins.Vminfo.Basic
import NagiosPlugins.Vminfo.Properties
import NagiosPlugins.Cpu.Basic
import NagiosPlugins.Data.HighWater
import NagiosPlugins.Cpu.Conservation
import NagiosPlugins.Cpu.Percentages
import NagiosPlugins.Interrupts.Basic
import NagiosPlugins.Interrupts.Layout
import NagiosPlugins.Interrupts.Properties
import NagiosPlugins.Libc.Scanf
import NagiosPlugins.Libc.Truncate
import NagiosPlugins.Netinfo.Basic
import NagiosPlugins.Netinfo.Rates
import NagiosPlugins.Network.Basic
import NagiosPlugins.Network.Keys
import NagiosPlugins.Perfdata.Basic
import NagiosPlugins.Perfdata.Properties
import NagiosPlugins.Readonlyfs.Basic
import NagiosPlugins.Readonlyfs.Properties
import NagiosPlugins.Sysfs.Basic
import NagiosPlugins.Sysfs.Thermal
import NagiosPlugins.Tcpinfo.Basic
import NagiosPlugins.Tcpinfo.Properties
import NagiosPlugins.Vminfo.Scan
import NagiosPlugins.Data.LittleEndian
import NagiosPlugins.Data.Tlv
import NagiosPlugins.Libc.Bsearch
import NagiosPlugins.Meminfo.Available
import NagiosPlugins.Meminfo.Markers
import NagiosPlugins.Meminfo.Used
import NagiosPlugins.Netinfo.Dump
import NagiosPlugins.Netinfo.Wrap
import NagiosPlugins.Network.Metric
import NagiosPlugins.Network.Speed
import NagiosPlugins.Processes.Counts
import NagiosPlugins.Temperature.Basic
import NagiosPlugins.Temperature.Subzero
import NagiosPlugins.Container.Chunk
import NagiosPlugins.Container.Lookahead
import NagiosPlugins.Data.JsonMembers
import NagiosPlugins.Files.Complement
import NagiosPlugins.Files.Hidden
import NagiosPlugins.Json.Members
import NagiosPlugins.Libc.Stored
import NagiosPlugins.Readonlyfs.Scan
import NagiosPlugins.Strton.Basic
import NagiosPlugins.Strton.Lookahead
import NagiosPlugins.Strton.Scaling
import NagiosPlugins.Clock.Basic
import NagiosPlugins.Clock.Drift
import NagiosPlugins.Cpu.Headline
import NagiosPlugins.Cpu.OwnEntries
import NagiosPlugins.Cpufreq.Basic
import NagiosPlugins.Cpufreq.Rounding
import NagiosPlugins.Cputopology.Cpuset
import NagiosPlugins.Cputopology.Decode
import NagiosPlugins.Cputopology.Read
import NagiosPlugins.Data.Transfer
import NagiosPlugins.Data.TwoSlots
import NagiosPlugins.Fc.Basic
import NagiosPlugins.Fc.Totals
import NagiosPlugins.Libc.Snprintf
import NagiosPlugins.Multipath.Basic
import NagiosPlugins.Multipath.Lossless
import NagiosPlugins.Sampling.Basic
import NagiosPlugins.Sampling.LastInterval
import NagiosPlugins.Uptime.Basic
import NagiosPlugins.Uptime.Denotes
import NagiosPlugins.Cpudesc.Basic
import NagiosPlugins.Cputopology.KernelMax
import NagiosPlugins.Data.RegexSearch
import NagiosPlugins.Interrupts.Walk
import NagiosPlugins.Libc.Binary64
import NagiosPlugins.Libc.Tokens
import NagiosPlugins.Meminfo.Indeterminate
import NagiosPlugins.Multipath.Faulty
import NagiosPlugins.Multipath.Rows
import NagiosPlugins.Multipath.Query
import NagiosPlugins.Perfdata.Representable
import NagiosPlugins.Data.Forest
import NagiosPlugins.Json.Dump
import NagiosPlugins.Json.Superiors
import NagiosPlugins.Messages
import NagiosPlugins.Multipath.Check
import NagiosPlugins.Container.Memory
import NagiosPlugins.Cpu.Plugin
import NagiosPlugins.Cpudesc.Read
import NagiosPlugins.Pressure.Basic
import NagiosPlugins.Pressure.Starvation
import NagiosPlugins.Tcpinfo.Sockets
import NagiosPlugins.Vminfo.Paging
import NagiosPlugins.Cpufreq.Plugin
import NagiosPlugins.Network.Plugin
import NagiosPlugins.Strton.Range
