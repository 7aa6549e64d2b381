import Rsyslog.Common.ByteBuffer
import Rsyslog.Common.Wraparound
import Rsyslog.Common.CommitLog
import Rsyslog.Common.Tlv
import Rsyslog.Common.Calendar
import Rsyslog.Common.BinarySearch
import Rsyslog.Common.ExceptList
import Rsyslog.Common.DoublyLinked
import Rsyslog.Common.Block
import Rsyslog.Common.BitPrefix
import Rsyslog.Runtime.Basic
import Rsyslog.Runtime.Msg
import Rsyslog.Runtime.Datetime
import Rsyslog.Runtime.DatetimeFormat
import Rsyslog.Runtime.DatetimeCalendar
import Rsyslog.Runtime.Ratelimit
import Rsyslog.Runtime.RatelimitPerSource
import Rsyslog.Runtime.RatelimitLru
import Rsyslog.Script.Value
import Rsyslog.Script.Ipv4
import Rsyslog.Segdisk.Crc
import Rsyslog.Segdisk.StateCodec
import Rsyslog.Segdisk.StatePublish
import Rsyslog.Segdisk.Record
import Rsyslog.Segdisk.Store
import Rsyslog.Segdisk.Append
import Rsyslog.Segdisk.Commit
import Rsyslog.Segdisk.Dequeue
import Rsyslog.Segdisk.Frontier
import Rsyslog.Segdisk.Codec
import Rsyslog.Segdisk.CodecSafety
import Rsyslog.Segdisk.CodecRoundTrip
import Rsyslog.Runtime.Lookup
import Rsyslog.Runtime.LinkedList
import Rsyslog.Runtime.MsgReplace
import Rsyslog.Runtime.SyslogNames
import Rsyslog.Runtime.PriFilter
import Rsyslog.Script.Expr
import Rsyslog.Script.Optimize
import Rsyslog.Runtime.JsonEscape
import Rsyslog.Runtime.Sanitize
import Rsyslog.Runtime.PropExtract
import Rsyslog.Tools.Pmrfc5424
import Rsyslog.Plugins.MmanonIpv6
import Rsyslog.Plugins.MmanonIpv4
import Rsyslog.Runtime.NetAcl
import Rsyslog.Plugins.LjParser
import Rsyslog.Plugins.ImbeatsSession
