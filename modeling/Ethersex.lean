import Ethersex.EcmdTcpStream
import Ethersex.EepromNameSpace
import Ethersex.MqttPublishBounds
import Ethersex.MqttRoundTrip
import Ethersex.PamLdapAttribution
import Ethersex.PamLdapCache
import Ethersex.DataflashReading
import Ethersex.DataflashTruncation
import Ethersex.DataflashAllocationRuns
import Ethersex.ClockDiscipline
import Ethersex.SchedulerPeriod
import Ethersex.SchedulerOneshot
import Ethersex.RouterForwarding
import Ethersex.WatchasyncCounters
import Ethersex.YportStreams
import Ethersex.HttpdFileDelivery
import Ethersex.TftpUpload
import Ethersex.TftpDownload
import Ethersex.ModbusRouting
import Ethersex.ZbusReception
import Ethersex.SnmpNextConfig
import Ethersex.OpenvpnSecurity
import Ethersex.Base64Bounds
import Ethersex.HttpdSegments
import Ethersex.DataflashNames
import Ethersex.ClockWeeks
import Ethersex.CronTicks
import Ethersex.CronFailedSave
import Ethersex.ModbusBroadcast
import Ethersex.TftpBootloader
import Ethersex.HttpdEcmdDecoding
import Ethersex.SnmpCommunity
import Ethersex.SnmpBounds
import Ethersex.OnewireSearch
import Ethersex.StellaPwm
import Ethersex.DmxStorage
import Ethersex.BsbStore
import Ethersex.MqttLengthCodec
import Ethersex.CoreQueue
import Ethersex.I2cEeprom
import Ethersex.FixedPointText
import Ethersex.EmsInputBuffer
import Ethersex.TtyRuns
import Ethersex.SoapArguments
import Ethersex.Cast5
import Ethersex.Md5
import Ethersex.UipArpNetwork
